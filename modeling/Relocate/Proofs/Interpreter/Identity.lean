import Relocate.Proofs.Interpreter.Trace
import Relocate.Proofs.Worker.Start

namespace Relocate

namespace Path

theorem joinText_slash {base : String} (hb : base ≠ "") (path : String) :
    '/' ∈ (joinText base path).toList := by
  rw [joinText, String.toList_ofList]
  unfold joinAt
  split
  · rename_i h
    exact List.mem_of_mem_head? (h.resolve_right fun hn => hb (String.toList_eq_nil_iff.mp hn))
  · split
    · rename_i h
      exact List.mem_append_left _ (List.mem_of_mem_getLast? h)
    · exact List.mem_append_right _ List.mem_cons_self

theorem joinText_ne_empty {base : String} (hb : base ≠ "") (path : String) :
    joinText base path ≠ "" := by
  intro h
  have hs := joinText_slash hb path
  rw [h] at hs
  cases hs

end Path

namespace Host

def inFolder (folder name : String) : String := if folder = "" then name else folder ++ "/" ++ name

/-- The file that a program is started from, and what runs then. A path with a slash is that of the
file. Any other name is looked for in the folders of the search path, and the first in which it can
be started has it. -/
inductive StartsFrom (h : Host) (program : String) (file : Location) (running : Running) : Prop
  | path (hs : '/' ∈ program.toList) (hf : h.files.locate h.folder program = .ok file)
    (hr : h.startAt program = .ok running) : StartsFrom h program file running
  | search {front back : List String} {folder : String} (hs : '/' ∉ program.toList)
    (hc : h.searchFolders = front ++ folder :: back)
    (hn : ∀ other ∈ front, ∃ e, h.startAt (inFolder other program) = .error e)
    (hf : h.files.locate h.folder (inFolder folder program) = .ok file)
    (hr : h.startAt (inFolder folder program) = .ok running) : StartsFrom h program file running

variable {h : Host} {running : Running}

theorem located_of_startAt {path : String} (hp : path ≠ "") (hr : h.startAt path = .ok running) :
    ∃ file, h.files.locate h.folder path = .ok file := by
  obtain ⟨found, hx, -⟩ := Action.ok_of_bind hr
  rw [executable, if_neg hp] at hx
  obtain ⟨file, hl, -⟩ := Action.ok_of_bind hx
  exact ⟨file, hl⟩

theorem startIn_ok {name : String} {denied : Bool} {last : SystemError} {folders : List String}
    (hr : h.startIn name denied last folders = .ok running) :
    ∃ front folder back, folders = front ++ folder :: back ∧
      (∀ other ∈ front, ∃ e, h.startAt (inFolder other name) = .error e) ∧
      h.startAt (inFolder folder name) = .ok running := by
  induction folders generalizing denied last with
  | nil => cases hr
  | cons folder rest ih =>
    have hfolder : h.startAt (if folder = "" then name else folder ++ "/" ++ name) =
        h.startAt (inFolder folder name) := rfl
    rw [startIn, hfolder] at hr
    cases hs : h.startAt (inFolder folder name) with
    | ok found =>
      rw [hs] at hr
      exact ⟨[], folder, rest, rfl, List.forall_mem_nil _, hs.trans hr⟩
    | error e =>
      rw [hs] at hr
      -- Three errors let the search go on, any other ends it.
      have hrest : ∃ denied last, h.startIn name denied last rest = .ok running := by
        cases e <;> first | exact ⟨_, _, hr⟩ | cases hr
      obtain ⟨denied, last, hr⟩ := hrest
      obtain ⟨front, found, back, hc, hn, hr⟩ := ih hr
      exact ⟨folder :: front, found, back, by rw [hc, List.cons_append],
        List.forall_mem_cons.mpr ⟨⟨e, hs⟩, hn⟩, hr⟩

theorem exists_startsFrom {program : String} (hr : h.start program = .ok running) :
    ∃ file, h.StartsFrom program file running := by
  unfold start at hr
  split at hr
  · cases hr
  · split at hr
    · cases hr
    · rename_i hne
      split at hr
      · rename_i hs
        obtain ⟨file, hf⟩ := located_of_startAt hne hr
        exact ⟨file, .path (List.contains_iff_mem.mp hs) hf hr⟩
      · rename_i hs
        obtain ⟨front, folder, back, hc, hn, hr⟩ := startIn_ok hr
        have hin : inFolder folder program ≠ "" := by
          unfold inFolder
          split
          · exact hne
          · simp
        obtain ⟨file, hf⟩ := located_of_startAt hin hr
        exact ⟨file, .search (fun hm => hs (List.contains_iff_mem.mpr hm)) hc hn hf hr⟩

theorem StartsFrom.eq_located {program : String} {file tested : Location}
    (hs : h.StartsFrom program file running) (hp : '/' ∈ program.toList)
    (ht : h.files.locate h.folder program = .ok tested) : file = tested := by
  cases hs with
  | path _ hf _ => exact Except.ok.inj (hf.symm.trans ht)
  | search hn => exact absurd hp hn

theorem expanded_ne_empty (h : Host) {folder : String} (hf : folder ≠ "") : h.expanded folder ≠ "" := by
  have hfold (rest : List String) (base : String) (hb : base ≠ "") :
      rest.foldl Path.joinText base ≠ "" := by
    induction rest generalizing base with
    | nil => exact hb
    | cons name rest ih => exact ih _ (Path.joinText_ne_empty hb _)
  unfold expanded
  split
  · rename_i hhome
    exact hfold _ _ (of_decide_eq_true (Option.filter_eq_some_iff.mp hhome).2)
  · exact hf

/-- What is found by way of the search path has a slash, unless a folder in it has no name. -/
theorem which?_slash {name path search : String} (hp : h.environment? "PATH" = some search)
    (he : "" ∉ Text.pieces ':' search) (hw : h.which? name = some path) : '/' ∈ path.toList := by
  rw [which?, hp] at hw
  obtain ⟨folder, hf, rfl⟩ := List.mem_map.mp (List.mem_of_find?_eq_some hw)
  have hne : folder ≠ "" := fun h => he (h ▸ hf)
  exact Path.joinText_slash (h.expanded_ne_empty hne) name

end Host

namespace Interpreter

open Relocate.Action

variable {σ : Type}

theorem offered_slash {h : Host} {name path : String} (ho : path ∈ offered h name) :
    '/' ∈ path.toList := by
  have hbin (folder : String) : Path.joinText folder "bin" ≠ "" := by
    by_cases hf : folder = ""
    · rw [hf]
      decide
    · exact Path.joinText_ne_empty hf _
  unfold offered at ho
  cases he : h.environment? name with
  | none =>
    rw [he] at ho
    cases ho
  | some folder =>
    rw [he] at ho
    obtain rfl | ho := List.mem_cons.mp (List.mem_of_mem_filter ho)
    · exact Path.joinText_slash (hbin folder) _
    · rw [List.mem_singleton.mp ho]
      exact Path.joinText_slash (hbin folder) _

/-- What is started where one candidate is accepted, and from which file. -/
structure Accepted (h : Host) (path : String) (found : Found) (tested file : Location)
    (running : Host.Running) (r r' : Run σ) : Prop where
  /-- The file that is there as the candidate is looked at. -/
  located : h.files.locate h.folder path = .ok tested
  /-- The file that it is started from. -/
  started : h.StartsFrom path file running
  tries : ∃ es, r'.journal = r.journal ++ es ∧ es.filter Event.isLaunch =
    [.launched path .version (some (running.file, running.task? .version)),
      .launched path .library (some (running.file, running.task? .library))]
  /-- If its script is there, the worker is started, and else nothing is. -/
  works : ∀ w : Run Worker.Link, ∃ es,
    (exec (Worker.Link.start h found.path) w).2.journal = w.journal ++ es ∧
      es.filter Event.isLaunch =
        match h.script with
        | .ok _ => [.launched path .worker (some (running.file, running.task? .worker))]
        | .error _ => []
  same : '/' ∈ path.toList → file = tested
  environment : ∀ name, path ∈ offered h name → file = tested
  searched : ∀ name search, h.environment? "PATH" = some search → "" ∉ Text.pieces ':' search →
    h.which? name = some path → file = tested

theorem filter_isLaunch_logged (entries : List Log.Entry) :
    (entries.map Event.logged).filter Event.isLaunch = [] := by
  refine List.filter_eq_nil_iff.mpr fun e he => ?_
  obtain ⟨entry, -, rfl⟩ := List.mem_map.mp he
  exact Bool.false_ne_true

theorem start_launches {h : Host} {path : String} {running : Host.Running}
    (hx : h.exists? path = true) (hr : h.start path = .ok running) (w : Run Worker.Link) : ∃ es,
    (exec (Worker.Link.start h path) w).2.journal = w.journal ++ es ∧ es.filter Event.isLaunch =
      match h.script with
      | .ok _ => [.launched path .worker (some (running.file, running.task? .worker))]
      | .error _ => [] := by
  cases hk : h.script with
  | error e =>
    rw [Worker.Link.exec_start_unscripted w hx hk]
    exact ⟨[], (List.append_nil _).symm, rfl⟩
  | ok _ =>
    obtain ⟨w', hw, hlog, -⟩ := Worker.Link.exec_start_spawned w ⟨hx, hk, hr⟩
    obtain ⟨entries, hj⟩ := hlog.journal
    rw [hw]
    refine ⟨_, hj.trans (List.append_assoc _ _ _), ?_⟩
    rw [List.filter_append, filter_isLaunch_logged]
    rfl

/-- An interpreter that is accepted is started three times from one file, for its version, for the
library and as the worker. If its path has a slash that is the file that was looked at. -/
theorem validate_starts {h : Host} {origin : Origin} {path : String} {found : Found} {r r' : Run σ}
    (hv : exec (validate h origin path) r = (.ok found, r')) :
    ∃ tested file running, Accepted h path found tested file running r r' := by
  obtain ⟨⟨es, starts, hj, hs, he⟩, -⟩ := validate_probes h origin path r
  have hsel := validate_selects h origin path r
  rw [hv] at hj hsel
  obtain ⟨_, hf, hsel⟩ | ⟨-, a, ha⟩ := hsel
  · obtain rfl := Except.ok.inj hf
    have hu := hsel.usable
    obtain ⟨tested, ht⟩ := FileSystem.locate_of_exists hu.present
    obtain ⟨running, hr⟩ : ∃ running, h.start path = .ok running := by
      obtain ⟨o, ho, -⟩ := hu.version
      rw [output?] at ho
      cases hr : h.start path with
      | ok running => exact ⟨running, rfl⟩
      | error e =>
        rw [hr] at ho
        cases ho
    have hlaunch (task : Task) : h.launching path task =
        .launched path task (some (running.file, running.task? task)) := by
      rw [Host.launching, hr]
      rfl
    obtain ⟨file, hfile⟩ := Host.exists_startsFrom hr
    have hsame (hp : '/' ∈ path.toList) : file = tested := hfile.eq_located hp ht
    refine ⟨tested, file, running, ht, hfile, ⟨es, hj, ?_⟩, ?_, hsame,
      fun name ho => hsame (offered_slash ho),
      fun name search hp hn hw => hsame (Host.which?_slash hp hn hw)⟩
    · obtain ⟨start, hp, rfl⟩ : ∃ start, Probed h path start ∧ starts = [start] := by
        cases hs with
        | cons hp hnil =>
          cases hnil
          exact ⟨_, hp, rfl⟩
      rw [he, List.flatten_singleton, ← hlaunch, ← hlaunch]
      cases hp with
      | missing hx =>
        rw [hu.present] at hx
        cases hx
      -- What is accepted has a recent version, so it was asked for the library.
      | version _ hold => exact absurd hu.recent (hold _ hu.version)
      | library => rfl
    · rw [hsel.path_eq]
      exact start_launches hu.present hr
  · cases ha

section

def pythonOf (version : String) : Interpreter :=
  ⟨⟨true, Utf8.encode version, []⟩, .empty, ⟨⟨[], none⟩, ⟨none⟩⟩, .empty⟩

def twoPythons : Host :=
  ⟨⟨[(["python3"], .file [] true), (["bin"], .folder), (["bin", "python3"], .file [] true)]⟩, [],
    [("PATH", "/bin")],
    [(["python3"], pythonOf "Python 3.9.1\n"), (["bin", "python3"], pythonOf "Python 3.12.0\n")],
    .ok (), .brief⟩

theorem twoPythons_locate {path : Utf8.Bytes} (rest : List Path.Step) {l : Location} (hn : path ≠ [])
    (hz : path.contains 0 = false) (hb : path.length ≤ FileSystem.maxPath)
    (hs : Path.steps path = rest) (hw : ∀ n, twoPythons.files.walk n [] rest = .ok l) :
    twoPythons.files.locate twoPythons.folder path = .ok l := by
  have hstart : Path.start twoPythons.folder path = [] := ite_self _
  rw [FileSystem.locate_eq_walk hn hz hb, hs, hstart]
  exact hw _

theorem twoPythons_walk (n : Nat) :
    twoPythons.files.walk n [] [.down "python3"] = .ok ["python3"] := by
  rw [FileSystem.walk_down rfl (by decide) rfl (by simp), FileSystem.walk]
  rfl

theorem twoPythons_beside :
    twoPythons.files.locate twoPythons.folder "./python3" = .ok ["python3"] :=
  twoPythons_locate [.stay, .down "python3"] (by decide) (by decide) (by decide) (by decide) fun n =>
    (FileSystem.walk_stay_root n _).trans (twoPythons_walk n)

theorem twoPythons_bare : twoPythons.files.locate twoPythons.folder "python3" = .ok ["python3"] :=
  twoPythons_locate [.down "python3"] (by decide) (by decide) (by decide) (by decide) twoPythons_walk

theorem twoPythons_installed :
    twoPythons.files.locate twoPythons.folder "/bin/python3" = .ok ["bin", "python3"] := by
  refine twoPythons_locate [.stay, .down "bin", .down "python3"] (by decide) (by decide) (by decide)
    (by decide) fun n => ?_
  rw [FileSystem.walk_stay_root, FileSystem.walk_down rfl (by decide) rfl (by simp),
    FileSystem.walk_down rfl (by decide) rfl (by simp), FileSystem.walk]
  rfl

theorem twoPythons_startAt {path : String} {l : Location} {i : Interpreter} (hn : path ≠ "")
    (hl : twoPythons.files.locate twoPythons.folder path = .ok l)
    (he : twoPythons.files.entry? l = some (.file [] true))
    (hi : twoPythons.interpreters.lookup l = some i) :
    twoPythons.startAt path = .ok ⟨l, i, none⟩ := by
  have hx : twoPythons.executable path = .ok (l, []) := by
    rw [Host.executable, if_neg hn, hl]
    dsimp only [bind, Except.bind]
    rw [he]
    rfl
  rw [Host.startAt, Host.maxLinks, Host.follow, hx]
  dsimp only [bind, Except.bind]
  rw [hi]
  rfl

theorem twoPythons_start_beside :
    twoPythons.start "./python3" = .ok ⟨["python3"], pythonOf "Python 3.9.1\n", none⟩ :=
  twoPythons_startAt (by decide) twoPythons_beside rfl rfl

theorem twoPythons_startAt_installed : twoPythons.startAt (Host.inFolder "/bin" "python3") =
    .ok ⟨["bin", "python3"], pythonOf "Python 3.12.0\n", none⟩ :=
  twoPythons_startAt (by decide) twoPythons_installed rfl rfl

theorem twoPythons_start_bare :
    twoPythons.start "python3" = .ok ⟨["bin", "python3"], pythonOf "Python 3.12.0\n", none⟩ := by
  have hin : twoPythons.start "python3" =
      twoPythons.startIn "python3" false .noSuchEntry ["/bin"] := rfl
  have hfolder : twoPythons.startAt (if "/bin" = "" then "python3" else "/bin" ++ "/" ++ "python3") =
      .ok ⟨["bin", "python3"], pythonOf "Python 3.12.0\n", none⟩ := twoPythons_startAt_installed
  rw [hin, Host.startIn, hfolder]

theorem pythonOf_usable {path version : String} {l : Location} {v : Version}
    (hl : twoPythons.files.locate twoPythons.folder path = .ok l) {file : Location}
    (hr : twoPythons.start path = .ok ⟨file, pythonOf version, none⟩)
    (hv : Version.ofText? (versionText (pythonOf version).version) = some v)
    (hm : v.Recent) : Usable twoPythons path v where
  present := by
    rw [Host.exists?, FileSystem.exists?, hl]
    rfl
  version := by
    refine ⟨(pythonOf version).version, ?_, rfl, hv⟩
    rw [output?, hr]
    rfl
  recent := hm
  library := by
    refine ⟨.empty, ?_, rfl⟩
    rw [output?, hr]
    rfl

theorem twoPythons_accepts {path : String} {v : Version} (hu : Usable twoPythons path v) :
    ∃ (found : Found) (r' : Run Unit),
      exec (validate twoPythons .flag path) ⟨[], [], none, none, ()⟩ = (.ok found, r') := by
  obtain ⟨found, hf, -⟩ | ⟨hn, -⟩ := validate_selects (σ := Unit) twoPythons .flag path
    ⟨[], [], none, none, ()⟩
  · exact ⟨found, _, Prod.ext hf rfl⟩
  · exact absurd hu (hn v)

theorem validate_starts_beside : ∃ (found : Found) (r' : Run Unit) (running : Host.Running),
    exec (validate twoPythons .flag "./python3") ⟨[], [], none, none, ()⟩ = (.ok found, r') ∧
    Accepted twoPythons "./python3" found ["python3"] ["python3"] running
      ⟨[], [], none, none, ()⟩ r' := by
  have hu : Usable twoPythons "./python3" ⟨3, 9, 1⟩ :=
    pythonOf_usable twoPythons_beside twoPythons_start_beside (by decide +kernel)
      (.inr ⟨rfl, by decide⟩)
  obtain ⟨found, r', hv⟩ := twoPythons_accepts hu
  obtain ⟨tested, file, running, ha⟩ := validate_starts hv
  obtain rfl : tested = (["python3"] : Location) :=
    Except.ok.inj (ha.located.symm.trans twoPythons_beside)
  obtain rfl : file = (["python3"] : Location) := ha.same (by decide)
  exact ⟨found, r', running, hv, ha⟩

/-- Without a slash the file in the working folder is looked at, and the one on the search path is
started. -/
theorem validate_starts_elsewhere :
    (∃ (found : Found) (r' : Run Unit),
      exec (validate twoPythons .flag "python3") ⟨[], [], none, none, ()⟩ = (.ok found, r')) ∧
    twoPythons.files.locate twoPythons.folder "python3" = .ok ["python3"] ∧
    twoPythons.StartsFrom "python3" ["bin", "python3"]
      ⟨["bin", "python3"], pythonOf "Python 3.12.0\n", none⟩ ∧
    ∀ running, ¬ twoPythons.StartsFrom "python3" ["python3"] running := by
  have hu : Usable twoPythons "python3" ⟨3, 12, 0⟩ :=
    pythonOf_usable twoPythons_bare twoPythons_start_bare (by decide +kernel)
      (.inr ⟨rfl, by decide⟩)
  have hs : '/' ∉ "python3".toList := by decide
  have hc : twoPythons.searchFolders = [] ++ "/bin" :: [] := rfl
  refine ⟨twoPythons_accepts hu, twoPythons_bare, ?_, fun running h => ?_⟩
  · exact .search hs hc (List.forall_mem_nil _) twoPythons_installed twoPythons_startAt_installed
  · cases h with
    | path hp => exact hs hp
    | @search front back folder _ hc' _ hf =>
      have hm : folder ∈ ["/bin"] := by
        rw [← show twoPythons.searchFolders = ["/bin"] from rfl, hc']
        exact List.mem_append_right _ List.mem_cons_self
      obtain rfl := List.mem_singleton.mp hm
      exact absurd (Except.ok.inj (hf.symm.trans twoPythons_installed)) (by decide)

end

end Interpreter

end Relocate
