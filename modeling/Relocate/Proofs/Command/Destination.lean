import Relocate.Proofs.Command.Moves
import Relocate.Proofs.Project.Containment

namespace Relocate

open Relocate.Path (IsName)
open Utf8 (Bytes)

namespace Place

/-- The path leads nowhere, and all the same there is a file where it leads once `.` and `..` are
taken out of it. -/
def Sidesteps (fs : FileSystem) (folder : Location) (path : Bytes) : Prop :=
  fs.exists? folder (Path.join folder.written path) = false ∧ ∃ front rest here,
    fs.Reached (Path.lexical folder path) front rest here ∧
      fs.isFile [] (Location.written (here ++ rest)) = true

variable {fs : FileSystem} {folder base : Location} {path : Bytes} {place : Place}

/-- Where a folder was resolved, there is a file only if the path sidesteps. -/
theorem isFile_iff_sidesteps (hf : fs.Canonical folder) (hb : fs.Canonical base)
    (hd : fs.isFolderAt base = true) (h : resolve fs folder base.written path .folder = .ok place)
    (hk : place.isFolder = true) :
    fs.isFile folder (Path.join base.written place.path) = true ↔ Sidesteps fs folder path := by
  obtain ⟨names, hn, hr⟩ := resolve_ok hf hb h
  rw [(hr.names_eq hn).2]
  cases hr with
  | found hl =>
    obtain ⟨hl, -⟩ := (FileSystem.canonicalized_eq_ok hf).mp hl
    have hc : fs.Canonical (base ++ names) := FileSystem.canonical_of_locate hf hl
    have hfolder : fs.isFolderAt (base ++ names) = true := by
      cases hfile : fs.isFolderAt (base ++ names) with
      | true => rfl
      | false => simp [isFolder, hfile] at hk
    have hx : fs.exists? folder (Path.join folder.written path) = true := by
      rw [FileSystem.exists?, hl]
      rfl
    have hfile : fs.isFile folder (Path.join base.written (Text.joinWith Path.slash names)) = false := by
      rw [FileSystem.isFile_join hb hd hn]
      exact FileSystem.isFile_eq_false hfolder fun l => FileSystem.locate_written hc
    refine iff_of_false (by simp [hfile]) fun hs => ?_
    rw [hs.1] at hx
    cases hx
  | @missing _ front rest here _ hx hr hw hl =>
    -- Nobody has looked what is at the end of these names.
    rw [FileSystem.isFile_join hb hd hn, hl]
    constructor
    · exact fun hfile => ⟨hx, front, rest, here, hr, hfile⟩
    · rintro ⟨-, front', rest', here', hr', hfile⟩
      obtain ⟨rfl, rfl⟩ := hr.unique hr'
      exact hfile

end Place

theorem Session.resolver_ok {h : Host} {root : Bytes} {path : String} {hint : Kind} {place : Place} :
    resolver h root path hint = .ok place ↔
      Place.resolve h.files h.folder root path hint = .ok place := by
  unfold resolver
  cases Place.resolve h.files h.folder root path hint <;> simp [Except.mapError]

namespace Command

open Relocate.Action Stage

theorem Going.compute_mem {k : Rules} {ds : List Deed} {st : Stage} {plan : MovePlan}
    {target : Place} {r : Except Failure ChangeSet} (h : Going k ds st)
    (hm : .compute plan target r ∈ ds) :
    ∃ path, st.path? = some path ∧ k.aim path = .ok target := by
  obtain ⟨_, _, -, hc⟩ := h.calls
  have hk := h.kept
  rw [mem_iff rfl, hc] at hm
  cases st with
  | computed _ path target' changes =>
    obtain ⟨-, rfl, -⟩ : plan = _ ∧ target = target' ∧ _ := by
      simpa [callsTo, asked, confirmed] using hm
    exact ⟨path, rfl, hk.2.2⟩
  | applied _ path target' changes left =>
    obtain ⟨-, rfl, -⟩ : plan = _ ∧ target = target' ∧ _ := by
      simpa [callsTo, asked, confirmed] using hm
    exact ⟨path, rfl, hk.2.2⟩
  | _ => simp [callsTo, asked, confirmed] at hm

theorem Step.compute_mem {k : Rules} {st st' : Stage} {l : List Deed} {plan : MovePlan}
    {target : Place} {r : Except Failure ChangeSet} (h : Step k st l st')
    (hm : .compute plan target r ∈ l) : ∃ path, st = .settled plan path target := by
  cases h with
  | compute plan' path target' r' =>
    obtain ⟨rfl, rfl, -⟩ : plan = plan' ∧ target = target' ∧ r = r' := by simpa using hm
    exact ⟨path, rfl⟩
  | _ => simp at hm

theorem Step.no_answer {k : Rules} {st st' : Stage} {l : List Deed} (h : Step k st l st')
    (hf : st'.hasFailed = true) (path : String) : .ask k.question (.ok path) ∉ l := by
  cases h with
  | ask hp hg r =>
    cases r with
    | ok answer => cases hf
    | error e => simp
  | _ => simp

theorem Course.compute_mem {k : Rules} {ds : List Deed} {st : Stage} {plan : MovePlan}
    {target : Place} {r : Except Failure ChangeSet} (h : Course k .fresh ds st)
    (hm : .compute plan target r ∈ ds) :
    ∃ path, Chosen k ds path ∧ k.aim path = .ok target ∧
      ∀ path', Chosen k ds path' → path' = path := by
  cases hf : st.hasFailed with
  | false =>
    have hg := h.going hf
    obtain ⟨path, hp, ha⟩ := hg.compute_mem hm
    exact ⟨path, hg.path_chosen hp, ha, fun path' hc => hg.chosen hc hp⟩
  | true =>
    obtain ⟨e, rfl⟩ : ∃ e, st = .failed e := by
      cases st with
      | failed e => exact ⟨e, rfl⟩
      | _ => cases hf
    obtain ⟨ds', l, st, rfl, hg, hs⟩ := h.last
    -- The failure itself settles nothing: the path was known before.
    obtain ⟨path, hp, ha⟩ : ∃ path, st.path? = some path ∧ k.aim path = .ok target := by
      obtain hm | hm := List.mem_append.mp hm
      · exact hg.compute_mem hm
      · obtain ⟨path, rfl⟩ := hs.compute_mem hm
        exact ⟨path, rfl, hg.kept.2.2⟩
    exact ⟨path, (hg.path_chosen hp).append l, ha,
      fun path' hc => hg.chosen (hc.of_append (hs.no_answer hf)) hp⟩

variable {τ : Type}

/-- Moving a module, for any engine, user and report: changes are computed only for a folder, which
the path of the destination names, and there is a file in its place only if that path sidesteps. A
destination with a file in its place is refused otherwise, with nothing computed and nothing made. -/
theorem destination_guarded (s : Surroundings τ) (t : τ) (m : MoveModule) {base : Location}
    (hf : s.host.files.Canonical s.host.folder) (hb : s.host.files.Canonical base)
    (hd : s.host.files.isFolderAt base = true) (hr : s.session.root = base.written)
    (hs : s.session.resolve = Session.resolver s.host s.session.root) :
    ∃ deeds, performed (m.run s.recorded) t = (exec (m.run s) t, deeds) ∧
      (∀ plan target r, .compute plan target r ∈ deeds → ∃ path, Chosen (m.rules s) deeds path ∧
        Place.resolve s.host.files s.host.folder s.session.root path .folder = .ok target ∧
        target.isFolder = true ∧
      (s.host.files.isFile s.host.folder (Path.join s.session.root target.path) = true ↔
          Place.Sidesteps s.host.files s.host.folder path)) ∧
      ∀ path place, Chosen (m.rules s) deeds path →
        Place.resolve s.host.files s.host.folder s.session.root path .folder = .ok place →
        s.host.files.isFile s.host.folder (Path.join s.session.root place.path) = true →
        ¬ Place.Sidesteps s.host.files s.host.folder path →
          (∀ plan target r, .compute plan target r ∉ deeds) ∧
          (∀ changes r, .apply changes r ∉ deeds) ∧
          ((∃ place index plan, .begin place index (.ok plan) ∈ deeds) →
            (∀ d ∈ deeds, d.failure? = none) →
              (exec (m.run s) t).1 = .error MoveModule.notFolder) := by
  rw [m.run_eq s, m.run_eq s.recorded]
  obtain ⟨st, -, hc, -⟩ := performed_course (m.rules s) s t
  have ho : Orderly (m.rules s) _ _ := run_orderly (m.rules s) s t
  have hp := performed_run (m.rules s) s t
  refine ⟨_, Prod.ext hp rfl, ?_, ?_⟩
  · intro plan target r hm
    obtain ⟨path, hch, ha, -⟩ := hc.compute_mem hm
    obtain ⟨hk, hres⟩ := MoveModule.aim_ok ha
    rw [hs] at hres
    replace hres := Session.resolver_ok.mp hres
    refine ⟨path, hch, hres, hk, ?_⟩
    rw [hr] at hres ⊢
    exact Place.isFile_iff_sidesteps hf hb hd hres hk
  · intro path place hch hres hfile hn
    have ha : (m.rules s).aim path = .error MoveModule.notFolder := by
      have hk : place.isFolder = false := by
        refine Bool.eq_false_iff.mpr fun hk => hn ?_
        rw [hr] at hres hfile
        exact (Place.isFile_iff_sidesteps hf hb hd hres hk).mp hfile
      exact MoveModule.aim_refused (by rw [hs, Session.resolver_ok.mpr hres]) hk
    have hcompute (plan : MovePlan) (target : Place) (r : Except Failure ChangeSet) :
        .compute plan target r ∉ (performed ((m.rules s).run s.recorded) t).2 := by
      intro hm
      obtain ⟨path', -, ha', hu⟩ := hc.compute_mem hm
      rw [← hu path hch, ha] at ha'
      cases ha'
    refine ⟨hcompute, fun changes r hm => ?_, fun ⟨source, index, plan, hbegin⟩ hcalm => ?_⟩
    · obtain ⟨before, after, hds⟩ := List.append_of_mem hm
      obtain ⟨plan, target, hw⟩ := ho.warranted before changes r after hds
      exact hcompute plan target _ (hds ▸ List.mem_append_left _ hw.computed)
    · exact (ho.failure _).mpr (.inr ⟨hcalm, .destination hbegin rfl hch ha⟩)

section

def twoFiles : FileSystem :=
  ⟨[(["proj"], .folder), (["proj", "util.py"], .file [] false), (["proj", "other.py"], .file [] false)]⟩

theorem twoFiles_canonical : twoFiles.Canonical ["proj"] :=
  .child .root rfl (by constructor <;> decide) (by decide) rfl (by simp)

theorem twoFiles_canonical_util : twoFiles.Canonical ["proj", "util.py"] :=
  twoFiles_canonical.child rfl (by constructor <;> decide) (by decide) rfl (by simp)

theorem twoFiles_canonical_other : twoFiles.Canonical ["proj", "other.py"] :=
  twoFiles_canonical.child rfl (by constructor <;> decide) (by decide) rfl (by simp)

theorem twoFiles_locate_slash (folder : Location) :
    twoFiles.locate folder "/proj/other.py/" = .error .notDirectory := by
  have hl : twoFiles.locate folder "/proj/other.py/" = twoFiles.walk FileSystem.maxLinks []
      (.stay :: ((["proj", "other.py"] : Location).map .down ++ [.stay])) :=
    FileSystem.locate_eq_walk (by decide) (by decide) (by decide) folder
  rw [hl, FileSystem.walk_stay_root, twoFiles_canonical_other.walk]
  exact FileSystem.walk_not_folder (by decide)

theorem twoFiles_reached : twoFiles.Reached ["proj", "other.py"] ["proj", "other.py"] []
    ["proj", "other.py"] :=
  FileSystem.reached_whole
    (FileSystem.reaches_canonical twoFiles_canonical_other (by decide) (by decide))

theorem twoFiles_resolve_slash :
    Place.resolve twoFiles ["proj"] (Location.written ["proj"]) "other.py/" .folder =
      .ok ⟨"other.py", .folder, false⟩ := by
  have hx : twoFiles.exists? ["proj"] (Path.join (Location.written ["proj"]) "other.py/") = false := by
    have hj : Path.join (Location.written ["proj"]) "other.py/" = "/proj/other.py/" := by decide
    rw [FileSystem.exists?, hj, twoFiles_locate_slash]
    rfl
  have hreach : twoFiles.Reached (Path.lexical ["proj"] "other.py/") ["proj", "other.py"] []
      ["proj", "other.py"] := by
    have hl : Path.lexical ["proj"] "other.py/" = (["proj", "other.py"] : Location) := by decide
    rw [hl]
    exact twoFiles_reached
  have hr : Place.Resolves twoFiles ["proj"] ["proj"] "other.py/" .folder ["other.py"]
      ⟨"other.py", .folder, false⟩ := .missing hx hreach twoFiles_reached.leads rfl
        (Place.spelled_eq_ok.mpr ⟨["other.py"], rfl, by decide⟩)
  exact Place.resolve_of_resolves twoFiles_canonical twoFiles_canonical hr

def slip : Surroundings Unit where
  host := ⟨twoFiles, ["proj"], [], [], .ok (), .brief⟩
  session :=
    { root := "/proj"
      resolve := Session.resolver ⟨twoFiles, ["proj"], [], [], .ok (), .brief⟩ "/proj"
      beginMove := fun place _ => pure ⟨"move-1", "util", .module, place⟩
      isSourceFile := fun place => pure !place.isFolder
      changesFor := fun plan target =>
        pure ⟨"changes-1", "Moving " ++ plan.name, [plan.origin.path, target.path]⟩
      apply := fun _ => pure ()
      importCandidates := fun _ => pure [] }
  ask _ := throw .endOfInput
  write _ := pure ()
  log _ := pure ()

theorem slip_root : slip.session.root = Location.written ["proj"] := by decide

theorem slip_resolve {path : String} {hint : Kind} {place : Place}
    (h : Place.resolve twoFiles ["proj"] (Location.written ["proj"]) path hint = .ok place) :
    slip.session.resolve path hint = .ok place := by
  rw [← slip_root] at h
  exact Session.resolver_ok.mpr h

theorem slip_locate_util : slip.host.files.locate slip.host.folder
    (Path.join (Location.written ["proj"]) "util.py") = .ok ["proj", "util.py"] := by
  have hj : Path.join (Location.written ["proj"]) "util.py" = Location.written ["proj", "util.py"] := by
    decide
  rw [hj]
  exact FileSystem.locate_canonical twoFiles_canonical_util (by decide) (by decide) _

theorem slip_locate_other : slip.host.files.locate slip.host.folder
    (Path.join (Location.written ["proj"]) "other.py") = .ok ["proj", "other.py"] := by
  have hj : Path.join (Location.written ["proj"]) "other.py" =
      Location.written ["proj", "other.py"] := by
    decide
  rw [hj]
  exact FileSystem.locate_canonical twoFiles_canonical_other (by decide) (by decide) _

theorem slip_canonicalized_util : slip.host.files.canonicalized slip.host.folder
    (Path.join (Location.written ["proj"]) "util.py") = .ok ["proj", "util.py"] :=
  (FileSystem.canonicalized_eq_ok twoFiles_canonical).mpr ⟨slip_locate_util,
    FileSystem.reaches_canonical twoFiles_canonical_util (by decide) (by decide)⟩

theorem slip_canonicalized_other : slip.host.files.canonicalized slip.host.folder
    (Path.join (Location.written ["proj"]) "other.py") = .ok ["proj", "other.py"] :=
  (FileSystem.canonicalized_eq_ok twoFiles_canonical).mpr ⟨slip_locate_other, twoFiles_reached.leads⟩

theorem slip_isFile :
    slip.host.files.isFile slip.host.folder (Path.join slip.session.root "other.py") = true := by
  rw [FileSystem.isFile, slip_root, slip_locate_other]
  rfl

theorem destination_guarded_file :
    slip.host.files.isFile slip.host.folder (Path.join slip.session.root "other.py") = true ∧
      ∀ plan target r, .compute plan target r ∉
        (performed (MoveModule.run slip.recorded ⟨"util.py", some "other.py"⟩) ()).2 := by
  have hs : Place.Resolves twoFiles ["proj"] ["proj"] "other.py" .folder ["other.py"]
      ⟨"other.py", .file, true⟩ := .found slip_canonicalized_other
        (Place.spelled_eq_ok.mpr ⟨["other.py"], rfl, by decide⟩)
  have hr : Place.resolve slip.host.files slip.host.folder slip.session.root "other.py" .folder =
      .ok ⟨"other.py", .file, true⟩ := by
    rw [slip_root]
    exact Place.resolve_of_resolves twoFiles_canonical twoFiles_canonical hs
  have hn : ¬ Place.Sidesteps slip.host.files slip.host.folder "other.py" := by
    intro hs
    have hx : slip.host.files.exists? slip.host.folder
        (Path.join slip.host.folder.written "other.py") = true :=
      congrArg (fun r => r.toOption.isSome) slip_locate_other
    rw [hs.1] at hx
    cases hx
  obtain ⟨deeds, hp, -, h⟩ := destination_guarded slip () ⟨"util.py", some "other.py"⟩
    twoFiles_canonical twoFiles_canonical rfl slip_root rfl
  rw [hp]
  exact ⟨slip_isFile, (h "other.py" _ (.inl rfl) hr slip_isFile hn).1⟩

theorem slip_source (destination : String) :
    (MoveModule.rules slip ⟨"util.py", some destination⟩).source =
      .ok (⟨"util.py", .file, true⟩, none) := by
  have hs : Place.Resolves twoFiles ["proj"] ["proj"] "util.py" .file ["util.py"]
      ⟨"util.py", .file, true⟩ := .found slip_canonicalized_util
        (Place.spelled_eq_ok.mpr ⟨["util.py"], rfl, by decide⟩)
  have hr := slip_resolve (Place.resolve_of_resolves twoFiles_canonical twoFiles_canonical hs)
  dsimp only [MoveModule.rules]
  rw [hr]

/-- With a slash after it, changes are computed and made for a folder in whose place there is that
file. -/
theorem destination_slips :
    slip.host.files.Canonical ["proj"] ∧ slip.session.root = Location.written ["proj"] ∧
      ∃ plan target changes,
        .compute plan target (.ok changes) ∈
          (performed (MoveModule.run slip.recorded ⟨"util.py", some "other.py/"⟩) ()).2 ∧
        .apply changes (.ok ()) ∈
          (performed (MoveModule.run slip.recorded ⟨"util.py", some "other.py/"⟩) ()).2 ∧
        slip.host.files.isFile slip.host.folder (Path.join slip.session.root target.path) = true := by
  have hg : (MoveModule.rules slip ⟨"util.py", some "other.py/"⟩).given = some "other.py/" := rfl
  have ha : (MoveModule.rules slip ⟨"util.py", some "other.py/"⟩).aim "other.py/" =
      .ok ⟨"other.py", .folder, false⟩ := by
    dsimp only [MoveModule.rules, MoveModule.aim]
    rw [slip_resolve twoFiles_resolve_slash]
    rfl
  have hdone : (exec (MoveModule.run slip ⟨"util.py", some "other.py/"⟩) ()).1 = .ok () := by
    rw [MoveModule.run_eq, Rules.run, Rules.target, slip_source, hg]
    simp only [Surroundings.destination, pure_bind, ha, liftM_ok]
    rfl
  have hk : MoveModule.rules slip.recorded ⟨"util.py", some "other.py/"⟩ =
      MoveModule.rules slip ⟨"util.py", some "other.py/"⟩ := rfl
  have ho := run_orderly (MoveModule.rules slip ⟨"util.py", some "other.py/"⟩) slip ()
  rw [← MoveModule.run_eq slip] at ho
  rw [MoveModule.run_eq slip.recorded, hk]
  obtain ⟨changes, hm⟩ := ho.done hdone
  obtain ⟨before, after, hd⟩ := List.append_of_mem hm
  obtain ⟨plan, target, hw⟩ := ho.warranted before changes _ after hd
  obtain ⟨path, hc, ht⟩ := hw.aimed
  -- A path that is given is not asked for.
  obtain rfl : "other.py/" = path := by simpa [Chosen, hg] using hc
  obtain rfl := Except.ok.inj (ha.symm.trans ht)
  refine ⟨twoFiles_canonical, slip_root, plan, ⟨"other.py", .folder, false⟩, changes, ?_, hm,
    slip_isFile⟩
  rw [hd]
  exact List.mem_append_left _ hw.computed

end

end Command

end Relocate
