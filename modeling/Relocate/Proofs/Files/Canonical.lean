import Relocate.Files.Create
import Relocate.Proofs.Files.Spelling

namespace Relocate.FileSystem

open Relocate.Path (Step IsName)
open Utf8 (Bytes)

/-- A location as the file system itself names it: every name is found in a folder, and what it
names is no link. -/
inductive Canonical (fs : FileSystem) : Location → Prop
  | root : Canonical fs []
  | child {l : Location} {name : Bytes} {e : Entry} (h : Canonical fs l)
    (hf : fs.entry? l = some .folder) (hn : IsName name) (hs : name.length ≤ maxName)
    (he : fs.entry? (l ++ [name]) = some e) (hl : ∀ target, e ≠ .link target) :
    Canonical fs (l ++ [name])

/-- Nothing on the way along `names` from `here` is a link. -/
def LinkFree (fs : FileSystem) (here : Location) (names : Location) : Prop :=
  ∀ front, front <+: names → front ≠ [] → ∀ target, fs.entry? (here ++ front) ≠ some (.link target)

variable {fs : FileSystem} {here l : Location}

theorem walk_stay {n : Nat} {rest : List Step} (hf : fs.entry? here = some .folder) :
    fs.walk n here (.stay :: rest) = fs.walk n here rest := by
  rw [walk, if_neg (by simpa using hf)]

theorem walk_up {n : Nat} {rest : List Step} (hf : fs.entry? here = some .folder) :
    fs.walk n here (.up :: rest) = fs.walk n here.dropLast rest := by
  rw [walk, if_neg (by simpa using hf)]

theorem walk_stay_root (n : Nat) (rest : List Step) :
    fs.walk n [] (.stay :: rest) = fs.walk n [] rest :=
  walk_stay rfl

theorem walk_down {n : Nat} {name : Bytes} {e : Entry} {rest : List Step}
    (hf : fs.entry? here = some .folder) (hs : name.length ≤ maxName)
    (he : fs.entry? (here ++ [name]) = some e) (hl : ∀ target, e ≠ .link target) :
    fs.walk n here (.down name :: rest) = fs.walk n (here ++ [name]) rest := by
  rw [walk, if_neg (by simpa using hf)]
  rw [if_neg (by omega), he]
  cases e with
  | link target => exact absurd rfl (hl target)
  | file data executable => rfl
  | folder => rfl

theorem walk_link {n : Nat} {name target : Bytes} {rest : List Step}
    (hf : fs.entry? here = some .folder) (hs : name.length ≤ maxName)
    (he : fs.entry? (here ++ [name]) = some (.link target)) :
    fs.walk (n + 1) here (.down name :: rest) =
      fs.walk n (Path.start here target) (Path.steps target ++ rest) := by
  rw [walk, if_neg (by simpa using hf), if_neg (by omega), he]

theorem walk_missing {n : Nat} {name : Bytes} {rest : List Step}
    (hf : fs.entry? here = some .folder) (hs : name.length ≤ maxName)
    (he : fs.entry? (here ++ [name]) = none) :
    fs.walk n here (.down name :: rest) = .error .noSuchEntry := by
  rw [walk, if_neg (by simpa using hf), if_neg (by omega), he]

theorem walk_not_folder {n : Nat} {step : Step} {rest : List Step}
    (hf : fs.entry? here ≠ some .folder) :
    fs.walk n here (step :: rest) = .error .notDirectory := by
  cases step <;> rw [walk, if_pos hf]

theorem walk_down_ok {n : Nat} {name : Bytes} {rest : List Step}
    (h : fs.walk n here (.down name :: rest) = .ok l) :
    fs.entry? here = some .folder ∧ name.length ≤ maxName ∧
      ∃ e, fs.entry? (here ++ [name]) = some e := by
  rw [walk] at h
  split at h
  · cases h
  · rename_i hf
    split at h
    · cases h
    · rename_i hs
      cases he : fs.entry? (here ++ [name]) with
      | none => simp [he] at h
      | some e => exact ⟨by simpa using hf, by omega, e, rfl⟩

namespace Canonical

theorem names (h : fs.Canonical l) : ∀ name ∈ l, IsName name := by
  induction h with
  | root => exact List.forall_mem_nil _
  | child h hf hn hs he hl ih =>
    intro name hm
    obtain hm | hm := List.mem_append.mp hm
    · exact ih name hm
    · obtain rfl := List.mem_singleton.mp hm
      exact hn

theorem dropLast (h : fs.Canonical l) : fs.Canonical l.dropLast := by
  cases h with
  | root => exact .root
  | child h hf hn hs he hl =>
    rw [List.dropLast_concat]
    exact h

/-- A canonical location is reached name by name, without a link. -/
theorem walk (h : fs.Canonical l) (n : Nat) (rest : List Step) :
    fs.walk n [] (l.map .down ++ rest) = fs.walk n l rest := by
  induction h generalizing rest with
  | root => rfl
  | child h hf hn hs he hl ih =>
    rw [List.map_append, List.append_assoc, ih]
    exact walk_down hf hs he hl

theorem linkFree (h : fs.Canonical l) : fs.LinkFree [] l := by
  induction h with
  | root =>
    intro front hp hn
    exact absurd (List.prefix_nil.mp hp) hn
  | child h hf hn hs he hl ih =>
    intro front hp hne target
    obtain rfl | hp := List.prefix_concat_iff.mp hp
    · rw [List.nil_append, he]
      intro ht
      exact hl target (Option.some.inj ht)
    · exact ih front hp hne target

end Canonical

theorem isName_of_start {folder : Location} (h : ∀ name ∈ folder, IsName name) (path : Bytes) :
    ∀ name ∈ Path.start folder path, IsName name := by
  unfold Path.start
  split
  · exact List.forall_mem_nil _
  · exact h

theorem Canonical.start {folder : Location} (h : fs.Canonical folder) (path : Bytes) :
    fs.Canonical (Path.start folder path) := by
  unfold Path.start
  split
  · exact .root
  · exact h

theorem canonical_of_walk {n : Nat} {steps : List Step} (hc : fs.Canonical here)
    (hn : ∀ name, .down name ∈ steps → IsName name) (h : fs.walk n here steps = .ok l) :
    fs.Canonical l := by
  fun_induction fs.walk n here steps with
  | case1 n here =>
    obtain rfl := Except.ok.inj h
    exact hc
  | case3 n here rest hf ih => exact ih hc (fun name hm => hn name (List.mem_cons_of_mem _ hm)) h
  | case4 n here rest hf ih =>
    exact ih hc.dropLast (fun name hm => hn name (List.mem_cons_of_mem _ hm)) h
  | case8 here rest hf name hs target he n ih =>
    -- The target of a link is a path like any other.
    refine ih (hc.start target) (fun s hm => ?_) h
    obtain hm | hm := List.mem_append.mp hm
    · exact Path.isName_of_down hm
    · exact hn s (List.mem_cons_of_mem _ hm)
  | case9 n here rest hf name hs e hl he ih =>
    have hc' : fs.Canonical (here ++ [name]) :=
      hc.child (by simpa using hf) (hn name List.mem_cons_self) (by omega) he hl
    exact ih hc' (fun s hm => hn s (List.mem_cons_of_mem _ hm)) h
  | _ => cases h

theorem LinkFree.cons {name : Bytes} {rest : Location} (h : fs.LinkFree here (name :: rest)) :
    (∀ target, fs.entry? (here ++ [name]) ≠ some (.link target)) ∧
      fs.LinkFree (here ++ [name]) rest := by
  refine ⟨fun target => h [name] (by simp) (by simp) target, fun front hp _ target => ?_⟩
  have hf := h (name :: front) ((List.prefix_cons_inj name).mpr hp) (by simp) target
  rwa [List.append_cons] at hf

theorem LinkFree.walk_down {n : Nat} {name : Bytes} {names : Location} {rest : List Step}
    (hl : fs.LinkFree here (name :: names)) (h : fs.walk n here (.down name :: rest) = .ok l) :
    fs.walk n (here ++ [name]) rest = .ok l := by
  obtain ⟨hf, hs, e, he⟩ := walk_down_ok h
  rwa [FileSystem.walk_down hf hs he fun target ht => hl.cons.1 target (by rw [he, ht])] at h

theorem walk_linkFree {n : Nat} {names : Location} (hl : fs.LinkFree here names)
    (h : fs.walk n here (names.map .down) = .ok l) : l = here ++ names := by
  induction names generalizing here with
  | nil =>
    rw [List.map_nil, walk] at h
    rw [List.append_nil, Except.ok.inj h]
  | cons name names ih =>
    rw [ih hl.cons.2 (hl.walk_down h), List.append_cons here name names]

theorem entry_put (l l' : Location) (e : Entry) (hl : l ≠ []) :
    entry? (fs.put l e) l' = if l' = l then some e else fs.entry? l' := by
  unfold entry? put
  by_cases h : l' = l
  · rw [if_pos h, h, if_neg hl]
    simp
  · rw [if_neg h]
    have hb : (l' == l) = false := by simpa using h
    simp [List.lookup_cons, hb]

theorem makeFolders_linkFree {names : Location} (hl : fs.LinkFree here names) :
    (fs.makeFolders here names).2 = here ++ names := by
  induction names generalizing fs here with
  | nil => exact (List.append_nil here).symm
  | cons name names ih =>
    obtain ⟨-, hr⟩ := hl.cons
    rw [makeFolders, List.append_cons here name names]
    cases hw : fs.walk maxLinks here [.down name] with
    | ok l =>
      have he := hl.walk_down hw
      rw [walk] at he
      obtain rfl := Except.ok.inj he
      exact ih hr
    | error e =>
      -- What was put there is a folder, and nothing below it has changed.
      refine ih fun front hp hn target => ?_
      have hne : here ++ [name] ++ front ≠ here ++ [name] := by simpa using hn
      rw [entry_put _ _ _ (by simp), if_neg hne]
      exact hr front hp hn target

theorem locate_eq_walk {path : Bytes} (hn : path ≠ []) (hz : path.contains 0 = false)
    (hs : path.length ≤ maxPath) (folder : Location) :
    fs.locate folder path = fs.walk maxLinks (Path.start folder path) (Path.steps path) := by
  rw [locate, if_neg hn, hz, if_neg Bool.false_ne_true, if_neg (by omega)]

theorem locate_of_exists {folder : Location} {path : Bytes} (h : fs.exists? folder path = true) :
    ∃ l, fs.locate folder path = .ok l := by
  unfold exists? at h
  cases hl : fs.locate folder path with
  | error e =>
    rw [hl] at h
    cases h
  | ok l => exact ⟨l, rfl⟩

theorem locate_of_not_exists {folder : Location} {path : Bytes}
    (h : fs.exists? folder path = false) : ∃ e, fs.locate folder path = .error e := by
  unfold exists? at h
  cases hl : fs.locate folder path with
  | error e => exact ⟨e, rfl⟩
  | ok l =>
    rw [hl] at h
    cases h

theorem locate_of_isFolder {folder : Location} {path : Bytes}
    (h : fs.isFolder folder path = true) : ∃ l, fs.locate folder path = .ok l := by
  unfold isFolder at h
  cases hl : fs.locate folder path with
  | error e =>
    rw [hl] at h
    cases h
  | ok l => exact ⟨l, rfl⟩

theorem entry_of_folderAt (h : fs.isFolderAt l = true) : fs.entry? l = some .folder := by
  simpa [isFolderAt] using h

theorem walk_of_locate {folder : Location} {path : Bytes} (h : fs.locate folder path = .ok l) :
    fs.walk maxLinks (Path.start folder path) (Path.steps path) = .ok l := by
  unfold locate at h
  split at h
  · cases h
  · split at h
    · cases h
    · split at h
      · cases h
      · exact h

theorem canonical_of_locate {folder : Location} {path : Bytes} (hc : fs.Canonical folder)
    (h : fs.locate folder path = .ok l) : fs.Canonical l :=
  canonical_of_walk (hc.start path) (fun _ hm => Path.isName_of_down hm) (walk_of_locate h)

theorem walk_of_locate_join {base folder : Location} {path : Bytes} (hb : fs.Canonical base)
    (hp : Path.isAbsolute path = false) (h : fs.locate folder (Path.join base.written path) = .ok l) :
    fs.walk maxLinks base (Path.steps path) = .ok l := by
  have hw := walk_of_locate h
  rw [Path.start, if_pos (Path.isAbsolute_join_written base path), Path.steps_join_written hb.names hp,
    walk_stay_root, hb.walk] at hw
  exact hw

/-- Where a path leads below a canonical location: it is walked from there. -/
theorem locate_join {base : Location} {path : Bytes} (hb : fs.Canonical base)
    (hp : Path.isAbsolute path = false)
    (hz : (Path.join base.written path).contains 0 = false)
    (hs : (Path.join base.written path).length ≤ maxPath) (folder : Location) :
    fs.locate folder (Path.join base.written path) = fs.walk maxLinks base (Path.steps path) := by
  have ha := Path.isAbsolute_join_written base path
  have hne : Path.join base.written path ≠ [] := by
    intro h
    rw [h] at ha
    cases ha
  rw [locate_eq_walk hne hz hs, Path.start, if_pos ha, Path.steps_join_written hb.names hp,
    walk_stay_root, hb.walk]

section

variable {base folder : Location} {names : Location}

theorem locate_of_isAbsolute {path : Bytes} (h : Path.isAbsolute path = true)
    (folder folder' : Location) : fs.locate folder path = fs.locate folder' path := by
  have hs (folder : Location) : Path.start folder path = [] := by rw [Path.start, if_pos h]
  rw [locate, locate, hs, hs]

theorem walk_written (hn : ∀ name ∈ names, IsName name) (n : Nat) (folder : Location) :
    fs.walk n (Path.start folder (Location.written names)) (Path.steps (Location.written names)) =
      fs.walk n [] (names.map .down) := by
  rw [Path.start, if_pos (Path.isAbsolute_written names), Path.steps_written hn, walk_stay_root]
  split
  · rename_i h
    rw [h, walk_stay_root, List.map_nil]
  · rfl

theorem locate_written (hc : fs.Canonical base) (h : fs.locate folder base.written = .ok l) :
    l = base := by
  have hw := walk_of_locate h
  have hn := hc.walk maxLinks []
  rw [List.append_nil, ← walk_written hc.names maxLinks folder, hw, walk] at hn
  exact Except.ok.inj hn

theorem locate_written_append (hc : fs.Canonical base) (hn : ∀ name ∈ names, IsName name)
    (hz : (Location.written (base ++ names)).contains 0 = false)
    (hs : (Location.written (base ++ names)).length ≤ maxPath) (folder : Location) :
    fs.locate folder (Location.written (base ++ names)) = fs.walk maxLinks base (names.map .down) := by
  rw [locate_eq_walk (Path.written_ne_nil _) hz hs,
    walk_written (List.forall_mem_append.mpr ⟨hc.names, hn⟩), List.map_append, hc.walk]

theorem locate_canonical (hc : fs.Canonical base)
    (hz : (Location.written base).contains 0 = false)
    (hs : (Location.written base).length ≤ maxPath) (folder : Location) :
    fs.locate folder base.written = .ok base := by
  have h := hc.walk maxLinks []
  rw [List.append_nil] at h
  rw [locate_eq_walk (Path.written_ne_nil _) hz hs, walk_written hc.names, h, walk]

theorem reaches_eq_some : fs.reaches l = some here ↔ fs.locate [] l.written = .ok here := by
  unfold reaches
  cases fs.locate [] l.written <;> simp [Except.toOption]

theorem locate_of_reaches (h : fs.reaches l = some here) (folder : Location) :
    fs.locate folder l.written = .ok here := by
  rw [locate_of_isAbsolute (Path.isAbsolute_written l) folder []]
  exact reaches_eq_some.mp h

theorem canonical_of_reaches (h : fs.reaches l = some here) : fs.Canonical here :=
  canonical_of_locate .root (locate_of_reaches h [])

theorem reaches_canonical (hc : fs.Canonical l)
    (hz : (Location.written l).contains 0 = false)
    (hs : (Location.written l).length ≤ maxPath) : fs.reaches l = some l :=
  reaches_eq_some.mpr (locate_canonical hc hz hs [])

/-- What a path names, if that can be written out. -/
theorem canonicalized_eq_ok {path : Bytes} (hf : fs.Canonical folder) :
    fs.canonicalized folder path = .ok l ↔
      fs.locate folder path = .ok l ∧ fs.reaches l = some l := by
  unfold canonicalized
  cases hl : fs.locate folder path with
  | error e =>
    refine iff_of_false ?_ fun h => ?_
    · exact nofun
    · cases h.1
  | ok l' =>
    have hb : ((Except.ok l' : Except SystemError Location) >>= fun l => fs.locate [] l.written) =
        fs.locate [] l'.written := rfl
    rw [hb]
    constructor
    · intro h
      obtain rfl := locate_written (canonical_of_locate hf hl) h
      exact ⟨rfl, reaches_eq_some.mpr h⟩
    · rintro ⟨he, hr⟩
      obtain rfl := Except.ok.inj he
      exact reaches_eq_some.mp hr

theorem canonicalized_of_reaches {front here : Location} (h : fs.reaches front = some here) :
    fs.canonicalized [] front.written = fs.locate [] here.written := by
  rw [canonicalized, reaches_eq_some.mp h]
  rfl

theorem locate_join_nothing (hc : fs.Canonical base)
    (h : fs.locate folder (Path.join base.written []) = .ok l) :
    l = base ∧ fs.isFolderAt base = true := by
  have hw := walk_of_locate_join hc rfl h
  have hs : Path.steps [] = [.stay] := rfl
  rw [hs, walk] at hw
  split at hw
  · cases hw
  · rename_i hd
    rw [walk] at hw
    exact ⟨(Except.ok.inj hw).symm, by simpa [isFolderAt] using hd⟩

theorem isFile_eq_false {path : Bytes} (hd : fs.isFolderAt base = true)
    (h : ∀ l, fs.locate folder path = .ok l → l = base) : fs.isFile folder path = false := by
  cases hl : fs.locate folder path with
  | error e => rw [isFile, hl]
  | ok l =>
    obtain rfl := h l hl
    simp [isFile, hl, hd]

theorem isFile_join (hc : fs.Canonical base) (hd : fs.isFolderAt base = true)
    (hn : ∀ name ∈ names, IsName name) :
    fs.isFile folder (Path.join base.written (Text.joinWith Path.slash names)) =
      fs.isFile [] (Location.written (base ++ names)) := by
  by_cases he : names = []
  · have hj : Text.joinWith Path.slash ([] : Location) = [] := rfl
    rw [he, hj, List.append_nil, isFile_eq_false hd fun l hl => (locate_join_nothing hc hl).1,
      isFile_eq_false hd fun l => locate_written hc]
  · have hl : fs.locate folder (Location.written (base ++ names)) =
        fs.locate [] (Location.written (base ++ names)) :=
      locate_of_isAbsolute (Path.isAbsolute_written _) folder []
    rw [Path.join_written_joined hc.names hn he, isFile, isFile, hl]

end

end Relocate.FileSystem
