import Relocate.Proofs.Files.Canonical

namespace Relocate.FileSystem

open Relocate.Path (IsName)
open Utf8 (Bytes)

/-- Makes the folders along `names` that are missing. What is there stays as it is, and no folder is
made in its place. -/
def makeMissing (fs : FileSystem) (here : Location) : Location → Except SystemError FileSystem
  | [] => if fs.isFolderAt here then .ok fs else .error .notDirectory
  | name :: rest =>
    match fs.walk maxLinks here [.down name] with
    | .ok l => fs.makeMissing l rest
    | .error e =>
      if e = .noSuchEntry ∧ fs.entry? (here ++ [name]) = none then
        (fs.put (here ++ [name]) .folder).makeMissing (here ++ [name]) rest
      else .error e

def makePath (fs : FileSystem) (l : Location) : Except SystemError FileSystem :=
  if l.written.contains 0 then .error .nulInName
  else if maxPath < l.written.length then .error .nameTooLong
  else fs.makeMissing [] l

/-- A later file system in which only folders were made where nothing was. -/
def Grows (fs fs' : FileSystem) : Prop :=
  ∀ l, fs'.entry? l = fs.entry? l ∨ fs.entry? l = none ∧ fs'.entry? l = some .folder

def Clear (fs : FileSystem) (here : Location) (names : Location) : Prop :=
  ∀ front, front <+: names →
    fs.entry? (here ++ front) = none ∨ fs.entry? (here ++ front) = some .folder

variable {fs fs' fs'' : FileSystem} {here l : Location} {names rest : Location}

namespace Grows

theorem refl (fs : FileSystem) : fs.Grows fs := fun _ => .inl rfl

theorem trans (h : fs.Grows fs') (h' : fs'.Grows fs'') : fs.Grows fs'' := by
  intro l
  obtain he | ⟨hn, hf⟩ := h l
  · obtain he' | ⟨hn', hf'⟩ := h' l
    · exact .inl (he'.trans he)
    · exact .inr ⟨he.symm.trans hn', hf'⟩
  · obtain he' | ⟨hn', -⟩ := h' l
    · exact .inr ⟨hn, he'.trans hf⟩
    · rw [hf] at hn'
      cases hn'

theorem put (hl : l ≠ []) (h : fs.entry? l = none) : fs.Grows (fs.put l .folder) := by
  intro l'
  rw [entry_put l l' .folder hl]
  by_cases he : l' = l
  · exact .inr ⟨he ▸ h, if_pos he⟩
  · exact .inl (if_neg he)

theorem entry {e : Entry} (h : fs.Grows fs') (he : fs.entry? l = some e) :
    fs'.entry? l = some e := by
  obtain hs | ⟨hn, -⟩ := h l
  · rw [hs, he]
  · rw [he] at hn
    cases hn

theorem canonical (h : fs.Grows fs') (hc : fs.Canonical l) : fs'.Canonical l := by
  induction hc with
  | root => exact .root
  | child hc hf hn hs he hl ih => exact .child ih (h.entry hf) hn hs (h.entry he) hl

theorem clear (h : fs.Grows fs')
    (hf : ∀ front, front <+: names → fs'.entry? (here ++ front) = some .folder) :
    fs.Clear here names := by
  intro front hp
  obtain hs | ⟨hn, -⟩ := h (here ++ front)
  · exact .inr (hs.symm.trans (hf front hp))
  · exact .inl hn

end Grows

theorem makeMissing_grows (h : fs.makeMissing here names = .ok fs') : fs.Grows fs' := by
  induction names generalizing fs here with
  | nil =>
    unfold makeMissing at h
    split at h
    · rw [Except.ok.inj h]
      exact .refl _
    · cases h
  | cons name rest ih =>
    unfold makeMissing at h
    split at h
    · exact ih h
    · split at h
      · rename_i he
        exact (Grows.put (by simp) he.2).trans (ih h)
      · cases h

namespace Canonical

theorem short (h : fs.Canonical l) : ∀ name ∈ l, name.length ≤ maxName := by
  induction h with
  | root => exact List.forall_mem_nil _
  | child h hf hn hs he hl ih =>
    exact List.forall_mem_append.mpr ⟨ih, List.forall_mem_singleton.mpr hs⟩

theorem entry (h : fs.Canonical l) : ∃ e, fs.entry? l = some e := by
  cases h with
  | root => exact ⟨.folder, rfl⟩
  | child h hf hn hs he hl => exact ⟨_, he⟩

theorem of_prefix {front : Location} (h : fs.Canonical l) (hp : front <+: l) :
    fs.Canonical front := by
  induction h with
  | root =>
    rw [List.prefix_nil.mp hp]
    exact .root
  | child h hf hn hs he hl ih =>
    obtain rfl | hp := List.prefix_concat_iff.mp hp
    · exact .child h hf hn hs he hl
    · exact ih hp

theorem folders (h : fs.Canonical l) (hd : fs.entry? l = some .folder) :
    ∀ front, front <+: l → fs.entry? front = some .folder := by
  induction h with
  | root =>
    intro front hp
    rw [List.prefix_nil.mp hp]
    rfl
  | child h hf hn hs he hl ih =>
    intro front hp
    obtain rfl | hp := List.prefix_concat_iff.mp hp
    · exact hd
    · exact ih hf front hp

theorem append (hc : fs.Canonical here) (hn : ∀ name ∈ names, IsName name)
    (hs : ∀ name ∈ names, name.length ≤ maxName)
    (hf : ∀ front, front <+: names → fs.entry? (here ++ front) = some .folder) :
    fs.Canonical (here ++ names) := by
  induction names generalizing here with
  | nil =>
    rw [List.append_nil]
    exact hc
  | cons name rest ih =>
    obtain ⟨hname, hn⟩ := List.forall_mem_cons.mp hn
    obtain ⟨hshort, hs⟩ := List.forall_mem_cons.mp hs
    have hd := hf [] List.nil_prefix
    have he := hf [name] (by simp)
    rw [List.append_nil] at hd
    rw [List.append_cons]
    refine ih (hc.child hd hname hshort he (by simp)) hn hs fun front hp => ?_
    have hfront := hf (name :: front) ((List.prefix_cons_inj name).mpr hp)
    rwa [List.append_cons] at hfront

end Canonical

theorem Clear.tail {name : Bytes} (h : fs.Clear here (name :: rest)) :
    fs.Clear (here ++ [name]) rest := by
  intro front hp
  have hf := h (name :: front) ((List.prefix_cons_inj name).mpr hp)
  rwa [List.append_cons] at hf

/-- Where nothing but folders is in the way, all folders are there in the end. -/
theorem Clear.makeMissing (h : fs.Clear here names) (hd : fs.entry? here = some .folder)
    (hs : ∀ name ∈ names, name.length ≤ maxName) :
    ∃ fs', fs.makeMissing here names = .ok fs' ∧
      ∀ front, front <+: names → fs'.entry? (here ++ front) = some .folder := by
  induction names generalizing fs here with
  | nil =>
    refine ⟨fs, ?_, fun front hp => ?_⟩
    · rw [FileSystem.makeMissing, isFolderAt, hd]
      rfl
    · rw [List.prefix_nil.mp hp, List.append_nil]
      exact hd
  | cons name rest ih =>
    have hname : name.length ≤ maxName := hs name List.mem_cons_self
    have hrest : ∀ s ∈ rest, s.length ≤ maxName := fun s hm => hs s (List.mem_cons_of_mem _ hm)
    have hstep := h [name] (by simp)
    -- Either way the folder of this name is there when the rest is made.
    obtain ⟨fs₁, hg, hmake, hclear, hfolder⟩ : ∃ fs₁, fs.Grows fs₁ ∧
        fs.makeMissing here (name :: rest) = fs₁.makeMissing (here ++ [name]) rest ∧
        fs₁.Clear (here ++ [name]) rest ∧ fs₁.entry? (here ++ [name]) = some .folder := by
      obtain hnone | hsome := hstep
      · have hne : here ++ [name] ≠ [] := by simp
        refine ⟨_, .put hne hnone, ?_, fun front hp => ?_, ?_⟩
        · rw [FileSystem.makeMissing, walk_missing hd hname hnone]
          exact if_pos ⟨rfl, hnone⟩
        · rw [entry_put _ _ _ hne]
          by_cases he : here ++ [name] ++ front = here ++ [name]
          · exact .inr (if_pos he)
          · rw [if_neg he]
            exact h.tail front hp
        · rw [entry_put _ _ _ hne, if_pos rfl]
      · refine ⟨fs, .refl fs, ?_, h.tail, hsome⟩
        rw [FileSystem.makeMissing, walk_down hd hname hsome (by simp), walk]
    obtain ⟨fs', hok, hall⟩ := ih hclear hfolder hrest
    refine ⟨fs', hmake.trans hok, fun front hp => ?_⟩
    cases front with
    | nil =>
      rw [List.append_nil]
      exact (hg.trans (makeMissing_grows hok)).entry hd
    | cons first front =>
      obtain ⟨rfl, hp'⟩ := List.cons_prefix_cons.mp hp
      rw [List.append_cons]
      exact hall front hp'

theorem Clear.linkFree (h : fs.Clear here names) : fs.LinkFree here names := by
  intro front hp hne target ht
  obtain hn | hf := h front hp
  · rw [hn] at ht
    cases ht
  · rw [hf] at ht
    cases ht

theorem makePath_ok (h : fs.makePath l = .ok fs') : l.written.contains 0 = false ∧
    l.written.length ≤ maxPath ∧ fs.makeMissing [] l = .ok fs' := by
  unfold makePath at h
  split at h
  · cases h
  · rename_i hz
    split at h
    · cases h
    · rename_i hs
      exact ⟨by simpa using hz, by omega, h⟩

end Relocate.FileSystem
