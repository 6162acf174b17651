import Relocate.Proofs.Files.Canonical

namespace Relocate.FileSystem

open Relocate.Path (Step)
open Utf8 (Bytes)

variable {fs : FileSystem} {here : Location} {steps : List Step} {n m : Nat}

theorem walk_no_link {name target : Bytes} {rest : List Step} (hf : fs.entry? here = some .folder)
    (hs : name.length ≤ maxName) (he : fs.entry? (here ++ [name]) = some (.link target)) :
    fs.walk 0 here (.down name :: rest) = .error .tooManyLinks := by
  rw [walk, if_neg (by simpa using hf), if_neg (by omega), he]

/-- A walk with more steps to go fails as it does without them, or goes on from where it arrives
with the links that are left. -/
theorem walk_append (fs : FileSystem) (n : Nat) (here : Location) (steps : List Step) :
    ∃ k ≤ n, ∀ rest,
      fs.walk n here (steps ++ rest) = (fs.walk n here steps).bind fun l => fs.walk k l rest := by
  fun_induction fs.walk n here steps with
  | case1 n here => exact ⟨n, Nat.le_refl n, fun rest => rfl⟩
  | case2 n here step steps hf => exact ⟨n, Nat.le_refl n, fun rest => walk_not_folder hf⟩
  | case3 n here steps hf ih =>
    obtain ⟨k, hk, hw⟩ := ih
    exact ⟨k, hk, fun rest => (walk_stay (by simpa using hf)).trans (hw rest)⟩
  | case4 n here steps hf ih =>
    obtain ⟨k, hk, hw⟩ := ih
    exact ⟨k, hk, fun rest => (walk_up (by simpa using hf)).trans (hw rest)⟩
  | case5 n here steps hf name hs =>
    refine ⟨n, Nat.le_refl n, fun rest => ?_⟩
    rw [List.cons_append, walk, if_neg hf, if_pos hs]
    rfl
  | case6 n here steps hf name hs he =>
    exact ⟨n, Nat.le_refl n, fun rest => walk_missing (by simpa using hf) (by omega) he⟩
  | case7 here steps hf name hs target he =>
    exact ⟨0, Nat.le_refl 0, fun rest => walk_no_link (by simpa using hf) (by omega) he⟩
  | case8 here steps hf name hs target he n ih =>
    obtain ⟨k, hk, hw⟩ := ih
    refine ⟨k, by omega, fun rest => ?_⟩
    rw [← hw rest, List.append_assoc]
    exact walk_link (by simpa using hf) (by omega) he
  | case9 n here steps hf name hs e hl he ih =>
    obtain ⟨k, hk, hw⟩ := ih
    exact ⟨k, hk, fun rest => (walk_down (by simpa using hf) (by omega) he hl).trans (hw rest)⟩

/-- With more links to follow, a walk ends as before, unless it ran out of them. -/
theorem walk_more_links {r : Except SystemError Location} (h : fs.walk n here steps = r)
    (hr : r ≠ .error .tooManyLinks) (hn : n ≤ m) : fs.walk m here steps = r := by
  fun_induction fs.walk n here steps generalizing m with
  | case1 n here =>
    rw [walk]
    exact h
  | case2 n here step steps hf => exact (walk_not_folder hf).trans h
  | case3 n here steps hf ih => exact (walk_stay (by simpa using hf)).trans (ih h hn)
  | case4 n here steps hf ih => exact (walk_up (by simpa using hf)).trans (ih h hn)
  | case5 n here steps hf name hs =>
    rw [walk, if_neg hf, if_pos hs]
    exact h
  | case6 n here steps hf name hs he =>
    exact (walk_missing (by simpa using hf) (by omega) he).trans h
  | case7 here steps hf name hs target he => exact absurd h.symm hr
  | case8 here steps hf name hs target he n ih =>
    obtain ⟨m, rfl⟩ : ∃ k, m = k + 1 := ⟨m - 1, by omega⟩
    exact (walk_link (by simpa using hf) (by omega) he).trans (ih h (by omega))
  | case9 n here steps hf name hs e hl he ih =>
    exact (walk_down (by simpa using hf) (by omega) he hl).trans (ih h hn)

end Relocate.FileSystem
