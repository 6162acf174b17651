import Relocate.Proofs.Source.Offset

namespace Relocate.Source

def unixEnd (c : Char) : Char := if c = '\r' then '\n' else c

theorem unixLines_pair (s : List Char) : unixLines ('\r' :: '\n' :: s) = '\n' :: unixLines s := by
  rw [unixLines, joinPairs]
  rfl

theorem unixLines_cons {c : Char} {s : List Char} (h : c = '\r' → s.head? ≠ some '\n') :
    unixLines (c :: s) = unixEnd c :: unixLines s := by
  rw [unixLines, joinPairs_cons h]
  rfl

theorem unixLines_starts (c : Char) (s : List Char) :
    ∃ rest, unixLines (c :: s) = unixEnd c :: rest := by
  by_cases h : c = '\r' → s.head? ≠ some '\n'
  · exact ⟨_, unixLines_cons h⟩
  · obtain ⟨rfl, hs⟩ : c = '\r' ∧ s.head? = some '\n' := by simpa using h
    obtain ⟨s', rfl⟩ := List.head?_eq_some_iff.mp hs
    exact ⟨_, unixLines_pair s'⟩

theorem unixLines_eq_nil {s : List Char} : unixLines s = [] ↔ s = [] := by
  cases s with
  | nil => exact iff_of_true rfl rfl
  | cons c s =>
    obtain ⟨rest, hr⟩ := unixLines_starts c s
    rw [hr]
    exact iff_of_false (List.cons_ne_nil _ _) (List.cons_ne_nil _ _)

theorem length_unixLines_le (s : List Char) : (unixLines s).length ≤ s.length := by
  rw [unixLines, List.length_map]
  induction s using joinPairs.induct with
  | case1 => exact Nat.le_refl 0
  | case2 s ih =>
    rw [joinPairs]
    simp only [List.length_cons]
    omega
  | case3 c s h ih =>
    rw [joinPairs]
    · simp only [List.length_cons]
      omega
    · exact h

/-- A text that is cut has the line ends of its parts, but for a pair that the cut goes through: the
line end is all in the first part. -/
theorem unixLines_append (t : List Char) (c : Char) (u : List Char) :
    unixLines (t ++ c :: u) =
      unixLines t ++ unixLines (if t.getLast? = some '\r' ∧ c = '\n' then u else c :: u) := by
  induction t using joinPairs.induct with
  | case1 => simp [unixLines, joinPairs]
  | case2 s ih =>
    -- The pair itself does not end in a carriage return, so the cut can only go through a later one.
    have hl : ('\r' :: '\n' :: s).getLast? = some '\r' ↔ s.getLast? = some '\r' := by
      cases s <;> simp
    rw [List.cons_append, List.cons_append, unixLines_pair, unixLines_pair, ih, List.cons_append]
    simp only [hl]
  | case3 a s h ih =>
    cases s with
    | nil =>
      have ha : unixLines [a] = [unixEnd a] := unixLines_cons (by simp)
      rw [List.cons_append, List.nil_append, ha]
      by_cases hp : a = '\r' ∧ c = '\n'
      · obtain ⟨rfl, rfl⟩ := hp
        rw [unixLines_pair]
        rfl
      · have hc : unixLines (a :: c :: u) = unixEnd a :: unixLines (c :: u) :=
          unixLines_cons (by simpa using hp)
        rw [hc]
        simp [hp]
    | cons d s =>
      have hd : a = '\r' → d ≠ '\n' := fun ha hd => h s ha (by rw [hd])
      have h1 : unixLines (a :: d :: s) = unixEnd a :: unixLines (d :: s) :=
        unixLines_cons (by simpa using hd)
      have h2 : unixLines (a :: (d :: s ++ c :: u)) = unixEnd a :: unixLines (d :: s ++ c :: u) :=
        unixLines_cons (by simpa using hd)
      rw [List.cons_append, h1, h2, ih, List.getLast?_cons_cons, List.cons_append]

end Relocate.Source
