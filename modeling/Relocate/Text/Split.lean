namespace Relocate.Text

section

variable {α : Type}

def joinWith (sep : α) : List (List α) → List α
  | [] => []
  | [piece] => piece
  | piece :: next :: pieces => piece ++ sep :: joinWith sep (next :: pieces)

theorem joinWith_append {sep : α} {ps qs : List (List α)} (hp : ps ≠ []) (hq : qs ≠ []) :
    joinWith sep (ps ++ qs) = joinWith sep ps ++ sep :: joinWith sep qs := by
  induction ps with
  | nil => exact absurd rfl hp
  | cons p ps ih =>
    cases ps with
    | nil =>
      cases qs with
      | nil => exact absurd rfl hq
      | cons q qs => rfl
    | cons p' ps =>
      have ht := ih (List.cons_ne_nil p' ps)
      rw [List.cons_append] at ht
      simp only [List.cons_append, joinWith, ht, List.append_assoc]

variable [DecidableEq α]

def splitAt (sep : α) : List α → List (List α)
  | [] => [[]]
  | c :: s =>
    match splitAt sep s with
    | [] => [[c]]
    | piece :: pieces => if c = sep then [] :: piece :: pieces else (c :: piece) :: pieces

theorem splitAt_ne_nil (sep : α) (s : List α) : splitAt sep s ≠ [] := by
  induction s with
  | nil => simp [splitAt]
  | cons c s ih =>
    unfold splitAt
    split
    · simp
    · split <;> simp

theorem splitAt_cons_sep (sep : α) (s : List α) :
    splitAt sep (sep :: s) = [] :: splitAt sep s := by
  rw [splitAt]
  cases h : splitAt sep s with
  | nil => exact absurd h (splitAt_ne_nil sep s)
  | cons piece pieces => simp

theorem splitAt_cons {sep c : α} (hc : c ≠ sep) {s piece : List α} {pieces : List (List α)}
    (h : splitAt sep s = piece :: pieces) : splitAt sep (c :: s) = (c :: piece) :: pieces := by
  rw [splitAt, h]
  simp [hc]

theorem splitAt_of_not_mem {sep : α} {piece : List α} (h : sep ∉ piece) :
    splitAt sep piece = [piece] := by
  induction piece with
  | nil => rfl
  | cons c piece ih =>
    rw [List.mem_cons, not_or] at h
    exact splitAt_cons (Ne.symm h.1) (ih h.2)

theorem splitAt_append_sep (sep : α) (s t : List α) :
    splitAt sep (s ++ sep :: t) = splitAt sep s ++ splitAt sep t := by
  induction s with
  | nil => exact splitAt_cons_sep sep t
  | cons c s ih =>
    by_cases hc : c = sep
    · rw [hc, List.cons_append, splitAt_cons_sep, splitAt_cons_sep, ih, List.cons_append]
    · cases hs : splitAt sep s with
      | nil => exact absurd hs (splitAt_ne_nil sep s)
      | cons piece pieces =>
        rw [hs, List.cons_append] at ih
        rw [List.cons_append, splitAt_cons hc ih, splitAt_cons hc hs, List.cons_append]

theorem splitAt_append {sep : α} {piece : List α} (h : sep ∉ piece) (s : List α) :
    splitAt sep (piece ++ sep :: s) = piece :: splitAt sep s := by
  rw [splitAt_append_sep, splitAt_of_not_mem h, List.singleton_append]

theorem splitAt_cases (sep : α) (s : List α) :
    sep ∉ s ∧ splitAt sep s = [s] ∨
      ∃ piece rest, s = piece ++ sep :: rest ∧ splitAt sep s = piece :: splitAt sep rest := by
  by_cases h : sep ∈ s
  · obtain ⟨piece, rest, rfl, hp⟩ := List.eq_append_cons_of_mem h
    exact .inr ⟨piece, rest, rfl, splitAt_append hp rest⟩
  · exact .inl ⟨h, splitAt_of_not_mem h⟩

theorem headD_splitAt (sep : α) (s : List α) :
    (splitAt sep s).headD [] = s.takeWhile (· ≠ sep) := by
  induction s with
  | nil => rfl
  | cons c s ih =>
    by_cases hc : c = sep
    · rw [hc, splitAt_cons_sep]
      simp
    · cases hs : splitAt sep s with
      | nil => exact absurd hs (splitAt_ne_nil sep s)
      | cons piece pieces =>
        rw [hs, List.headD_cons] at ih
        rw [splitAt_cons hc hs, List.headD_cons, ih]
        simp [hc]

theorem not_mem_of_mem_splitAt {sep : α} {s piece : List α} (h : piece ∈ splitAt sep s) :
    sep ∉ piece := by
  induction s generalizing piece with
  | nil =>
    obtain rfl : piece = [] := List.mem_singleton.mp h
    exact List.not_mem_nil
  | cons c s ih =>
    cases hs : splitAt sep s with
    | nil => exact absurd hs (splitAt_ne_nil sep s)
    | cons first pieces =>
      rw [hs] at ih
      by_cases hc : c = sep
      · rw [hc, splitAt_cons_sep, hs] at h
        obtain rfl | h := List.mem_cons.mp h
        · exact List.not_mem_nil
        · exact ih h
      · rw [splitAt_cons hc hs] at h
        obtain rfl | h := List.mem_cons.mp h
        · have hf : sep ∉ first := ih List.mem_cons_self
          simp [hf, Ne.symm hc]
        · exact ih (List.mem_cons_of_mem first h)

theorem splitAt_joinWith {sep : α} {pieces : List (List α)} (hne : pieces ≠ [])
    (h : ∀ piece ∈ pieces, sep ∉ piece) : splitAt sep (joinWith sep pieces) = pieces := by
  induction pieces with
  | nil => exact absurd rfl hne
  | cons piece pieces ih =>
    cases pieces with
    | nil => exact splitAt_of_not_mem (h piece (by simp))
    | cons next rest =>
      rw [joinWith, splitAt_append (h piece (by simp)),
        ih (by simp) fun p hp => h p (List.mem_cons_of_mem piece hp)]

end

def firstLine (s : String) : String :=
  let line := s.toList.takeWhile (· ≠ '\n')
  if line.length < s.length ∧ line.getLast? = some '\r' then String.ofList line.dropLast
  else String.ofList line

def untilEmptyLine : List Char → List Char
  | '\n' :: '\n' :: _ => []
  | c :: s => c :: untilEmptyLine s
  | [] => []

def firstParagraph (s : String) : String := String.ofList (untilEmptyLine s.toList)

def pieces (sep : Char) (s : String) : List String := (splitAt sep s.toList).map String.ofList

def joined (sep : Char) (ss : List String) : String :=
  String.ofList (joinWith sep (ss.map String.toList))

end Relocate.Text
