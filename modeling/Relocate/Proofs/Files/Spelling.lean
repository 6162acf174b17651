import Relocate.Path

namespace Relocate

open Utf8 (Bytes)

namespace Path

/-- A name that means a step down, and stays whole where a path is taken apart. -/
structure IsName (name : Bytes) : Prop where
  ne_nothing : name ≠ []
  ne_here : name ≠ [dot]
  ne_up : name ≠ [dot, dot]
  no_slash : slash ∉ name

theorem stepOf_of_isName {name : Bytes} (h : IsName name) : stepOf name = .down name := by
  simp [stepOf, h.ne_nothing, h.ne_here, h.ne_up]

theorem isName_of_down {path name : Bytes} (h : .down name ∈ steps path) : IsName name := by
  obtain ⟨piece, hp, hs⟩ := List.mem_map.mp h
  have hn : slash ∉ piece := Text.not_mem_of_mem_splitAt hp
  unfold stepOf at hs
  split at hs
  · cases hs
  · rename_i h₁
    split at hs
    · cases hs
    · rename_i h₂
      obtain rfl := Step.down.inj hs
      exact ⟨fun h => h₁ (.inl h), fun h => h₁ (.inr h), h₂, hn⟩

theorem isAbsolute_written (l : Location) : isAbsolute l.written = true := rfl

theorem written_ne_nil (l : Location) : l.written ≠ [] := List.cons_ne_nil _ _

theorem steps_append_slash (path rest : Bytes) :
    steps (path ++ slash :: rest) = steps path ++ steps rest := by
  rw [steps, steps, steps, Text.splitAt_append_sep, List.map_append]

variable {base names : Location}

/-- Names with slashes between them say where to go down. Without any name there is a step all the
same, which leads nowhere. -/
theorem steps_joined (h : ∀ name ∈ names, IsName name) :
    steps (Text.joinWith slash names) = if names = [] then [.stay] else names.map .down := by
  split
  · rename_i hn
    rw [hn]
    rfl
  · rename_i hn
    rw [steps, Text.splitAt_joinWith hn fun name hm => (h name hm).no_slash]
    exact List.map_congr_left fun name hm => stepOf_of_isName (h name hm)

theorem steps_written (h : ∀ name ∈ names, IsName name) :
    steps (Location.written names) = .stay :: if names = [] then [.stay] else names.map .down := by
  have ht : Location.written names = [] ++ slash :: Text.joinWith slash names := rfl
  rw [ht, steps_append_slash, steps_joined h]
  rfl

theorem parts_written (h : ∀ name ∈ names, IsName name) :
    parts (Location.written names) = locationParts names := by
  rw [parts, isAbsolute_written, steps_written h, locationParts]
  cases names with
  | nil => rfl
  | cons name names => simp [partOf?, Function.comp_def, List.filterMap_cons]

theorem joined_ne_nil (h : ∀ name ∈ names, IsName name) (hn : names ≠ []) :
    Text.joinWith slash names ≠ [] := by
  intro hj
  cases names with
  | nil => exact hn rfl
  | cons name names =>
    -- Were there nothing to read, there would be no step down.
    have hs := steps_joined h
    rw [hj] at hs
    cases hs

theorem isAbsolute_joined (h : ∀ name ∈ names, IsName name) :
    isAbsolute (Text.joinWith slash names) = false := by
  rw [isAbsolute]
  cases names with
  | nil => rfl
  | cons name names =>
    have hn := h name List.mem_cons_self
    cases name with
    | nil => exact absurd rfl hn.ne_nothing
    | cons b bs =>
      have hs : b ≠ slash := by
        rintro rfl
        exact hn.no_slash List.mem_cons_self
      cases names with
      | nil => simpa [Text.joinWith] using hs
      | cons next names => simpa [Text.joinWith] using hs

theorem written_concat (l : Location) (name : Bytes) :
    ∃ front, Location.written (l ++ [name]) = front ++ name := by
  rw [Location.written]
  cases l with
  | nil => exact ⟨[slash], rfl⟩
  | cons first l =>
    rw [Text.joinWith_append (by simp) (by simp)]
    exact ⟨slash :: (Text.joinWith slash (first :: l) ++ [slash]), by simp [Text.joinWith]⟩

theorem getLast?_written (h : ∀ name ∈ base, IsName name) (hn : base ≠ []) :
    (Location.written base).getLast? ≠ some slash := by
  obtain rfl | ⟨l, name, rfl⟩ := base.eq_nil_or_concat
  · exact absurd rfl hn
  · rw [List.concat_eq_append] at h ⊢
    have hname := h name (List.mem_append_right l (List.mem_singleton_self name))
    obtain ⟨front, ht⟩ := written_concat l name
    rw [ht, List.getLast?_append, List.getLast?_eq_some_getLast hname.ne_nothing]
    intro he
    exact hname.no_slash (Option.some.inj he ▸ List.getLast_mem hname.ne_nothing)

theorem join_absolute {path : Bytes} (h : isAbsolute path = true) (base : Bytes) :
    join base path = path :=
  if_pos (.inl (by simpa [isAbsolute] using h))

theorem join_written (h : ∀ name ∈ base, IsName name) {path : Bytes} (hp : isAbsolute path = false) :
    join (Location.written base) path =
      if base = [] then slash :: path else Location.written base ++ slash :: path := by
  have hrelative : ¬ (path.head? = some slash ∨ Location.written base = []) := by
    simpa [isAbsolute, written_ne_nil] using hp
  rw [join, joinAt, if_neg hrelative]
  by_cases hb : base = []
  · rw [if_pos hb, hb]
    rfl
  · rw [if_neg hb, if_neg (getLast?_written h hb)]

theorem steps_join_written (h : ∀ name ∈ base, IsName name) {path : Bytes}
    (hp : isAbsolute path = false) :
    steps (join (Location.written base) path) = .stay :: (base.map .down ++ steps path) := by
  rw [join_written h hp]
  split
  · rename_i hb
    rw [hb]
    exact steps_append_slash [] path
  · rename_i hb
    rw [steps_append_slash, steps_written h, if_neg hb]
    rfl

theorem join_written_joined (hb : ∀ name ∈ base, IsName name) (h : ∀ name ∈ names, IsName name)
    (hn : names ≠ []) : join (Location.written base) (Text.joinWith slash names) =
      Location.written (base ++ names) := by
  rw [join_written hb (isAbsolute_joined h)]
  cases base with
  | nil => rfl
  | cons name base =>
    rw [if_neg (List.cons_ne_nil name base), Location.written, Location.written,
      Text.joinWith_append (List.cons_ne_nil name base) hn]
    rfl

theorem isAbsolute_join_written (base : Location) (path : Bytes) :
    isAbsolute (join (Location.written base) path) = true := by
  unfold join joinAt
  split
  · rename_i h
    simpa [isAbsolute] using h.resolve_right (written_ne_nil base)
  · split <;> rfl

end Path

end Relocate
