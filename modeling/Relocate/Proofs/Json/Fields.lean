import Mathlib.Data.List.Induction
import Relocate.Json.Value

namespace Relocate.Fields

theorem get?_nil (key : String) : get? [] key = none := rfl

theorem get?_cons (f : String × Json) (fs : Fields) (key : String) :
    get? (f :: fs) key = if key = f.1 then some f.2 else get? fs key := by
  obtain ⟨k, v⟩ := f
  by_cases h : key = k
  · simp [get?, h]
  · have hb : (key == k) = false := beq_false_of_ne h
    simp [get?, List.lookup_cons, hb, h]

theorem get?_append (fs gs : Fields) (key : String) :
    get? (fs ++ gs) key = (get? fs key).or (get? gs key) := List.lookup_append

theorem get?_insert (key : String) (v : Json) (fs : Fields) (key' : String) :
    get? (insert key v fs) key' = if key' = key then some v else get? fs key' := by
  induction fs with
  | nil => rw [insert, get?_cons]
  | cons f fs ih =>
    rw [insert]
    by_cases hlt : key < f.1
    · rw [if_pos hlt, get?_cons]
    rw [if_neg hlt]
    by_cases heq : key = f.1
    · rw [if_pos heq, get?_cons, get?_cons]
      by_cases h : key' = key
      · rw [if_pos h, if_pos h]
      · rw [if_neg h, if_neg h, if_neg fun h' => h (h'.trans heq.symm)]
    · rw [if_neg heq, get?_cons, get?_cons, ih]
      by_cases h : key' = f.1
      · rw [if_pos h, if_pos h, if_neg fun h' => heq (h'.symm.trans h)]
      · rw [if_neg h, if_neg h]

/-- Of fields with one key the last one counts. -/
theorem get?_ofList (fs : Fields) (key : String) : get? (ofList fs) key = get? fs.reverse key := by
  rw [ofList, List.foldl_eq_foldr_reverse]
  induction fs.reverse with
  | nil => rfl
  | cons f fs ih => rw [List.foldr_cons, get?_insert, get?_cons, ih]

theorem get?_filter (p : String → Bool) (fs : Fields) (key : String) :
    get? (fs.filter fun f => p f.1) key = if p key then get? fs key else none := by
  induction fs with
  | nil => cases p key <;> rfl
  | cons f fs ih =>
    rw [List.filter_cons, get?_cons]
    by_cases hk : key = f.1
    · subst hk
      rw [if_pos rfl]
      cases hp : p f.1 with
      | true => rw [if_pos rfl, get?_cons, if_pos rfl, if_pos rfl]
      | false =>
        rw [if_neg Bool.false_ne_true, ih, hp]
        rfl
    · rw [if_neg hk]
      cases hp : p f.1 with
      | true => rw [if_pos rfl, get?_cons, if_neg hk, ih]
      | false => rw [if_neg Bool.false_ne_true, ih]

theorem get?_map (g : Json → Json) (fs : Fields) (key : String) :
    get? (fs.map fun f => (f.1, g f.2)) key = (get? fs key).map g := by
  induction fs with
  | nil => rfl
  | cons f fs ih =>
    rw [List.map_cons, get?_cons, get?_cons, ih]
    split <;> rfl

theorem mem_of_get? {fs : Fields} {key : String} {v : Json} (h : get? fs key = some v) :
    (key, v) ∈ fs := by
  induction fs with
  | nil => cases h
  | cons f fs ih =>
    rw [get?_cons] at h
    split at h
    · rename_i hk
      obtain rfl := Option.some.inj h
      rw [hk]
      exact List.mem_cons_self
    · exact List.mem_cons_of_mem f (ih h)

theorem get?_of_mem {fs : Fields} (hn : (fs.map Prod.fst).Nodup) {f : String × Json} (hf : f ∈ fs) :
    get? fs f.1 = some f.2 := by
  induction fs with
  | nil => cases hf
  | cons g fs ih =>
    rw [List.map_cons, List.nodup_cons] at hn
    rw [get?_cons]
    obtain rfl | hf := List.mem_cons.mp hf
    · rw [if_pos rfl]
    · have hne : f.1 ≠ g.1 := fun h => hn.1 (h ▸ List.mem_map_of_mem hf)
      rw [if_neg hne, ih hn.2 hf]

theorem get?_perm {fs gs : Fields} (hp : fs.Perm gs) (hn : (fs.map Prod.fst).Nodup) (key : String) :
    get? fs key = get? gs key := by
  have hn' : (gs.map Prod.fst).Nodup := (hp.map _).nodup_iff.mp hn
  refine Option.ext fun v => ⟨fun h => ?_, fun h => ?_⟩
  · exact get?_of_mem hn' (hp.mem_iff.mp (mem_of_get? h))
  · exact get?_of_mem hn (hp.mem_iff.mpr (mem_of_get? h))

def Ascending (fs : Fields) : Prop := fs.Pairwise fun f g => f.1 < g.1

theorem lt_of_not_lt {a b : String} (h : ¬ a < b) (hn : a ≠ b) : b < a :=
  Classical.byContradiction fun h' => hn (String.le_antisymm h' h)

theorem mem_insert {key : String} {v : Json} {fs : Fields} {f : String × Json}
    (h : f ∈ insert key v fs) : f = (key, v) ∨ f ∈ fs := by
  induction fs with
  | nil => exact .inl (List.mem_singleton.mp h)
  | cons g fs ih =>
    rw [insert] at h
    split at h
    · exact List.mem_cons.mp h
    · split at h
      · exact (List.mem_cons.mp h).imp_right (List.mem_cons_of_mem g)
      · obtain rfl | h := List.mem_cons.mp h
        · exact .inr List.mem_cons_self
        · exact (ih h).imp_right (List.mem_cons_of_mem g)

theorem Ascending.insert {fs : Fields} (h : Ascending fs) (key : String) (v : Json) :
    Ascending (insert key v fs) := by
  induction fs with
  | nil => exact List.pairwise_singleton _ _
  | cons g fs ih =>
    obtain ⟨hg, hs⟩ := List.pairwise_cons.mp h
    rw [Fields.insert]
    by_cases hlt : key < g.1
    · rw [if_pos hlt]
      refine List.pairwise_cons.mpr ⟨List.forall_mem_cons.mpr ⟨hlt, fun f hf => ?_⟩, h⟩
      exact String.lt_trans hlt (hg f hf)
    rw [if_neg hlt]
    by_cases heq : key = g.1
    · subst heq
      rw [if_pos rfl]
      exact List.pairwise_cons.mpr ⟨hg, hs⟩
    · rw [if_neg heq]
      refine List.pairwise_cons.mpr ⟨fun f hf => ?_, ih hs⟩
      obtain rfl | hf := mem_insert hf
      · exact lt_of_not_lt hlt heq
      · exact hg f hf

theorem ofList_append_singleton (fs : Fields) (f : String × Json) :
    ofList (fs ++ [f]) = insert f.1 f.2 (ofList fs) := by
  rw [ofList, List.foldl_append]
  rfl

theorem ascending_ofList (fs : Fields) : Ascending (ofList fs) := by
  induction fs using List.reverseRecOn with
  | nil => exact List.Pairwise.nil
  | append_singleton fs f ih =>
    rw [ofList_append_singleton]
    exact ih.insert f.1 f.2

theorem mem_ofList {fs : Fields} {f : String × Json} (h : f ∈ ofList fs) : f ∈ fs := by
  induction fs using List.reverseRecOn with
  | nil => cases h
  | append_singleton fs g ih =>
    rw [ofList_append_singleton] at h
    obtain rfl | h := mem_insert h
    · exact List.mem_append_right fs List.mem_cons_self
    · exact List.mem_append_left _ (ih h)

theorem insert_last {fs : Fields} {key : String} (h : ∀ f ∈ fs, f.1 < key) (v : Json) :
    insert key v fs = fs ++ [(key, v)] := by
  induction fs with
  | nil => rfl
  | cons f fs ih =>
    obtain ⟨hf, hs⟩ := List.forall_mem_cons.mp h
    have hne : key ≠ f.1 := fun he => String.lt_irrefl key (he ▸ hf)
    rw [insert, if_neg fun hlt => String.lt_asymm hf hlt, if_neg hne, ih hs, List.cons_append]

theorem ofList_of_ascending {fs : Fields} (h : Ascending fs) : ofList fs = fs := by
  induction fs using List.reverseRecOn with
  | nil => rfl
  | append_singleton fs f ih =>
    obtain ⟨hs, -, hf⟩ := List.pairwise_append.mp h
    rw [ofList_append_singleton, ih hs, insert_last fun g hg => hf g hg f List.mem_cons_self]

theorem perm_insert {fs : Fields} {key : String} (h : key ∉ fs.map Prod.fst) (v : Json) :
    (insert key v fs).Perm ((key, v) :: fs) := by
  induction fs with
  | nil => exact List.Perm.refl _
  | cons f fs ih =>
    rw [List.map_cons, List.mem_cons, not_or] at h
    rw [insert]
    split
    · exact List.Perm.refl _
    · rw [if_neg h.1]
      exact ((ih h.2).cons f).trans (List.Perm.swap _ _ _)

theorem perm_ofList {fs : Fields} (h : (fs.map Prod.fst).Nodup) : (ofList fs).Perm fs := by
  induction fs using List.reverseRecOn with
  | nil => exact List.Perm.refl _
  | append_singleton fs f ih =>
    rw [List.map_append, List.nodup_append] at h
    obtain ⟨hs, -, hf⟩ := h
    have hn : f.1 ∉ (ofList fs).map Prod.fst := fun hm =>
      hf _ (((ih hs).map _).mem_iff.mp hm) _ List.mem_cons_self rfl
    rw [ofList_append_singleton]
    exact (perm_insert hn f.2).trans (((ih hs).cons f).trans (List.perm_append_singleton f fs).symm)

theorem Ascending.nodup {fs : Fields} (h : Ascending fs) : (fs.map Prod.fst).Nodup := by
  refine List.pairwise_map.mpr (h.imp fun hlt heq => ?_)
  rw [heq] at hlt
  exact String.lt_irrefl _ hlt

end Relocate.Fields
