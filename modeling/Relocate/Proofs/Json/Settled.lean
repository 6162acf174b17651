import Relocate.Proofs.Json.Fields
import Relocate.Proofs.Json.Tree

namespace Relocate.Json

theorem tree_induction {P : Json → Prop} (null : P .null) (bool : ∀ b, P (.bool b))
    (int : ∀ n, P (.int n)) (float : ∀ x, P (.float x)) (string : ∀ s, P (.string s))
    (array : ∀ vs, (∀ v ∈ vs, P v) → P (.array vs))
    (object : ∀ fs : List (String × Json), (∀ f ∈ fs, P f.2) → P (.object fs)) (v : Json) : P v :=
  @Json.rec P (fun vs => ∀ v ∈ vs, P v) (fun fs => ∀ f ∈ fs, P f.2) (fun f => P f.2)
    null bool int float string array object
    (List.forall_mem_nil P) (fun _ _ hv hvs => List.forall_mem_cons.mpr ⟨hv, hvs⟩)
    (List.forall_mem_nil _) (fun _ _ hf hfs => List.forall_mem_cons.mpr ⟨hf, hfs⟩)
    (fun _ _ hv => hv) v

mutual

def leaves : Json → List Json
  | .null => [.null]
  | .bool b => [.bool b]
  | .int n => [.int n]
  | .float x => [.float x]
  | .string s => [.string s]
  | .array vs => itemLeaves vs
  | .object fs => fieldLeaves fs

def itemLeaves : List Json → List Json
  | [] => []
  | v :: vs => leaves v ++ itemLeaves vs

def fieldLeaves : List (String × Json) → List Json
  | [] => []
  | (_, v) :: fs => leaves v ++ fieldLeaves fs

end

theorem mem_itemLeaves {a : Json} {vs : List Json} :
    a ∈ itemLeaves vs ↔ ∃ v ∈ vs, a ∈ v.leaves := by
  induction vs with
  | nil => simp [itemLeaves]
  | cons v vs ih => simp [itemLeaves, ih]

theorem mem_fieldLeaves {a : Json} {fs : List (String × Json)} :
    a ∈ fieldLeaves fs ↔ ∃ f ∈ fs, a ∈ f.2.leaves := by
  induction fs with
  | nil => simp [fieldLeaves]
  | cons f fs ih =>
    obtain ⟨k, v⟩ := f
    simp [fieldLeaves, ih]

theorem settledItems_eq (vs : List Json) : settledItems vs = vs.map settled := by
  induction vs with
  | nil => rfl
  | cons v vs ih => rw [settledItems, ih, List.map_cons]

theorem settledFields_eq (fs : List (String × Json)) :
    settledFields fs = fs.map fun f => (f.1, f.2.settled) := by
  induction fs with
  | nil => rfl
  | cons f fs ih =>
    obtain ⟨k, v⟩ := f
    rw [settledFields, ih, List.map_cons]

theorem itemsDepth_le {vs : List Json} {d : Nat} :
    itemsDepth vs ≤ d ↔ ∀ v ∈ vs, v.depth ≤ d := by
  induction vs with
  | nil => simp [itemsDepth]
  | cons v vs ih => rw [itemsDepth, Nat.max_le, ih, List.forall_mem_cons]

theorem fieldsDepth_le {fs : List (String × Json)} {d : Nat} :
    fieldsDepth fs ≤ d ↔ ∀ f ∈ fs, f.2.depth ≤ d := by
  induction fs with
  | nil => simp [fieldsDepth]
  | cons f fs ih =>
    obtain ⟨k, v⟩ := f
    rw [fieldsDepth, Nat.max_le, ih, List.forall_mem_cons]

theorem mem_settledFields {fs : List (String × Json)} {f : String × Json}
    (h : f ∈ settledFields fs) : ∃ g ∈ fs, f = (g.1, g.2.settled) := by
  rw [settledFields_eq] at h
  obtain ⟨g, hg, rfl⟩ := List.mem_map.mp h
  exact ⟨g, hg, rfl⟩

theorem settledFields_id {fs : List (String × Json)} (h : ∀ f ∈ fs, f.2.settled = f.2) :
    settledFields fs = fs := by
  have hf : ∀ f ∈ fs, (f.1, f.2.settled) = id f := fun f hf => by rw [h f hf, id]
  rw [settledFields_eq, List.map_congr_left hf, List.map_id]

theorem settled_settled (v : Json) : v.settled.settled = v.settled := by
  induction v using tree_induction with
  | array vs ih =>
    rw [settled, settled, settledItems_eq, settledItems_eq, List.map_map]
    exact congrArg Json.array (List.map_congr_left ih)
  | object fs ih =>
    have hs : ∀ f ∈ Fields.ofList (settledFields fs), f.2.settled = f.2 := by
      intro f hf
      obtain ⟨g, hg, rfl⟩ := mem_settledFields (Fields.mem_ofList hf)
      exact ih g hg
    rw [settled, settled, settledFields_id hs,
      Fields.ofList_of_ascending (Fields.ascending_ofList _)]
  | _ => rfl

theorem depth_settled (v : Json) : v.settled.depth ≤ v.depth := by
  induction v using tree_induction with
  | array vs ih =>
    rw [settled, depth, depth, settledItems_eq]
    refine Nat.succ_le_succ (itemsDepth_le.mpr (List.forall_mem_map.mpr fun v hv => ?_))
    exact Nat.le_trans (ih v hv) (itemsDepth_le.mp (Nat.le_refl _) v hv)
  | object fs ih =>
    rw [settled, depth, depth]
    refine Nat.succ_le_succ (fieldsDepth_le.mpr fun f hf => ?_)
    obtain ⟨g, hg, rfl⟩ := mem_settledFields (Fields.mem_ofList hf)
    exact Nat.le_trans (ih g hg) (fieldsDepth_le.mp (Nat.le_refl _) g hg)
  | _ => exact Nat.le_refl _

theorem leaves_settled (v : Json) {a : Json} (h : a ∈ v.settled.leaves) : a ∈ v.leaves := by
  induction v using tree_induction generalizing a with
  | array vs ih =>
    rw [settled, leaves, settledItems_eq] at h
    obtain ⟨w, hw, ha⟩ := mem_itemLeaves.mp h
    obtain ⟨v, hv, rfl⟩ := List.mem_map.mp hw
    exact mem_itemLeaves.mpr ⟨v, hv, ih v hv ha⟩
  | object fs ih =>
    rw [settled, leaves] at h
    obtain ⟨f, hf, ha⟩ := mem_fieldLeaves.mp h
    obtain ⟨g, hg, rfl⟩ := mem_settledFields (Fields.mem_ofList hf)
    exact mem_fieldLeaves.mpr ⟨g, hg, ih g hg ha⟩
  | _ => exact h

/-- A step into a value: to the field of a key, the last if it is repeated, or to an item. -/
inductive Step
  | field (key : String)
  | item (i : Nat)

def at? : List Step → Json → Option Json
  | [], v => some v
  | .field key :: path, .object fs => (Fields.get? fs.reverse key).bind (at? path)
  | .item i :: path, .array vs => vs[i]?.bind (at? path)
  | _, _ => none

theorem get?_settledFields (fs : List (String × Json)) (key : String) :
    Fields.get? (Fields.ofList (settledFields fs)).reverse key =
      (Fields.get? fs.reverse key).map settled := by
  have hn := (Fields.ascending_ofList (settledFields fs)).nodup
  rw [← Fields.get?_perm (List.reverse_perm _).symm hn, Fields.get?_ofList, settledFields_eq,
    ← List.map_reverse, Fields.get?_map]

/-- What stays of a value has at the end of each path what stays of the value there. -/
theorem at?_settled (path : List Step) (v : Json) :
    v.settled.at? path = (v.at? path).map settled := by
  induction path generalizing v with
  | nil => rfl
  | cons step path ih =>
    cases step with
    | field key =>
      cases v with
      | object fs =>
        rw [settled, at?, get?_settledFields, at?]
        cases Fields.get? fs.reverse key with
        | none => rfl
        | some w => exact ih w
      | _ => rfl
    | item i =>
      cases v with
      | array vs =>
        rw [settled, at?, settledItems_eq, List.getElem?_map, at?]
        cases vs[i]? with
        | none => rfl
        | some w => exact ih w
      | _ => rfl

theorem ascending_settled {v : Json} {gs : List (String × Json)} (h : v.settled = .object gs) :
    Fields.Ascending gs := by
  cases v with
  | object fs =>
    obtain rfl := Json.object.inj h
    exact Fields.ascending_ofList _
  | _ => cases h

end Relocate.Json
