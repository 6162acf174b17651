import Relocate.Proofs.Json.Unambiguous
import Relocate.Proofs.Json.Written
import Relocate.Proofs.Worker.Data
import Relocate.Worker.Message

namespace Relocate

namespace Json

def Reorders : Json → Json → Prop
  | .object fs, .object gs => fs.Perm gs
  | _, _ => False

theorem Reorders.exists {v : Json} {gs : List (String × Json)} (h : v.Reorders (.object gs)) :
    ∃ fs, v = .object fs ∧ fs.Perm gs := by
  cases v with
  | object fs => exact ⟨fs, rfl, h⟩
  | _ => exact h.elim

theorem hasRepeated_iff {names : List String} {fs : Fields} : hasRepeated names fs = false ↔
    ∀ key ∈ names, fs.countP (fun f => f.1 = key) ≤ 1 := by
  simp [hasRepeated]

theorem countP_of_nodup {fs : Fields} (hn : (fs.map Prod.fst).Nodup) (key : String) :
    fs.countP (fun f => f.1 = key) ≤ 1 := by
  have hc := List.nodup_iff_count.mp hn key
  rwa [List.count, List.countP_map] at hc

theorem columns?_object {names : List String} {fs gs : Fields} (hp : fs.Perm gs)
    (hn : (gs.map Prod.fst).Nodup) :
    (Json.object fs).columns? names = some (names.map (Fields.get? gs)) := by
  have hn' : (fs.map Prod.fst).Nodup := (hp.map _).nodup_iff.mpr hn
  have hr : hasRepeated names fs = false := hasRepeated_iff.mpr fun key _ => countP_of_nodup hn' key
  rw [columns?, hr, if_neg Bool.false_ne_true, funext (Fields.get?_perm hp hn')]

theorem record_written {α : Type} {ofJson? : Json → Option α} {gs : List (String × Json)} {a : α}
    (hj : ∀ fs : List (String × Json), fs.Perm gs → ofJson? (.object fs) = some a)
    (hs : ∀ f ∈ gs, f.2.Stays) {v : Json} (hv : v.Reorders (.object gs)) :
    (read? .loose v.write).bind ofJson? = some a := by
  obtain ⟨fs, rfl, hp⟩ := hv.exists
  have hr := Stays.read?_object .loose (fun f hf => hs f (hp.mem_iff.mp hf))
    (List.forall_mem_nil _)
  rw [List.append_nil] at hr
  rw [hr]
  exact hj fs hp

theorem row_written {α : Type} {ofJson? : Json → Option α} {vs : List Json} {a : α}
    (hj : ofJson? (.array vs) = some a) (hs : ∀ v ∈ vs, v.Stays) :
    (read? .loose (Json.array vs).write).bind ofJson? = some a := by
  have hr := Stays.read?_array .loose hs (List.forall_mem_nil _)
  rw [List.append_nil] at hr
  rw [hr]
  exact hj

end Json

namespace Worker

namespace Greeting

def row (g : Greeting) : Json :=
  .array [.string g.status, .string g.version, .string g.libraryVersion]

theorem ofJson?_object (g : Greeting) {fs : List (String × Json)}
    (h : (Json.object fs).Reorders g.toJson) : ofJson? (.object fs) = some g := by
  unfold ofJson?
  rw [Json.columns?_object h (by simp)]
  simp [fieldNames, Fields.get?_cons, Json.required, Json.optionalText, Json.string?]

theorem ofText?_object (g : Greeting) {v : Json} (h : v.Reorders g.toJson) :
    ofText? v.write = some g := by
  refine Json.record_written (fun fs hp => g.ofJson?_object hp) ?_ h
  simp [Json.Stays.string]

theorem ofText?_row (g : Greeting) : ofText? g.row.write = some g := by
  refine Json.row_written rfl ?_
  simp [Json.Stays.string]

end Greeting

namespace MoveReply

def row (m : MoveReply) : Json :=
  .array [.string m.handle, .string m.name, .string m.kind, .string m.origin]

theorem ofJson?_object (m : MoveReply) {fs : List (String × Json)}
    (h : (Json.object fs).Reorders m.toJson) : ofJson? (.object fs) = some m := by
  unfold ofJson?
  rw [Json.columns?_object h (by simp)]
  simp [fieldNames, Fields.get?_cons, Json.required, Json.string?]

theorem ofText?_object (m : MoveReply) {v : Json} (h : v.Reorders m.toJson) :
    ofText? v.write = some m := by
  refine Json.record_written (fun fs hp => m.ofJson?_object hp) ?_ h
  simp [Json.Stays.string]

theorem ofText?_row (m : MoveReply) : ofText? m.row.write = some m := by
  refine Json.row_written rfl ?_
  simp [Json.Stays.string]

theorem ofData_object (m : MoveReply) {fs : Fields} (h : (Json.object fs).Reorders m.toJson) :
    ofData fs = .ok m := by
  have hg := Fields.get?_perm h ((List.Perm.map _ h).nodup_iff.mpr (by simp))
  rw [ofData_eq_ok, hg, hg, hg, hg]
  simp [Fields.get?_cons]

end MoveReply

namespace ChangesReply

def row (c : ChangesReply) : Json :=
  .array [.string c.handle, .string c.description, .array (c.changed.map .string)]

theorem optionalTexts_strings (ss : List String) :
    Json.optionalTexts (some (.array (ss.map .string))) = some ss := by
  rw [Json.optionalTexts, List.mapM_map]
  exact (List.mapM_pure (f := id)).trans (congrArg some (List.map_id ss))

theorem texts_strings (ss : List String) : Data.texts (.array (ss.map .string)) = .ok ss := by
  rw [Data.texts, List.mapM_map]
  exact (List.mapM_pure (f := id)).trans (congrArg Except.ok (List.map_id ss))

theorem ofJson?_object (c : ChangesReply) {fs : List (String × Json)}
    (h : (Json.object fs).Reorders c.toJson) : ofJson? (.object fs) = some c := by
  unfold ofJson?
  rw [Json.columns?_object h (by simp)]
  simp [fieldNames, Fields.get?_cons, Json.required, Json.optionalText, Json.string?,
    optionalTexts_strings]

theorem ofText?_object (c : ChangesReply) {v : Json} (h : v.Reorders c.toJson) :
    ofText? v.write = some c := by
  refine Json.record_written (fun fs hp => c.ofJson?_object hp) ?_ h
  simp [Json.Stays.string, Json.Stays.strings]

theorem ofText?_row (c : ChangesReply) : ofText? c.row.write = some c := by
  refine Json.row_written ?_ ?_
  · simp [ofJson?, Json.columns?, fieldNames, Json.required, Json.optionalText, Json.string?,
      optionalTexts_strings, List.range, List.range.loop]
  · simp [Json.Stays.string, Json.Stays.strings]

theorem ofData_object (c : ChangesReply) {fs : Fields} (h : (Json.object fs).Reorders c.toJson) :
    ofData fs = .ok c := by
  have hg := Fields.get?_perm h ((List.Perm.map _ h).nodup_iff.mpr (by simp))
  unfold ofData Data.field?
  rw [hg, hg, hg]
  simp [Fields.get?_cons, Data.text, texts_strings, Except.map, Data.need, bind, Except.bind]
  rfl

end ChangesReply

namespace Reply

theorem id?_settled (o : Option Json) : id? (o.map Json.settled) = id? o := by
  cases o with
  | none => rfl
  | some v => cases v <;> rfl

theorem required_settled (o : Option Json) : Json.required (o.map Json.settled) = Json.required o := by
  cases o with
  | none => rfl
  | some v => cases v <;> rfl

theorem nullable_settled (o : Option Json) : Json.nullable (o.map Json.settled) = Json.nullable o := by
  cases o with
  | none => rfl
  | some v => cases v <;> rfl

theorem ofJson?_eq_some {fs : List (String × Json)} {r : Reply} : ofJson? (.object fs) = some r ↔
    Json.hasRepeated envelope fs = false ∧ id? (Fields.get? fs "id") = some r.id ∧
      Json.required (Fields.get? fs "status") = some r.status ∧
      Json.nullable (Fields.get? fs "error_code") = some r.code ∧
      Json.nullable (Fields.get? fs "message") = some r.message ∧
      Json.nullable (Fields.get? fs "traceback") = some r.traceback ∧
      Fields.ofList (fs.filter fun f => !envelope.contains f.1) = r.data := by
  unfold ofJson?
  by_cases hr : Json.hasRepeated envelope fs = true
  · simp [hr]
  · rw [Bool.not_eq_true] at hr
    simp only [hr, Bool.false_eq_true, ↓reduceIte, Option.bind_eq_bind, Option.bind_eq_some_iff,
      Option.pure_def, Option.some.injEq, true_and]
    constructor
    · rintro ⟨id, hi, status, hs, code, hc, message, hm, traceback, ht, rfl⟩
      exact ⟨hi, hs, hc, hm, ht, rfl⟩
    · rintro ⟨hi, hs, hc, hm, ht, hd⟩
      exact ⟨_, hi, _, hs, _, hc, _, hm, _, ht, by rw [hd]⟩

/-- A reply says what an object says, and each thing in one place: the keys of the envelope, which
are there at most once, in the envelope, and all others in the data, with the last of their values.
Within the data no object has a key twice. -/
structure Keeps (r : Reply) (fs : List (String × Json)) : Prop where
  once : ∀ key ∈ envelope, fs.countP (fun f => f.1 = key) ≤ 1
  id : id? (Fields.get? fs "id") = some r.id
  status : Json.required (Fields.get? fs "status") = some r.status
  code : Json.nullable (Fields.get? fs "error_code") = some r.code
  message : Json.nullable (Fields.get? fs "message") = some r.message
  traceback : Json.nullable (Fields.get? fs "traceback") = some r.traceback
  data : ∀ key path, (Json.object r.data).at? (.field key :: path) =
    if key ∈ envelope then none else ((Json.object fs).at? (.field key :: path)).map Json.settled
  single : ∀ path gs, (Json.object r.data).at? path = some (.object gs) → Fields.Ascending gs

theorem get?_data (fs : List (String × Json)) (key : String) :
    Fields.get? (Fields.ofList ((Json.settledFields fs).filter fun f => !envelope.contains f.1)).reverse
      key = if key ∈ envelope then none else (Fields.get? fs.reverse key).map Json.settled := by
  have hn := (Fields.ascending_ofList
    ((Json.settledFields fs).filter fun f => !envelope.contains f.1)).nodup
  rw [← Fields.get?_perm (List.reverse_perm _).symm hn, Fields.get?_ofList, ← List.filter_reverse,
    Fields.get?_filter (fun key => !envelope.contains key), Json.settledFields_eq, ← List.map_reverse,
    Fields.get?_map]
  by_cases hk : key ∈ envelope <;> simp [hk]

theorem keeps_of_ofJson? {fs : List (String × Json)} {r : Reply}
    (h : ofJson? (.object (Json.settledFields fs)) = some r) : r.Keeps fs := by
  obtain ⟨hr, hi, hs, hc, hm, ht, hd⟩ := ofJson?_eq_some.mp h
  have hget (key : String) : Fields.get? (Json.settledFields fs) key =
      (Fields.get? fs key).map Json.settled := by
    rw [Json.settledFields_eq, Fields.get?_map]
  have hdata (key : String) (path : List Json.Step) :
      (Json.object r.data).at? (.field key :: path) = if key ∈ envelope then none
        else ((Json.object fs).at? (.field key :: path)).map Json.settled := by
    rw [← hd, Json.at?, get?_data, Json.at?]
    split
    · rfl
    · cases Fields.get? fs.reverse key with
      | none => rfl
      | some v => exact Json.at?_settled path v
  rw [hget] at hi hs hc hm ht
  rw [id?_settled] at hi
  rw [required_settled] at hs
  rw [nullable_settled] at hc hm ht
  refine ⟨fun key hk => ?_, hi, hs, hc, hm, ht, hdata, fun path gs hg => ?_⟩
  · have hle := Json.hasRepeated_iff.mp hr key hk
    rw [Json.settledFields_eq, List.countP_map] at hle
    exact hle
  · cases path with
    | nil =>
      obtain rfl := Json.object.inj (Option.some.inj hg)
      rw [← hd]
      exact Fields.ascending_ofList _
    | cons step path =>
      cases step with
      | field key =>
        rw [hdata] at hg
        split at hg
        · cases hg
        · obtain ⟨v, -, hv⟩ := Option.map_eq_some_iff.mp hg
          exact Json.ascending_settled hv
      | item i => cases hg

def head (r : Reply) : Fields :=
  ("id", Json.optional (fun n => .int n) r.id) :: ("status", .string r.status)
    :: (field "error_code" r.code ++ field "message" r.message ++ field "traceback" r.traceback)

theorem toJson_eq (r : Reply) : r.toJson = .object (r.head ++ r.data) := by
  simp [toJson, head]

theorem head_keys (r : Reply) : (r.head.map Prod.fst).Sublist envelope := by
  obtain ⟨id, status, code, message, traceback, data⟩ := r
  cases code <;> cases message <;> cases traceback <;> exact of_decide_eq_true rfl

/-- No key of the envelope is among the data, and no key at all is there twice. -/
def Apart (r : Reply) : Prop := Fields.Ascending r.data ∧ ∀ f ∈ r.data, f.1 ∉ envelope

theorem apart_of_ofJson? {fs : List (String × Json)} {r : Reply} (h : ofJson? (.object fs) = some r) :
    r.Apart := by
  obtain ⟨-, -, -, -, -, -, hd⟩ := ofJson?_eq_some.mp h
  rw [Apart, ← hd]
  refine ⟨Fields.ascending_ofList _, fun f hf => ?_⟩
  simpa using (List.mem_filter.mp (Fields.mem_ofList hf)).2

theorem get?_field (name key : String) (s : Option String) :
    Fields.get? (field name s) key = if key = name then s.map .string else none := by
  cases s <;> simp [field, Fields.get?_cons, Fields.get?_nil]

theorem nullable_string (s : Option String) : Json.nullable (s.map .string) = some s := by
  cases s <;> rfl

theorem head_values (r : Reply) : id? (Fields.get? r.head "id") = some r.id ∧
    Json.required (Fields.get? r.head "status") = some r.status ∧
    Json.nullable (Fields.get? r.head "error_code") = some r.code ∧
    Json.nullable (Fields.get? r.head "message") = some r.message ∧
    Json.nullable (Fields.get? r.head "traceback") = some r.traceback := by
  refine ⟨?_, ?_, ?_⟩
  · cases hid : r.id <;> simp [head, hid, Fields.get?_cons, Json.optional, id?]
  · simp [head, Fields.get?_cons, Json.required, Json.string?]
  · simp [head, Fields.get?_cons, Fields.get?_append, get?_field, nullable_string]

theorem ofJson?_toJson {r : Reply} (h : r.Apart) : ofJson? r.toJson = some r := by
  obtain ⟨ha, hd⟩ := h
  have hkeys : ∀ f ∈ r.head, f.1 ∈ envelope := fun f hf =>
    r.head_keys.subset (List.mem_map_of_mem hf)
  have hnodup : ((r.head ++ r.data).map Prod.fst).Nodup := by
    rw [List.map_append, List.nodup_append]
    refine ⟨r.head_keys.nodup (by decide), ha.nodup, ?_⟩
    rintro key hk _ hk' rfl
    obtain ⟨f, hf, rfl⟩ := List.mem_map.mp hk'
    exact hd f hf (r.head_keys.subset hk)
  have hget : ∀ key ∈ envelope, Fields.get? (r.head ++ r.data) key = Fields.get? r.head key := by
    intro key hk
    have hn : Fields.get? r.data key = none := by
      refine Option.eq_none_iff_forall_ne_some.mpr fun v hv => ?_
      exact hd _ (Fields.mem_of_get? hv) hk
    rw [Fields.get?_append, hn, Option.or_none]
  have hhead : r.head.filter (fun f => !envelope.contains f.1) = [] :=
    List.filter_eq_nil_iff.mpr fun f hf => by simp [hkeys f hf]
  have hdata : r.data.filter (fun f => !envelope.contains f.1) = r.data :=
    List.filter_eq_self.mpr fun f hf => by simp [hd f hf]
  obtain ⟨hi, hs, hc, hm, ht⟩ := r.head_values
  rw [toJson_eq, ofJson?_eq_some, hget "id" (by decide), hget "status" (by decide),
    hget "error_code" (by decide), hget "message" (by decide), hget "traceback" (by decide),
    List.filter_append, hhead, hdata, List.nil_append, Fields.ofList_of_ascending ha]
  refine ⟨Json.hasRepeated_iff.mpr fun key _ => Json.countP_of_nodup hnodup key, ?_⟩
  exact ⟨hi, hs, hc, hm, ht, rfl⟩

theorem exists_fields {s : List Char} {r : Reply} (h : ofText? s = some r) :
    ∃ fs, Json.Token.ofText s = some (Json.object fs).words ∧
      (Json.object fs).depth ≤ Json.Reader.maxDepth ∧
      ofJson? (.object (Json.settledFields fs)) = some r := by
  obtain ⟨w, hw, hr⟩ := Option.bind_eq_some_iff.mp h
  obtain ⟨v, hv, hd, rfl⟩ := Json.read?_strict_iff.mp hw
  cases v with
  | object fs => exact ⟨fs, hv, hd, hr⟩
  | _ => cases hr

theorem id_of_fields {fs : List (String × Json)} {n : Nat}
    (h : id? (Fields.get? fs "id") = some (some n)) : ("id", .int n) ∈ fs := by
  cases hv : Fields.get? fs "id" with
  | none =>
    rw [hv] at h
    cases h
  | some v =>
    rw [hv] at h
    cases v with
    | int m =>
      by_cases hm : 0 ≤ m
      · have hn : m.toNat = n := by simpa [id?, hm] using h
        rw [← hn, Int.toNat_of_nonneg hm]
        exact Fields.mem_of_get? hv
      · simp [id?, hm] at h
    | _ => cases h

theorem stays_field (name : String) (s : Option String) : ∀ f ∈ field name s, f.2.Stays := by
  cases s with
  | none => exact List.forall_mem_nil _
  | some s => exact List.forall_mem_singleton.mpr (.string s)

theorem stays_head {r : Reply} (h : ∀ n, r.id = some n → n < Nat.pow 2 64) :
    ∀ f ∈ r.head, f.2.Stays := by
  have hid : (Json.optional (fun n => .int n) r.id : Json).Stays := by
    cases hr : r.id with
    | none => exact .null
    | some n => exact .natural (h n hr)
  refine List.forall_mem_cons.mpr ⟨hid, List.forall_mem_cons.mpr ⟨.string _, fun f hf => ?_⟩⟩
  obtain hf | hf := List.mem_append.mp hf
  · exact (List.mem_append.mp hf).elim (stays_field _ _ f) (stays_field _ _ f)
  · exact stays_field _ _ f hf

theorem stays_fields {s : List Char} {r : Reply} (h : ofText? s = some r)
    (hf : ∀ x, Json.float x ∉ Json.leaves (.object r.data)) : ∀ f ∈ r.head ++ r.data, f.2.Stays := by
  obtain ⟨fs, hs, hd, hr⟩ := exists_fields h
  have hproper := Json.Token.isProper_ofText hs
  obtain ⟨-, hi, -, -, -, -, hdata⟩ := ofJson?_eq_some.mp hr
  intro f hm
  obtain hm | hm := List.mem_append.mp hm
  · refine stays_head (fun n hn => ?_) f hm
    rw [hn] at hi
    obtain ⟨g, hg, hv⟩ := Json.mem_settledFields (id_of_fields hi)
    have hleaf : Json.int n ∈ Json.leaves (.object fs) := by
      refine Json.mem_fieldLeaves.mpr ⟨g, hg, Json.leaves_settled _ ?_⟩
      rw [← (Prod.mk.inj hv).2]
      exact List.mem_cons_self
    obtain he | ⟨x, hx⟩ := Json.exact_or_float hproper hleaf
    · cases he with
      | int hw => exact Int.ofNat_lt.mp hw.2
    · cases hx
  · have hm' : f ∈ Json.settledFields fs := by
      rw [← hdata] at hm
      exact (List.mem_filter.mp (Fields.mem_ofList hm)).1
    obtain ⟨g, hg, rfl⟩ := Json.mem_settledFields hm'
    refine ⟨Json.settled_settled _, fun a ha => ?_, ?_⟩
    · have hleaf : a ∈ Json.leaves (.object fs) :=
        Json.mem_fieldLeaves.mpr ⟨g, hg, Json.leaves_settled _ ha⟩
      obtain he | ⟨x, rfl⟩ := Json.exact_or_float hproper hleaf
      · exact he
      · exact absurd (Json.mem_fieldLeaves.mpr ⟨_, hm, ha⟩) (hf x)
    · have hg' := Json.fieldsDepth_le.mp (Nat.le_of_succ_le_succ hd) g hg
      exact Nat.lt_of_le_of_lt (Nat.le_trans (Json.depth_settled _) hg') (by decide)

/-- A reply that a line was made out as survives when it is written. -/
theorem ofText?_toJson {s : List Char} {r : Reply} (h : ofText? s = some r)
    (hf : ∀ x, Json.float x ∉ Json.leaves (.object r.data)) :
    ofText? r.toJson.write = some r := by
  obtain ⟨fs, -, -, hr⟩ := exists_fields h
  have hread := Json.Stays.read?_object .strict (stays_fields h hf) (List.forall_mem_nil _)
  rw [List.append_nil, ← toJson_eq] at hread
  rw [ofText?, hread]
  exact ofJson?_toJson (apart_of_ofJson? hr)

end Reply

/-- The messages of a worker survive when they are written and read again. A reply, if there are no
doubles among its data, has kept of its line all the fields, each in one place; the records are read
from objects, whatever the order of the fields, and from arrays alike. -/
theorem messages_reread :
    (∀ (s : List Char) (r : Reply), Reply.ofText? s = some r →
      (∀ x, Json.float x ∉ Json.leaves (.object r.data)) →
        Reply.ofText? r.toJson.write = some r ∧
          (∃ fs, Json.Token.ofText s = some (Json.object fs).words) ∧
          ∀ fs, Json.Token.ofText s = some (Json.object fs).words → r.Keeps fs) ∧
    (∀ g : Greeting, (∀ v : Json, v.Reorders g.toJson → Greeting.ofText? v.write = some g) ∧
      Greeting.ofText? g.row.write = some g) ∧
    (∀ m : MoveReply, (∀ v : Json, v.Reorders m.toJson → MoveReply.ofText? v.write = some m) ∧
      MoveReply.ofText? m.row.write = some m ∧
      ∀ fs, (Json.object fs).Reorders m.toJson → MoveReply.ofData fs = .ok m) ∧
    ∀ c : ChangesReply, (∀ v : Json, v.Reorders c.toJson → ChangesReply.ofText? v.write = some c) ∧
      ChangesReply.ofText? c.row.write = some c ∧
      ∀ fs, (Json.object fs).Reorders c.toJson → ChangesReply.ofData fs = .ok c := by
  refine ⟨fun s r h hf => ?_, fun g => ?_, fun m => ?_, fun c => ?_⟩
  · obtain ⟨fs, hs, -, hr⟩ := Reply.exists_fields h
    refine ⟨Reply.ofText?_toJson h hf, ⟨fs, hs⟩, fun gs hg => ?_⟩
    obtain rfl := Json.object.inj (Json.spelled_unique hs hg)
    exact Reply.keeps_of_ofJson? hr
  · exact ⟨fun v hv => g.ofText?_object hv, g.ofText?_row⟩
  · exact ⟨fun v hv => m.ofText?_object hv, m.ofText?_row, fun fs hfs => m.ofData_object hfs⟩
  · exact ⟨fun v hv => c.ofText?_object hv, c.ofText?_row, fun fs hfs => c.ofData_object hfs⟩

def repeated : List (String × Json) :=
  [("status", .string "ok"), ("root", .string "/a"),
    ("files", .object [("count", .int 1), ("count", .int 2)]), ("root", .string "/b"), ("id", .int 7)]

def repeatedReply : Reply :=
  ⟨some 7, "ok", none, none, none, [("files", .object [("count", .int 2)]), ("root", .string "/b")]⟩

theorem ofText?_repeated : Reply.ofText? (Json.object repeated).write = some repeatedReply := by
  have hl : ∀ a ∈ Json.leaves (.object repeated), a.IsExact := by
    have hleaves : Json.leaves (.object repeated) =
        [.string "ok", .string "/a", .int 1, .int 2, .string "/b", .int 7] := rfl
    rw [hleaves]
    simp only [List.forall_mem_cons]
    exact ⟨.string _, .string _, .int (by decide), .int (by decide), .string _, .int (by decide),
      List.forall_mem_nil _⟩
  have hr := Json.read?_write .strict hl (fun _ => by decide) (List.forall_mem_nil _)
  rw [List.append_nil] at hr
  rw [Reply.ofText?, hr]
  rfl

theorem repeated_reread : Reply.ofText? repeatedReply.toJson.write = some repeatedReply ∧
    (∃ fs, Json.Token.ofText (Json.object repeated).write = some (Json.object fs).words ∧
      repeatedReply.Keeps fs) ∧
    Greeting.ofText? (Greeting.toJson ⟨"ready", "1", ""⟩).write = some ⟨"ready", "1", ""⟩ ∧
    MoveReply.ofData [("origin", .string "a.py"), ("name", .string "f"), ("kind", .string "global"),
      ("handle", .string "m-1")] = .ok ⟨"m-1", "f", "global", "a.py"⟩ ∧
    ChangesReply.ofText? (ChangesReply.toJson ⟨"c-1", "", ["a.py"]⟩).write =
      some ⟨"c-1", "", ["a.py"]⟩ := by
  obtain ⟨hreply, hgreeting, hmove, hchanges⟩ := messages_reread
  have hf : ∀ x, Json.float x ∉ Json.leaves (.object repeatedReply.data) := by
    have hleaves : Json.leaves (.object repeatedReply.data) = [.int 2, .string "/b"] := rfl
    rw [hleaves]
    simp
  obtain ⟨hr, ⟨fs, hs⟩, hk⟩ := hreply _ _ ofText?_repeated hf
  have hp (f₁ f₂ f₃ f₄ : String × Json) : [f₄, f₃, f₂, f₁].Perm [f₁, f₂, f₃, f₄] :=
    List.reverse_perm [f₁, f₂, f₃, f₄]
  exact ⟨hr, ⟨fs, hs, hk fs hs⟩, (hgreeting _).1 _ (List.Perm.refl _),
    (hmove ⟨"m-1", "f", "global", "a.py"⟩).2.2 _ (hp _ _ _ _), (hchanges _).1 _ (List.Perm.refl _)⟩

end Worker

end Relocate
