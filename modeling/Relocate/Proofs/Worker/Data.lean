import Relocate.Proofs.Execution
import Relocate.Worker.Data

namespace Relocate.Worker

open Relocate.Action

def IsText (v : Json) : Prop := ∃ s, v = .string s

def IsTexts (v : Json) : Prop := ∃ items : List Json, v = .array items ∧ ∀ v ∈ items, IsText v

namespace Data

theorem text_isOk {v : Json} : (∃ s, text v = .ok s) ↔ IsText v := by
  constructor
  · rintro ⟨s, h⟩
    cases v with
    | string s' => exact ⟨s', rfl⟩
    | _ => cases h
  · rintro ⟨s, rfl⟩
    exact ⟨s, rfl⟩

theorem texts_isOk {v : Json} : (∃ ss, texts v = .ok ss) ↔ IsTexts v := by
  have hitems (items : List Json) : (∃ ss, items.mapM text = .ok ss) ↔ ∀ v ∈ items, IsText v := by
    induction items with
    | nil => exact iff_of_true ⟨[], rfl⟩ (List.forall_mem_nil _)
    | cons v items ih =>
      rw [List.forall_mem_cons, ← ih, ← text_isOk, List.mapM_cons]
      constructor
      · rintro ⟨ss, h⟩
        obtain ⟨s, hs, h⟩ := ok_of_bind h
        obtain ⟨ss', hss, -⟩ := ok_of_bind h
        exact ⟨⟨s, hs⟩, ss', hss⟩
      · rintro ⟨⟨s, hs⟩, ss, hss⟩
        rw [hs, hss]
        exact ⟨s :: ss, rfl⟩
  cases v with
  | array items =>
    refine (hitems items).trans ⟨fun h => ⟨items, rfl, h⟩, ?_⟩
    rintro ⟨items', hv, h⟩
    obtain rfl := Json.array.inj hv
    exact h
  | _ => exact iff_of_false (fun ⟨_, h⟩ => by cases h) fun ⟨_, h, _⟩ => by cases h

variable {α : Type} {read : Json → Except DataError α} {fs : Fields} {name : String}

theorem field?_isOk : (∃ o, field? read fs name = .ok o) ↔
    ∀ v, Fields.get? fs name = some v → ∃ a, read v = .ok a := by
  unfold field?
  cases Fields.get? fs name with
  | none => simp
  | some v => cases hr : read v <;> simp [Except.map, hr]

theorem field?_eq_some {a : α} : field? read fs name = .ok (some a) ↔
    ∃ v, Fields.get? fs name = some v ∧ read v = .ok a := by
  unfold field?
  cases Fields.get? fs name with
  | none => simp
  | some v => cases hr : read v <;> simp [Except.map, hr]

theorem need_eq_ok {o : Option α} {a : α} : need name o = .ok a ↔ o = some a := by
  cases o <;> simp [need]

theorem text_eq_ok {v : Json} {s : String} : text v = .ok s ↔ v = .string s := by
  cases v <;> simp [text]

theorem needed_text {s : String} : (∃ o, field? text fs name = .ok o ∧ need name o = .ok s) ↔
    Fields.get? fs name = some (.string s) := by
  constructor
  · rintro ⟨o, hf, hn⟩
    rw [need_eq_ok.mp hn, field?_eq_some] at hf
    obtain ⟨v, hv, ht⟩ := hf
    rw [hv, text_eq_ok.mp ht]
  · intro h
    exact ⟨some s, field?_eq_some.mpr ⟨_, h, rfl⟩, rfl⟩

end Data

theorem MoveReply.ofData_eq_ok {fs : Fields} {m : MoveReply} : MoveReply.ofData fs = .ok m ↔
    Fields.get? fs "handle" = some (.string m.handle) ∧
      Fields.get? fs "name" = some (.string m.name) ∧
      Fields.get? fs "kind" = some (.string m.kind) ∧
      Fields.get? fs "origin" = some (.string m.origin) := by
  rw [← Data.needed_text, ← Data.needed_text, ← Data.needed_text, ← Data.needed_text]
  constructor
  · intro h
    obtain ⟨handle, hh, h⟩ := ok_of_bind h
    obtain ⟨kind, hk, h⟩ := ok_of_bind h
    obtain ⟨name, hn, h⟩ := ok_of_bind h
    obtain ⟨origin, ho, h⟩ := ok_of_bind h
    obtain ⟨_, hh', h⟩ := ok_of_bind h
    obtain ⟨_, hn', h⟩ := ok_of_bind h
    obtain ⟨_, hk', h⟩ := ok_of_bind h
    obtain ⟨_, ho', h⟩ := ok_of_bind h
    obtain rfl := Except.ok.inj h
    exact ⟨⟨handle, hh, hh'⟩, ⟨name, hn, hn'⟩, ⟨kind, hk, hk'⟩, ⟨origin, ho, ho'⟩⟩
  · rintro ⟨⟨handle, hh, hh'⟩, ⟨name, hn, hn'⟩, ⟨kind, hk, hk'⟩, ⟨origin, ho, ho'⟩⟩
    unfold MoveReply.ofData
    rw [hh, hn, hk, ho]
    simp only [bind, Except.bind, hh', hn', hk', ho']
    rfl

theorem ChangesReply.ofData_isOk {fs : Fields} : (∃ c, ChangesReply.ofData fs = .ok c) ↔
    (∃ s, Fields.get? fs "handle" = some (.string s)) ∧
      (∀ v, Fields.get? fs "description" = some v → IsText v) ∧
      ∀ v, Fields.get? fs "changed" = some v → IsTexts v := by
  simp only [← Data.needed_text, ← Data.text_isOk, ← Data.texts_isOk, ← Data.field?_isOk]
  constructor
  · rintro ⟨c, h⟩
    obtain ⟨changed, hc, h⟩ := ok_of_bind h
    obtain ⟨description, hd, h⟩ := ok_of_bind h
    obtain ⟨handle, hh, h⟩ := ok_of_bind h
    obtain ⟨s, hs, -⟩ := ok_of_bind h
    exact ⟨⟨s, handle, hh, hs⟩, ⟨description, hd⟩, changed, hc⟩
  · rintro ⟨⟨s, handle, hh, hs⟩, ⟨description, hd⟩, changed, hc⟩
    unfold ChangesReply.ofData
    rw [hh, hd, hc]
    simp only [bind, Except.bind, hs]
    exact ⟨_, rfl⟩

theorem modulesOfData_isOk {fs : Fields} : (∃ names, modulesOfData fs = .ok names) ↔
    ∀ v, Fields.get? fs "modules" = some v → IsTexts v := by
  unfold modulesOfData
  cases Fields.get? fs "modules" with
  | none => simp
  | some v => simp [Data.texts_isOk]

end Relocate.Worker
