import Relocate.Proofs.Command.Deed
import Relocate.Proofs.Worker.Transcript
import Relocate.Session.Engine

namespace Relocate

namespace Session

open Worker

def operation? : Deed → Option String
  | .begin .. => some "create_move"
  | .confirm .. => some "is_python_file"
  | .compute .. => some "get_changes"
  | .apply .. => some "apply_changes"
  | .list .. => some "import_candidates"
  | _ => none

def parameters : Deed → Fields
  | .begin place index _ =>
    [("path", .string place.path), ("offset", Json.optional (fun n => .int n) index)]
  | .confirm place _ => [("path", .string place.path), ("kind", .string place.kind.text)]
  | .compute plan target _ => [("move", .string plan.handle), ("destination", .string target.path),
      ("kind", .string target.kind.text)]
  | .apply changes _ => [("changes", .string changes.handle)]
  | .list name _ => [("name", .string name)]
  | _ => []

/-- A deed that succeeds has its result from a reply. -/
def Grants (reply : Reply) : Deed → Prop
  | .begin _ _ r => ∀ plan, r = .ok plan →
      ∃ m, MoveReply.ofData reply.data = .ok m ∧ planOf m = .ok plan
  | .confirm _ r => ∀ b, r = .ok b →
      b = ((Fields.get? reply.data "python_file").bind Json.bool?).getD false
  | .compute _ _ r => ∀ changes, r = .ok changes →
      ∃ c, ChangesReply.ofData reply.data = .ok c ∧ changesOf c = changes
  | .list _ r => ∀ names, r = .ok names → modulesOfData reply.data = .ok names
  | _ => True

structure Decodes (operation : String) (fs : Fields) : Prop where
  root : operation = "open_project" → ∃ root, (Fields.get? fs "root").bind Json.string? = some root
  move : operation = "create_move" → ∃ m plan, MoveReply.ofData fs = .ok m ∧ planOf m = .ok plan
  changes : operation = "get_changes" → ∃ c, ChangesReply.ofData fs = .ok c
  modules : operation = "import_candidates" → ∃ names, modulesOfData fs = .ok names

/-- What is said of an exchange that did not bring what it was for. -/
inductive Fails (x : Exchange) : Failure → Prop
  | ungranted {e : Error} (h : x.result = .error e) (w : Wording) : Fails x (e.failure w)
  | unfit {reply : Reply} {message : String} (h : x.result = .ok reply)
    (hd : ¬ Decodes x.operation reply.data) : Fails x (.internal message)

theorem not_fails_of_decodes {x : Exchange} {reply : Reply} (hr : x.result = .ok reply)
    (hd : Decodes x.operation reply.data) (e : Failure) : ¬ Fails x e := by
  rintro (⟨hx, -⟩ | ⟨hx, hn⟩)
  · rw [hr] at hx
    cases hx
  · obtain rfl := Except.ok.inj (hr.symm.trans hx)
    exact hn hd

/-- An exchange is what a deed says to the worker. -/
structure Voices (x : Exchange) (d : Deed) : Prop where
  operation : operation? d = some x.operation
  parameters : x.parameters = parameters d
  granted : d.failure? = none → ∃ reply, x.result = .ok reply ∧ x.Accepted reply ∧ Grants reply d
  failed : ∀ e, d.failure? = some e → Fails x e

/-- What deeds say to the worker, one after the other. -/
inductive Voiced : List Deed → List Exchange → Prop
  | nil : Voiced [] []
  /-- There is nothing to say, or it cannot be said. -/
  | silent {d : Deed} {ds : List Deed} {xs : List Exchange}
    (h : operation? d = none ∨ d.failure? ≠ none) (hs : Voiced ds xs) : Voiced (d :: ds) xs
  | said {d : Deed} {ds : List Deed} {x : Exchange} {xs : List Exchange} (h : Voices x d)
    (hs : Voiced ds xs) : Voiced (d :: ds) (x :: xs)

theorem Voiced.append {ds ds' : List Deed} {xs xs' : List Exchange} (h : Voiced ds xs)
    (h' : Voiced ds' xs') : Voiced (ds ++ ds') (xs ++ xs') := by
  induction h with
  | nil => exact h'
  | silent hd _ ih => exact .silent hd ih
  | said hx _ ih => exact .said hx ih

theorem Voiced.nil_of {xs : List Exchange} (h : Voiced [] xs) : xs = [] := by
  cases h
  rfl

def Stops (ds : List Deed) : Prop :=
  ∀ before d after, ds = before ++ d :: after → d.failure? ≠ none → after = []

theorem Stops.one (d : Deed) : Stops [d] := by
  intro before d' after hd _
  cases before with
  | nil => exact (List.cons.inj hd).2.symm
  | cons d'' before => simp at hd

theorem Stops.tail {d : Deed} {ds : List Deed} (h : Stops (d :: ds)) : Stops ds := by
  intro before d' after hd
  exact h (d :: before) d' after (by rw [hd, List.cons_append])

theorem Stops.calm {d : Deed} {ds : List Deed} (h : Stops (d :: ds)) (hd : ds ≠ []) :
    d.failure? = none := by
  cases hf : d.failure? with
  | none => rfl
  | some e => exact absurd (h [] d ds rfl (by rw [hf]; exact Option.some_ne_none e)) hd

def AllSaid (ds : List Deed) (xs : List Exchange) : Prop :=
  ∀ d ∈ ds, operation? d ≠ none → ∃ x ∈ xs, Voices x d

theorem AllSaid.append {ds ds' : List Deed} {xs ys : List Exchange} (h : AllSaid ds xs)
    (h' : AllSaid ds' ys) : AllSaid (ds ++ ds') (xs ++ ys) := by
  intro d hd ho
  obtain hd | hd := List.mem_append.mp hd
  · obtain ⟨x, hx, hv⟩ := h d hd ho
    exact ⟨x, List.mem_append_left _ hx, hv⟩
  · obtain ⟨x, hx, hv⟩ := h' d hd ho
    exact ⟨x, List.mem_append_right _ hx, hv⟩

theorem AllSaid.of_none {d : Deed} (h : operation? d = none) (xs : List Exchange) :
    AllSaid [d] xs := by
  intro d' hd ho
  rw [List.mem_singleton.mp hd] at ho
  exact absurd h ho

namespace Voiced

variable {ds : List Deed} {xs : List Exchange}

theorem operations (h : Voiced ds xs) (hs : Stops ds) :
    xs.map Exchange.operation <+: ds.filterMap operation? := by
  induction h with
  | nil => exact List.prefix_rfl
  | @silent d ds xs hd hv ih =>
    -- A deed that should be said and is not has failed, and is the last.
    obtain ho | hf := hd
    · rw [List.filterMap_cons_none ho]
      exact ih hs.tail
    · obtain rfl : ds = [] := hs [] d ds rfl hf
      rw [hv.nil_of]
      exact List.nil_prefix
  | said hx hv ih =>
    rw [List.filterMap_cons_some hx.operation, List.map_cons]
    exact (List.prefix_cons_inj _).mpr (ih hs.tail)

theorem mem {x : Exchange} (h : Voiced ds xs) (hx : x ∈ xs) :
    ∃ before d after, ds = before ++ d :: after ∧ Voices x d := by
  induction h with
  | nil => cases hx
  | @silent d ds xs hd hv ih =>
    obtain ⟨before, d', after, hd', hx'⟩ := ih hx
    exact ⟨d :: before, d', after, by rw [hd', List.cons_append], hx'⟩
  | @said d ds y xs hy hv ih =>
    obtain rfl | hx := List.mem_cons.mp hx
    · exact ⟨[], d, ds, rfl, hy⟩
    · obtain ⟨before, d', after, hd', hx'⟩ := ih hx
      exact ⟨d :: before, d', after, by rw [hd', List.cons_append], hx'⟩

theorem spared (h : Voiced ds xs) (hd : ∀ d ∈ ds, d.failure? = none) :
    ∀ x ∈ xs, isCrash x.result = false := by
  intro x hx
  obtain ⟨before, d, after, rfl, hv⟩ := h.mem hx
  obtain ⟨reply, hr, -⟩ := hv.granted (hd d (by simp))
  rw [hr]
  rfl

theorem mem_of_calm {d : Deed} {operation : String} (h : Voiced ds xs) (hd : d ∈ ds)
    (ho : operation? d = some operation) (hf : d.failure? = none) : ∃ x ∈ xs, Voices x d := by
  induction h with
  | nil => cases hd
  | @silent d' ds xs hs hv ih =>
    obtain rfl | hd := List.mem_cons.mp hd
    · obtain hn | hn := hs
      · rw [hn] at ho
        cases ho
      · exact absurd hf hn
    · exact ih hd
  | @said d' ds y xs hy hv ih =>
    obtain rfl | hd := List.mem_cons.mp hd
    · exact ⟨y, List.mem_cons_self, hy⟩
    · obtain ⟨x, hx, hv⟩ := ih hd
      exact ⟨x, List.mem_cons_of_mem _ hx, hv⟩

theorem said_before {d : Deed} {operation : String} {before after : List Deed} (h : Voiced ds xs)
    (hds : ds = before ++ after) (hd : d ∈ before) (ho : operation? d = some operation)
    (hf : d.failure? = none) : ∃ x ∈ xs, Voices x d := by
  rw [hds] at h
  exact h.mem_of_calm (List.mem_append_left _ hd) ho hf

theorem calm {x : Exchange} {a b : List Exchange} (h : Voiced ds xs) (hs : Stops ds)
    (hx : xs = a ++ x :: b) (hb : b ≠ []) : ∃ d ∈ ds, d.failure? = none ∧ Voices x d := by
  induction h generalizing a with
  | nil => simp at hx
  | silent hd hv ih =>
    obtain ⟨d, hm, hf, hv⟩ := ih hs.tail hx
    exact ⟨d, List.mem_cons_of_mem _ hm, hf, hv⟩
  | @said d ds y xs hy hv ih =>
    cases a with
    | nil =>
      obtain ⟨rfl, rfl⟩ := List.cons.inj hx
      have hn : ds ≠ [] := by
        rintro rfl
        exact hb hv.nil_of
      exact ⟨d, List.mem_cons_self, hs.calm hn, hy⟩
    | cons z a =>
      obtain ⟨d', hm, hf, hv⟩ := ih hs.tail (List.cons.inj hx).2
      exact ⟨d', List.mem_cons_of_mem _ hm, hf, hv⟩

end Voiced

end Session

end Relocate
