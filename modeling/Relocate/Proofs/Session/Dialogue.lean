import Relocate.Proofs.Command.Orderly
import Relocate.Proofs.Session.Voice

namespace Relocate

namespace Session

open Worker

/-- What is said to a worker for a command: operations of a script, each only after the one before
was granted, and with what the replies say. -/
structure Dialogue (script : List String) (confirms : Prop) (xs : List Exchange) : Prop where
  plain : ∀ x ∈ xs, x.IsPlain
  operations : xs.map Exchange.operation <+: script
  granted : ∀ a x b, xs = a ++ x :: b → b ≠ [] →
    ∃ reply, x.Accepted reply ∧ Decodes x.operation reply.data
  moved : ∀ x ∈ xs, x.operation = "get_changes" → ∃ y ∈ xs, ∃ reply m,
    y.operation = "create_move" ∧ y.Accepted reply ∧ MoveReply.ofData reply.data = .ok m ∧
      x.asks "move" = some (.string m.handle)
  confirmed : confirms → ∀ x ∈ xs, x.operation = "get_changes" → ∃ y ∈ xs, ∃ reply path kind,
    y.operation = "is_python_file" ∧ y.Accepted reply ∧
      Fields.get? reply.data "python_file" = some (.bool true) ∧
      y.asks "path" = some (.string path) ∧ y.asks "kind" = some (.string kind) ∧
      x.asks "destination" = some (.string path) ∧ x.asks "kind" = some (.string kind)
  applied : ∀ x ∈ xs, x.operation = "apply_changes" → ∃ y ∈ xs, ∃ reply c,
    y.operation = "get_changes" ∧ y.Accepted reply ∧ ChangesReply.ofData reply.data = .ok c ∧
      x.asks "changes" = some (.string c.handle)

theorem Grants.decodes {reply : Reply} {d : Deed} {operation : String} (h : Grants reply d)
    (ho : operation? d = some operation) (hd : d.failure? = none) :
    Decodes operation reply.data := by
  cases d with
  | begin place index r =>
    cases r with
    | error e => cases hd
    | ok plan =>
      obtain ⟨m, hm, hp⟩ := h plan rfl
      rw [← Option.some.inj ho]
      exact ⟨by simp, fun _ => ⟨m, plan, hm, hp⟩, by simp, by simp⟩
  | confirm place r =>
    rw [← Option.some.inj ho]
    exact ⟨by simp, by simp, by simp, by simp⟩
  | compute plan target r =>
    cases r with
    | error e => cases hd
    | ok changes =>
      obtain ⟨c, hc, -⟩ := h changes rfl
      rw [← Option.some.inj ho]
      exact ⟨by simp, by simp, fun _ => ⟨c, hc⟩, by simp⟩
  | apply changes r =>
    rw [← Option.some.inj ho]
    exact ⟨by simp, by simp, by simp, by simp⟩
  | list name r =>
    cases r with
    | error e => cases hd
    | ok names =>
      rw [← Option.some.inj ho]
      exact ⟨by simp, by simp, by simp, fun _ => ⟨names, h names rfl⟩⟩
  | ask question r => cases ho
  | write text r => cases ho
  | log entry r => cases ho

theorem Voices.decodes {x : Exchange} {d : Deed} (h : Voices x d) (hd : d.failure? = none) :
    ∃ reply, x.Accepted reply ∧ Decodes x.operation reply.data := by
  obtain ⟨reply, -, ha, hg⟩ := h.granted hd
  exact ⟨reply, ha, hg.decodes h.operation hd⟩

theorem Voices.not_fails {x : Exchange} {d : Deed} (h : Voices x d) (hd : d.failure? = none)
    (e : Failure) : ¬ Fails x e := by
  obtain ⟨reply, hr, -, hg⟩ := h.granted hd
  exact not_fails_of_decodes hr (hg.decodes h.operation hd) e

namespace Voices

variable {x : Exchange} {plan : MovePlan} {target : Place} {changes : ChangeSet}

theorem asks {d : Deed} (h : Voices x d) (key : String) :
    x.asks key = (Fields.get? (Session.parameters d).reverse key).or
      (Fields.get? [("op", .string x.operation), ("id", .int x.id)] key) := by
  rw [x.asks_eq, h.parameters]

theorem plain {d : Deed} (h : Voices x d) : x.IsPlain := by
  apply Exchange.isPlain_of
  · rw [h.parameters]
    cases d <;> simp [Session.parameters, Fields.get?_cons, Fields.get?_nil]
  · rw [h.parameters]
    cases d <;> simp [Session.parameters, Fields.get?_cons, Fields.get?_nil]

theorem of_begin {place : Place} {index : Option Nat} (h : Voices x (.begin place index (.ok plan))) :
    x.operation = "create_move" ∧ ∃ reply m, x.Accepted reply ∧
      MoveReply.ofData reply.data = .ok m ∧ m.handle = plan.handle := by
  obtain ⟨reply, -, ha, hg⟩ := h.granted rfl
  obtain ⟨m, hm, hp⟩ := hg plan rfl
  refine ⟨(Option.some.inj h.operation).symm, reply, m, ha, hm, ?_⟩
  unfold planOf at hp
  cases hk : kindOf? m.kind with
  | none => simp [hk] at hp
  | some kind =>
    rw [hk] at hp
    rw [← Except.ok.inj hp]

theorem of_confirm (h : Voices x (.confirm target (.ok true))) :
    x.operation = "is_python_file" ∧ x.asks "path" = some (.string target.path) ∧
      x.asks "kind" = some (.string target.kind.text) ∧ ∃ reply, x.Accepted reply ∧
        Fields.get? reply.data "python_file" = some (.bool true) := by
  obtain ⟨reply, -, ha, hg⟩ := h.granted rfl
  refine ⟨(Option.some.inj h.operation).symm, ?_, ?_, reply, ha, ?_⟩
  · rw [h.asks]
    simp [Session.parameters, Fields.get?_cons]
  · rw [h.asks]
    simp [Session.parameters, Fields.get?_cons]
  · have hb := hg true rfl
    cases hf : Fields.get? reply.data "python_file" with
    | none => simp [hf] at hb
    | some v =>
      rw [hf] at hb
      cases v with
      | bool b => simpa [Json.bool?] using hb
      | _ => simp [Json.bool?] at hb

theorem of_compute {r : Except Failure ChangeSet} (h : Voices x (.compute plan target r)) :
    x.asks "move" = some (.string plan.handle) ∧
      x.asks "destination" = some (.string target.path) ∧
      x.asks "kind" = some (.string target.kind.text) := by
  rw [h.asks, h.asks, h.asks]
  simp [Session.parameters, Fields.get?_cons]

theorem of_computed (h : Voices x (.compute plan target (.ok changes))) :
    x.operation = "get_changes" ∧ ∃ reply c, x.Accepted reply ∧
      ChangesReply.ofData reply.data = .ok c ∧ c.handle = changes.handle := by
  obtain ⟨reply, -, ha, hg⟩ := h.granted rfl
  obtain ⟨c, hc, hs⟩ := hg changes rfl
  refine ⟨(Option.some.inj h.operation).symm, reply, c, ha, hc, ?_⟩
  rw [← hs]
  rfl

theorem of_apply {r : Except Failure Unit} (h : Voices x (.apply changes r)) :
    x.asks "changes" = some (.string changes.handle) := by
  rw [h.asks]
  simp [Session.parameters, Fields.get?_cons]

end Voices

theorem compute_of_operation {d : Deed} (h : operation? d = some "get_changes") :
    ∃ plan target r, d = .compute plan target r := by
  cases d <;> simp [operation?] at h ⊢

theorem apply_of_operation {d : Deed} (h : operation? d = some "apply_changes") :
    ∃ changes r, d = .apply changes r := by
  cases d <;> simp [operation?] at h ⊢

theorem dialogue_list {name : String} {r : Except Failure (List String)} {xs : List Exchange}
    (h : Voiced [.list name r] xs) : Dialogue ["import_candidates"] False xs := by
  have hs := Stops.one (.list name r)
  have ho : ∀ x ∈ xs, x.operation = "import_candidates" := by
    intro x hx
    have hm := (h.operations hs).subset (List.mem_map_of_mem hx)
    exact List.mem_singleton.mp hm
  exact {
    plain x hx := by
      obtain ⟨_, d, _, -, hd⟩ := h.mem hx
      exact hd.plain
    operations := h.operations hs
    granted a x b hx hb := by
      obtain ⟨d, -, hf, hd⟩ := h.calm hs hx hb
      exact hd.decodes hf
    moved x hx hc := by simp [ho x hx] at hc
    confirmed := False.elim
    applied x hx hc := by simp [ho x hx] at hc }

namespace Dialogue

variable {script : List String} {confirms : Prop} {xs : List Exchange}

theorem nil : Dialogue script confirms [] where
  plain := List.forall_mem_nil _
  operations := List.nil_prefix
  granted a x b hx := by simp at hx
  moved := List.forall_mem_nil _
  confirmed _ := List.forall_mem_nil _
  applied := List.forall_mem_nil _

theorem imp {confirms' : Prop} (h : Dialogue script confirms xs) (hc : confirms' → confirms) :
    Dialogue script confirms' xs :=
  { h with confirmed := fun hc' => h.confirmed (hc hc') }

theorem cons {x : Exchange} (h : Dialogue script confirms xs) (hp : x.IsPlain)
    (ho : x.operation = "open_project")
    (ha : xs ≠ [] → ∃ reply, x.Accepted reply ∧ Decodes x.operation reply.data) :
    Dialogue ("open_project" :: script) confirms (x :: xs) where
  plain := List.forall_mem_cons.mpr ⟨hp, h.plain⟩
  operations := by
    rw [List.map_cons, ho]
    exact (List.prefix_cons_inj _).mpr h.operations
  granted a y b hy hb := by
    cases a with
    | nil =>
      obtain ⟨rfl, rfl⟩ := List.cons.inj hy
      exact ha hb
    | cons z a => exact h.granted a y b (List.cons.inj hy).2 hb
  moved y hy hc := by
    obtain rfl | hy := List.mem_cons.mp hy
    · simp [ho] at hc
    · obtain ⟨z, hz, h⟩ := h.moved y hy hc
      exact ⟨z, List.mem_cons_of_mem _ hz, h⟩
  confirmed hn y hy hc := by
    obtain rfl | hy := List.mem_cons.mp hy
    · simp [ho] at hc
    · obtain ⟨z, hz, h⟩ := h.confirmed hn y hy hc
      exact ⟨z, List.mem_cons_of_mem _ hz, h⟩
  applied y hy hc := by
    obtain rfl | hy := List.mem_cons.mp hy
    · simp [ho] at hc
    · obtain ⟨z, hz, h⟩ := h.applied y hy hc
      exact ⟨z, List.mem_cons_of_mem _ hz, h⟩

end Dialogue

end Session

namespace Command

open Stage Session Worker

def Rules.script (k : Rules) : List String :=
  "create_move" :: ((if k.doubt = none then [] else ["is_python_file"]) ++
    ["get_changes", "apply_changes"])

def Stage.script (k : Rules) : Stage → List String
  | .fresh | .failed _ => []
  | .begun _ | .named .. | .aimed .. => ["create_move"]
  | .settled .. => "create_move" :: (if k.doubt = none then [] else ["is_python_file"])
  | .computed .. => "create_move" :: ((if k.doubt = none then [] else ["is_python_file"]) ++
      ["get_changes"])
  | .applied .. => k.script

theorem Stage.script_prefix (k : Rules) (st : Stage) : st.script k <+: k.script := by
  cases st <;> simp [Stage.script, Rules.script]

theorem Going.script {k : Rules} {ds : List Deed} {st : Stage} (h : Going k ds st) :
    ds.filterMap operation? = st.script k := by
  obtain ⟨_, _, -, hc⟩ := h.calls
  have hq (d : Deed) (hd : isCall d = false) : operation? d = none := by
    cases d <;> first | rfl | cases hd
  have ha (path : String) : (asked k path).filterMap operation? = [] := by
    unfold asked
    split <;> rfl
  have hd (target : Place) : (confirmed k target).filterMap operation? =
      if k.doubt = none then [] else ["is_python_file"] := by
    unfold confirmed
    split <;> rfl
  rw [filterMap_calls operation? hq, hc]
  cases st <;> simp [callsTo, Stage.script, Rules.script, ha, hd, operation?]

theorem Step.script {k : Rules} {st st' : Stage} {l : List Deed} (h : Step k st l st') :
    st.script k ++ l.filterMap operation? <+: k.script := by
  cases h with
  | log _ entry r => simpa [operation?, List.filterMap_cons] using st.script_prefix k
  | write _ text r => simpa [operation?, List.filterMap_cons] using st.script_prefix k
  | confirm plan path target hd r =>
    simp [Stage.script, Rules.script, operation?, hd]
  | _ => simp [Stage.script, Rules.script, operation?, List.filterMap_cons]

theorem Course.script {k : Rules} {ds : List Deed} {st : Stage} (h : Course k .fresh ds st) :
    ds.filterMap operation? <+: k.script := by
  cases h with
  | start => exact List.nil_prefix
  | step h hs =>
    rw [List.filterMap_append, (h.going hs.not_failed).script]
    exact hs.script

theorem Course.stopping {k : Rules} {ds : List Deed} {st : Stage} (h : Course k .fresh ds st) :
    Stops ds := by
  intro before d after hd hf
  obtain ⟨e, he⟩ := Option.ne_none_iff_exists'.mp hf
  exact (h.stops hd he).1

theorem Course.computing {k : Rules} {ds before after : List Deed} {st : Stage} {plan : MovePlan}
    {target : Place} {r : Except Failure ChangeSet} (h : Course k .fresh ds st)
    (hd : ds = before ++ .compute plan target r :: after) :
    (∃ place index, .begin place index (.ok plan) ∈ before) ∧
      (k.doubt ≠ none → .confirm target (.ok true) ∈ before) := by
  obtain ⟨st₁, st₂, hb, hs, -⟩ := h.split hd
  cases hs with
  | compute plan path target r =>
    obtain ⟨place, index, -, hc⟩ := (hb.going rfl).calls
    refine ⟨⟨place, index, ?_⟩, fun hk => ?_⟩
    · rw [Going.mem_iff rfl, hc]
      simp [callsTo]
    · rw [Going.mem_iff rfl, hc]
      simp [callsTo, confirmed, hk]

/-- What a moving command has to say to a worker is a dialogue. -/
theorem Course.dialogue {k : Rules} {ds : List Deed} {st : Stage} {xs : List Exchange}
    (h : Course k .fresh ds st) (hv : Voiced ds xs) : Dialogue k.script (k.doubt ≠ none) xs where
  plain x hx := by
    obtain ⟨_, d, _, -, hd⟩ := hv.mem hx
    exact hd.plain
  operations := (hv.operations h.stopping).trans h.script
  granted a x b hx hb := by
    obtain ⟨d, -, hf, hd⟩ := hv.calm h.stopping hx hb
    exact hd.decodes hf
  moved x hx ho := by
    obtain ⟨before, d, after, hds, hd⟩ := hv.mem hx
    obtain ⟨plan, target, r, rfl⟩ := compute_of_operation (ho ▸ hd.operation)
    obtain ⟨⟨place, index, hb⟩, -⟩ := h.computing hds
    obtain ⟨y, hy, hyd⟩ := hv.said_before hds hb rfl rfl
    obtain ⟨hyo, reply, m, ha, hm, hh⟩ := hyd.of_begin
    exact ⟨y, hy, reply, m, hyo, ha, hm, by rw [hd.of_compute.1, hh]⟩
  confirmed hk x hx ho := by
    obtain ⟨before, d, after, hds, hd⟩ := hv.mem hx
    obtain ⟨plan, target, r, rfl⟩ := compute_of_operation (ho ▸ hd.operation)
    obtain ⟨-, hc⟩ := h.computing hds
    obtain ⟨y, hy, hyd⟩ := hv.said_before hds (hc hk) rfl rfl
    obtain ⟨hyo, hp, hkind, reply, ha, hr⟩ := hyd.of_confirm
    exact ⟨y, hy, reply, _, _, hyo, ha, hr, hp, hkind, hd.of_compute.2⟩
  applied x hx ho := by
    obtain ⟨before, d, after, hds, hd⟩ := hv.mem hx
    obtain ⟨changes, r, rfl⟩ := apply_of_operation (ho ▸ hd.operation)
    obtain ⟨plan, path, target, hg, -⟩ := h.around hds
    obtain ⟨y, hy, hyd⟩ := hv.said_before hds hg.warrant.computed rfl rfl
    obtain ⟨hyo, reply, c, ha, hc, hh⟩ := hyd.of_computed
    exact ⟨y, hy, reply, c, hyo, ha, hc, by rw [hd.of_apply, hh]⟩

end Command

end Relocate
