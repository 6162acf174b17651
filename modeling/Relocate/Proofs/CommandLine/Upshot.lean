import Relocate.Proofs.Command.Blame
import Relocate.Proofs.CommandLine.Success
import Relocate.Proofs.Session.Fault

namespace Relocate

open Relocate.Action Session Worker
open Utf8 (Bytes)

namespace CommandLine

theorem printed_append (es es' : List Event) : printed (es ++ es') = printed es ++ printed es' := by
  unfold printed
  rw [List.filterMap_append, String.join_append]

theorem printed_hidden {es : List Event} (h : ∀ e ∈ es, e.isHidden = true) : printed es = "" := by
  unfold printed
  rw [List.filterMap_eq_nil_iff.mpr fun e he => ?_, String.join_nil]
  have hh := h e he
  cases e <;> first | rfl | cases hh

theorem printed_silent {σ ε α : Type} {a : Action (Run σ) ε α} (h : Silent a) (r : Run σ) :
    printed (exec a r).2.journal = printed r.journal := by
  obtain ⟨es, hj, he⟩ := h r
  rw [hj, printed_append, printed_hidden he, String.append_empty]

theorem printed_shownBy (d : Deed) : printed (shownBy d) = Command.display d := by
  cases d with
  | ask question res =>
    cases res with
    | ok answer => simp [shownBy, printed, Command.display]
    | error e => cases e <;> simp [shownBy, printed, Command.display]
  | write text res =>
    cases res with
    | error e => rfl
    | ok u => by_cases ht : text = "" <;> simp [shownBy, printed, Command.display, ht]
  | _ => rfl

theorem carried_printed {h : Host} {root : Bytes} {d : Deed} {r r' : Run Link}
    (hd : d.Carried (.ofRun h (ofWorker h root)) r r') :
    printed r'.journal = printed r.journal ++ Command.display d := by
  obtain ⟨es, hj, he⟩ := carried_shown hd
  rw [hj, printed_append, printed_append, printed_hidden he, String.append_empty, printed_shownBy]

theorem trace_printed {h : Host} {root : Bytes} {ds : List Deed} {r r' : Run Link}
    (ht : Trace (.ofRun h (ofWorker h root)) r ds r') :
    printed r'.journal = printed r.journal ++ Command.displayed ds := by
  induction ds generalizing r with
  | nil =>
    obtain rfl : r = r' := ht
    exact String.append_empty.symm
  | cons d ds ih =>
    obtain ⟨r₁, hd, ht⟩ := ht
    rw [ih ht, carried_printed hd, String.append_assoc]
    exact congrArg _ (Command.displayed_append [d] ds).symm

/-- What has been printed when request `x` fails after those before it: nothing yet, or what there is
to say about a plan before anything is moved. -/
inductive Preface (progress : MovePlan → String) (before : List Exchange) (x : Exchange) :
    String → Prop
  | unsaid (hx : x.operation ∈ ["open_project", "create_move", "import_candidates"]) :
    Preface progress before x ""
  | said {y : Exchange} {reply : Reply} {m : MoveReply} {plan : MovePlan} (hy : y ∈ before)
    (ho : y.operation = "create_move") (ha : y.Accepted reply)
    (hm : MoveReply.ofData reply.data = .ok m) (hp : planOf m = .ok plan) :
    Preface progress before x (progress plan)

theorem Preface.mono {progress : MovePlan → String} {a b : List Exchange} {x : Exchange}
    {text : String} (h : Preface progress a x text) (hab : a ⊆ b) : Preface progress b x text := by
  cases h with
  | unsaid hx => exact .unsaid hx
  | said hy ho ha hm hp => exact .said (hab hy) ho ha hm hp

/-- What exchanges with a worker come to: if they all do what they are for, any failure is local, and
otherwise the last of them fails, and so does all. -/
inductive Upshot (progress : MovePlan → String) (xs : List Exchange) :
    Except Failure Unit → String → Prop
  | served {res : Except Failure Unit} {text : String} (hx : ∀ x ∈ xs, ∀ e, ¬ Fails x e)
    (hr : ∀ e, res = .error e → e.IsLocal) : Upshot progress xs res text
  | failed {a : List Exchange} {x : Exchange} {e : Failure} {text : String} (hx : xs = a ++ [x])
    (ha : ∀ y ∈ a, ∀ e, ¬ Fails y e) (hf : Fails x e) (ht : Preface progress a x text) :
    Upshot progress xs (.error e) text

theorem Upshot.cons {progress : MovePlan → String} {xs : List Exchange}
    {res : Except Failure Unit} {text : String} (h : Upshot progress xs res text) {x : Exchange}
    (hx : ∀ e, ¬ Fails x e) : Upshot progress (x :: xs) res text := by
  cases h with
  | served hxs hr => exact .served (List.forall_mem_cons.mpr ⟨hx, hxs⟩) hr
  | failed hxs ha hf ht =>
    refine .failed (congrArg (x :: ·) hxs) (List.forall_mem_cons.mpr ⟨hx, ha⟩) hf ?_
    exact ht.mono (List.subset_cons_self _ _)

end CommandLine

namespace Command

open CommandLine

theorem mem_plans {plan : MovePlan} {ds : List Deed} (h : plan ∈ plans ds) :
    ∃ place index, .begin place index (.ok plan) ∈ ds := by
  obtain ⟨d, hd, hp⟩ := List.mem_filterMap.mp h
  cases d with
  | begin place index r =>
    cases r with
    | ok plan' =>
      obtain rfl := Option.some.inj hp
      exact ⟨place, index, hd⟩
    | error e => cases hp
  | _ => cases hp

theorem Rules.Preface.printed {k : Rules} {ds : List Deed} {a : List Exchange} {x : Exchange}
    {d : Deed} (h : k.Preface d ds) (hv : Voiced ds (a ++ [x])) (hd : Voices x d) :
    CommandLine.Preface k.progress a x (displayed ds) := by
  cases h with
  | early hu hs =>
    rw [hs]
    refine .unsaid ?_
    obtain ho : x.operation = "create_move" := Option.some.inj (hd.operation.symm.trans hu)
    simp [ho]
  | @late plan hu hp hs =>
    obtain ⟨place, index, hb⟩ := mem_plans hp
    obtain ⟨y, hy, hyd⟩ := hv.mem_of_calm hb rfl rfl
    obtain ⟨reply, -, ha, hg⟩ := hyd.granted rfl
    obtain ⟨m, hm, hplan⟩ := hg plan rfl
    have ho : y.operation = "create_move" := (Option.some.inj hyd.operation).symm
    rw [hs]
    obtain hy | hy := List.mem_append.mp hy
    · exact .said hy ho ha hm hplan
    · rw [List.mem_singleton.mp hy] at ho
      exact absurd (hd.operation.trans (congrArg some ho)) hu

/-- What a moving command has to say to a worker that runs, and what comes of it. -/
theorem Rules.upshot (k : Rules) (hk : k.AreLocal) (h : Host) (root : Bytes) {r : Run Link}
    (hr : r.engine.isRunning = true) :
    ∃ xs text, Talk r (exec (k.run (.ofRun h (ofWorker h root))) r).2 xs ∧
      Dialogue k.script (k.doubt ≠ none) xs ∧
      printed (exec (k.run (.ofRun h (ofWorker h root))) r).2.journal = printed r.journal ++ text ∧
      Upshot k.progress xs (exec (k.run (.ofRun h (ofWorker h root))) r).1 text := by
  obtain ⟨st, ht, hc, -⟩ := performed_course k (.ofRun h (ofWorker h root)) r
  obtain ⟨xs, hx, hv, hs⟩ := trace_voiced ht
  refine ⟨xs, _, hx, hc.dialogue hv, trace_printed ht, ?_⟩
  obtain ⟨new, hnew, ha⟩ := k.run_account (s := .ofRun h (ofWorker h root)) hk (fun _ _ => rfl) r []
  have hresult := congrArg Prod.fst (performed_run k (.ofRun h (ofWorker h root)) r)
  obtain rfl : (performed (k.run (Surroundings.ofRun h (ofWorker h root)).recorded) r).2 = new := hnew
  have ha : Account _ k.Preface
    (performed (k.run (Surroundings.ofRun h (ofWorker h root)).recorded) r).1.1 _ := ha
  rw [hresult] at ha
  generalize (exec (k.run (Surroundings.ofRun h (ofWorker h root))) r).1 = res at ha ⊢
  cases ha with
  | done hn _ => exact .served (hv.not_fails hn) nofun
  | own hn hl =>
    refine .served (hv.not_fails hn) fun e he => ?_
    obtain rfl := Except.error.inj he
    exact hl
  | engine hd ho hf hb =>
    obtain ⟨x, hx, hxd⟩ := hs hr hc.stopping _ hd ho
    have hfails := hxd.failed _ hf
    obtain ⟨a, rfl, hbefore⟩ := hv.last hc.stopping hx hfails
    exact .failed rfl hbefore hfails (hb.printed hv hxd)

def FailsLocally {τ α : Type} (a : Action τ Failure α) : Prop :=
  ∀ t e, (exec a t).1 = .error e → e.IsLocal

namespace FailsLocally

variable {τ α β : Type}

theorem of_ok {a : Action τ Failure α} {x : α} (h : ∀ t, (exec a t).1 = .ok x) : FailsLocally a := by
  intro t e he
  rw [h t] at he
  cases he

theorem throw {e : Failure} (h : e.IsLocal) : FailsLocally (throw e : Action τ Failure α) := by
  intro t e' he
  obtain rfl := Except.error.inj he
  exact h

theorem bind {a : Action τ Failure α} {f : α → Action τ Failure β} (ha : FailsLocally a)
    (hf : ∀ x, FailsLocally (f x)) : FailsLocally (a >>= f) := by
  intro t e he
  rcases hr : exec a t with ⟨x, t'⟩
  cases x with
  | ok x =>
    rw [exec_bind_of_ok hr] at he
    exact hf x t' e he
  | error e' =>
    rw [exec_bind_of_error hr] at he
    obtain rfl := Except.error.inj he
    exact ha t e' (congrArg Prod.fst hr)

theorem forM {f : α → Action τ Failure PUnit} (h : ∀ x, FailsLocally (f x)) (xs : List α) :
    FailsLocally (xs.forM f) := by
  induction xs with
  | nil => exact of_ok (fun _ => rfl)
  | cons x xs ih => exact bind (h x) fun _ => ih

theorem report (s : Surroundings τ) (pieces : List String) : FailsLocally (s.report pieces) := by
  refine forM (fun text t e he => ?_) pieces
  rw [exec_mapError] at he
  cases hr : (exec (s.write text) t).1 with
  | ok u =>
    rw [hr] at he
    cases he
  | error cause =>
    rw [hr] at he
    obtain rfl := Except.error.inj he
    exact .io cause

end FailsLocally

namespace ShowImports

variable (h : Host) (root : Bytes) (c : ShowImports)

theorem offer_local (candidates : List String) :
    FailsLocally (c.offer (.ofRun h (ofWorker h root)) candidates) := by
  refine .bind (.forM (fun m => .of_ok fun _ => rfl) _) fun _ => ?_
  refine .bind (.of_ok fun _ => rfl) fun _ => ?_
  dsimp only
  split
  · exact .bind (.throw (.guard _)) fun _ => .forM (fun m => .report _ _) _
  · exact .forM (fun m => .report _ _) _

theorem upshot (progress : MovePlan → String) {r : Run Link} (hr : r.engine.isRunning = true) :
    ∃ xs text, Talk r (exec (c.run (.ofRun h (ofWorker h root))) r).2 xs ∧
      Dialogue ["import_candidates"] False xs ∧
      printed (exec (c.run (.ofRun h (ofWorker h root))) r).2.journal = printed r.journal ++ text ∧
      Upshot progress xs (exec (c.run (.ofRun h (ofWorker h root))) r).1 text := by
  rcases hl : exec ((ofWorker h root).importCandidates c.name) r with ⟨res, r₁⟩
  have hd : Deed.Carried (.ofRun h (ofWorker h root)) r (.list c.name res) r₁ := hl
  have hs : exec ((Surroundings.ofRun h (ofWorker h root)).session.importCandidates c.name) r = _ := hl
  obtain ⟨xs, hx, hv, hsaid⟩ := carried_voiced hd
  have hp := carried_printed hd
  rw [run_eq]
  cases res with
  | error e =>
    rw [exec_bind_of_error hs]
    obtain ⟨x, hm, hxd⟩ := hsaid hr _ List.mem_cons_self nofun
    obtain ⟨a, rfl, hbefore⟩ := hv.last (.one _) hm (hxd.failed e rfl)
    refine ⟨_, _, hx, dialogue_list hv, hp, .failed rfl hbefore (hxd.failed e rfl) (.unsaid ?_)⟩
    obtain ho : "import_candidates" = x.operation := Option.some.inj hxd.operation
    simp [← ho]
  | ok candidates =>
    rw [exec_bind_of_ok hs]
    have hcalm := hv.not_fails (List.forall_mem_singleton.mpr fun _ => rfl)
    obtain ⟨es, hj, -⟩ := (offer_told h root c candidates r₁).journal
    refine ⟨xs, printed es, hx.before_told (offer_told h root c candidates r₁), dialogue_list hv, ?_,
      .served hcalm (offer_local h root c candidates r₁)⟩
    rw [hj, printed_append, hp]
    exact congrArg (· ++ _) String.append_empty

end ShowImports

end Command

namespace CommandLine

/-- What a request says of a plan before anything is moved: the announcement, and the question for the
destination if none was given. -/
def Request.progress (q : Request) (plan : MovePlan) : String :=
  String.join (q.announcement plan) ++
    match q with
    | .move m => Command.Shows.asking m.destination Command.Move.question
    | .moveModule m => Command.Shows.asking m.destination Command.MoveModule.question
    | .showImports _ => ""

theorem dispatch_upshot (h : Host) (root : Bytes) (settings : Settings) (q : Request) {r : Run Link}
    (hr : r.engine.isRunning = true) :
    ∃ xs text, Talk r (exec (dispatch (.ofRun h (ofWorker h root)) settings q) r).2 xs ∧
      Dialogue q.script.tail q.confirms xs ∧
      printed (exec (dispatch (.ofRun h (ofWorker h root)) settings q) r).2.journal =
        printed r.journal ++ text ∧
      Upshot q.progress xs (exec (dispatch (.ofRun h (ofWorker h root)) settings q) r).1 text := by
  cases q with
  | move m =>
    have hl := m.areLocal (s := .ofRun h (ofWorker h root)) (ofWorker_placesLocally h root)
    have hu := Command.Rules.upshot _ hl h root hr
    rw [← m.run_eq] at hu
    obtain ⟨xs, text, hx, hd, hp, hu⟩ := hu
    exact ⟨xs, text, hx, hd.imp nofun, hp, hu⟩
  | moveModule m =>
    have hl := m.areLocal (s := .ofRun h (ofWorker h root)) (ofWorker_placesLocally h root)
    have hu := Command.Rules.upshot _ hl h root hr
    rw [← m.run_eq] at hu
    obtain ⟨xs, text, hx, hd, hp, hu⟩ := hu
    exact ⟨xs, text, hx, hd.imp False.elim, hp, hu⟩
  | showImports name => exact Command.ShowImports.upshot h root _ _ hr

end CommandLine

end Relocate
