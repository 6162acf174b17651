import Relocate.Proofs.Command.Prompting
import Relocate.Proofs.Session.Voice

namespace Relocate

open Relocate.Action Session

/-- A failure that neither the engine nor the environment has a part in. -/
inductive Failure.IsLocal : Failure → Prop
  | guard (message : String) : IsLocal (.guard message)
  | invalidArguments (message : String) : IsLocal (.invalidArguments message)
  | io (cause : SystemError) : IsLocal (.io cause)
  | answer (e : Prompt.Error) : IsLocal e.failure

theorem Failure.IsLocal.code_ne {e : Failure} (h : e.IsLocal) :
    e.status.code ≠ 3 ∧ e.status.code ≠ 4 := by
  cases h with
  | answer e => cases e <;> simp [Prompt.Error.failure, Failure.status, ExitStatus.code]
  | _ => simp [Failure.status, ExitStatus.code]

theorem Place.Refusal.failure_local (r : Refusal) : r.failure.IsLocal := by
  cases r with
  | missing path => exact .invalidArguments _
  | outside path root => exact .invalidArguments _
  | unnamed cause => exact .io _
  | notText path => exact .invalidArguments _

def Session.PlacesLocally {τ : Type} (s : Session τ) : Prop :=
  ∀ path hint e, s.resolve path hint = .error e → e.IsLocal

theorem Session.ofWorker_placesLocally (h : Host) (root : Utf8.Bytes) :
    (ofWorker h root).PlacesLocally := by
  intro path hint e he
  have he : (Place.resolve h.files h.folder root (Utf8.encode path) hint).mapError
    Place.Refusal.failure = .error e := he
  cases hp : Place.resolve h.files h.folder root (Utf8.encode path) hint with
  | ok place =>
    rw [hp] at he
    cases he
  | error refusal =>
    rw [hp] at he
    obtain rfl := Except.error.inj he
    exact refusal.failure_local

namespace Command

def display : Deed → String
  | .write text (.ok _) => text
  | .ask _ (.error (.unasked _)) => ""
  | .ask question (.error .endOfInput) => question ++ ": " ++ "\n"
  | .ask question _ => question ++ ": "
  | _ => ""

def displayed (ds : List Deed) : String := String.join (ds.map display)

theorem displayed_append (ds ds' : List Deed) :
    displayed (ds ++ ds') = displayed ds ++ displayed ds' := by
  rw [displayed, List.map_append, String.join_append]
  rfl

def Served (ds : List Deed) : Prop := ∀ d ∈ ds, operation? d ≠ none → d.failure? = none

theorem Served.append {ds ds' : List Deed} (h : Served ds) (h' : Served ds') : Served (ds ++ ds') :=
  fun d hd => (List.mem_append.mp hd).elim (h d) (h' d)

theorem Served.of_none {d : Deed} (h : operation? d = none) : Served [d] := by
  intro d' hd ho
  rw [List.mem_singleton.mp hd] at ho
  exact absurd h ho

/-- How what an action has done accounts for its result: if it fails although the engine does all that
it is asked for, the failure is local, and otherwise it is that of the engine. -/
inductive Account {α : Type} (post : α → List Deed → Prop) (blamed : Deed → List Deed → Prop) :
    Except Failure α → List Deed → Prop
  | done {x : α} {new : List Deed} (hs : Served new) (hp : post x new) :
    Account post blamed (.ok x) new
  | own {e : Failure} {new : List Deed} (hs : Served new) (he : e.IsLocal) :
    Account post blamed (.error e) new
  | engine {e : Failure} {d : Deed} {new : List Deed} (hd : d ∈ new) (ho : operation? d ≠ none)
    (hf : d.failure? = some e) (hb : blamed d new) : Account post blamed (.error e) new

namespace Account

variable {τ ε α β : Type} {post : α → List Deed → Prop} {blamed : Deed → List Deed → Prop}

theorem mono {post' : α → List Deed → Prop} {blamed' : Deed → List Deed → Prop}
    {res : Except Failure α} {new : List Deed} (h : Account post blamed res new)
    (hp : ∀ x, post x new → post' x new) (hb : ∀ d, blamed d new → blamed' d new) :
    Account post' blamed' res new := by
  cases h with
  | done hs hx => exact .done hs (hp _ hx)
  | own hs he => exact .own hs he
  | engine hd ho hf hx => exact .engine hd ho hf (hb _ hx)

theorem after {new more : List Deed} {res : Except Failure α} (hs : Served new)
    (h : Account (fun x more => post x (new ++ more)) (fun d more => blamed d (new ++ more)) res more) :
    Account post blamed res (new ++ more) := by
  cases h with
  | done hs' hx => exact .done (hs.append hs') hx
  | own hs' he => exact .own (hs.append hs') he
  | engine hd ho hf hx => exact .engine (List.mem_append_right new hd) ho hf hx

theorem pure {x : α} (h : post x []) :
    Does (pure x : Action (τ × List Deed) Failure α) (Account post blamed) :=
  Does.pure (.done (List.forall_mem_nil _) h)

theorem liftM {r : Except Failure α} (he : ∀ e, r = .error e → e.IsLocal) (h : ∀ x, post x []) :
    Does (liftM r : Action (τ × List Deed) Failure α) (Account post blamed) := by
  refine Does.liftM ?_
  cases r with
  | ok x => exact .done (List.forall_mem_nil _) (h x)
  | error e => exact .own (List.forall_mem_nil _) (he e rfl)

theorem ensure {holds : Bool} {e : Failure} {post : Unit → List Deed → Prop} (he : e.IsLocal)
    (h : post () []) :
    Does (ensure holds e : Action (τ × List Deed) Failure Unit) (Account post blamed) := by
  cases holds with
  | true => exact pure h
  | false =>
    refine liftM (r := .error e) (fun e' hr => ?_) fun _ => h
    obtain rfl := Except.error.inj hr
    exact he

theorem bind {a : Action (τ × List Deed) Failure α} {f : α → Action (τ × List Deed) Failure β}
    {mid : α → List Deed → Prop} {first : Deed → List Deed → Prop} {post : β → List Deed → Prop}
    (ha : Does a (Account mid first)) (hb : ∀ d new, first d new → blamed d new)
    (hf : ∀ x new, mid x new → Does (f x) (Account (fun y more => post y (new ++ more))
      fun d more => blamed d (new ++ more))) :
    Does (a >>= f) (Account post blamed) := by
  intro t ds
  obtain ⟨new, hd, hm⟩ := ha t ds
  rcases he : exec a (t, ds) with ⟨res, t', ds'⟩
  rw [he] at hd hm
  obtain rfl : ds' = ds ++ new := hd
  cases hm with
  | own hs hl =>
    rw [exec_bind_of_error he]
    exact ⟨new, rfl, .own hs hl⟩
  | engine hd ho hf hx =>
    rw [exec_bind_of_error he]
    exact ⟨new, rfl, .engine hd ho hf (hb _ _ hx)⟩
  | @done x _ hs hx =>
    obtain ⟨more, hd', h⟩ := hf x new hx t' (ds ++ new)
    rw [exec_bind_of_ok he]
    exact ⟨new ++ more, by rw [hd', List.append_assoc], .after hs h⟩

theorem call {deed : Except Failure α → Deed} (a : Action τ Failure α)
    (hf : ∀ e, (deed (.error e)).failure? = some e) (hk : ∀ x, (deed (.ok x)).failure? = none)
    (ho : ∀ r, operation? (deed r) ≠ none) (hp : ∀ x, post x [deed (.ok x)])
    (hb : ∀ e, blamed (deed (.error e)) [deed (.error e)]) :
    Does (noted deed a) (Account post blamed) := by
  refine Does.noted a fun r => ?_
  cases r with
  | ok x =>
    refine .done (fun d hd _ => ?_) (hp x)
    rw [List.mem_singleton.mp hd]
    exact hk x
  | error e => exact .engine List.mem_cons_self (ho _) (hf e) (hb e)

end Account

open Account

variable {τ α β : Type}

/-- An action that shows a text and has nothing to do with the engine. -/
def Shows (a : Action (τ × List Deed) Failure α) (text : String) : Prop :=
  Does a (Account (fun _ new => displayed new = text) fun _ _ => False)

def isUnplanned (d : Deed) : Prop := operation? d = some "create_move"

def Uses (a : Action (τ × List Deed) Failure α) : Prop :=
  Does a (Account (fun _ new => displayed new = "")
    fun d new => ¬ isUnplanned d ∧ displayed new = "")

/-- An action that shows nothing before the engine has done all that it is asked for. -/
def Concludes (a : Action (τ × List Deed) Failure α) : Prop :=
  Does a (Account (fun _ _ => True) fun d new => ¬ isUnplanned d ∧ displayed new = "")

namespace Shows

theorem pure (x : α) : Shows (pure x : Action (τ × List Deed) Failure α) "" := Account.pure rfl

theorem liftM {r : Except Failure α} (h : ∀ e, r = .error e → e.IsLocal) :
    Shows (liftM r : Action (τ × List Deed) Failure α) "" := Account.liftM h fun _ => rfl

theorem bind {a : Action (τ × List Deed) Failure α} {f : α → Action (τ × List Deed) Failure β}
    {text text' : String} (ha : Shows a text) (hf : ∀ x, Shows (f x) text') :
    Shows (a >>= f) (text ++ text') := by
  refine Account.bind ha (fun _ _ hb => hb) fun x new hn => (hf x).mono fun res more h => ?_
  refine h.mono (fun y hy => ?_) fun _ hb => hb
  rw [displayed_append, hn, hy]

theorem returning {a : Action (τ × List Deed) Failure α} {x : β} {text : String}
    (h : Shows a text) :
    Does (a >>= fun _ => (Pure.pure x : Action (τ × List Deed) Failure β))
      (Account (fun y new => y = x ∧ displayed new = text) fun _ _ => False) := by
  refine Account.bind h (fun _ _ hb => hb) fun _ new hn => Account.pure ⟨rfl, ?_⟩
  rw [List.append_nil, hn]

theorem uses {a : Action (τ × List Deed) Failure α} (h : Shows a "") : Uses a :=
  h.mono fun _ _ ha => ha.mono (fun _ hx => hx) fun _ hb => hb.elim

theorem concludes {a : Action (τ × List Deed) Failure α} {text : String} (h : Shows a text) :
    Concludes a :=
  h.mono fun _ _ ha => ha.mono (fun _ _ => trivial) fun _ hb => hb.elim

theorem report (s : Surroundings τ) (pieces : List String) :
    Shows (s.recorded.report pieces) (String.join pieces) := by
  induction pieces with
  | nil => exact pure PUnit.unit
  | cons text pieces ih =>
    have hw : Shows ((s.recorded.write text).mapError Failure.io) text := by
      refine Does.mapError (Does.noted (s.write text) fun r => ?_)
      cases r with
      | ok u => exact .done (.of_none rfl) (by simp [displayed, display])
      | error e => exact .own (.of_none rfl) (.io e)
    rw [String.join_cons]
    exact bind hw fun _ => ih

def asking (given : Option String) (question : String) : String :=
  if given = none then question ++ ": " else ""

theorem destination (s : Surroundings τ) (given : Option String) (question : String) :
    Shows (s.recorded.destination given question) (asking given question) := by
  cases given with
  | some path => exact pure path
  | none =>
    refine Does.mapError (Does.noted (s.ask question) fun r => ?_)
    cases r with
    | ok path => exact .done (.of_none rfl) (by simp [displayed, display, asking])
    | error e => exact .own (.of_none rfl) (.answer e)

section

variable {s : Surroundings τ} (hl : ∀ entry t, (exec (s.log entry) t).1 = .ok ())

include hl

theorem log (entry : Log.Entry) : Shows (s.recorded.log entry) "" := by
  refine fun t ds => ⟨[.log entry (exec (s.log entry) t).1], rfl, ?_⟩
  have hr : (exec (s.recorded.log entry) (t, ds)).1 = .ok () := hl entry t
  rw [hr]
  exact .done (.of_none rfl) rfl

theorem logs (entries : List Log.Entry) : Shows (entries.forM s.recorded.log) "" := by
  induction entries with
  | nil => exact pure PUnit.unit
  | cons entry entries ih => exact bind (log hl entry) fun _ => ih

end

end Shows

theorem Uses.bind {a : Action (τ × List Deed) Failure α} {f : α → Action (τ × List Deed) Failure β}
    (ha : Uses a) (hf : ∀ x, Uses (f x)) : Uses (a >>= f) := by
  refine Account.bind ha (fun _ _ hb => hb) fun x new hn => (hf x).mono fun res more h => ?_
  refine h.mono (fun y hy => ?_) fun d hb => ⟨hb.1, ?_⟩
  · rw [displayed_append, hn, hy]
    rfl
  · rw [displayed_append, hn, hb.2]
    rfl

theorem Concludes.bind {a : Action (τ × List Deed) Failure α}
    {f : α → Action (τ × List Deed) Failure β} (ha : Uses a) (hf : ∀ x, Concludes (f x)) :
    Concludes (a >>= f) := by
  refine Account.bind ha (fun _ _ hb => hb) fun x new hn => (hf x).mono fun res more h => ?_
  refine h.mono (fun _ hy => hy) fun d hb => ⟨hb.1, ?_⟩
  rw [displayed_append, hn, hb.2]
  rfl

namespace Rules

structure AreLocal (k : Rules) : Prop where
  source : ∀ e, k.source = .error e → e.IsLocal
  permit : ∀ plan e, k.permit plan = .error e → e.IsLocal
  aim : ∀ path e, k.aim path = .error e → e.IsLocal
  doubt : ∀ e, k.doubt = some e → e.IsLocal

def progress (k : Rules) (plan : MovePlan) : String :=
  String.join (k.announcement plan) ++ Shows.asking k.given k.question

/-- What the user has been shown when the engine fails: nothing before there is a plan, and after that
what a command has to say before it moves anything. -/
inductive Preface (k : Rules) (d : Deed) (new : List Deed) : Prop
  | early (hd : isUnplanned d) (hs : displayed new = "")
  | late {plan : MovePlan} (hd : ¬ isUnplanned d) (hp : plan ∈ plans new)
    (hs : displayed new = k.progress plan)

section

variable {k : Rules} {s : Surroundings τ}

theorem announce_account (hk : k.AreLocal)
    (hl : ∀ entry t, (exec (s.log entry) t).1 = .ok ()) :
    Does (k.announce s.recorded) (Account
      (fun plan new => plan ∈ plans new ∧ displayed new = String.join (k.announcement plan))
      fun d new => isUnplanned d ∧ displayed new = "") := by
  have hparts : k.announce s.recorded = (k.remarks.forM s.recorded.log >>= fun _ =>
      (liftM k.source : Action (τ × List Deed) Failure _)) >>= fun source =>
        s.recorded.session.beginMove source.1 source.2 >>= fun plan =>
          ((liftM (k.permit plan) : Action (τ × List Deed) Failure Unit) >>= fun _ =>
            s.recorded.report (k.announcement plan)) >>= fun _ => pure plan := by
    simp only [announce, opening, bind_assoc, pure_bind]
  have hsource : Shows (k.remarks.forM s.recorded.log >>= fun _ =>
      (liftM k.source : Action (τ × List Deed) Failure _)) "" :=
    Shows.bind (.logs hl _) fun _ => .liftM hk.source
  have hbegin (source : Place × Option Nat) :
      Does (s.recorded.session.beginMove source.1 source.2)
        (Account (fun plan new => plan ∈ plans new ∧ displayed new = "")
          fun d new => isUnplanned d ∧ displayed new = "") :=
    Account.call _ (fun _ => rfl) (fun _ => rfl) (fun _ => Option.some_ne_none _)
      (fun plan => ⟨List.mem_cons_self, rfl⟩) fun _ => ⟨rfl, rfl⟩
  have hreport (plan : MovePlan) :
      Shows ((liftM (k.permit plan) : Action (τ × List Deed) Failure Unit) >>= fun _ =>
        s.recorded.report (k.announcement plan)) (String.join (k.announcement plan)) := by
    have hb := Shows.bind (.liftM (hk.permit plan)) fun _ => .report s (k.announcement plan)
    rwa [String.empty_append] at hb
  rw [hparts]
  refine Account.bind hsource (fun _ _ hb => hb.elim) fun source new hn => ?_
  refine Account.bind (hbegin source) (fun d more hb => ⟨hb.1, ?_⟩) fun plan more hm => ?_
  · rw [displayed_append, hn, hb.2]
    rfl
  · refine (hreport plan).returning.mono fun res last h => ?_
    refine h.mono (fun plan' hp => ?_) fun _ hb => hb.elim
    obtain ⟨rfl, ht⟩ := hp
    refine ⟨?_, ?_⟩
    · rw [plans_append, plans_append]
      simp [hm.1]
    · rw [displayed_append, displayed_append, hn, hm.2, ht]
      simp

theorem confirm_uses (hk : k.AreLocal) (place : Place) : Uses (k.confirm s.recorded place) := by
  unfold Rules.confirm
  cases hd : k.doubt with
  | none => exact (Shows.pure ()).uses
  | some e =>
    refine Uses.bind (Account.call (s.session.isSourceFile place) (fun _ => rfl) (fun _ => rfl) nofun
      (fun _ => rfl) fun _ => ⟨by simp [isUnplanned, operation?], rfl⟩) fun b => ?_
    exact Account.ensure (hk.doubt e hd) rfl

theorem proceed_concludes (hk : k.AreLocal) (hl : ∀ entry t, (exec (s.log entry) t).1 = .ok ())
    (plan : MovePlan) (path : String) : Concludes (k.proceed s.recorded plan path) := by
  refine .bind (Shows.liftM (hk.aim path)).uses fun place => .bind (confirm_uses hk place) fun _ => ?_
  refine .bind (Shows.logs hl _).uses fun _ => ?_
  refine .bind (Account.call (s.session.changesFor plan place) (fun _ => rfl) (fun _ => rfl) nofun
    (fun _ => rfl) fun _ => ⟨by simp [isUnplanned, operation?], rfl⟩) fun changes => ?_
  refine .bind (Shows.log hl _).uses fun _ => ?_
  refine .bind (Account.call (s.session.apply changes) (fun _ => rfl) (fun _ => rfl) nofun
    (fun _ => rfl) fun _ => ⟨by simp [isUnplanned, operation?], rfl⟩) fun _ => ?_
  exact (Shows.report s _).concludes

/-- A moving command fails by its own rules or the user, or just as the engine does. -/
theorem run_account (hk : k.AreLocal) (hl : ∀ entry t, (exec (s.log entry) t).1 = .ok ()) :
    Does (k.run s.recorded) (Account (fun _ _ => True) k.Preface) := by
  rw [run_announce]
  refine Account.bind (announce_account hk hl) (fun d new hb => .early hb.1 hb.2) ?_
  rintro plan new ⟨hp, ha⟩
  refine Account.bind (Shows.destination s _ _) (fun _ _ hb => hb.elim) fun path more hq => ?_
  refine (proceed_concludes hk hl plan path).mono fun res last h => ?_
  have hp' : plan ∈ plans (new ++ (more ++ last)) := by
    rw [plans_append]
    exact List.mem_append_left _ hp
  refine h.mono (fun _ hx => hx) fun d hb => .late hb.1 hp' ?_
  rw [displayed_append, displayed_append, ha, hq, hb.2, String.append_empty]
  rfl

end

end Rules

namespace Move

theorem located_local {s : Surroundings τ} (hs : s.session.PlacesLocally) {m : Move} {e : Failure}
    (h : m.located s = .error e) : e.IsLocal := by
  unfold located at h
  cases hp : s.session.resolve m.file .file with
  | error refusal =>
    rw [hp] at h
    obtain rfl := Except.error.inj h
    exact hs _ _ _ hp
  | ok place =>
    rw [hp] at h
    dsimp only at h
    split at h
    · obtain rfl := Except.error.inj h
      exact .invalidArguments _
    · split at h
      · obtain rfl := Except.error.inj h
        exact .io _
      · cases h

theorem areLocal {s : Surroundings τ} (hs : s.session.PlacesLocally) (m : Move) :
    (m.rules s).AreLocal where
  source e he := by
    have he : m.spot s = .error e := he
    unfold spot at he
    split at he
    · rename_i e' hl
      obtain rfl := Except.error.inj he
      exact located_local hs hl
    · split at he
      · obtain rfl := Except.error.inj he
        exact .invalidArguments _
      · cases he
  permit plan e he := by
    have he : permit plan = .error e := he
    unfold permit at he
    split at he <;> cases he <;> exact .guard _
  aim path e he := by
    have he : aim s path = .error e := he
    unfold aim at he
    split at he
    · split at he
      · rename_i hp
        obtain rfl := Except.error.inj he
        exact hs _ _ _ hp
      · split at he <;> cases he
        exact .guard _
    · obtain rfl := Except.error.inj he
      exact .guard _
  doubt e he := by
    obtain rfl := Option.some.inj he
    exact .guard _

end Move

theorem MoveModule.areLocal {s : Surroundings τ} (hs : s.session.PlacesLocally) (m : MoveModule) :
    (m.rules s).AreLocal where
  source e he := by
    unfold rules at he
    dsimp only at he
    split at he
    · rename_i hp
      obtain rfl := Except.error.inj he
      exact hs _ _ _ hp
    · cases he
  permit plan e he := by cases he
  aim path e he := by
    have he : aim s path = .error e := he
    unfold aim at he
    split at he
    · rename_i hp
      obtain rfl := Except.error.inj he
      exact hs _ _ _ hp
    · split at he <;> cases he
      exact .guard _
  doubt e he := by cases he

end Command

end Relocate
