import Relocate.Proofs.Command.Telling

namespace Relocate

open Relocate.Action

variable {σ π : Type}

namespace Action

variable {ε α : Type}

def onFirst (a : Action σ ε α) : Action (σ × π) ε α :=
  ExceptT.mk fun t => ((exec a t.1).1, (exec a t.1).2, t.2)

def onSecond (a : Action π ε α) : Action (σ × π) ε α :=
  ExceptT.mk fun t => ((exec a t.2).1, t.1, (exec a t.2).2)

end Action

/-- The same surroundings, but questions go to somebody with a state of his own. -/
def Surroundings.asking (s : Surroundings σ) (ask : String → Action π Prompt.Error String) :
    Surroundings (σ × π) where
  host := s.host
  session :=
    { root := s.session.root
      resolve := s.session.resolve
      beginMove := fun place index => onFirst (s.session.beginMove place index)
      isSourceFile := fun place => onFirst (s.session.isSourceFile place)
      changesFor := fun plan target => onFirst (s.session.changesFor plan target)
      apply := fun changes => onFirst (s.session.apply changes)
      importCandidates := fun name => onFirst (s.session.importCandidates name) }
  ask question := onSecond (ask question)
  write text := onFirst (s.write text)
  log entry := onFirst (s.log entry)

def Deed.isAsk : Deed → Bool
  | .ask .. => true
  | _ => false

namespace Command

variable {ε δ α β : Type} {kind kind' : Deed → Bool}

/-- An action for which the second state does not count, nor what was done before: from a first state
it has always the same result, and does the same things, all of one kind. -/
def Apart (kind : Deed → Bool) (a : Action ((σ × π) × List Deed) ε α) : Prop :=
  ∀ t, ∃ res t' new, (∀ d ∈ new, kind d = true) ∧
    ∀ u ds, exec a ((t, u), ds) = (res, (t', u), ds ++ new)

namespace Apart

theorem pure (x : α) : Apart kind (pure x : Action ((σ × π) × List Deed) ε α) :=
  fun t => ⟨.ok x, t, [], List.forall_mem_nil _, fun u ds => by rw [List.append_nil]; rfl⟩

theorem liftM (r : Except ε α) : Apart kind (liftM r : Action ((σ × π) × List Deed) ε α) :=
  fun t => ⟨r, t, [], List.forall_mem_nil _, fun u ds => by rw [List.append_nil]; rfl⟩

theorem ensure (holds : Bool) (e : ε) :
    Apart kind (ensure holds e : Action ((σ × π) × List Deed) ε Unit) := by
  cases holds with
  | false => exact liftM (.error e)
  | true => exact pure ()

theorem noted {deed : Except ε α → Deed} (a : Action σ ε α) (h : ∀ r, kind (deed r) = true) :
    Apart kind (noted deed (onFirst a) : Action ((σ × π) × List Deed) ε α) :=
  fun t => ⟨(exec a t).1, (exec a t).2, [deed (exec a t).1], by simpa using h _, fun _ _ => rfl⟩

theorem bind {a : Action ((σ × π) × List Deed) ε α} {f : α → Action ((σ × π) × List Deed) ε β}
    (ha : Apart kind a) (hf : ∀ x, Apart kind (f x)) : Apart kind (a >>= f) := by
  intro t
  obtain ⟨res, t', new, hn, he⟩ := ha t
  cases res with
  | error e => exact ⟨.error e, t', new, hn, fun u ds => exec_bind_of_error (he u ds)⟩
  | ok x =>
    obtain ⟨res, t'', more, hm, he'⟩ := hf x t'
    refine ⟨res, t'', new ++ more, ?_, fun u ds => ?_⟩
    · exact fun d hd => (List.mem_append.mp hd).elim (hn d) (hm d)
    · rw [exec_bind_of_ok (he u ds), he', List.append_assoc]

theorem mapError {a : Action ((σ × π) × List Deed) ε α} (h : Apart kind a) (f : ε → δ) :
    Apart kind (a.mapError f) := by
  intro t
  obtain ⟨res, t', new, hn, he⟩ := h t
  refine ⟨res.mapError f, t', new, hn, fun u ds => ?_⟩
  rw [exec_mapError, he]

theorem forM {f : α → Action ((σ × π) × List Deed) ε PUnit} (h : ∀ x, Apart kind (f x))
    (xs : List α) : Apart kind (xs.forM f) := by
  induction xs with
  | nil => exact pure PUnit.unit
  | cons x xs ih => exact bind (h x) fun _ => ih

end Apart

def plans (ds : List Deed) : List MovePlan :=
  ds.filterMap fun
    | .begin _ _ (.ok plan) => some plan
    | _ => none

theorem plans_append (ds ds' : List Deed) : plans (ds ++ ds') = plans ds ++ plans ds' :=
  List.filterMap_append

def Announced (k : Rules) (ds : List Deed) : Prop :=
  ∃ plan ∈ plans ds, k.permit plan = .ok () ∧ k.announcement plan <+: told ds

theorem Announced.append {k : Rules} {ds : List Deed} (h : Announced k ds) (ds' : List Deed) :
    Announced k (ds ++ ds') := by
  obtain ⟨plan, hb, hp, ht⟩ := h
  refine ⟨plan, ?_, hp, ?_⟩
  · rw [plans_append]
    exact List.mem_append_left _ hb
  · rw [told_append]
    exact ht.trans (List.prefix_append _ _)

def isPrelude : Deed → Bool
  | .begin .. | .write .. | .log .. => true
  | _ => false

section

variable (k : Rules) (s : Surroundings σ) (ask : String → Action π Prompt.Error String)

theorem report_apart (h : ∀ text r, kind (.write text r) = true) (pieces : List String) :
    Apart kind ((s.asking ask).recorded.report pieces) :=
  .forM (fun text => .mapError (.noted (s.write text) (h text)) _) pieces

theorem logs_apart (h : ∀ entry r, kind (.log entry r) = true) (entries : List Log.Entry) :
    Apart kind (entries.forM (s.asking ask).recorded.log) :=
  .forM (fun entry => .noted (s.log entry) (h entry)) entries

theorem announce_apart : Apart isPrelude (k.announce (s.asking ask).recorded) := by
  refine .bind ?_ fun plan => .bind (report_apart s ask (fun _ _ => rfl) _) fun _ => .pure plan
  refine .bind (logs_apart s ask (fun _ _ => rfl) _) fun _ => .bind (.liftM _) fun source => ?_
  refine .bind (.noted (s.session.beginMove source.1 source.2) fun _ => rfl) fun plan => ?_
  exact .bind (.liftM _) fun _ => .pure plan

theorem confirm_apart (place : Place) :
    Apart (fun d => !d.isAsk) (k.confirm (s.asking ask).recorded place) := by
  unfold Rules.confirm
  cases k.doubt with
  | none => exact .pure ()
  | some e => exact .bind (.noted (s.session.isSourceFile place) fun _ => rfl) fun b => .ensure b e

theorem proceed_apart (plan : MovePlan) (path : String) :
    Apart (fun d => !d.isAsk) (k.proceed (s.asking ask).recorded plan path) := by
  refine .bind (.liftM _) fun place => .bind (confirm_apart k s ask place) fun _ => ?_
  refine .bind (logs_apart s ask (fun _ _ => rfl) _) fun _ => ?_
  refine .bind (.noted (s.session.changesFor plan place) fun _ => rfl) fun changes => ?_
  refine .bind (.noted (s.log _) fun _ => rfl) fun _ => ?_
  refine .bind (.noted (s.session.apply changes) fun _ => rfl) fun _ => ?_
  exact report_apart s ask (fun _ _ => rfl) _

end

section

variable {τ : Type}

theorem write_does (s : Surroundings τ) (text : String) :
    Does ((s.recorded.write text).mapError Failure.io) fun res new => plans new = [] ∧
      (res = .ok () ∧ told new = [text] ∨ (∃ e, res = .error e) ∧ told new = []) := by
  refine Does.mapError (Does.noted (s.write text) fun r => ⟨rfl, ?_⟩)
  cases r with
  | ok u => exact .inl ⟨rfl, rfl⟩
  | error e => exact .inr ⟨⟨.io e, rfl⟩, rfl⟩

theorem report_does (s : Surroundings τ) (pieces : List String) :
    Does (s.recorded.report pieces) fun res new => plans new = [] ∧
      (res = .ok () ∧ told new = pieces ∨ (∃ e, res = .error e) ∧ ¬ pieces <+: told new) := by
  induction pieces with
  | nil => exact Does.pure ⟨rfl, .inl ⟨rfl, rfl⟩⟩
  | cons text pieces ih =>
    refine Does.bind (write_does s text) ?_ ?_
    · rintro e new ⟨hp, ⟨he, -⟩ | ⟨-, ht⟩⟩
      · cases he
      · exact ⟨hp, .inr ⟨⟨e, rfl⟩, by simp [ht]⟩⟩
    · rintro u new ⟨hp, ⟨-, ht⟩ | ⟨⟨e, he⟩, -⟩⟩
      · refine ih.mono fun res more h => ?_
        obtain ⟨hp', ⟨hres, ht'⟩ | ⟨he, hn⟩⟩ := h
        · exact ⟨by rw [plans_append, hp, hp']; rfl, .inl ⟨hres, by rw [told_append, ht, ht']; rfl⟩⟩
        · refine ⟨by rw [plans_append, hp, hp']; rfl, .inr ⟨he, fun hpre => hn ?_⟩⟩
          rw [told_append, ht] at hpre
          exact (List.prefix_cons_inj text).mp hpre
      · cases he

theorem logs_does (s : Surroundings τ) (entries : List Log.Entry) :
    Does (entries.forM s.recorded.log) fun _ new => plans new = [] ∧ told new = [] := by
  induction entries with
  | nil => exact Does.pure ⟨rfl, rfl⟩
  | cons entry entries ih =>
    have hl : Does (s.recorded.log entry) fun _ new => plans new = [] ∧ told new = [] :=
      Does.noted (s.log entry) fun _ => ⟨rfl, rfl⟩
    refine Does.bind hl (fun e new h => h) ?_
    rintro u new ⟨hp, ht⟩
    refine ih.mono fun res more h => ?_
    rw [plans_append, told_append, hp, ht]
    exact h

theorem opening_does (k : Rules) (s : Surroundings τ) :
    Does (k.opening s.recorded) fun res new => told new = [] ∧
      ((∃ plan, res = .ok plan ∧ plans new = [plan] ∧ k.permit plan = .ok ()) ∨
        (∃ e, res = .error e) ∧ ∀ plan ∈ plans new, k.permit plan ≠ .ok ()) := by
  refine Does.bind (logs_does s _) (fun e new h => ⟨h.2, .inr ⟨⟨e, rfl⟩, by simp [h.1]⟩⟩) ?_
  rintro u new ⟨hp, ht⟩
  cases hs : k.source with
  | error e =>
    rw [liftM_error, throw_bind]
    refine Does.throw ⟨by rwa [List.append_nil], .inr ⟨⟨e, rfl⟩, ?_⟩⟩
    rw [List.append_nil, hp]
    exact List.forall_mem_nil _
  | ok source =>
    rw [liftM_ok, pure_bind]
    have hb : Does (s.recorded.session.beginMove source.1 source.2) fun res more =>
        told more = [] ∧ plans more = (match res with | .ok plan => [plan] | .error _ => []) := by
      refine Does.noted (s.session.beginMove source.1 source.2) fun r => ?_
      cases r <;> exact ⟨rfl, rfl⟩
    refine Does.bind hb ?_ ?_
    · rintro e more ⟨ht', hp'⟩
      refine ⟨by rw [told_append, ht, ht']; rfl, .inr ⟨⟨e, rfl⟩, ?_⟩⟩
      rw [plans_append, hp, hp']
      exact List.forall_mem_nil _
    · rintro plan more ⟨ht', hp'⟩
      have htold : told (new ++ more) = [] := by
        rw [told_append, ht, ht']
        rfl
      have hplans : plans (new ++ more) = [plan] := by
        rw [plans_append, hp, hp']
        rfl
      cases hk : k.permit plan with
      | error e =>
        rw [liftM_error, throw_bind]
        refine Does.throw ?_
        rw [List.append_nil, hplans]
        refine ⟨htold, .inr ⟨⟨e, rfl⟩, List.forall_mem_singleton.mpr ?_⟩⟩
        rw [hk]
        nofun
      | ok u =>
        rw [liftM_ok, pure_bind]
        refine Does.pure ?_
        rw [List.append_nil]
        exact ⟨htold, .inl ⟨plan, rfl, hplans, hk⟩⟩

theorem announce_does (k : Rules) (s : Surroundings τ) :
    Does (k.announce s.recorded) fun res new =>
      (∃ plan, res = .ok plan) ∧ Announced k new ∨ (∃ e, res = .error e) ∧ ¬ Announced k new := by
  refine Does.bind (opening_does k s) ?_ ?_
  · rintro e new ⟨-, ⟨plan, he, -⟩ | ⟨-, hp⟩⟩
    · cases he
    · exact .inr ⟨⟨e, rfl⟩, fun ⟨plan, hm, hk, _⟩ => hp plan hm hk⟩
  · rintro plan new ⟨ht, ⟨plan', hres, hp, hk⟩ | ⟨⟨e, he⟩, -⟩⟩
    · obtain rfl := Except.ok.inj hres
      refine Does.bind (report_does s (k.announcement plan)) ?_ ?_
      · rintro e more ⟨hp', ⟨he, -⟩ | ⟨-, hn⟩⟩
        · cases he
        · refine .inr ⟨⟨e, rfl⟩, fun ⟨plan', hm, _, ha⟩ => hn ?_⟩
          rw [plans_append, hp, hp', List.append_nil, List.mem_singleton] at hm
          rw [told_append, ht, List.nil_append, hm] at ha
          exact ha
      · rintro u more ⟨hp', ⟨-, ht'⟩ | ⟨⟨e, he⟩, -⟩⟩
        · refine Does.pure (.inl ⟨⟨plan, rfl⟩, plan, ?_, hk, ?_⟩)
          · rw [List.append_nil, plans_append, hp]
            exact List.mem_cons_self
          · rw [List.append_nil, told_append, ht, ht']
            exact List.prefix_rfl
        · cases he
    · cases he

end

/-- When a command that was given no destination asks for it. -/
structure Asks (k : Rules) (deeds : List Deed) : Prop where
  once : Announced k deeds → ∃ r, deeds.filter Deed.isAsk = [.ask k.question r]
  never : ¬ Announced k deeds → deeds.filter Deed.isAsk = []
  late : ∀ before d after, deeds = before ++ d :: after → d.isAsk = true → Announced k before
  /-- Without an answer nothing is computed and no changes are made. -/
  failed : ∀ question e, .ask question (.error e) ∈ deeds →
    ∀ d ∈ deeds, phase? d ≠ some .compute ∧ phase? d ≠ some .apply

/-- Two commands come to the same: they have the same result, leave the same state, and do the same
things, but for the questions that the first one asks. -/
structure SameButAsking (a b : (Except Failure Unit × σ × π) × List Deed) : Prop where
  result : a.1.1 = b.1.1
  state : a.1.2.1 = b.1.2.1
  deeds : a.2.filter (fun d => !d.isAsk) = b.2

theorem not_isAsk_of_prelude {d : Deed} (h : isPrelude d = true) : d.isAsk = false := by
  cases d <;> first | rfl | cases h

theorem phase?_of_prelude {d : Deed} (h : isPrelude d = true) :
    phase? d ≠ some .compute ∧ phase? d ≠ some .apply := by
  cases d <;> simp [phase?, isPrelude] at h ⊢

theorem filter_isAsk_eq_nil {ds : List Deed} (h : ∀ d ∈ ds, d.isAsk = false) :
    ds.filter Deed.isAsk = [] :=
  List.filter_eq_nil_iff.mpr fun d hd => by simp [h d hd]

theorem filter_not_isAsk {ds : List Deed} (h : ∀ d ∈ ds, d.isAsk = false) :
    ds.filter (fun d => !d.isAsk) = ds :=
  List.filter_eq_self.mpr fun d hd => by simp [h d hd]

section

variable (k : Rules) (s : Surroundings σ) (ask : String → Action π Prompt.Error String)

theorem run_announced (t : σ) (u : π) :
    (∃ e t' new, (∀ d ∈ new, isPrelude d = true) ∧ ¬ Announced k new ∧ ∀ given,
      exec (Rules.run { k with given := given } (s.asking ask).recorded) ((t, u), []) =
        (.error e, (t', u), new)) ∨
    ∃ plan t' new, (∀ d ∈ new, isPrelude d = true) ∧ Announced k new ∧ ∀ given,
      exec (Rules.run { k with given := given } (s.asking ask).recorded) ((t, u), []) =
        exec ((s.asking ask).recorded.destination given k.question >>= fun path =>
          k.proceed (s.asking ask).recorded plan path) ((t', u), new) := by
  obtain ⟨res, t', new, hn, he⟩ := announce_apart k s ask t
  have he := he u []
  rw [List.nil_append] at he
  obtain ⟨new', hd, hann⟩ := announce_does k (s.asking ask) (t, u) []
  rw [he] at hd hann
  obtain rfl : new = new' := hd
  cases res with
  | error e =>
    obtain ⟨⟨plan, hres⟩, -⟩ | ⟨-, hno⟩ := hann
    · cases hres
    · refine .inl ⟨e, t', new, hn, hno, fun given => ?_⟩
      rw [Rules.run_announce]
      exact exec_bind_of_error he
  | ok plan =>
    obtain ⟨-, hyes⟩ | ⟨⟨e, hres⟩, -⟩ := hann
    · refine .inr ⟨plan, t', new, hn, hyes, fun given => ?_⟩
      rw [Rules.run_announce]
      exact exec_bind_of_ok he
    · cases hres

theorem run_given (path : String) (t : σ) (u : π) :
    ∀ d ∈ (performed (Rules.run { k with given := some path } (s.asking ask).recorded) (t, u)).2,
      d.isAsk = false := by
  unfold performed
  obtain ⟨e, t', new, hn, -, he⟩ | ⟨plan, t', new, hn, -, he⟩ := run_announced k s ask t u
  · rw [he]
    exact fun d hd => not_isAsk_of_prelude (hn d hd)
  · obtain ⟨res, t'', more, hm, hp⟩ := proceed_apart k s ask plan path t'
    have hrun := (he (some path)).trans (hp u new)
    rw [hrun]
    intro d hd
    obtain hd | hd := List.mem_append.mp hd
    · exact not_isAsk_of_prelude (hn d hd)
    · simpa using hm d hd

variable {k}

theorem asks_of_no_ask {ds : List Deed} (hn : ∀ d ∈ ds, d.isAsk = false) (ha : ¬ Announced k ds) :
    Asks k ds where
  once h := absurd h ha
  never _ := filter_isAsk_eq_nil hn
  late before d after hd hask := by
    rw [hn d (by simp [hd])] at hask
    cases hask
  failed question e hm := by
    have hask := hn _ hm
    cases hask

theorem asks_of_ask {new more : List Deed} {r : Except Prompt.Error String}
    (hn : ∀ d ∈ new, isPrelude d = true) (ha : Announced k new) (hm : ∀ d ∈ more, d.isAsk = false)
    (hr : ∀ e, r = .error e → more = []) : Asks k (new ++ .ask k.question r :: more) where
  once _ := by
    refine ⟨r, ?_⟩
    rw [List.filter_append, filter_isAsk_eq_nil fun d hd => not_isAsk_of_prelude (hn d hd),
      List.nil_append, List.filter_cons_of_pos rfl, filter_isAsk_eq_nil hm]
  never h := absurd (ha.append _) h
  late before d after hd hask := by
    obtain ⟨as, rfl, -⟩ | ⟨bs, rfl, hbs⟩ := List.append_eq_append_iff.mp hd
    · exact ha.append as
    · cases bs with
      | nil => rwa [List.append_nil] at ha
      | cons d' bs =>
        obtain ⟨rfl, -⟩ := List.cons.inj hbs
        rw [not_isAsk_of_prelude (hn d (by simp))] at hask
        cases hask
  failed question e hmem := by
    have hmore : more = [] := by
      obtain hm' | hm' := List.mem_append.mp hmem
      · cases hn _ hm'
      · obtain hm' | hm' := List.mem_cons.mp hm'
        · obtain ⟨-, rfl⟩ := Deed.ask.inj hm'
          exact hr e rfl
        · cases hm _ hm'
    intro d hd
    rw [hmore] at hd
    obtain hd | hd := List.mem_append.mp hd
    · exact phase?_of_prelude (hn d hd)
    · rw [List.mem_singleton.mp hd]
      simp [phase?]

variable (k)

/-- A command that was given no destination asks for it once it has made its announcement, and goes on
as if the answer had been given. -/
theorem run_prompted (t : σ) (u : π) :
    Asks k (performed (Rules.run { k with given := none } (s.asking ask).recorded) (t, u)).2 ∧
      ∀ path, (exec (ask k.question) u).1 = .ok path →
        SameButAsking
          (performed (Rules.run { k with given := none } (s.asking ask).recorded) (t, u))
          (performed (Rules.run { k with given := some path } (s.asking ask).recorded) (t, u)) := by
  obtain ⟨e, t', new, hn, ha, he⟩ | ⟨plan, t', new, hn, ha, he⟩ := run_announced k s ask t u
  · have hno : ∀ d ∈ new, d.isAsk = false := fun d hd => not_isAsk_of_prelude (hn d hd)
    unfold performed
    simp only [he]
    exact ⟨asks_of_no_ask hno ha, fun path _ => ⟨rfl, rfl, filter_not_isAsk hno⟩⟩
  · have hask : exec ((s.asking ask).recorded.destination none k.question) ((t', u), new) =
        ((exec (ask k.question) u).1.mapError Prompt.Error.failure, (t', (exec (ask k.question) u).2),
          new ++ [.ask k.question (exec (ask k.question) u).1]) := by
      exact exec_mapError _ _ _
    unfold performed
    simp only [he]
    cases hr : (exec (ask k.question) u).1 with
    | error e =>
      rw [hr] at hask
      rw [exec_bind_of_error hask]
      refine ⟨asks_of_ask hn ha (List.forall_mem_nil _) fun _ _ => rfl, ?_⟩
      intro path hpath
      cases hpath
    | ok answer =>
      obtain ⟨res, t'', more, hm, hp⟩ := proceed_apart k s ask plan answer t'
      rw [hr] at hask
      have hno : ∀ d ∈ more, d.isAsk = false := fun d hd => by simpa using hm d hd
      rw [exec_bind_of_ok hask, hp, List.append_assoc, List.singleton_append]
      refine ⟨asks_of_ask hn ha hno nofun, fun path hpath => ?_⟩
      obtain rfl := Except.ok.inj hpath
      have hgiven : exec ((s.asking ask).recorded.destination (some answer) k.question >>= fun path =>
          k.proceed (s.asking ask).recorded plan path) ((t', u), new) =
          (res, (t'', u), new ++ more) := hp u new
      rw [hgiven]
      refine ⟨rfl, rfl, ?_⟩
      have hnew : ∀ d ∈ new, d.isAsk = false := fun d hd => not_isAsk_of_prelude (hn d hd)
      dsimp only
      rw [List.filter_append, List.filter_cons_of_neg (by simp [Deed.isAsk]), filter_not_isAsk hnew,
        filter_not_isAsk hno]

end

/-- Both moving commands, for any engine, user and report: the user is asked for a destination if none
was given and the plan is begun, permitted and announced, and then just once and not before. From there
on the answer is taken like a destination that was given: the command does the same, with the same
result. Without an answer nothing is computed and no changes are made. -/
theorem moves_prompted (s : Surroundings σ) (ask : String → Action π Prompt.Error String) (t : σ)
    (u : π) :
    (∀ file offset,
      Asks (Move.rules s ⟨file, offset, none⟩)
        (performed (Move.run (s.asking ask).recorded ⟨file, offset, none⟩) (t, u)).2 ∧
      ∀ path, ((exec (ask Move.question) u).1 = .ok path →
        SameButAsking (performed (Move.run (s.asking ask).recorded ⟨file, offset, none⟩) (t, u))
          (performed (Move.run (s.asking ask).recorded ⟨file, offset, some path⟩) (t, u))) ∧
      ∀ d ∈ (performed (Move.run (s.asking ask).recorded ⟨file, offset, some path⟩) (t, u)).2,
        d.isAsk = false) ∧
    ∀ module,
      Asks (MoveModule.rules s ⟨module, none⟩)
        (performed (MoveModule.run (s.asking ask).recorded ⟨module, none⟩) (t, u)).2 ∧
      ∀ path, ((exec (ask MoveModule.question) u).1 = .ok path →
        SameButAsking (performed (MoveModule.run (s.asking ask).recorded ⟨module, none⟩) (t, u))
          (performed (MoveModule.run (s.asking ask).recorded ⟨module, some path⟩) (t, u))) ∧
      ∀ d ∈ (performed (MoveModule.run (s.asking ask).recorded ⟨module, some path⟩) (t, u)).2,
        d.isAsk = false := by
  constructor
  · intro file offset
    obtain ⟨ha, hp⟩ := run_prompted (Move.rules s ⟨file, offset, none⟩) s ask t u
    simp only [Move.run_eq]
    exact ⟨ha, fun path => ⟨hp path, run_given (Move.rules s ⟨file, offset, none⟩) s ask path t u⟩⟩
  · intro module
    obtain ⟨ha, hp⟩ := run_prompted (MoveModule.rules s ⟨module, none⟩) s ask t u
    simp only [MoveModule.run_eq]
    exact ⟨ha, fun path => ⟨hp path, run_given (MoveModule.rules s ⟨module, none⟩) s ask path t u⟩⟩

end Command

end Relocate
