import Relocate.Proofs.Session.Dialogue
import Relocate.Proofs.Worker.Data
import Relocate.Proofs.Worker.Lifecycle

namespace Relocate.Session

open Worker

/-- A request is refused: the reply with its number has the status of an error. -/
structure Refused (p : Pipes) (x : Exchange) (reply : Reply) : Prop where
  complete : (p.write x.line).complete = true
  answers : Answers x.id p.unread reply
  status : reply.status = "error"

structure Fits (operation : String) (fs : Fields) : Prop where
  root : operation = "open_project" → ∃ s, Fields.get? fs "root" = some (.string s)
  move : operation = "create_move" → (∃ s, Fields.get? fs "handle" = some (.string s)) ∧
    (∃ s, Fields.get? fs "name" = some (.string s)) ∧
    (∃ s ∈ ["global", "module", "method"], Fields.get? fs "kind" = some (.string s)) ∧
    ∃ s, Fields.get? fs "origin" = some (.string s)
  changes : operation = "get_changes" → (∃ s, Fields.get? fs "handle" = some (.string s)) ∧
    (∀ v, Fields.get? fs "description" = some v → IsText v) ∧
    ∀ v, Fields.get? fs "changed" = some v → IsTexts v
  modules : operation = "import_candidates" → ∀ v, Fields.get? fs "modules" = some v → IsTexts v

theorem kindOf?_isSome {kind : String} :
    (kindOf? kind).isSome = true ↔ kind ∈ ["global", "module", "method"] := by
  unfold kindOf?
  split <;> simp_all

theorem planOf_isOk {m : MoveReply} :
    (∃ plan, planOf m = .ok plan) ↔ m.kind ∈ ["global", "module", "method"] := by
  rw [← kindOf?_isSome]
  unfold planOf
  cases kindOf? m.kind <;> simp

theorem root_iff {fs : Fields} : (∃ s, (Fields.get? fs "root").bind Json.string? = some s) ↔
    ∃ s, Fields.get? fs "root" = some (.string s) := by
  cases Fields.get? fs "root" with
  | none => simp
  | some v => cases v <;> simp [Json.string?]

theorem move_iff {fs : Fields} : (∃ m plan, MoveReply.ofData fs = .ok m ∧ planOf m = .ok plan) ↔
    (∃ s, Fields.get? fs "handle" = some (.string s)) ∧
      (∃ s, Fields.get? fs "name" = some (.string s)) ∧
      (∃ s ∈ ["global", "module", "method"], Fields.get? fs "kind" = some (.string s)) ∧
      ∃ s, Fields.get? fs "origin" = some (.string s) := by
  constructor
  · rintro ⟨m, plan, hm, hp⟩
    obtain ⟨hh, hn, hk, ho⟩ := MoveReply.ofData_eq_ok.mp hm
    exact ⟨⟨_, hh⟩, ⟨_, hn⟩, ⟨_, planOf_isOk.mp ⟨plan, hp⟩, hk⟩, _, ho⟩
  · rintro ⟨⟨handle, hh⟩, ⟨name, hn⟩, ⟨kind, hkind, hk⟩, origin, ho⟩
    have hm : MoveReply.ofData fs = .ok ⟨handle, name, kind, origin⟩ :=
      MoveReply.ofData_eq_ok.mpr ⟨hh, hn, hk, ho⟩
    obtain ⟨plan, hp⟩ := planOf_isOk (m := ⟨handle, name, kind, origin⟩) |>.mpr hkind
    exact ⟨_, plan, hm, hp⟩

theorem decodes_iff_fits {operation : String} {fs : Fields} :
    Decodes operation fs ↔ Fits operation fs := by
  constructor
  · intro h
    exact ⟨fun ho => root_iff.mp (h.root ho), fun ho => move_iff.mp (h.move ho),
      fun ho => ChangesReply.ofData_isOk.mp (h.changes ho),
      fun ho => modulesOfData_isOk.mp (h.modules ho)⟩
  · intro h
    exact ⟨fun ho => root_iff.mpr (h.root ho), fun ho => move_iff.mpr (h.move ho),
      fun ho => ChangesReply.ofData_isOk.mpr (h.changes ho),
      fun ho => modulesOfData_isOk.mpr (h.modules ho)⟩

/-- The reply to a request is not to be had, or is of no use. -/
inductive Spoiled (p : Pipes) (x : Exchange) : Prop
  | lost {reason : String} (hl : Lost p x.id x.line reason)
  /-- What comes in its place is no reply. -/
  | garbled {skipped rest : List Line} {l : Line} {c : Char} {said : List Char}
    (hw : (p.write x.line).complete = true) (hp : p.unread = skipped ++ l :: rest)
    (hs : ∀ l ∈ skipped, Skipped x.id l) (hl : said? l = some (c :: said))
    (hn : Reply.ofText? (c :: said) = none)
  /-- It does not hold what the operation needs. -/
  | unfit {reply : Reply} (hw : (p.write x.line).complete = true)
    (ha : Answers x.id p.unread reply) (hs : reply.status ≠ "error")
    (hd : ¬ Fits x.operation reply.data)

def refusal (reply : Reply) : Failure :=
  .engine (reply.code.getD "") (reply.message.getD "") reply.traceback

section

variable {p : Pipes} {x : Exchange} {reply : Reply} {e : Failure}

theorem result_of_answers (hx : x.result = p.answered x.id x.line)
    (hw : (p.write x.line).complete = true) (ha : Answers x.id p.unread reply) :
    x.result = reply.verdict := by
  rw [hx, Pipes.answered, if_pos hw, settle_answers ha]

theorem Refused.fails_iff (h : Refused p x reply) (hx : x.result = p.answered x.id x.line) :
    Fails x e ↔ e = refusal reply := by
  have hr := result_of_answers hx h.complete h.answers
  rw [Reply.verdict, if_pos (by simpa [Reply.isError] using h.status)] at hr
  constructor
  · rintro (⟨hf, w⟩ | ⟨hf, -⟩)
    · obtain rfl := Except.error.inj (hr.symm.trans hf)
      rfl
    · rw [hr] at hf
      cases hf
  · rintro rfl
    exact .ungranted hr .brief

theorem Spoiled.fails (h : Spoiled p x) (hx : x.result = p.answered x.id x.line) :
    (∃ e, Fails x e) ∧ ∀ e, Fails x e → ∃ message, e = .internal message := by
  -- In all cases but the last the result is an error of the link, and one that is internal.
  have herror {err : Error} (hr : x.result = .error err)
      (he : ∀ w, ∃ message, err.failure w = .internal message) :
      (∃ e, Fails x e) ∧ ∀ e, Fails x e → ∃ message, e = .internal message := by
    refine ⟨⟨_, .ungranted hr .brief⟩, fun e hf => ?_⟩
    obtain ⟨hf, w⟩ | ⟨-, -⟩ := hf
    · obtain rfl := Except.error.inj (hr.symm.trans hf)
      exact he w
    · exact ⟨_, rfl⟩
  cases h with
  | lost hl => exact herror (hx.trans (Pipes.answered_eq_crashed_iff.mpr hl)) fun _ => ⟨_, rfl⟩
  | @garbled skipped rest l c said hw hp hs hl hn =>
    have hr : x.result =
        .error (.unreadable (String.ofList (c :: said))) := by
      rw [hx, Pipes.answered, if_pos hw, settle, hp,
        decided_skip fun l hl => verdict?_skipped (hs l hl), decided_of_some (verdict?_garbled hl hn)]
    exact herror hr fun _ => ⟨_, rfl⟩
  | @unfit reply hw ha hs hd =>
    have hr := result_of_answers hx hw ha
    have hn : reply.isError = false := by simpa [Reply.isError] using hs
    rw [Reply.verdict, hn] at hr
    refine ⟨⟨.internal "", .unfit hr fun h => hd (decodes_iff_fits.mp h)⟩, fun e hf => ?_⟩
    obtain ⟨hf, -⟩ | ⟨-, -⟩ := hf
    · rw [hr] at hf
      cases hf
    · exact ⟨_, rfl⟩

theorem refused_of_failed {err : Error} (w : Wording) (hx : x.result = p.answered x.id x.line)
    (hf : x.result = .error err) :
    (∃ reply, Refused p x reply ∧ err.failure w = refusal reply) ∨
      Spoiled p x ∧ ∃ message, err.failure w = .internal message := by
  rw [hx] at hf
  cases hc : isCrash (p.answered x.id x.line) with
  | true =>
    obtain ⟨reason, hr⟩ := isCrash_iff.mp hc
    obtain rfl := Except.error.inj (hr.symm.trans hf)
    exact .inr ⟨.lost (Pipes.answered_eq_crashed_iff.mp hr), _, rfl⟩
  | false =>
    have hw := Pipes.complete_of_answered hc
    rw [Pipes.answered, if_pos hw, settle] at hf hc
    have ha := decided_append (verdict? x.id) (.error (.crashed (Link.unanswered p.fault))) p.unread
    obtain ⟨skipped, l, ht, hs, hl⟩ | ⟨-, he⟩ :=
      decided_cases (verdict? x.id) (.error (.crashed (Link.unanswered p.fault))) p.unread
    · rw [ht, List.append_assoc] at ha
      rw [hf] at hl hc
      obtain ⟨reply, hr, hi, hv⟩ | ⟨-, hv⟩ | ⟨c, said, hsaid, hn, hv⟩ := verdict?_cases hl
      · cases hb : reply.isError with
        | false =>
          rw [hb] at hv
          cases hv
        | true =>
          rw [hb, if_pos rfl] at hv
          obtain rfl := Except.error.inj hv
          refine .inl ⟨reply, ⟨hw, ?_, by simpa [Reply.isError] using hb⟩, rfl⟩
          exact ⟨skipped, l, _, ha.symm, fun l hl => passed_over (hs l hl), hr, hi⟩
      · rw [hv] at hc
        cases hc
      · obtain rfl := Except.error.inj hv
        refine .inr ⟨.garbled hw ha.symm (fun l hl => passed_over (hs l hl)) hsaid hn, _, rfl⟩
    · rw [he] at hc
      cases hc

/-- Whatever fails in an exchange is a refusal or a reply that is spoiled. -/
theorem Fails.cases_of (hf : Fails x e) (hx : x.result = p.answered x.id x.line) :
    (∃ reply, Refused p x reply ∧ e = refusal reply) ∨
      Spoiled p x ∧ ∃ message, e = .internal message := by
  obtain ⟨hr, w⟩ | ⟨hr, hd⟩ := hf
  · exact refused_of_failed w hx hr
  · rename_i reply message
    have hw := Pipes.complete_of_answered (congrArg isCrash (hx.symm.trans hr))
    have hs : (settle x.id p.fault p.unread).2 = .ok reply := by
      rw [← hr, hx, Pipes.answered, if_pos hw]
    obtain ⟨ha, hst⟩ := answers_of_settle hs
    exact .inr ⟨.unfit hw ha hst fun h => hd (decodes_iff_fits.mpr h), _, rfl⟩

end

theorem Voiced.not_fails {ds : List Deed} {xs : List Exchange} (h : Voiced ds xs)
    (hn : ∀ d ∈ ds, operation? d ≠ none → d.failure? = none) : ∀ x ∈ xs, ∀ e, ¬ Fails x e := by
  intro x hx e
  obtain ⟨before, d, after, hds, hd⟩ := h.mem hx
  refine hd.not_fails (hn d (by simp [hds]) ?_) e
  rw [hd.operation]
  exact Option.some_ne_none _

theorem Voiced.last {ds : List Deed} {xs : List Exchange} {x : Exchange} {e : Failure}
    (h : Voiced ds xs) (hs : Stops ds) (hx : x ∈ xs) (hf : Fails x e) :
    ∃ a, xs = a ++ [x] ∧ ∀ y ∈ a, ∀ e, ¬ Fails y e := by
  have hcalm {a b : List Exchange} {y : Exchange} (hy : xs = a ++ y :: b) (hb : b ≠ []) (e : Failure) :
      ¬ Fails y e := by
    obtain ⟨d, -, hd, hv⟩ := h.calm hs hy hb
    exact hv.not_fails hd e
  obtain ⟨a, b, hab⟩ := List.append_of_mem hx
  have hb : b = [] := Decidable.byContradiction fun hb => hcalm hab hb e hf
  subst hb
  refine ⟨a, hab, fun y hy e => ?_⟩
  obtain ⟨c, d, rfl⟩ := List.append_of_mem hy
  have hsplit : xs = c ++ y :: (d ++ [x]) := by rw [hab, List.append_assoc, List.cons_append]
  exact hcalm hsplit (List.append_ne_nil_of_right_ne_nil d (List.cons_ne_nil x [])) e

end Relocate.Session
