import Relocate.Proofs.Worker.Transcript

namespace Relocate.Worker

open Relocate.Action

theorem said?_of_reply {line : Line} {reply : Reply} (h : reply? line = some reply) :
    ∃ c said, said? line = some (c :: said) ∧ Reply.ofText? (c :: said) = some reply := by
  obtain ⟨said, hs, hr⟩ := Option.bind_eq_some_iff.mp h
  cases said with
  | nil => cases hr
  | cons c said => exact ⟨c, said, hs, hr⟩

theorem exists_reply {line : Line} {id : Option Nat} {status : String}
    (h : (reply? line).map (fun reply => (reply.id, reply.status)) = some (id, status)) :
    ∃ reply, reply? line = some reply ∧ reply.id = id ∧ reply.status = status := by
  obtain ⟨reply, hr, hs⟩ := Option.map_eq_some_iff.mp h
  exact ⟨reply, hr, (Prod.mk.inj hs).1, (Prod.mk.inj hs).2⟩

theorem verdict?_skipped {id : Nat} {line : Line} (h : Skipped id line) :
    verdict? id line = none := by
  obtain hs | ⟨reply, hr, hi⟩ := h
  · rw [verdict?, hs]
  · obtain ⟨c, said, hs, hr⟩ := said?_of_reply hr
    simp [verdict?, hs, hr, hi]

def Reply.verdict (reply : Reply) : Except Error Reply :=
  if reply.isError then
    .error (.refused (reply.code.getD "") (reply.message.getD "") reply.traceback)
  else .ok reply

theorem verdict?_reply {id : Nat} {line : Line} {reply : Reply} (h : reply? line = some reply)
    (hi : reply.id = some id) : verdict? id line = some reply.verdict := by
  obtain ⟨c, said, hs, hr⟩ := said?_of_reply h
  cases he : reply.isError <;> simp [verdict?, Reply.verdict, hs, hr, hi, he]

/-- Lines that are passed over, and then the reply to request `id`. -/
def Answers (id : Nat) (lines : List Line) (reply : Reply) : Prop :=
  ∃ skipped line rest, lines = skipped ++ line :: rest ∧ (∀ l ∈ skipped, Skipped id l) ∧
    reply? line = some reply ∧ reply.id = some id

theorem settle_answers {id : Nat} {fault : Option SystemError} {lines : List Line} {reply : Reply}
    (h : Answers id lines reply) : (settle id fault lines).2 = reply.verdict := by
  obtain ⟨skipped, line, rest, rfl, hs, hr, hi⟩ := h
  rw [settle, decided_skip fun l hl => verdict?_skipped (hs l hl),
    decided_of_some (verdict?_reply hr hi)]

theorem answers_of_settle {id : Nat} {fault : Option SystemError} {lines : List Line} {reply : Reply}
    (h : (settle id fault lines).2 = .ok reply) :
    Answers id lines reply ∧ reply.status ≠ "error" := by
  have ha := decided_append (verdict? id) (.error (.crashed (Link.unanswered fault))) lines
  unfold settle at h
  obtain ⟨skipped, line, ht, hs, hv⟩ | ⟨-, he⟩ := decided_cases (verdict? id) _ lines
  · rw [h] at hv
    rw [ht, List.append_assoc] at ha
    obtain ⟨reply', hr, hi, hv⟩ | ⟨-, hv⟩ | ⟨c, said, -, -, hv⟩ := verdict?_cases hv
    · cases he : reply'.isError with
      | true =>
        rw [if_pos he] at hv
        cases hv
      | false =>
        rw [he, if_neg Bool.false_ne_true] at hv
        obtain rfl := Except.ok.inj hv
        refine ⟨⟨skipped, line, _, ha.symm, fun l hl => passed_over (hs l hl), hr, hi⟩, ?_⟩
        simpa [Reply.isError] using he
    · cases hv
    · cases hv
  · rw [he] at h
    cases h

namespace Link

/-- The worker takes the request, and this is its reply. -/
def Replied (operation : String) (parameters : Fields) (r : Run Link) (reply : Reply) : Prop :=
  ∃ p, r.engine.pipes = some p ∧
    (p.write (requestLine r.engine.nextId operation parameters)).complete = true ∧
    Answers r.engine.nextId p.unread reply

variable {operation : String} {parameters : Fields} {r : Run Link} {reply : Reply}

theorem send_replied (h : Replied operation parameters r reply) :
    (exec (send operation parameters) r).1 = reply.verdict := by
  obtain ⟨p, hp, hw, ha⟩ := h
  obtain ⟨r', he, -⟩ := exec_send operation parameters hp rfl
  rw [he, Pipes.answered, if_pos hw, settle_answers ha]

/-- A request is granted by its reply, whatever the status of that, unless it is an error. -/
theorem send_eq_ok_iff : (exec (send operation parameters) r).1 = .ok reply ↔
    Replied operation parameters r reply ∧ reply.status ≠ "error" := by
  constructor
  · intro h
    cases hp : r.engine.pipes with
    | none =>
      rw [exec_send_idle operation parameters hp] at h
      cases h
    | some p =>
      obtain ⟨r', he, -⟩ := exec_send operation parameters hp rfl
      rw [he] at h
      have hw := Pipes.complete_of_answered (congrArg isCrash h)
      rw [Pipes.answered, if_pos hw] at h
      obtain ⟨ha, hst⟩ := answers_of_settle h
      exact ⟨⟨p, hp, hw, ha⟩, hst⟩
  · rintro ⟨h, hs⟩
    have he : reply.isError = false := by simpa [Reply.isError] using hs
    rw [send_replied h, Reply.verdict, he]
    rfl

end Link

end Relocate.Worker
