import Relocate.Proofs.Worker.Calls

namespace Relocate.Worker

namespace Link

open Relocate.Action

/-- The exchanges that operations make with the worker, one after the other. A link that is not
running makes none. -/
def transcript : List Operation → Run Link → List Exchange
  | [], _ => []
  | o :: rest, r =>
    let later := transcript rest (exec o.perform r).2
    if r.engine.isRunning then exchange o.name o.parameters r :: later else later

theorem perform_running (o : Operation) {r : Run Link} (hr : r.engine.isRunning = true) :
    (exec o.perform r).2.engine.nextId = r.engine.nextId + 1 ∧
      (exchange o.name o.parameters r).taken ++ (exec o.perform r).2.engine.unread <+:
        r.engine.unread := by
  have hx := exchange_leads o.name o.parameters hr
  by_cases ho : o = .shutdown
  · subst ho
    rw [Operation.perform, exec_shutdown_running hr]
    refine ⟨hx.nextId, ?_⟩
    rw [hx.lines]
    exact List.prefix_append_right_inj _ |>.mpr List.nil_prefix
  · rw [perform_state ho]
    exact ⟨hx.nextId, ⟨[], by rw [List.append_nil, hx.lines]⟩⟩

theorem transcript_idle (ops : List Operation) {r : Run Link} (hr : r.engine.isRunning = false) :
    transcript ops r = [] := by
  induction ops with
  | nil => rfl
  | cons o ops ih => rw [transcript, perform_idle o hr, ih, hr]; rfl

theorem transcript_running (o : Operation) (ops : List Operation) {r : Run Link}
    (hr : r.engine.isRunning = true) :
    transcript (o :: ops) r =
      exchange o.name o.parameters r :: transcript ops (exec o.perform r).2 := by
  rw [transcript, hr]
  rfl

theorem transcript_mem {ops : List Operation} {r : Run Link} {x : Exchange}
    (hx : x ∈ transcript ops r) :
    r.engine.nextId ≤ x.id ∧ x.id < r.engine.nextId + ops.length ∧
      ∃ r₁ r₂, r₁.engine.isRunning = true ∧ x.Leads r₁ r₂ := by
  induction ops generalizing r with
  | nil => cases hx
  | cons o ops ih =>
    cases hr : r.engine.isRunning with
    | false => rw [transcript_idle _ hr] at hx; cases hx
    | true =>
      rw [transcript_running o ops hr] at hx
      have hl := exchange_leads o.name o.parameters hr
      obtain rfl | hx := List.mem_cons.mp hx
      · rw [hl.id, List.length_cons]
        exact ⟨Nat.le_refl _, by omega, r, _, hr, hl⟩
      · obtain ⟨hn, hb, hs⟩ := ih hx
        rw [(perform_running o hr).1] at hn hb
        rw [List.length_cons]
        exact ⟨by omega, by omega, hs⟩

theorem transcript_ids (ops : List Operation) (r : Run Link) :
    (transcript ops r).Pairwise fun x y => x.id < y.id := by
  induction ops generalizing r with
  | nil => exact .nil
  | cons o ops ih =>
    cases hr : r.engine.isRunning with
    | false => rw [transcript_idle _ hr]; exact .nil
    | true =>
      rw [transcript_running o ops hr]
      refine List.pairwise_cons.mpr ⟨?_, ih _⟩
      intro y hy
      have hn := (transcript_mem hy).1
      rw [(perform_running o hr).1] at hn
      rw [(exchange_leads o.name o.parameters hr).id]
      omega

theorem transcript_taken (ops : List Operation) (r : Run Link) :
    (transcript ops r).flatMap Exchange.taken <+: r.engine.unread := by
  induction ops generalizing r with
  | nil => exact List.nil_prefix
  | cons o ops ih =>
    cases hr : r.engine.isRunning with
    | false => rw [transcript_idle _ hr]; exact List.nil_prefix
    | true =>
      rw [transcript_running o ops hr, List.flatMap_cons]
      exact ((List.prefix_append_right_inj _).mpr (ih _)).trans (perform_running o hr).2

end Link

/-- A line that says nothing, or holds the reply to another request than `id`. -/
def Skipped (id : Nat) (line : Line) : Prop :=
  said? line = some [] ∨ ∃ reply, reply? line = some reply ∧ reply.id ≠ some id

namespace Exchange

def isAnswered (x : Exchange) : Bool :=
  match x.result with
  | .ok _ => true
  | .error (.refused ..) => true
  | .error _ => false

/-- A line that holds the reply to this very request, and just that reply is what came of it. -/
def AnsweredBy (x : Exchange) (line : Line) : Prop :=
  ∃ reply, reply? line = some reply ∧ reply.id = some x.id ∧
    x.result = if reply.isError then
      .error (.refused (reply.code.getD "") (reply.message.getD "") reply.traceback) else .ok reply

theorem AnsweredBy.id_unique {x y : Exchange} {line : Line} (hx : x.AnsweredBy line)
    (hy : y.AnsweredBy line) : x.id = y.id := by
  obtain ⟨reply, hr, hi, -⟩ := hx
  obtain ⟨reply', hr', hi', -⟩ := hy
  obtain rfl : reply = reply' := by simpa [hr] using hr'
  simpa [hi] using hi'

/-- What an answered request has read: lines to pass over, and then its answer. -/
theorem Leads.answer {x : Exchange} {r r' : Run Link} (h : x.Leads r r')
    (hx : x.isAnswered = true) :
    ∃ skipped line, x.taken = skipped ++ [line] ∧ (∀ l ∈ skipped, Skipped x.id l) ∧
      x.AnsweredBy line := by
  have hc : isCrash x.result = false := by
    unfold isAnswered at hx
    unfold isCrash
    split at hx <;> simp_all
  have hs := h.settled hc
  have hcases := decided_cases (verdict? x.id) (.error (.crashed (Link.unanswered r.engine.fault)))
    r.engine.unread
  rw [← settle, hs] at hcases
  obtain ⟨skipped, line, ht, hp, hv⟩ | ⟨-, he⟩ := hcases
  · refine ⟨skipped, line, ht, fun l hl => passed_over (hp l hl), ?_⟩
    obtain ⟨reply, hr, hi, hv⟩ | ⟨-, hv⟩ | ⟨c, said, -, -, hv⟩ := verdict?_cases hv
    · exact ⟨reply, hr, hi, hv⟩
    · simp [isAnswered, show x.result = _ from hv] at hx
    · simp [isAnswered, show x.result = _ from hv] at hx
  · simp [isAnswered, (Prod.mk.inj he).2] at hx

def Accepted (x : Exchange) (reply : Reply) : Prop :=
  ∃ skipped line, x.taken = skipped ++ [line] ∧ (∀ l ∈ skipped, Skipped x.id l) ∧
    reply? line = some reply ∧ reply.id = some x.id ∧ reply.status ≠ "error"

theorem Leads.accepted {x : Exchange} {r r' : Run Link} {reply : Reply} (h : x.Leads r r')
    (hr : x.result = .ok reply) : x.Accepted reply := by
  obtain ⟨skipped, line, ht, hs, reply', hl, hi, hx⟩ := h.answer (by rw [isAnswered, hr])
  rw [hr] at hx
  by_cases he : reply'.isError = true
  · rw [if_pos he] at hx
    cases hx
  · rw [if_neg he] at hx
    obtain rfl := Except.ok.inj hx
    exact ⟨skipped, line, ht, hs, hl, hi, by simpa [Reply.isError] using he⟩

end Exchange

/-- However the replies of a worker come: a request that is answered has read lines to pass over and
then its own answer, every line is read for one request at most and in the order of the stream, and
what answers one request answers no other. The numbers of the requests fit in 64 bits as long as there
are no more of them. -/
theorem transcript_faithful (ops : List Link.Operation) (r : Run Link) :
    (∀ x ∈ Link.transcript ops r, x.isAnswered = true →
        ∃ skipped line, x.taken = skipped ++ [line] ∧ (∀ l ∈ skipped, Skipped x.id l) ∧
          x.AnsweredBy line) ∧
      (Link.transcript ops r).flatMap Exchange.taken <+: r.engine.unread ∧
      ((Link.transcript ops r).Pairwise fun x y =>
        x.id < y.id ∧ ∀ line, ¬(x.AnsweredBy line ∧ y.AnsweredBy line)) ∧
      (r.engine.nextId + ops.length ≤ Nat.pow 2 64 →
        ∀ x ∈ Link.transcript ops r, x.id < Nat.pow 2 64) := by
  refine ⟨fun x hx ha => ?_, Link.transcript_taken ops r, ?_, fun hn x hx => ?_⟩
  · obtain ⟨-, -, r₁, r₂, -, hl⟩ := Link.transcript_mem hx
    exact hl.answer ha
  · refine (Link.transcript_ids ops r).imp fun {x y} hlt => ⟨hlt, ?_⟩
    rintro line ⟨hx, hy⟩
    exact Nat.ne_of_lt hlt (hx.id_unique hy)
  · exact Nat.lt_of_lt_of_le (Link.transcript_mem hx).2.1 hn

end Relocate.Worker
