import Relocate.Proofs.Command.Telling
import Relocate.Proofs.CommandLine.Conversation
import Relocate.Proofs.Session.Silence
import Relocate.Proofs.Worker.Status

namespace Relocate

open Relocate.Action Session Worker
open Utf8 (Bytes)

theorem reported_shownBy (d : Deed) :
    reported (shownBy d) = (Command.told [d]).filter (· ≠ "") := by
  cases d with
  | ask question res =>
    cases res with
    | ok answer => rfl
    | error e => cases e <;> rfl
  | write text res =>
    cases res with
    | error e => rfl
    | ok u => by_cases ht : text = "" <;> simp [shownBy, reported, Command.told, ht]
  | _ => rfl

theorem carried_reported {h : Host} {root : Bytes} {d : Deed} {r r' : Run Link}
    (hd : d.Carried (.ofRun h (ofWorker h root)) r r') :
    reported r'.journal = reported r.journal ++ (Command.told [d]).filter (· ≠ "") := by
  obtain ⟨es, hj, he⟩ := carried_shown hd
  rw [hj, reported_append, reported_append, reported_hidden he, List.append_nil, reported_shownBy]

theorem trace_reported {h : Host} {root : Bytes} {ds : List Deed} {r r' : Run Link}
    (ht : Trace (.ofRun h (ofWorker h root)) r ds r') :
    reported r'.journal = reported r.journal ++ (Command.told ds).filter (· ≠ "") := by
  induction ds generalizing r with
  | nil =>
    obtain rfl : r = r' := ht
    exact (List.append_nil _).symm
  | cons d ds ih =>
    obtain ⟨r₁, hd, ht⟩ := ht
    have hc : Command.told (d :: ds) = Command.told [d] ++ Command.told ds :=
      Command.told_append [d] ds
    rw [ih ht, carried_reported hd, hc, List.filter_append, List.append_assoc]

/-- The worker has granted that changes are made, or else there is a failure and no more in the
report than an announcement of what was going to be done. -/
def Warranted (announcement : MovePlan → List String) (result : Except Failure Unit)
    (texts : List String) (xs : List Exchange) : Prop :=
  (∃ x ∈ xs, ∃ reply, x.operation = "apply_changes" ∧ x.Accepted reply) ∨
    (∃ e, result = .error e) ∧ ∃ plan, texts <+: (announcement plan).filter (· ≠ "")

theorem Warranted.nil (announcement : MovePlan → List String) (e : Failure) (xs : List Exchange) :
    Warranted announcement (.error e) [] xs :=
  .inr ⟨⟨e, rfl⟩, ⟨"", "", .global, .known "" .file⟩, List.nil_prefix⟩

theorem Warranted.cons {announcement : MovePlan → List String} {result : Except Failure Unit}
    {texts : List String} {xs : List Exchange} (h : Warranted announcement result texts xs)
    (x : Exchange) : Warranted announcement result texts (x :: xs) :=
  h.imp_left fun ⟨y, hy, hr⟩ => ⟨y, List.mem_cons_of_mem x hy, hr⟩

theorem Command.Rules.warranted (k : Command.Rules) (h : Host) (root : Bytes) (r : Run Link) :
    ∃ xs texts, Talk r (exec (k.run (.ofRun h (ofWorker h root))) r).2 xs ∧
      Dialogue k.script (k.doubt ≠ none) xs ∧
      reported (exec (k.run (.ofRun h (ofWorker h root))) r).2.journal = reported r.journal ++ texts ∧
      Warranted k.announcement (exec (k.run (.ofRun h (ofWorker h root))) r).1 texts xs := by
  obtain ⟨st, ht, hc, -⟩ := Command.performed_course k (.ofRun h (ofWorker h root)) r
  obtain ⟨xs, hx, hv, -⟩ := trace_voiced ht
  refine ⟨xs, _, hx, hc.dialogue hv, trace_reported ht, ?_⟩
  obtain ⟨changes, ha⟩ | ⟨he, plan, hp⟩ := k.run_tells (.ofRun h (ofWorker h root)) r
  · obtain ⟨x, hm, hd⟩ := hv.mem_of_calm ha rfl rfl
    obtain ⟨reply, -, hr, -⟩ := hd.granted rfl
    exact .inl ⟨x, hm, reply, (Option.some.inj hd.operation).symm, hr⟩
  · -- Pieces without text leave no trace in the journal.
    exact .inr ⟨he, plan, hp.filter _⟩

namespace CommandLine

def Request.announcement : Request → MovePlan → List String
  | .move _, plan => ["Moving definition of `", plan.name, "`\n", "Definition of `", plan.name,
      "` is currently at: ", plan.origin.text, "\n"]
  | .moveModule _, plan => ["Moving module `", plan.name, "`\n", "Module `", plan.name,
      "` is currently at: ", plan.origin.text, "\n"]
  | .showImports _, _ => []

def Request.isMove : Request → Bool
  | .showImports _ => false
  | _ => true

theorem dispatch_warranted (h : Host) (root : Bytes) (settings : Settings) {q : Request}
    (hq : q.isMove = true) (r : Run Link) :
    ∃ xs texts, Talk r (exec (dispatch (.ofRun h (ofWorker h root)) settings q) r).2 xs ∧
      Dialogue q.script.tail q.confirms xs ∧
      reported (exec (dispatch (.ofRun h (ofWorker h root)) settings q) r).2.journal =
        reported r.journal ++ texts ∧
      Warranted q.announcement (exec (dispatch (.ofRun h (ofWorker h root)) settings q) r).1 texts
        xs := by
  cases q with
  | move m =>
    obtain ⟨xs, texts, hx, hd, hr, hw⟩ := (m.rules (.ofRun h (ofWorker h root))).warranted h root r
    rw [← m.run_eq] at hx hr hw
    exact ⟨xs, texts, hx, hd.imp nofun, hr, hw⟩
  | moveModule m =>
    obtain ⟨xs, texts, hx, hd, hr, hw⟩ := (m.rules (.ofRun h (ofWorker h root))).warranted h root r
    rw [← m.run_eq] at hx hr hw
    exact ⟨xs, texts, hx, hd.imp False.elim, hr, hw⟩
  | showImports name => cases hq

theorem serve_warranted (h : Host) {q : Request} (hq : q.isMove = true) (settings : Settings)
    (c : Interpreter.Choice) (p : Project) {r : Run Link}
    (hj : ∀ e ∈ r.journal, e.sparesWorker = true) (hr : r.engine.isRunning = false)
    (hn : reported r.journal = []) :
    ∃ xs bye, Conversation h q (exec (serve h q settings c p) r).2.journal xs bye ∧
      Warranted q.announcement (exec (serve h q settings c p) r).1
        (reported (exec (serve h q settings c p) r).2.journal) xs := by
  have hs : ∀ {res r'}, exec (start h c p) r = (res, r') → reported r'.journal = [] := by
    intro res r' he
    have hs := (start_silent h c p).reported r
    rwa [he, hn] at hs
  refine serve_conversation_of (P := fun end_ xs => Warranted q.announcement end_.1
    (reported end_.2.journal) xs) h q settings c p hj hr ?_ ?_
  · intro e r' he xs
    dsimp only
    rw [hs he]
    exact .nil _ e xs
  · intro root r₁ he
    obtain ⟨ys, texts, hy, hd, ht, hw⟩ := dispatch_warranted h root settings hq r₁
    refine ⟨ys, hy, hd, fun x r₂ hc => ?_⟩
    have hc' := (close_silent h).reported (exec (dispatch (.ofRun h (ofWorker h root)) settings q) r₁).2
    rw [hc, ht, hs he, List.nil_append] at hc'
    dsimp only at hc' ⊢
    rw [hc']
    exact hw.cons x

theorem ofProject_silent (h : Host) (project : String) :
    Silent (Settings.ofProject h project : Action (Run Link) Settings.Error Settings) := by
  unfold Settings.ofProject
  split
  · exact .bind (.log _) fun _ => .liftM _
  · exact .pure _

theorem perform_warranted (h : Host) (i : Invocation) (hq : i.request.isMove = true)
    (input : List Line) (room : Option Nat)
    (questions : Option (Nat × SystemError)) :
    ∃ xs bye,
      Conversation h i.request (exec (perform h i) (fresh input room questions)).2.journal xs bye ∧
      Warranted i.request.announcement (exec (perform h i) (fresh input room questions)).1
        (reported (exec (perform h i) (fresh input room questions)).2.journal) xs := by
  have ht := ofProject_told h i.project (fresh input room questions)
  have hn := (ofProject_silent h i.project).reported (fresh input room questions)
  have hj : ∀ e ∈ (fresh input room questions).journal, e.isTold = true := List.forall_mem_nil _
  rcases hs : exec (Settings.ofProject h i.project) (fresh input room questions) with ⟨res, r₁⟩
  rw [hs] at ht hn
  have hj₁ : ∀ e ∈ r₁.journal, e.sparesWorker = true :=
    fun e hm => Event.spares_of_told (ht.forall_journal hj e hm)
  cases res with
  | error e =>
    rw [exec_perform_error hs]
    refine ⟨[], [], .nil (sentBytes_spared hj₁), ?_⟩
    dsimp only at hn ⊢
    rw [hn]
    exact .nil _ _ []
  | ok settings =>
    rw [exec_perform_ok hs]
    exact serve_warranted h hq settings _ _ hj₁ (by rw [ht.engine]; rfl) hn

/-- For every request and all that the worker writes: a request is granted by the reply with its
number if the status of that is no error, an error is an error, and so success means the status `ok`
just as long as there is no other status than these two. In a whole run, a move succeeds, or reports
more than its announcement, only if the worker has granted in this way that the changes are made. -/
theorem success_granted (operation : String) (parameters : Fields) (r : Run Link) (h : Host)
    (i : Invocation) (input : List Line) (room : Option Nat)
    (questions : Option (Nat × SystemError)) :
    (∀ reply, (exec (Link.send operation parameters) r).1 = .ok reply ↔
      Link.Replied operation parameters r reply ∧ reply.status ≠ "error") ∧
    (∀ reply, Link.Replied operation parameters r reply → reply.status = "error" →
      (exec (Link.send operation parameters) r).1 =
        .error (.refused (reply.code.getD "") (reply.message.getD "") reply.traceback)) ∧
    ((∀ reply, (exec (Link.send operation parameters) r).1 = .ok reply → reply.status = "ok") ↔
      ∀ reply, Link.Replied operation parameters r reply →
        reply.status = "ok" ∨ reply.status = "error") ∧
    (i.request.isMove = true → ∃ xs bye,
      Conversation h i.request (exec (perform h i) (fresh input room questions)).2.journal xs bye ∧
        Warranted i.request.announcement (exec (perform h i) (fresh input room questions)).1
          (reported (exec (perform h i) (fresh input room questions)).2.journal) xs) := by
  refine ⟨fun reply => Link.send_eq_ok_iff, fun reply hr he => ?_, ⟨fun hok reply hr => ?_, ?_⟩, ?_⟩
  · have herror : reply.isError = true := by simpa [Reply.isError] using he
    rw [Link.send_replied hr, Reply.verdict, if_pos herror]
  · by_cases he : reply.status = "error"
    · exact .inr he
    · exact .inl (hok reply (Link.send_eq_ok_iff.mpr ⟨hr, he⟩))
  · intro hproper reply hok
    obtain ⟨hr, he⟩ := Link.send_eq_ok_iff.mp hok
    exact (hproper reply hr).resolve_right he
  · exact fun hq => perform_warranted h i hq input room questions

section

def pendingLine : Line := Utf8.encode "\x7b\"id\": 1, \"status\": \"pending\"\x7d\n"

def pendingRun : Run Link :=
  ⟨[], [], none, none,
    ⟨some (.spawned "/usr/bin/python3"), some ⟨none⟩, some ⟨[pendingLine], none⟩, 1, none, none⟩⟩

theorem reply?_pendingLine :
    ∃ reply, reply? pendingLine = some reply ∧ reply.id = some 1 ∧ reply.status = "pending" :=
  exists_reply (by decide +kernel)

/-- Changes count as made although the worker says that they are not. -/
theorem pending_granted : ∃ reply,
    (exec (Link.send "apply_changes" [("changes", .string "changes-1")]) pendingRun).1 = .ok reply ∧
      reply.status = "pending" := by
  obtain ⟨reply, hr, hi, hs⟩ := reply?_pendingLine
  have ha : Answers 1 [pendingLine] reply := ⟨[], pendingLine, [], rfl, List.forall_mem_nil _, hr, hi⟩
  refine ⟨reply, Link.send_eq_ok_iff.mpr ⟨⟨_, rfl, rfl, ha⟩, ?_⟩, hs⟩
  rw [hs]
  decide

end

end CommandLine

end Relocate
