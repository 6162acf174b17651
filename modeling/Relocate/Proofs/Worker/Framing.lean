import Relocate.Proofs.Json.Written
import Relocate.Proofs.Text.Lines
import Relocate.Proofs.Text.Utf8Sound
import Relocate.Proofs.Worker.Lifecycle

namespace Relocate.Worker.Link

open Relocate.Action
open Utf8 (Bytes)

structure IsRequest (id : Nat) (operation : String) (parameters : Fields) (line : Line) : Prop where
  complete : line.IsComplete
  decoded : ∃ text fs, line.text? = some text ∧
    Json.read? .strict text.toList = some (.object fs) ∧
    fs.Perm (("id", .int id) :: ("op", .string operation) :: parameters)

theorem isComplete_encode {s : List Char} (h : '\n' ∉ s) :
    Line.IsComplete (Utf8.encode (String.ofList (s ++ ['\n']))) := by
  refine ⟨s.flatMap String.utf8EncodeChar, ?_, fun hm => ?_⟩
  · rw [Utf8.encode, String.toList_ofList, List.flatMap_append]
    rfl
  · obtain ⟨c, hc, hb⟩ := List.mem_flatMap.mp hm
    rw [Utf8.eq_of_mem_encodeChar hb (by decide)] at hc
    exact h hc

theorem isRequest_requestLine {id : Nat} {operation : String} {parameters : Fields}
    (hid : id < Nat.pow 2 64) (hp : ∀ f ∈ parameters, f.2.Stays)
    (hk : (("id" : String) :: "op" :: parameters.map Prod.fst).Nodup) :
    IsRequest id operation parameters (requestLine id operation parameters) := by
  have hs : ∀ f ∈ Fields.ofList (("id", .int id) :: ("op", .string operation) :: parameters),
      f.2.Stays := fun f hf =>
    List.forall_mem_cons.mpr ⟨.natural hid, List.forall_mem_cons.mpr ⟨.string operation, hp⟩⟩ f
      (Fields.mem_ofList hf)
  have hleaves : ∀ a ∈ (request id operation parameters).leaves, a.IsExact := fun a ha => by
    obtain ⟨f, hf, ha⟩ := Json.mem_fieldLeaves.mp ha
    exact (hs f hf).exact a ha
  refine ⟨isComplete_encode (Json.newline_not_mem_write _ hleaves), _, _, Utf8.text?_encode _, ?_,
    Fields.perm_ofList hk⟩
  rw [String.toList_ofList]
  exact Json.Stays.read?_object .strict hs (List.forall_mem_singleton.mpr rfl)

/-- An operation of the link that has a name of its own. The character a move begins at is a number
of 64 bits. -/
def Operation.IsNamed : Operation → Prop
  | .send .. => False
  | .createMove _ index => ∀ n ∈ index, n < Nat.pow 2 64
  | _ => True

theorem Operation.isRequest {o : Operation} (ho : o.IsNamed) {id : Nat} (hid : id < Nat.pow 2 64) :
    IsRequest id o.name o.parameters (requestLine id o.name o.parameters) := by
  have hfolder (folder : Option String) : (Json.optional text folder).Stays := by
    cases folder with
    | none => exact .null
    | some folder => exact .string folder
  refine isRequest_requestLine hid ?_ ?_
  · cases o with
    | send name parameters => exact ho.elim
    | openProject root folder => simp [parameters, text, Json.Stays.string, hfolder]
    | createMove path index =>
      cases index with
      | none => simp [parameters, text, Json.Stays.string, Json.optional, Json.Stays.null]
      | some n =>
        simp [parameters, text, Json.Stays.string, Json.optional, Json.Stays.natural (ho n rfl)]
    | _ => simp [parameters, text, Json.Stays.string]
  · cases o with
    | send name parameters => exact ho.elim
    | _ => simp [parameters]

theorem sentBytes_run (o : Operation) {r : Run Link} {p : Pipes} (hp : r.engine.pipes = some p) :
    sentBytes (exec o.run r).2.journal = sentBytes r.journal ++
      (p.write (requestLine r.engine.nextId o.name o.parameters)).accepted := by
  by_cases ho : o = .shutdown
  · subst ho
    have hr := running_of_pipes hp
    have hb := sentBytes_send "shutdown" [] hp rfl
    rw [Operation.run, exec_shutdown_running hr]
    exact (sentBytes_append _ _).trans ((List.append_nil _).trans hb)
  · rw [exec_run ho]
    exact sentBytes_send o.name o.parameters hp rfl

theorem nextId_run (o : Operation) {r : Run Link} (hr : r.engine.isRunning = true) :
    (exec o.run r).2.engine.nextId = r.engine.nextId + 1 := by
  rw [← perform_eq_run]
  exact (perform_running o hr).1

theorem run_stopped {o : Operation} {r : Run Link} {p : Pipes} (hp : r.engine.pipes = some p)
    (h : o = .shutdown ∨
      (p.write (requestLine r.engine.nextId o.name o.parameters)).complete = false) :
    (exec o.run r).2.engine.isRunning = false := by
  by_cases ho : o = .shutdown
  · subst ho
    have hr := running_of_pipes hp
    rw [Operation.run, exec_shutdown_running hr]
    rfl
  · have hw := h.resolve_left ho
    exact (run_stops_iff ho hp).1.mpr ⟨_, ((run_stops_iff ho hp).2.2 _).mpr (.unsent hw)⟩

/-- How the lines that a worker takes go with the operations, the first with number `id`: each
operation on a running link has its line, which is its request. Only the last line may be cut short,
if the request was not taken as a whole, and only the last one may let the worker go. -/
structure Framed (id : Nat) (r : Run Link) (ops : List Operation) (lines : List Line) : Prop where
  running : ∀ i, i < lines.length ↔
    i < ops.length ∧ (after (ops.take i) r).engine.isRunning = true
  request : ∀ i line, lines[i]? = some line → ∃ o full, ops[i]? = some o ∧
    IsRequest (id + i) o.name o.parameters full ∧
    (line = full ∨ line <+: full ∧ i + 1 = lines.length ∧
      ∃ p, (after (ops.take i) r).engine.pipes = some p ∧ (p.write full).complete = false)
  last : ∀ i, i < lines.length → ops[i]? = some .shutdown → i + 1 = lines.length

theorem Framed.idle (id : Nat) {r : Run Link} (hr : r.engine.isRunning = false)
    (ops : List Operation) : Framed id r ops [] := by
  refine ⟨fun i => iff_of_false (Nat.not_lt_zero i) fun h => ?_, nofun, nofun⟩
  rw [after_idle _ hr, hr] at h
  cases h.2

theorem Framed.nil (id : Nat) (r : Run Link) : Framed id r [] [] :=
  ⟨fun i => iff_of_false (Nat.not_lt_zero i) fun h => Nat.not_lt_zero i h.1, nofun, nofun⟩

theorem Framed.nil_of_idle {id : Nat} {r : Run Link} {ops : List Operation} {lines : List Line}
    (h : Framed id r ops lines) (hr : r.engine.isRunning = false) : lines = [] := by
  cases lines with
  | nil => rfl
  | cons line lines =>
    have hi := ((h.running 0).mp (Nat.zero_lt_succ _)).2
    rw [List.take_zero, after, hr] at hi
    cases hi

theorem Framed.cons {r : Run Link} {p : Pipes} {o : Operation} {ops : List Operation}
    {lines : List Line} (hp : r.engine.pipes = some p) (ho : o.IsNamed)
    (hid : r.engine.nextId < Nat.pow 2 64)
    (h : Framed (r.engine.nextId + 1) (exec o.run r).2 ops lines) :
    Framed r.engine.nextId r (o :: ops)
      ((p.write (requestLine r.engine.nextId o.name o.parameters)).accepted :: lines) := by
  obtain ⟨full, hfull⟩ : ∃ full, full = requestLine r.engine.nextId o.name o.parameters := ⟨_, rfl⟩
  have hr := running_of_pipes hp
  have hreq := o.isRequest ho hid
  rw [← hfull] at hreq ⊢
  refine ⟨fun i => ?_, fun i line hi => ?_, fun i hi hs => ?_⟩
  · cases i with
    | zero => simp [after, hr]
    | succ i =>
      rw [List.length_cons, List.length_cons, List.take_succ_cons, after,
        Nat.add_lt_add_iff_right, Nat.add_lt_add_iff_right]
      exact h.running i
  · cases i with
    | zero =>
      obtain rfl := Option.some.inj hi
      refine ⟨o, full, rfl, hreq, ?_⟩
      cases hw : (p.write full).complete with
      | true => exact .inl (Pipes.write_complete hw)
      | false =>
        rw [h.nil_of_idle (run_stopped hp (.inr (hfull ▸ hw)))]
        exact .inr ⟨Pipes.write_accepted p full, rfl, p, hp, hw⟩
    | succ i =>
      obtain ⟨o', full', ho', hreq', hl⟩ := h.request i line hi
      have hn : r.engine.nextId + 1 + i = r.engine.nextId + (i + 1) := by omega
      rw [hn] at hreq'
      refine ⟨o', full', ho', hreq', ?_⟩
      obtain hfull | ⟨hpre, hlen, hcut⟩ := hl
      · exact .inl hfull
      · exact .inr ⟨hpre, congrArg (· + 1) hlen, hcut⟩
  · cases i with
    | zero =>
      obtain rfl := Option.some.inj hs
      rw [h.nil_of_idle (run_stopped hp (.inl rfl))]
      rfl
    | succ i => exact congrArg (· + 1) (h.last i (Nat.lt_of_succ_lt_succ hi) hs)

/-- What operations have the worker take are their requests, line by line. -/
theorem after_framed (ops : List Operation) (r : Run Link) (hn : ∀ o ∈ ops, o.IsNamed)
    (hl : r.engine.nextId + ops.length ≤ Nat.pow 2 64) :
    ∃ lines, sentBytes (after ops r).journal = sentBytes r.journal ++ lines.flatten ∧
      Framed r.engine.nextId r ops lines := by
  induction ops generalizing r with
  | nil => exact ⟨[], (List.append_nil _).symm, .nil _ r⟩
  | cons o ops ih =>
    obtain ⟨ho, hn⟩ := List.forall_mem_cons.mp hn
    rw [List.length_cons] at hl
    cases hr : r.engine.isRunning with
    | false =>
      refine ⟨[], ?_, .idle _ hr _⟩
      rw [after_idle _ hr, List.flatten_nil, List.append_nil]
    | true =>
      obtain ⟨p, hp⟩ := pipes_of_running hr
      obtain ⟨lines, hs, hf⟩ := ih (exec o.run r).2 hn (by rw [nextId_run o hr]; omega)
      rw [nextId_run o hr] at hf
      refine ⟨_ :: lines, ?_, .cons hp ho (by omega) hf⟩
      rw [after, hs, sentBytes_run o hp, List.append_assoc, List.flatten_cons]

theorem fresh_of_start {h : Host} {path : String} {r r' : Run Link}
    (hs : exec (start h path) r = (.ok (), r')) :
    r'.engine.nextId = 1 ∧ sentBytes r'.journal = sentBytes r.journal := by
  obtain ⟨program, greeting, -, -, hj, hk⟩ := start_ok hs
  refine ⟨by rw [hk], ?_⟩
  rw [hj.sentBytes, spawned, sentBytes_append]
  exact List.append_nil _

/-- Whatever is asked of a worker that was started with success, and however it behaves: the bytes it
takes are lines, one for each operation as long as the link runs. Line `i`, counted from one, is the
request of operation `i` with the number `i`; only the last one may be cut short, and letting the
worker go comes last. -/
theorem requests_framed {h : Host} {path : String} {r₀ r : Run Link}
    (hs : exec (start h path) r₀ = (.ok (), r)) (ops : List Operation)
    (hn : ∀ o ∈ ops, o.IsNamed) (hl : ops.length < Nat.pow 2 64) :
    ∃ lines, sentBytes (after ops r).journal = sentBytes r₀.journal ++ lines.flatten ∧
      Framed 1 r ops lines := by
  obtain ⟨hid, hb⟩ := fresh_of_start hs
  obtain ⟨lines, hsent, hf⟩ := after_framed ops r hn (by rw [hid, Nat.add_comm]; exact hl)
  rw [hb] at hsent
  rw [hid] at hf
  exact ⟨lines, hsent, hf⟩

theorem parting_framed : ∃ r lines,
    exec (start (soloHost parting) "/python3") ⟨[], [], none, none, closed⟩ = (.ok (), r) ∧
    sentBytes (after [.createMove "a\"\n.py" (some 3), .shutdown] r).journal = lines.flatten ∧
    Framed 1 r [.createMove "a\"\n.py" (some 3), .shutdown] lines ∧ lines.length = 1 := by
  obtain ⟨r, he, hk⟩ := exec_start_parting
  have hn : ∀ o ∈ [Operation.createMove "a\"\n.py" (some 3), .shutdown], o.IsNamed := by
    simp [Operation.IsNamed]
  obtain ⟨lines, hsent, hf⟩ := requests_framed he _ hn (by decide)
  refine ⟨r, lines, he, hsent, hf, ?_⟩
  have hp : r.engine.pipes = some ⟨⟨[], none⟩, ⟨none⟩⟩ := by
    rw [hk]
    rfl
  have hfirst := (hf.running 0).mpr ⟨by decide, running_of_start he⟩
  -- Nothing more is read, so that the link is closed over the first request.
  have hstop : (exec (Operation.createMove "a\"\n.py" (some 3)).run r).2.engine.isRunning = false := by
    obtain ⟨hs, -, hlost⟩ := run_stops_iff (o := .createMove "a\"\n.py" (some 3)) nofun hp
    exact hs.mpr ⟨_, (hlost _).mpr (.ended rfl (List.forall_mem_nil _))⟩
  have hsecond : ¬ 1 < lines.length := fun h => by
    have hr := ((hf.running 1).mp h).2
    rw [List.take_succ_cons, List.take_zero, after, after, hstop] at hr
    cases hr
  omega

end Relocate.Worker.Link
