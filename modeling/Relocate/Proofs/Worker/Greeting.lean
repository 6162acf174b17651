import Relocate.Proofs.Worker.Message
import Relocate.Proofs.Worker.Noise

namespace Relocate.Worker

open Relocate.Action
open Utf8 (Bytes)

/-- A line that says, as an object or as an array, that the worker is ready. -/
def Greets (line : Line) (greeting : Greeting) : Prop :=
  ∃ said, said? line = some said ∧ Greeting.ofText? said = some greeting ∧ greeting.status = "ready"

def Complains (line : Line) (reply : Reply) : Prop :=
  reply? line = some reply ∧ reply.status = "error"

theorem Greeting.status_of_object {fs : List (String × Json)} {g : Greeting}
    (h : Greeting.ofJson? (.object fs) = some g) :
    Json.required (Fields.get? fs "status") = some g.status := by
  obtain ⟨columns, hc, h⟩ := Option.bind_eq_some_iff.mp h
  rw [Json.columns?] at hc
  split at hc
  · cases hc
  · obtain rfl := Option.some.inj hc
    obtain ⟨status, hs, h⟩ := Option.bind_eq_some_iff.mp h
    obtain ⟨version, -, h⟩ := Option.bind_eq_some_iff.mp h
    obtain ⟨library, -, h⟩ := Option.bind_eq_some_iff.mp h
    obtain rfl := Option.some.inj h
    exact hs

theorem status_unique {said : List Char} {g : Greeting} {reply : Reply}
    (hg : Greeting.ofText? said = some g) (hr : Reply.ofText? said = some reply) :
    g.status = reply.status := by
  obtain ⟨w, hw, hr⟩ := Option.bind_eq_some_iff.mp hr
  obtain ⟨w', hw', hg⟩ := Option.bind_eq_some_iff.mp hg
  obtain rfl := Option.some.inj (hw'.symm.trans (Json.read?_loose hw))
  cases w' with
  | object fs =>
    have hs := (Reply.ofJson?_eq_some.mp hr).2.2.1
    rw [Greeting.status_of_object hg] at hs
    exact Option.some.inj hs
  | _ => cases hr

theorem tidings?_greets {line : Line} {greeting : Greeting} (h : Greets line greeting) :
    tidings? line = some (.ok greeting) := by
  obtain ⟨said, hs, hg, hr⟩ := h
  cases said with
  | nil => cases hg
  | cons c said =>
    have hf : (Greeting.ofText? (c :: said)).filter (fun g => g.status = "ready") = some greeting := by
      rw [hg]
      simp [hr]
    unfold tidings?
    rw [hs]
    simp only [hf]

theorem tidings?_complains {line : Line} {reply : Reply} (h : Complains line reply) :
    tidings? line = some (.error (reply.message.getD "unknown error")) := by
  obtain ⟨hr, he⟩ := h
  obtain ⟨c, said, hs, hr⟩ := said?_of_reply hr
  have hg : (Greeting.ofText? (c :: said)).filter (fun g => g.status = "ready") = none := by
    refine Option.filter_eq_none_iff.mpr fun g hg hready => ?_
    rw [decide_eq_true_eq, status_unique hg hr, he] at hready
    exact absurd hready (by decide)
  have hf : (Reply.ofText? (c :: said)).filter Reply.isError = some reply := by
    rw [hr]
    simp [Reply.isError, he]
  unfold tidings?
  rw [hs]
  simp only [hg, hf, Option.map_some]

/-- Each line is passed over or decides, in one of three ways. -/
theorem tidings?_cases (line : Line) : Chatter line ∨ (∃ greeting, Greets line greeting) ∨
    (∃ reply, Complains line reply) ∨ line.text? = none := by
  cases ht : line.text? with
  | none => exact .inr (.inr (.inr rfl))
  | some text =>
    obtain ⟨said, hs⟩ : ∃ said, said? line = some said := ⟨_, by rw [said?, ht]; rfl⟩
    by_cases hg : ∃ g, Greeting.ofText? said = some g ∧ g.status = "ready"
    · obtain ⟨g, hg⟩ := hg
      exact .inr (.inl ⟨g, said, hs, hg⟩)
    by_cases hr : ∃ reply, Reply.ofText? said = some reply ∧ reply.status = "error"
    · obtain ⟨reply, hr, he⟩ := hr
      exact .inr (.inr (.inl ⟨reply, by rw [reply?, hs]; exact hr, he⟩))
    · exact .inl ⟨said, hs, .inr ⟨fun g h he => hg ⟨g, h, he⟩, fun reply h he => hr ⟨reply, h, he⟩⟩⟩

/-- What lines tell whoever waits for a greeting, and the lines after the one that tells it. -/
inductive Tells : List Line → Except String Greeting → List Line → Prop
  | ready {skipped rest : List Line} {line : Line} {greeting : Greeting}
    (hs : ∀ l ∈ skipped, Chatter l) (hl : Greets line greeting) :
    Tells (skipped ++ line :: rest) (.ok greeting) rest
  | refused {skipped rest : List Line} {line : Line} {reply : Reply}
    (hs : ∀ l ∈ skipped, Chatter l) (hl : Complains line reply) :
    Tells (skipped ++ line :: rest) (.error (reply.message.getD "unknown error")) rest
  | garbled {skipped rest : List Line} {line : Line}
    (hs : ∀ l ∈ skipped, Chatter l) (hl : line.text? = none) :
    Tells (skipped ++ line :: rest)
      (.error ("error reading from worker: " ++ SystemError.notText.message)) rest
  | ended {lines : List Line} (hs : ∀ l ∈ lines, Chatter l) :
    Tells lines (.error "worker exited before sending ready message") []

namespace Tells

theorem cons {lines rest : List Line} {v : Except String Greeting} {line : Line} (hl : Chatter line)
    (h : Tells lines v rest) : Tells (line :: lines) v rest := by
  cases h with
  | ready hs hg => exact .ready (List.forall_mem_cons.mpr ⟨hl, hs⟩) hg
  | refused hs hr => exact .refused (List.forall_mem_cons.mpr ⟨hl, hs⟩) hr
  | garbled hs ht => exact .garbled (List.forall_mem_cons.mpr ⟨hl, hs⟩) ht
  | ended hs => exact .ended (List.forall_mem_cons.mpr ⟨hl, hs⟩)

theorem exists_of (lines : List Line) : ∃ v rest, Tells lines v rest := by
  induction lines with
  | nil => exact ⟨_, _, .ended (List.forall_mem_nil _)⟩
  | cons line lines ih =>
    obtain ⟨v, rest, h⟩ := ih
    obtain hc | ⟨g, hg⟩ | ⟨reply, hr⟩ | ht := tidings?_cases line
    · exact ⟨v, rest, h.cons hc⟩
    · exact ⟨_, _, .ready (List.forall_mem_nil _) hg⟩
    · exact ⟨_, _, .refused (List.forall_mem_nil _) hr⟩
    · exact ⟨_, _, .garbled (List.forall_mem_nil _) ht⟩

theorem welcome_decided {skipped rest : List Line} {line : Line} {v : Except String Greeting}
    (hs : ∀ l ∈ skipped, Chatter l) (hl : tidings? line = some v) :
    welcome none (skipped ++ line :: rest) = (skipped ++ [line], v) := by
  rw [welcome, decided_skip fun l hm => tidings?_chatter (hs l hm), decided_of_some hl]

theorem welcome_eq {lines rest : List Line} {v : Except String Greeting} (h : Tells lines v rest) :
    (welcome none lines).2 = v ∧ lines.drop (welcome none lines).1.length = rest := by
  have hdrop (skipped : List Line) (line : Line) :
      (skipped ++ line :: rest).drop (skipped ++ [line]).length = rest := by
    have ha : skipped ++ line :: rest = (skipped ++ [line]) ++ rest := List.append_cons skipped line rest
    rw [ha, List.drop_left]
  cases h with
  | ready hs hg =>
    rw [welcome_decided hs (tidings?_greets hg)]
    exact ⟨rfl, hdrop _ _⟩
  | refused hs hr =>
    rw [welcome_decided hs (tidings?_complains hr)]
    exact ⟨rfl, hdrop _ _⟩
  | garbled hs ht =>
    rw [welcome_decided hs (by rw [tidings?, said?, ht]; rfl)]
    exact ⟨rfl, hdrop _ _⟩
  | ended hs =>
    have hw := decided_skip (fun l hm => tidings?_chatter (hs l hm))
      (Except.error (Link.ungreeted none)) []
    rw [List.append_nil] at hw
    rw [welcome, hw]
    refine ⟨rfl, ?_⟩
    rw [decided, List.append_nil, List.drop_length]

end Tells

namespace Link

/-- Whatever a worker writes, waiting for its greeting comes to an end, and the first line that
decides has its way. After a greeting the link runs, has asked for nothing yet, and all that follows
the greeting is still to be read. Otherwise the process has been killed and its end waited for, and
letting the worker go then says and does nothing. -/
theorem start_greeted {h : Host} {path : String} {program : Host.Running} {output : Bytes}
    {closing : Option Closing} (hf : Finds h path program)
    (hw : workerOf program = .ofStream output closing) (r : Run Link) :
    (∃ v rest, Tells (Line.ofStream output) v rest) ∧
      ∀ v rest, Tells (Line.ofStream output) v rest → ∃ r', exec (start h path) r = (started v, r') ∧
        sentBytes r'.journal = sentBytes r.journal ∧
        match v with
        | .ok greeting => r'.engine =
          ⟨some (.spawned path), some ⟨closing⟩, some ⟨rest, none⟩, 1, some greeting.version, none⟩
        | .error _ => r'.engine.child = none ∧ r'.engine.inlet = none ∧ r'.engine.outlet = none ∧
          r'.engine.gone = some (Child.spawned path).kill.wait ∧
          exec shutdown r' = (.ok (), r') := by
  refine ⟨Tells.exists_of _, fun v rest ht => ?_⟩
  obtain ⟨r', he, hj, hk⟩ := exec_start_spawned r hf
  rw [hw] at he hk
  obtain ⟨hv, hrest⟩ := ht.welcome_eq
  rw [Pipes.ofStream] at he hk
  rw [hv] at he hk
  rw [hrest] at hk
  refine ⟨r', he, ?_, ?_⟩
  · rw [hj.sentBytes, spawned, sentBytes_append]
    exact List.append_nil _
  · cases v with
    | ok greeting =>
      rw [hk, spawned, hw]
      rfl
    | error reason =>
      have hr : r'.engine.isRunning = false := by
        rw [hk]
        rfl
      rw [hk]
      exact ⟨rfl, rfl, rfl, rfl, exec_shutdown_idle hr⟩

section

theorem obliging_greeted :
    (∃ r', exec (start (soloHost (obliging (greetingLine ++ grantLine))) "/python3")
        ⟨[], [], none, none, closed⟩ = (.ok (), r') ∧
      r'.engine =
        ⟨some (.spawned "/python3"), some ⟨none⟩, some ⟨[grantLine], none⟩, 1, some "1.0", none⟩) ∧
    ∃ r', exec (start (soloHost (obliging [])) "/python3") ⟨[], [], none, none, closed⟩ =
        (.error (.notStarted "worker exited before sending ready message"), r') ∧
      r'.engine.gone = some ⟨"/python3", true, true⟩ ∧ exec shutdown r' = (.ok (), r') := by
  have hgreets : Greets greetingLine ⟨"ready", "1.0", "1.13"⟩ := by
    have hg : (said? greetingLine).bind Greeting.ofText? = some ⟨"ready", "1.0", "1.13"⟩ := by
      decide +kernel
    obtain ⟨said, hs, hg⟩ := Option.bind_eq_some_iff.mp hg
    exact ⟨said, hs, hg, rfl⟩
  have hready : Tells (Line.ofStream (greetingLine ++ grantLine)) (.ok ⟨"ready", "1.0", "1.13"⟩)
      [grantLine] := by
    rw [ofStream_obliging]
    exact .ready (List.forall_mem_nil _) hgreets
  have hgone : Tells (Line.ofStream []) (.error "worker exited before sending ready message") [] := by
    rw [Line.ofStream]
    exact .ended (List.forall_mem_nil _)
  obtain ⟨-, h⟩ := start_greeted (soloHost_finds (obliging (greetingLine ++ grantLine))) rfl
    ⟨[], [], none, none, closed⟩
  obtain ⟨-, h'⟩ := start_greeted (soloHost_finds (obliging [])) rfl ⟨[], [], none, none, closed⟩
  obtain ⟨r', he, -, hk⟩ := h _ _ hready
  obtain ⟨r'', he', -, -, -, -, hd, hs⟩ := h' _ _ hgone
  exact ⟨⟨r', he, hk⟩, r'', he', hd, hs⟩

end

end Link

end Relocate.Worker
