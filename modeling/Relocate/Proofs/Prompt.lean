import Relocate.Prompt
import Relocate.Proofs.Execution
import Relocate.Proofs.Text.Lines
import Relocate.Proofs.Text.Trim
import Relocate.Proofs.Text.Utf8Sound

namespace Relocate.Prompt

open Relocate.Action

variable {σ δ : Type}

/-- What an answer is, by the line that is given, if there is one. -/
inductive Answers : Option Line → Except Error String → Prop
  | ended : Answers none (.error .endOfInput)
  | garbled {line : Line} (h : ∀ s, Utf8.encode s ≠ line) :
    Answers (some line) (.error (.io .notText))
  | blank {s : String} (h : ∀ c ∈ s.toList, Text.isBlank c = true) :
    Answers (some (Utf8.encode s)) (.error .blank)
  | told {s a : String} (h : Text.Trims s.toList a.toList) (hne : a ≠ "") (hn : '\n' ∉ a.toList) :
    Answers (some (Utf8.encode s)) (.ok a)

def outcome : Option Line → Except Error String
  | none => .error .endOfInput
  | some line => answer line

def spoken (question : String) : Option Line → List Event
  | none => [.prompted (question ++ ": "), .prompted "\n"]
  | some _ => [.prompted (question ++ ": ")]

def askEach (questions : List String) : Action (Run σ) δ (List (Except Error String)) :=
  questions.mapM fun question => (ask question).attempt

theorem lineFeed_not_mem {s a : String} (h : Text.Trims s.toList a.toList)
    (hn : 10 ∉ (Utf8.encode s).dropLast) : '\n' ∉ a.toList := by
  intro hm
  obtain ⟨u, v, huv⟩ := List.append_of_mem hm
  obtain ⟨front, back, hs, -, -⟩ := h.parts
  have hv : v ≠ [] := by
    rintro rfl
    have hl : Text.isBlank '\n' = false := h.last '\n' (by rw [huv, List.getLast?_concat]; rfl)
    cases hl
  have he : Utf8.encode s = (front ++ u).flatMap String.utf8EncodeChar ++
      10 :: (v ++ back).flatMap String.utf8EncodeChar := by
    rw [Utf8.encode, hs, huv, List.append_assoc u, ← List.append_assoc front, List.flatMap_append]
    rfl
  have hb : (v ++ back).flatMap String.utf8EncodeChar ≠ [] := by
    rw [Ne, List.flatMap_eq_nil_iff]
    intro hnil
    obtain ⟨c, hc⟩ := List.exists_mem_of_ne_nil v hv
    exact String.utf8EncodeChar_ne_nil (hnil c (List.mem_append_left back hc))
  refine hn ?_
  rw [he, List.dropLast_append_of_ne_nil (List.cons_ne_nil _ _), List.dropLast_cons_of_ne_nil hb]
  exact List.mem_append_right _ List.mem_cons_self

theorem answers_answer {line : Line} (hn : 10 ∉ line.dropLast) :
    Answers (some line) (answer line) := by
  unfold answer
  cases ht : line.text? with
  | none =>
    refine .garbled fun s hs => ?_
    rw [Line.text?, Utf8.text?_eq_some_iff.mpr hs] at ht
    cases ht
  | some s =>
    obtain rfl := Utf8.text?_eq_some_iff.mp ht
    by_cases hs : Text.trimmed s = ""
    · simp only [if_pos hs]
      exact .blank (Text.trimmed_eq_empty.mp hs)
    · simp only [if_neg hs]
      have htrims := Text.trimmed_eq_iff.mp (Eq.refl (Text.trimmed s))
      exact .told htrims hs (lineFeed_not_mem htrims hn)

theorem Answers.eq {line : Option Line} {res : Except Error String} (h : Answers line res) :
    outcome line = res := by
  cases h with
  | ended => rfl
  | @garbled line h =>
    have ht : line.text? = none := by
      rw [Option.eq_none_iff_forall_ne_some]
      exact fun s hs => h s (Utf8.text?_eq_some_iff.mp hs)
    rw [outcome, answer, ht]
  | @blank s h =>
    have ht : Line.text? (Utf8.encode s) = some s := Utf8.text?_encode s
    simp only [outcome, answer, ht, Text.trimmed_eq_empty.mpr h, ↓reduceIte]
  | @told s a h hne hn =>
    have ht : Line.text? (Utf8.encode s) = some s := Utf8.text?_encode s
    simp only [outcome, answer, ht, Text.trimmed_eq_iff.mpr h, hne, ↓reduceIte]

theorem answers_iff {line : Option Line} (hn : ∀ l ∈ line, 10 ∉ l.dropLast)
    {res : Except Error String} : Answers line res ↔ outcome line = res := by
  constructor
  · exact Answers.eq
  · rintro rfl
    cases line with
    | none => exact .ended
    | some line => exact answers_answer (hn line rfl)

theorem exec_ask_unasked (question : String) {r : Run σ} {e : SystemError}
    (h : r.questions = some (0, e)) : exec (ask question) r = (.error (.unasked e), r) := by
  have hp : exec put r = (.error (.unasked e), r) := by
    unfold put
    rw [exec_bind_of_ok (exec_get r), h]
    rfl
  exact exec_bind_of_error hp

theorem exec_put {r : Run σ} (h : ∀ e, r.questions ≠ some (0, e)) :
    exec put r = (.ok (), { r with questions := r.questions.map fun q => (q.1 - 1, q.2) }) := by
  obtain ⟨journal, input, room, questions, engine⟩ := r
  unfold put
  rw [exec_bind_of_ok (exec_get _)]
  cases questions with
  | none => rfl
  | some q =>
    obtain ⟨n, e⟩ := q
    cases n with
    | zero => exact absurd rfl (h e)
    | succ n => rfl

/-- One question. It takes one line from the input, if there is one, whatever comes of it. -/
theorem exec_ask (question : String) {r : Run σ} (h : ∀ e, r.questions ≠ some (0, e)) :
    exec (ask question) r = (outcome r.input.head?,
      { r with
        input := r.input.tail
        questions := r.questions.map fun q => (q.1 - 1, q.2)
        journal := r.journal ++ spoken question r.input.head? }) := by
  rw [ask, exec_bind_of_ok (exec_put h)]
  obtain ⟨journal, input, room, questions, engine⟩ := r
  cases input with
  | nil =>
    refine Prod.ext rfl (congrArg (fun j => (⟨j, [], room, _, engine⟩ : Run σ)) ?_)
    exact List.append_assoc journal _ _
  | cons line rest => rfl

theorem exec_askEach (questions : List String) {r : Run σ} (h : r.questions = none) :
    exec (askEach questions : Action (Run σ) δ _) r =
      (.ok (questions.mapIdx fun i _ => outcome r.input[i]?),
      { r with
        input := r.input.drop questions.length
        journal := r.journal ++
          (questions.mapIdx fun i question => spoken question r.input[i]?).flatten }) := by
  induction questions generalizing r with
  | nil => simp [askEach]
  | cons question questions ih =>
    have hq := @exec_attempt _ _ δ _ (ask question) r
    rw [exec_ask question (by simp [h]), h, Option.map_none] at hq
    have hs := @ih { r with
      input := r.input.tail
      questions := none
      journal := r.journal ++ spoken question r.input.head? } rfl
    unfold askEach at hs ⊢
    rw [List.mapM_cons, exec_bind_of_ok hq, exec_bind_of_ok hs, exec_pure]
    simp only [List.mapIdx_cons, List.flatten_cons, List.getElem?_tail, List.head?_eq_getElem?,
      List.drop_tail, List.length_cons, List.append_assoc, h]

/-- Any questions, one after the other, over any input, as long as they can be put. The lines are
what the input is cut into behind each line feed. The answer to a question is told by the line with
its number alone, and that many lines are used up, whether the answers before it were any good or
not. -/
theorem asked_line_by_line (input : List UInt8) :
    ∃ lines, (∀ ls, Line.Cuts input ls ↔ ls = lines) ∧
      (∀ (i : Nat) res, Answers lines[i]? res ↔ outcome lines[i]? = res) ∧
      ∀ (questions : List String) (r : Run σ),
        exec (askEach questions : Action (Run σ) δ _)
            { r with input := Line.ofStream input, questions := none } =
          (.ok (questions.mapIdx fun i _ => outcome lines[i]?),
          { r with
            input := lines.drop questions.length
            questions := none
            journal := r.journal ++
              (questions.mapIdx fun i question => spoken question lines[i]?).flatten }) := by
  have hc := Line.cuts_ofStream input
  refine ⟨Line.ofStream input, fun ls => ?_, fun i res => ?_, fun questions r => ?_⟩
  · rw [← Line.ofStream_eq_iff, eq_comm]
  · exact answers_iff fun l hl => hc.not_mem_dropLast l (List.mem_of_getElem? hl)
  · exact exec_askEach questions rfl

end Relocate.Prompt
