import Relocate.Worker.Link

namespace Relocate.Worker

section

variable {α : Type}

/-- The lines up to the first that is decisive, and what it decides; without one, all lines, and what
their end decides. -/
def decided (verdict : Line → Option α) (atEnd : α) : List Line → List Line × α
  | [] => ([], atEnd)
  | line :: rest =>
    match verdict line with
    | some a => ([line], a)
    | none => (line :: (decided verdict atEnd rest).1, (decided verdict atEnd rest).2)

variable {verdict : Line → Option α} {line : Line}

theorem decided_of_some {a : α} (h : verdict line = some a) (atEnd : α) (rest : List Line) :
    decided verdict atEnd (line :: rest) = ([line], a) := by
  rw [decided, h]

theorem decided_of_none (h : verdict line = none) (atEnd : α) (rest : List Line) :
    decided verdict atEnd (line :: rest) =
      (line :: (decided verdict atEnd rest).1, (decided verdict atEnd rest).2) := by
  rw [decided, h]

theorem decided_append (verdict : Line → Option α) (atEnd : α) (lines : List Line) :
    (decided verdict atEnd lines).1 ++ lines.drop (decided verdict atEnd lines).1.length = lines := by
  induction lines with
  | nil => rfl
  | cons line rest ih =>
    cases hv : verdict line with
    | some a => simp [decided_of_some hv]
    | none => simpa [decided_of_none hv] using ih

theorem decided_skip {skipped : List Line} (h : ∀ l ∈ skipped, verdict l = none) (atEnd : α)
    (lines : List Line) : decided verdict atEnd (skipped ++ lines) =
      (skipped ++ (decided verdict atEnd lines).1, (decided verdict atEnd lines).2) := by
  induction skipped with
  | nil => rfl
  | cons line skipped ih =>
    obtain ⟨hl, hs⟩ := List.forall_mem_cons.mp h
    rw [List.cons_append, decided_of_none hl, ih hs]
    rfl

theorem decided_cases (verdict : Line → Option α) (atEnd : α) (lines : List Line) :
    (∃ skipped line, (decided verdict atEnd lines).1 = skipped ++ [line] ∧
      (∀ l ∈ skipped, verdict l = none) ∧ verdict line = some (decided verdict atEnd lines).2) ∨
    (∀ l ∈ lines, verdict l = none) ∧ decided verdict atEnd lines = (lines, atEnd) := by
  induction lines with
  | nil => exact .inr ⟨List.forall_mem_nil _, rfl⟩
  | cons line rest ih =>
    cases hv : verdict line with
    | some a =>
      rw [decided_of_some hv]
      exact .inl ⟨[], line, rfl, List.forall_mem_nil _, hv⟩
    | none =>
      rw [decided_of_none hv]
      obtain ⟨skipped, last, ht, hs, hl⟩ | ⟨hs, he⟩ := ih
      · exact .inl ⟨line :: skipped, last, congrArg (line :: ·) ht,
          List.forall_mem_cons.mpr ⟨hv, hs⟩, hl⟩
      · exact .inr ⟨List.forall_mem_cons.mpr ⟨hv, hs⟩, by rw [he]⟩

/-- Lines that are passed over, and a last one that is decisive. -/
def Decides (verdict : Line → Option α) (taken : List Line) (a : α) : Prop :=
  ∃ skipped line, taken = skipped ++ [line] ∧ (∀ l ∈ skipped, verdict l = none) ∧
    verdict line = some a

theorem Decides.decided_append {taken : List Line} {a : α} (h : Decides verdict taken a) (atEnd : α)
    (rest : List Line) : decided verdict atEnd (taken ++ rest) = (taken, a) := by
  obtain ⟨skipped, line, rfl, hs, hl⟩ := h
  rw [List.append_assoc, decided_skip hs]
  exact congrArg (fun d => (skipped ++ d.1, d.2)) (decided_of_some hl atEnd rest)

theorem decides_of_decided (verdict : Line → Option α) (atEnd : α) (lines : List Line) :
    Decides verdict (decided verdict atEnd lines).1 (decided verdict atEnd lines).2 ∨
      decided verdict atEnd lines = (lines, atEnd) :=
  (decided_cases verdict atEnd lines).imp id And.right

end

def said? (line : Line) : Option (List Char) := line.text?.map fun t => Text.trim t.toList

def reply? (line : Line) : Option Reply := (said? line).bind Reply.ofText?

/-- What a line settles for whoever waits for the reply to request `id`; nothing if it is passed
over. -/
def verdict? (id : Nat) (line : Line) : Option (Except Error Reply) :=
  match said? line with
  | none => some (.error (.crashed SystemError.notText.message))
  | some [] => none
  | some said =>
    match Reply.ofText? said with
    | none => some (.error (.unreadable (String.ofList said)))
    | some reply =>
      if reply.id ≠ some id then none
      else if reply.isError then
        some (.error (.refused (reply.code.getD "") (reply.message.getD "") reply.traceback))
      else some (.ok reply)

def settle (id : Nat) (fault : Option SystemError) : List Line → List Line × Except Error Reply :=
  decided (verdict? id) (.error (.crashed (Link.unanswered fault)))

theorem passed_over {id : Nat} {line : Line} (h : verdict? id line = none) :
    said? line = some [] ∨ ∃ reply, reply? line = some reply ∧ reply.id ≠ some id := by
  unfold verdict? at h
  cases hs : said? line with
  | none => simp [hs] at h
  | some said =>
    cases said with
    | nil => exact .inl rfl
    | cons c said =>
      cases hr : Reply.ofText? (c :: said) with
      | none => simp [hs, hr] at h
      | some reply =>
        by_cases hi : reply.id = some id
        · by_cases he : reply.isError <;> simp [hs, hr, hi, he] at h
        · exact .inr ⟨reply, by rw [reply?, hs, Option.bind_some, hr], hi⟩

/-- What settles a request: its reply, a line that is no text, or one that is no reply. -/
theorem verdict?_cases {id : Nat} {line : Line} {v : Except Error Reply}
    (h : verdict? id line = some v) :
    (∃ reply, reply? line = some reply ∧ reply.id = some id ∧
      v = if reply.isError then
          .error (.refused (reply.code.getD "") (reply.message.getD "") reply.traceback)
        else .ok reply) ∨
    (line.text? = none ∧ v = .error (.crashed SystemError.notText.message)) ∨
    ∃ c said, said? line = some (c :: said) ∧ Reply.ofText? (c :: said) = none ∧
      v = .error (.unreadable (String.ofList (c :: said))) := by
  unfold verdict? at h
  cases hs : said? line with
  | none =>
    rw [hs] at h
    exact .inr (.inl ⟨Option.map_eq_none_iff.mp hs, (Option.some.inj h).symm⟩)
  | some said =>
    cases said with
    | nil => simp [hs] at h
    | cons c said =>
      cases hr : Reply.ofText? (c :: said) with
      | none => exact .inr (.inr ⟨c, said, rfl, hr, by simpa [hs, hr] using h.symm⟩)
      | some reply =>
        by_cases hi : reply.id = some id
        · refine .inl ⟨reply, by rw [reply?, hs, Option.bind_some, hr], hi, ?_⟩
          by_cases he : reply.isError <;> simpa [hs, hr, hi, he] using h.symm
        · simp [hs, hr, hi] at h

theorem verdict?_garbled {id : Nat} {line : Line} {c : Char} {said : List Char}
    (hs : said? line = some (c :: said)) (hn : Reply.ofText? (c :: said) = none) :
    verdict? id line =
      some (.error (.unreadable (String.ofList (c :: said)))) := by
  rw [verdict?, hs]
  dsimp only
  rw [hn]

theorem verdict?_eq_crashed_iff {id : Nat} {line : Line} {reason : String} :
    verdict? id line = some (.error (.crashed reason)) ↔
      line.text? = none ∧ reason = SystemError.notText.message := by
  constructor
  · intro h
    obtain ⟨reply, -, -, hv⟩ | ⟨ht, hv⟩ | ⟨c, said, -, -, hv⟩ := verdict?_cases h
    · cases he : reply.isError <;> simp [he] at hv
    · exact ⟨ht, by simpa using hv⟩
    · cases hv
  · rintro ⟨ht, rfl⟩
    rw [verdict?, said?, ht]
    rfl

def isCrash : Except Error Reply → Bool
  | .error (.crashed _) => true
  | _ => false

theorem decides_of_settle {id : Nat} {fault : Option SystemError} {lines taken : List Line}
    {v : Except Error Reply} (h : settle id fault lines = (taken, v)) (hc : isCrash v = false) :
    Decides (verdict? id) taken v := by
  unfold settle at h
  obtain hd | hd := decides_of_decided (verdict? id) (.error (.crashed (Link.unanswered fault))) lines
  · rwa [h] at hd
  · obtain rfl := (Prod.mk.inj (h.symm.trans hd)).2
    cases hc

end Relocate.Worker
