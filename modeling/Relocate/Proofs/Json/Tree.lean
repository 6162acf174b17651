import Relocate.Json.Reader
import Relocate.Proofs.Json.Token

namespace Relocate.Json

mutual

def words : Json → List Token
  | .null => [.scalar (some .null)]
  | .bool b => [.scalar (some (.bool b))]
  | .int n => [.scalar (some (.int n))]
  | .float x => [.scalar (some (.float x))]
  | .string s => [.text (some s)]
  | .array [] => [.beginArray, .endArray]
  | .array (v :: vs) => .beginArray :: (words v ++ itemWords vs)
  | .object [] => [.beginObject, .endObject]
  | .object ((k, v) :: fs) => .beginObject :: .text (some k) :: .colon :: (words v ++ fieldWords fs)

def itemWords : List Json → List Token
  | [] => [.endArray]
  | v :: vs => .comma :: (words v ++ itemWords vs)

def fieldWords : List (String × Json) → List Token
  | [] => [.endObject]
  | (k, v) :: fs => .comma :: .text (some k) :: .colon :: (words v ++ fieldWords fs)

end

mutual

/-- What stays of a value inside another one: the fields of its objects by key, of a repeated one
the last. -/
def settled : Json → Json
  | .null => .null
  | .bool b => .bool b
  | .int n => .int n
  | .float x => .float x
  | .string s => .string s
  | .array vs => .array (settledItems vs)
  | .object fs => .object (Fields.ofList (settledFields fs))

def settledItems : List Json → List Json
  | [] => []
  | v :: vs => settled v :: settledItems vs

def settledFields : List (String × Json) → List (String × Json)
  | [] => []
  | (k, v) :: fs => (k, settled v) :: settledFields fs

end

/-- What stays of the outermost value: the fields of an object are all there. -/
def outermost : Json → Json
  | .object fs => .object (settledFields fs)
  | v => v.settled

mutual

def depth : Json → Nat
  | .null | .bool _ | .int _ | .float _ | .string _ => 0
  | .array vs => itemsDepth vs + 1
  | .object fs => fieldsDepth fs + 1

def itemsDepth : List Json → Nat
  | [] => 0
  | v :: vs => max (depth v) (itemsDepth vs)

def fieldsDepth : List (String × Json) → Nat
  | [] => 0
  | (_, v) :: fs => max (depth v) (fieldsDepth fs)

end

namespace Reader

/-- What a reader keeps of a value, with these arrays and objects open around it. -/
def kept (st : List Frame) (v : Json) : Json := if st.isEmpty then v.outermost else v.settled

theorem kept_cons (f : Frame) (st : List Frame) (v : Json) : kept (f :: st) v = v.settled := rfl

theorem kept_array (st : List Frame) (vs : List Json) :
    kept st (.array vs) = .array (settledItems vs) := by
  cases st <;> rfl

theorem put_kept_object (st : List Frame) (fs : List (String × Json)) :
    put (kept st (.object fs)) st = closeObject (settledFields fs).reverse st := by
  rw [closeObject, List.reverse_reverse]
  cases st <;> rfl

theorem kept_scalar {v : Json} (hv : Token.IsScalar v) (st : List Frame) : kept st v = v := by
  cases hv <;> cases st <;> rfl

theorem run_cons (rule : Rule) (r : Reader) (t : Token) (ts : List Token) :
    run rule r (t :: ts) = (step rule r t).bind fun r => run rule r ts := rfl

theorem enter_of_le {rule : Rule} {st : List Frame} (h : rule = .strict → st.length + 1 ≤ maxDepth)
    (f : Frame) (stage : Stage) : enter rule f st stage = some (.reading (f :: st) stage) := by
  have hn : ¬ (rule = .strict ∧ maxDepth ≤ st.length) := fun ⟨hr, hl⟩ =>
    absurd (h hr) (by omega)
  rw [enter, if_neg hn]

theorem run_valueOrEnd (rule : Rule) (items : List Json) (st : List Frame) (v : Json)
    (ts : List Token) : run rule (.reading (.array items :: st) .valueOrEnd) (v.words ++ ts) =
      run rule (.reading (.array items :: st) .value) (v.words ++ ts) := by
  cases v with
  | array vs => cases vs <;> rfl
  | object fs => cases fs <;> rfl
  | _ => rfl

theorem keyText_some (rule : Rule) (st : List Frame) (k : String) :
    keyText rule st (some k) = some k := by
  unfold keyText
  split <;> rfl

theorem run_key (rule : Rule) (fs : List (String × Json)) (k key : String) (st : List Frame)
    (ts : List Token) : run rule (.reading (.object fs key :: st) .key)
      (.text (some k) :: .colon :: ts) = run rule (.reading (.object fs k :: st) .value) ts := by
  rw [run_cons, step, keyText_some]
  rfl

theorem run_keyOrEnd (rule : Rule) (fs : List (String × Json)) (k key : String) (st : List Frame)
    (ts : List Token) : run rule (.reading (.object fs key :: st) .keyOrEnd)
      (.text (some k) :: .colon :: ts) = run rule (.reading (.object fs k :: st) .value) ts := by
  rw [run_cons, step, keyText_some]
  rfl

variable (rule : Rule)

mutual

theorem run_words : ∀ (v : Json) (st : List Frame) (ts : List Token),
    (rule = .strict → st.length + v.depth ≤ maxDepth) →
      run rule (.reading st .value) (v.words ++ ts) = run rule (put (kept st v) st) ts
  | .null, st, ts, _ => by cases rule <;> cases st <;> rfl
  | .bool b, st, ts, _ => by cases rule <;> cases st <;> rfl
  | .int n, st, ts, _ => by cases rule <;> cases st <;> rfl
  | .float x, st, ts, _ => by cases rule <;> cases st <;> rfl
  | .string s, st, ts, _ => by cases rule <;> cases st <;> rfl
  | .array [], st, ts, h => by
    have he := enter_of_le h (.array []) .valueOrEnd
    rw [words, List.cons_append, run_cons, step, value, he, kept_array]
    rfl
  | .array (v :: vs), st, ts, h => by
    have hl : rule = .strict → st.length + 1 + max v.depth (itemsDepth vs) ≤ maxDepth := fun hr => by
      have := h hr
      rw [depth, itemsDepth] at this
      omega
    have hst : rule = .strict → st.length + 1 ≤ maxDepth := fun hr => by have := hl hr; omega
    have he := enter_of_le hst (.array []) .valueOrEnd
    rw [words, List.cons_append, run_cons, step, value, he, Option.bind_some, List.append_assoc,
      run_valueOrEnd, run_words v _ _ fun hr => by have := hl hr; rw [List.length_cons]; omega,
      kept_cons, put, run_itemWords vs _ _ _ fun hr => by have := hl hr; omega, kept_array]
    rfl
  | .object [], st, ts, h => by
    have he := enter_of_le h (.object [] "") .keyOrEnd
    rw [words, List.cons_append, run_cons, step, value, he, put_kept_object]
    rfl
  | .object ((k, v) :: fs), st, ts, h => by
    have hl : rule = .strict → st.length + 1 + max v.depth (fieldsDepth fs) ≤ maxDepth := fun hr => by
      have := h hr
      rw [depth, fieldsDepth] at this
      omega
    have hst : rule = .strict → st.length + 1 ≤ maxDepth := fun hr => by have := hl hr; omega
    have he := enter_of_le hst (.object [] "") .keyOrEnd
    rw [words, List.cons_append, run_cons, step, value, he, Option.bind_some, List.cons_append,
      List.cons_append, run_keyOrEnd, List.append_assoc,
      run_words v _ _ fun hr => by have := hl hr; rw [List.length_cons]; omega,
      kept_cons, put, run_fieldWords fs _ _ _ _ fun hr => by have := hl hr; omega, put_kept_object,
      settledFields, List.reverse_cons]

theorem run_itemWords : ∀ (vs items : List Json) (st : List Frame) (ts : List Token),
    (rule = .strict → st.length + 1 + itemsDepth vs ≤ maxDepth) →
      run rule (.reading (.array items :: st) .commaOrEnd) (itemWords vs ++ ts) =
        run rule (put (.array (items.reverse ++ settledItems vs)) st) ts
  | [], items, st, ts, _ => by
    rw [settledItems, List.append_nil]
    rfl
  | v :: vs, items, st, ts, h => by
    have hl : rule = .strict → st.length + 1 + max v.depth (itemsDepth vs) ≤ maxDepth := h
    rw [itemWords, List.cons_append, run_cons, step, Option.bind_some, List.append_assoc,
      run_words v _ _ fun hr => by have := hl hr; rw [List.length_cons]; omega,
      kept_cons, put, run_itemWords vs _ _ _ fun hr => by have := hl hr; omega,
      List.reverse_cons, List.append_assoc]
    rfl

theorem run_fieldWords : ∀ (gs fs : List (String × Json)) (key : String) (st : List Frame)
    (ts : List Token), (rule = .strict → st.length + 1 + fieldsDepth gs ≤ maxDepth) →
      run rule (.reading (.object fs key :: st) .commaOrEnd) (fieldWords gs ++ ts) =
        run rule (closeObject ((settledFields gs).reverse ++ fs) st) ts
  | [], fs, key, st, ts, _ => rfl
  | (k, v) :: gs, fs, key, st, ts, h => by
    have hl : rule = .strict → st.length + 1 + max v.depth (fieldsDepth gs) ≤ maxDepth := h
    rw [fieldWords, List.cons_append, run_cons, step, Option.bind_some, List.cons_append,
      List.cons_append, run_key, List.append_assoc,
      run_words v _ _ fun hr => by have := hl hr; rw [List.length_cons]; omega,
      kept_cons, put, run_fieldWords gs _ _ _ _ fun hr => by have := hl hr; omega,
      settledFields, List.reverse_cons, List.append_assoc]
    rfl

end

/-- What is read of these words is this value. -/
def Reads (r : Reader) (ts : List Token) (w : Json) : Prop := run .strict r ts = some (.finished w)

/-- Words that are read as a value begin with those of one, if there are fewer than `n` of them. -/
def Sound (n : Nat) : Prop :=
  ∀ (st : List Frame) (ts : List Token) (w : Json), ts.length < n → (∀ t ∈ ts, t.IsProper) →
    st.length ≤ maxDepth → Reads (.reading st .value) ts w →
      ∃ v ts', ts = v.words ++ ts' ∧ st.length + v.depth ≤ maxDepth ∧ Reads (put (kept st v) st) ts' w

theorem Reads.of_bind {r : Reader} {t : Token} {ts : List Token} {w : Json}
    (h : Reads r (t :: ts) w) : ∃ r', step .strict r t = some r' ∧ Reads r' ts w :=
  Option.bind_eq_some_iff.mp h

theorem Sound.items {n : Nat} (hn : Sound n) {st : List Frame} {w : Json}
    (hst : st.length + 1 ≤ maxDepth) {items : List Json} {ts : List Token} (hl : ts.length ≤ n)
    (hp : ∀ t ∈ ts, t.IsProper) (h : Reads (.reading (.array items :: st) .commaOrEnd) ts w) :
    ∃ vs ts', ts = itemWords vs ++ ts' ∧ st.length + 1 + itemsDepth vs ≤ maxDepth ∧
      Reads (put (.array (items.reverse ++ settledItems vs)) st) ts' w := by
  induction hm : ts.length using Nat.strongRecOn generalizing items ts with
  | ind m ih =>
    cases ts with
    | nil => cases h
    | cons t ts =>
      obtain ⟨r, hr, h⟩ := h.of_bind
      cases t with
      | comma =>
        obtain rfl := Option.some.inj hr
        obtain ⟨v, ts₁, rfl, hv, h⟩ := hn _ _ _ hl
          (fun t ht => hp t (List.mem_cons_of_mem _ ht)) (by rwa [List.length_cons]) h
        have hlt : ts₁.length < m := by
          rw [← hm, List.length_cons, List.length_append]
          omega
        obtain ⟨vs, ts₂, rfl, hvs, h⟩ := ih _ hlt (by omega)
          (fun t ht => hp t (by simp [ht])) h rfl
        refine ⟨v :: vs, ts₂, by rw [itemWords, List.cons_append, List.append_assoc], ?_, ?_⟩
        · rw [itemsDepth]
          rw [List.length_cons] at hv
          omega
        · rw [settledItems]
          rw [kept_cons, List.reverse_cons, List.append_assoc] at h
          exact h
      | endArray =>
        obtain rfl := Option.some.inj hr
        exact ⟨[], ts, rfl, hst, by rwa [settledItems, List.append_nil]⟩
      | _ => cases hr

theorem Reads.key {fs : List (String × Json)} {key : String} {st : List Frame} {ts : List Token}
    {w : Json} (h : Reads (.reading (.object fs key :: st) .key) ts w) :
    ∃ k ts', ts = .text (some k) :: ts' ∧ Reads (.reading (.object fs k :: st) .colon) ts' w := by
  cases ts with
  | nil => cases h
  | cons t ts =>
    obtain ⟨r, hr, h⟩ := h.of_bind
    cases t with
    | text k =>
      obtain ⟨k, rfl, rfl⟩ := Option.map_eq_some_iff.mp hr
      exact ⟨k, ts, rfl, h⟩
    | _ => cases hr

theorem Sound.field {n : Nat} (hn : Sound n) {st : List Frame} {w : Json}
    (hst : st.length + 1 ≤ maxDepth) {fs : List (String × Json)} {k : String} {ts : List Token}
    (hl : ts.length ≤ n) (hp : ∀ t ∈ ts, t.IsProper)
    (h : Reads (.reading (.object fs k :: st) .colon) ts w) :
    ∃ (v : Json) (ts' : List Token), ts = .colon :: (v.words ++ ts') ∧
      st.length + 1 + v.depth ≤ maxDepth ∧
      Reads (.reading (.object ((k, v.settled) :: fs) k :: st) .commaOrEnd) ts' w := by
  cases ts with
  | nil => cases h
  | cons t ts =>
    obtain ⟨r, hr, h⟩ := h.of_bind
    cases t with
    | colon =>
      obtain rfl := Option.some.inj hr
      obtain ⟨v, ts', rfl, hv, h⟩ := hn _ _ _ hl
          (fun t ht => hp t (List.mem_cons_of_mem _ ht)) (by rwa [List.length_cons]) h
      exact ⟨v, ts', rfl, hv, h⟩
    | _ => cases hr

theorem Sound.fields {n : Nat} (hn : Sound n) {st : List Frame} {w : Json}
    (hst : st.length + 1 ≤ maxDepth) {fs : List (String × Json)} {key : String} {ts : List Token}
    (hl : ts.length ≤ n) (hp : ∀ t ∈ ts, t.IsProper)
    (h : Reads (.reading (.object fs key :: st) .commaOrEnd) ts w) :
    ∃ gs ts', ts = fieldWords gs ++ ts' ∧ st.length + 1 + fieldsDepth gs ≤ maxDepth ∧
      Reads (closeObject ((settledFields gs).reverse ++ fs) st) ts' w := by
  induction hm : ts.length using Nat.strongRecOn generalizing fs key ts with
  | ind m ih =>
    cases ts with
    | nil => cases h
    | cons t ts =>
      obtain ⟨r, hr, h⟩ := h.of_bind
      cases t with
      | comma =>
        obtain rfl := Option.some.inj hr
        obtain ⟨k, ts₁, rfl, h⟩ := h.key
        obtain ⟨v, ts₂, rfl, hv, h⟩ := hn.field hst (by simp at hl; omega)
          (fun t ht => hp t (by simp [ht])) h
        obtain ⟨gs, ts₃, rfl, hgs, h⟩ := ih ts₂.length (by simp at hm; omega) (by simp at hl; omega)
          (fun t ht => hp t (by simp [ht])) h rfl
        refine ⟨(k, v) :: gs, ts₃, ?_, ?_, ?_⟩
        · rw [fieldWords, List.cons_append, List.cons_append, List.cons_append, List.append_assoc]
        · rw [fieldsDepth]
          omega
        · rwa [settledFields, List.reverse_cons, List.append_assoc]
      | endObject =>
        obtain rfl := Option.some.inj hr
        exact ⟨[], ts, rfl, hst, h⟩
      | _ => cases hr

theorem enter_strict {f : Frame} {st : List Frame} {stage : Stage} {r : Reader}
    (h : enter .strict f st stage = some r) :
    st.length + 1 ≤ maxDepth ∧ r = .reading (f :: st) stage := by
  unfold enter at h
  split at h
  · cases h
  · rename_i hn
    exact ⟨Nat.lt_of_not_le fun hl => hn ⟨rfl, hl⟩, (Option.some.inj h).symm⟩

theorem Sound.object {n : Nat} (hn : Sound n) {st : List Frame} {w : Json}
    (hst : st.length + 1 ≤ maxDepth) {ts : List Token} (hl : ts.length ≤ n)
    (hp : ∀ t ∈ ts, t.IsProper) (h : Reads (.reading (.object [] "" :: st) .keyOrEnd) ts w) :
    ∃ fs ts', .beginObject :: ts = words (.object fs) ++ ts' ∧
      st.length + depth (.object fs) ≤ maxDepth ∧ Reads (put (kept st (.object fs)) st) ts' w := by
  cases ts with
  | nil => cases h
  | cons t ts =>
    obtain ⟨r, hr, h⟩ := h.of_bind
    cases t with
    | endObject =>
      obtain rfl := Option.some.inj hr
      refine ⟨[], ts, rfl, hst, ?_⟩
      rwa [put_kept_object]
    | text k =>
      obtain ⟨k, rfl, rfl⟩ := Option.map_eq_some_iff.mp hr
      obtain ⟨v, ts₁, rfl, hv, h⟩ := hn.field hst (by simp at hl; omega)
        (fun t ht => hp t (by simp [ht])) h
      obtain ⟨gs, ts₂, rfl, hgs, h⟩ := hn.fields hst (by simp at hl; omega)
        (fun t ht => hp t (by simp [ht])) h
      refine ⟨(k, v) :: gs, ts₂, ?_, ?_, ?_⟩
      · rw [words, List.cons_append, List.cons_append, List.cons_append, List.append_assoc]
      · rw [depth, fieldsDepth]
        omega
      · rwa [put_kept_object, settledFields, List.reverse_cons]
    | _ => cases hr

theorem Sound.array {n : Nat} (hn : Sound n) {st : List Frame} {w : Json}
    (hst : st.length + 1 ≤ maxDepth) {ts : List Token} (hl : ts.length < n)
    (hp : ∀ t ∈ ts, t.IsProper) (h : Reads (.reading (.array [] :: st) .valueOrEnd) ts w) :
    ∃ vs ts', .beginArray :: ts = words (.array vs) ++ ts' ∧
      st.length + depth (.array vs) ≤ maxDepth ∧ Reads (put (kept st (.array vs)) st) ts' w := by
  by_cases he : ∃ ts', ts = .endArray :: ts'
  · obtain ⟨ts', rfl⟩ := he
    obtain ⟨r, hr, h⟩ := h.of_bind
    obtain rfl := Option.some.inj hr
    refine ⟨[], ts', rfl, hst, ?_⟩
    rwa [kept_array]
  · have hv : Reads (.reading (.array [] :: st) .value) ts w := by
      cases ts with
      | nil => cases h
      | cons t ts =>
        cases t with
        | endArray => exact absurd ⟨ts, rfl⟩ he
        | _ => exact h
    obtain ⟨v, ts₁, rfl, hd, h⟩ := hn _ _ _ hl hp (by rwa [List.length_cons]) hv
    obtain ⟨vs, ts₂, rfl, hvs, h⟩ := hn.items hst (by simp at hl; omega)
      (fun t ht => hp t (by simp [ht])) h
    refine ⟨v :: vs, ts₂, ?_, ?_, ?_⟩
    · rw [words, List.cons_append, List.append_assoc]
    · rw [List.length_cons] at hd
      rw [depth, itemsDepth]
      omega
    · rwa [kept_array, settledItems]

theorem words_scalar {v : Json} (hv : Token.IsScalar v) : v.words = [.scalar (some v)] := by
  cases hv <;> rfl

theorem depth_scalar {v : Json} (hv : Token.IsScalar v) : v.depth = 0 := by
  cases hv <;> rfl

theorem Sound.succ {n : Nat} (hn : Sound n) : Sound (n + 1) := by
  intro st ts w hl hp hst h
  cases ts with
  | nil => cases h
  | cons t ts =>
    have hl' : ts.length < n := Nat.lt_of_succ_lt_succ hl
    have hp' : ∀ t ∈ ts, t.IsProper := fun t ht => hp t (List.mem_cons_of_mem _ ht)
    obtain ⟨r, hr, h⟩ := h.of_bind
    cases t with
    | beginObject =>
      obtain ⟨hst, rfl⟩ := enter_strict hr
      obtain ⟨fs, hfs⟩ := hn.object hst (Nat.le_of_lt hl') hp' h
      exact ⟨.object fs, hfs⟩
    | beginArray =>
      obtain ⟨hst, rfl⟩ := enter_strict hr
      obtain ⟨vs, hvs⟩ := hn.array hst hl' hp' h
      exact ⟨.array vs, hvs⟩
    | text s =>
      obtain ⟨v, hs, rfl⟩ := Option.map_eq_some_iff.mp hr
      obtain ⟨s, rfl, rfl⟩ := Option.map_eq_some_iff.mp hs
      refine ⟨.string s, ts, rfl, hst, ?_⟩
      cases st <;> exact h
    | scalar v =>
      obtain ⟨v, rfl, rfl⟩ := Option.map_eq_some_iff.mp hr
      have hv : Token.IsScalar v := hp _ List.mem_cons_self v rfl
      refine ⟨v, ts, by rw [words_scalar hv]; rfl, by rwa [depth_scalar hv], ?_⟩
      rwa [kept_scalar hv]
    | _ => cases hr

theorem sound (n : Nat) : Sound n := by
  induction n with
  | zero => exact fun _ _ _ hl => absurd hl (Nat.not_lt_zero _)
  | succ n ih => exact ih.succ

end Reader

/-- A text whose words are those of a value is read as what stays of it. -/
theorem read?_of_words {rule : Rule} {s : List Char} {v : Json} (hs : Token.ofText s = some v.words)
    (hd : rule = .strict → v.depth ≤ Reader.maxDepth) : read? rule s = some v.outermost := by
  have hw := Reader.run_words rule v [] [] fun hr => by
    rw [List.length_nil, Nat.zero_add]
    exact hd hr
  rw [List.append_nil] at hw
  unfold read?
  rw [hs]
  exact congrArg (Option.bind · Reader.result?) hw

/-- A text has a value just if its words are those of one that is not too deep. -/
theorem read?_strict_iff {s : List Char} {w : Json} : read? .strict s = some w ↔
    ∃ v : Json, Token.ofText s = some v.words ∧ v.depth ≤ Reader.maxDepth ∧ v.outermost = w := by
  constructor
  · intro h
    obtain ⟨ts, hs, h⟩ := Option.bind_eq_some_iff.mp h
    obtain ⟨r, hr, hw⟩ := Option.bind_eq_some_iff.mp h
    obtain rfl : r = .finished w := by
      cases r with
      | finished v => exact congrArg Reader.finished (Option.some.inj hw)
      | reading st stage => cases hw
    obtain ⟨v, ts', rfl, hd, h⟩ := Reader.sound _ [] ts w (Nat.lt_succ_self _)
      (Token.isProper_ofText hs) (Nat.zero_le _) hr
    cases ts' with
    | nil =>
      rw [List.append_nil] at hs
      rw [List.length_nil, Nat.zero_add] at hd
      exact ⟨v, hs, hd, Reader.finished.inj (Option.some.inj h)⟩
    | cons t ts' => cases h
  · rintro ⟨v, hs, hd, rfl⟩
    exact read?_of_words hs fun _ => hd

theorem read?_loose {s : List Char} {w : Json} (h : read? .strict s = some w) :
    read? .loose s = some w := by
  obtain ⟨v, hs, -, rfl⟩ := read?_strict_iff.mp h
  exact read?_of_words hs nofun

end Relocate.Json
