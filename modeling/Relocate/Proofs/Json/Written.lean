import Relocate.Proofs.Json.Settled

namespace Relocate.Json

/-- A value that is written exactly as it will be read: a text, or a scalar that is no double. -/
inductive IsExact : Json → Prop
  | null : IsExact .null
  | bool (b : Bool) : IsExact (.bool b)
  | int {n : Int} (h : IsWord n) : IsExact (.int n)
  | string (s : String) : IsExact (.string s)

theorem ends_writeItems (vs : List Json) : Numeral.Ends (writeItems vs) := by
  cases vs <;> (intro c hc; obtain rfl := Option.some.inj hc; decide)

theorem ends_writeFields (fs : List (String × Json)) : Numeral.Ends (writeFields fs) := by
  cases fs <;> (intro c hc; obtain rfl := Option.some.inj hc; decide)

theorem scans_key {k : String} {s : List Char} {ts : List Token} (h : Token.Scans s ts) :
    Token.Scans (writeString k ++ ':' :: s) (.text (some k) :: .colon :: ts) := by
  refine (Token.Scans.string k).append ?_ (.symbol rfl (fun _ => rfl) h)
  intro c hc
  obtain rfl := Option.some.inj hc
  decide

mutual

theorem scans_write : ∀ v : Json, (∀ a ∈ v.leaves, a.IsExact) → Token.Scans v.write v.words
  | .null, _ => .word rfl fun _ _ => rfl
  | .bool true, _ => .word rfl fun _ _ => rfl
  | .bool false, _ => .word rfl fun _ _ => rfl
  | .int n, h => by
    cases h _ List.mem_cons_self with
    | int hn => exact .int hn
  | .float x, h => nomatch h _ List.mem_cons_self
  | .string s, _ => .string s
  | .array [], _ => .symbol rfl (fun _ => rfl) (.symbol rfl (fun _ => rfl) .nil)
  | .array (v :: vs), h => .symbol rfl (fun _ => rfl)
      ((scans_write v fun a ha => h a (List.mem_append_left _ ha)).append (ends_writeItems vs)
        (scans_writeItems vs fun a ha => h a (List.mem_append_right _ ha)))
  | .object [], _ => .symbol rfl (fun _ => rfl) (.symbol rfl (fun _ => rfl) .nil)
  | .object ((_, v) :: fs), h => .symbol rfl (fun _ => rfl) (scans_key
      ((scans_write v fun a ha => h a (List.mem_append_left _ ha)).append (ends_writeFields fs)
        (scans_writeFields fs fun a ha => h a (List.mem_append_right _ ha))))

theorem scans_writeItems : ∀ vs : List Json, (∀ a ∈ itemLeaves vs, a.IsExact) →
    Token.Scans (writeItems vs) (itemWords vs)
  | [], _ => .symbol rfl (fun _ => rfl) .nil
  | v :: vs, h => .symbol rfl (fun _ => rfl)
      ((scans_write v fun a ha => h a (List.mem_append_left _ ha)).append (ends_writeItems vs)
        (scans_writeItems vs fun a ha => h a (List.mem_append_right _ ha)))

theorem scans_writeFields : ∀ fs : List (String × Json), (∀ a ∈ fieldLeaves fs, a.IsExact) →
    Token.Scans (writeFields fs) (fieldWords fs)
  | [], _ => .symbol rfl (fun _ => rfl) .nil
  | (_, v) :: fs, h => .symbol rfl (fun _ => rfl) (scans_key
      ((scans_write v fun a ha => h a (List.mem_append_left _ ha)).append (ends_writeFields fs)
        (scans_writeFields fs fun a ha => h a (List.mem_append_right _ ha))))

end

/-- What is written of a value is read as what stays of it, with white space after it. -/
theorem read?_write (rule : Rule) {v : Json} (hv : ∀ a ∈ v.leaves, a.IsExact)
    (hd : rule = .strict → v.depth ≤ Reader.maxDepth) {blank : List Char}
    (hb : ∀ c ∈ blank, Token.isSpace c = true) : read? rule (v.write ++ blank) = some v.outermost :=
  read?_of_words ((scans_write v hv).ofText hb) hd

/-- A value that stays as it is inside another one, and is written as it will be read. -/
structure Stays (v : Json) : Prop where
  settled : v.settled = v
  exact : ∀ a ∈ v.leaves, a.IsExact
  shallow : v.depth < Reader.maxDepth

namespace Stays

theorem null : Stays .null := ⟨rfl, List.forall_mem_singleton.mpr .null, by decide⟩

theorem string (s : String) : Stays (.string s) :=
  ⟨rfl, List.forall_mem_singleton.mpr (.string s), Nat.zero_lt_succ 126⟩

theorem int {n : Int} (h : IsWord n) : Stays (.int n) :=
  ⟨rfl, List.forall_mem_singleton.mpr (.int h), Nat.zero_lt_succ 126⟩

theorem natural {n : Nat} (h : n < Nat.pow 2 64) : Stays (.int n) := by
  refine int ⟨?_, Int.ofNat_lt.mpr h⟩
  exact Int.le_trans (Int.neg_nonpos_of_nonneg (Int.natCast_nonneg _)) (Int.natCast_nonneg n)

theorem strings (ss : List String) : Stays (.array (ss.map .string)) := by
  refine ⟨?_, fun a ha => ?_, ?_⟩
  · rw [Json.settled, settledItems_eq, List.map_map]
    rfl
  · obtain ⟨v, hv, ha⟩ := mem_itemLeaves.mp ha
    obtain ⟨s, -, rfl⟩ := List.mem_map.mp hv
    exact (string s).exact a ha
  · have hd : itemsDepth (ss.map .string) ≤ 0 :=
      itemsDepth_le.mpr (List.forall_mem_map.mpr fun s _ => Nat.le_refl 0)
    rw [depth, Reader.maxDepth]
    omega

theorem read?_object (rule : Rule) {fs : List (String × Json)} (h : ∀ f ∈ fs, f.2.Stays)
    {blank : List Char} (hb : ∀ c ∈ blank, Token.isSpace c = true) :
    read? rule ((Json.object fs).write ++ blank) = some (.object fs) := by
  have hd : depth (.object fs) ≤ Reader.maxDepth :=
    Nat.succ_le_succ (fieldsDepth_le.mpr fun f hf => Nat.le_of_lt_succ (h f hf).shallow)
  rw [read?_write rule (fun a ha => ?_) (fun _ => hd) hb, outermost,
    settledFields_id fun f hf => (h f hf).settled]
  obtain ⟨f, hf, ha⟩ := mem_fieldLeaves.mp ha
  exact (h f hf).exact a ha

theorem read?_array (rule : Rule) {vs : List Json} (h : ∀ v ∈ vs, v.Stays) {blank : List Char}
    (hb : ∀ c ∈ blank, Token.isSpace c = true) :
    read? rule ((Json.array vs).write ++ blank) = some (.array vs) := by
  have hd : depth (.array vs) ≤ Reader.maxDepth :=
    Nat.succ_le_succ (itemsDepth_le.mpr fun v hv => Nat.le_of_lt_succ (h v hv).shallow)
  have hs : outermost (.array vs) = .array vs := by
    have hi : ∀ v ∈ vs, v.settled = id v := fun v hv => (h v hv).settled
    refine congrArg Json.array ?_
    rw [settledItems_eq, List.map_congr_left hi, List.map_id]
  rw [read?_write rule (fun a ha => ?_) (fun _ => hd) hb, hs]
  obtain ⟨v, hv, ha⟩ := mem_itemLeaves.mp ha
  exact (h v hv).exact a ha

end Stays

theorem mem_itemWords {w v : Json} {vs : List Json} (hv : v ∈ w :: vs) {t : Token}
    (ht : t ∈ v.words) : t ∈ w.words ++ itemWords vs := by
  induction vs generalizing w with
  | nil =>
    obtain rfl := List.mem_singleton.mp hv
    exact List.mem_append_left _ ht
  | cons u vs ih =>
    obtain rfl | hv := List.mem_cons.mp hv
    · exact List.mem_append_left _ ht
    · exact List.mem_append_right _ (List.mem_cons_of_mem _ (ih hv))

theorem mem_fieldWords {g f : String × Json} {fs : List (String × Json)} (hf : f ∈ g :: fs)
    {t : Token} (ht : t ∈ f.2.words) : t ∈ g.2.words ++ fieldWords fs := by
  induction fs generalizing g with
  | nil =>
    obtain rfl := List.mem_singleton.mp hf
    exact List.mem_append_left _ ht
  | cons h fs ih =>
    obtain rfl | hf := List.mem_cons.mp hf
    · exact List.mem_append_left _ ht
    · refine List.mem_append_right _ (List.mem_cons_of_mem _ ?_)
      exact List.mem_cons_of_mem _ (List.mem_cons_of_mem _ (ih hf))

theorem mem_words_array {vs : List Json} {v : Json} (hv : v ∈ vs) {t : Token} (ht : t ∈ v.words) :
    t ∈ words (.array vs) := by
  cases vs with
  | nil => cases hv
  | cons w vs => exact List.mem_cons_of_mem _ (mem_itemWords hv ht)

theorem mem_words_object {fs : List (String × Json)} {f : String × Json} (hf : f ∈ fs) {t : Token}
    (ht : t ∈ f.2.words) : t ∈ words (.object fs) := by
  cases fs with
  | nil => cases hf
  | cons g fs =>
    refine List.mem_cons_of_mem _ (List.mem_cons_of_mem _ (List.mem_cons_of_mem _ ?_))
    exact mem_fieldWords hf ht

theorem exact_or_float {v : Json} (hp : ∀ t ∈ v.words, t.IsProper) {a : Json} (ha : a ∈ v.leaves) :
    a.IsExact ∨ ∃ x, a = .float x := by
  induction v using tree_induction with
  | null =>
    rw [leaves, List.mem_singleton] at ha
    exact .inl (ha ▸ .null)
  | bool b =>
    rw [leaves, List.mem_singleton] at ha
    exact .inl (ha ▸ .bool b)
  | int n =>
    rw [leaves, List.mem_singleton] at ha
    cases hp _ List.mem_cons_self _ rfl with
    | int hn => exact .inl (ha ▸ .int hn)
  | float x =>
    rw [leaves, List.mem_singleton] at ha
    exact .inr ⟨x, ha⟩
  | string s =>
    rw [leaves, List.mem_singleton] at ha
    exact .inl (ha ▸ .string s)
  | array vs ih =>
    obtain ⟨v, hv, ha⟩ := mem_itemLeaves.mp ha
    exact ih v hv (fun t ht => hp t (mem_words_array hv ht)) ha
  | object fs ih =>
    obtain ⟨f, hf, ha⟩ := mem_fieldLeaves.mp ha
    exact ih f hf (fun t ht => hp t (mem_words_object hf ht)) ha

theorem newline_not_mem_escape (c : Char) : '\n' ∉ escape c := by
  have hx : ∀ n : Fin 16, '\n' ≠ hexDigit n := by decide
  obtain ⟨d, he, hd⟩ | ⟨hc, he⟩ | ⟨hc, -, -, he⟩ := escape_cases c
  · have hne : '\n' ≠ d := by
      rintro rfl
      cases hd
    simp [he, hne]
  · have h₁ := hx ⟨c.toNat / 16, by omega⟩
    have h₂ := hx ⟨c.toNat % 16, by omega⟩
    simp only [he, List.mem_cons, List.not_mem_nil, or_false, not_or]
    exact ⟨by decide, by decide, by decide, by decide, h₁, h₂⟩
  · rw [he, List.mem_singleton]
    rintro rfl
    exact absurd hc (by decide)

theorem newline_not_mem_writeString (s : String) : '\n' ∉ writeString s := by
  have hs : '\n' ∉ s.toList.flatMap escape := fun h => by
    obtain ⟨c, -, hc⟩ := List.mem_flatMap.mp h
    exact newline_not_mem_escape c hc
  simp [writeString, hs]

theorem newline_not_mem_int (n : Int) : '\n' ∉ (toString n).toList := by
  have hd : ∀ n : Nat, '\n' ∉ Nat.toDigits 10 n := fun n h => by
    have := Natural.isDigit_of_mem h
    cases this
  cases n with
  | ofNat n =>
    rw [show (toString (Int.ofNat n)).toList = _ from Natural.toList_toString n]
    exact hd n
  | negSucc n =>
    rw [Numeral.toList_negSucc]
    exact List.not_mem_cons_of_ne_of_not_mem (by decide) (hd (n + 1))

mutual

theorem newline_not_mem_write : ∀ v : Json, (∀ a ∈ v.leaves, a.IsExact) → '\n' ∉ v.write
  | .null, _ => by decide
  | .bool true, _ => by decide
  | .bool false, _ => by decide
  | .int n, _ => newline_not_mem_int n
  | .float x, h => nomatch h _ List.mem_cons_self
  | .string s, _ => newline_not_mem_writeString s
  | .array [], _ => by decide
  | .array (v :: vs), h => by
    have hv := newline_not_mem_write v fun a ha => h a (List.mem_append_left _ ha)
    have hvs := newline_not_mem_writeItems vs fun a ha => h a (List.mem_append_right _ ha)
    simp [write, hv, hvs]
  | .object [], _ => by decide
  | .object ((k, v) :: fs), h => by
    have hv := newline_not_mem_write v fun a ha => h a (List.mem_append_left _ ha)
    have hfs := newline_not_mem_writeFields fs fun a ha => h a (List.mem_append_right _ ha)
    simp [write, newline_not_mem_writeString, hv, hfs]

theorem newline_not_mem_writeItems : ∀ vs : List Json, (∀ a ∈ itemLeaves vs, a.IsExact) →
    '\n' ∉ writeItems vs
  | [], _ => by decide
  | v :: vs, h => by
    have hv := newline_not_mem_write v fun a ha => h a (List.mem_append_left _ ha)
    have hvs := newline_not_mem_writeItems vs fun a ha => h a (List.mem_append_right _ ha)
    simp [writeItems, hv, hvs]

theorem newline_not_mem_writeFields : ∀ fs : List (String × Json),
    (∀ a ∈ fieldLeaves fs, a.IsExact) → '\n' ∉ writeFields fs
  | [], _ => by decide
  | (k, v) :: fs, h => by
    have hv := newline_not_mem_write v fun a ha => h a (List.mem_append_left _ ha)
    have hfs := newline_not_mem_writeFields fs fun a ha => h a (List.mem_append_right _ ha)
    simp [writeFields, newline_not_mem_writeString, hv, hfs]

end

end Relocate.Json
