import Relocate.Json.Token
import Relocate.Json.Writer
import Relocate.Proofs.Json.Numeral

namespace Relocate.Json

theorem hexValue?_hexDigit {n : Nat} (h : n < 16) : Token.hexValue? (hexDigit n) = some n := by
  have hall : ∀ m : Fin 16, Token.hexValue? (hexDigit m) = some m.val := by decide
  exact hall ⟨n, h⟩

theorem escape_cases (c : Char) :
    (∃ d, escape c = ['\\', d] ∧ Token.simpleEscape? d = some c) ∨
    (c.toNat < 32 ∧
      escape c = ['\\', 'u', '0', '0', hexDigit (c.toNat / 16), hexDigit (c.toNat % 16)]) ∨
    (32 ≤ c.toNat ∧ c ≠ '"' ∧ c ≠ '\\' ∧ escape c = [c]) := by
  unfold escape
  split
  · exact .inl ⟨'"', rfl, by subst c; rfl⟩
  split
  · exact .inl ⟨'\\', rfl, by subst c; rfl⟩
  split
  · exact .inl ⟨'n', rfl, by subst c; rfl⟩
  split
  · exact .inl ⟨'r', rfl, by subst c; rfl⟩
  split
  · exact .inl ⟨'t', rfl, by subst c; rfl⟩
  split
  · exact .inl ⟨'b', rfl, by subst c; rfl⟩
  split
  · exact .inl ⟨'f', rfl, by subst c; rfl⟩
  split
  · exact .inr (.inl ⟨‹_›, rfl⟩)
  · exact .inr (.inr ⟨Nat.le_of_not_lt ‹_›, ‹_›, ‹_›, rfl⟩)

namespace Token

theorem unit?_hexDigit {n : Nat} (h : n < 256) (s : List Char) :
    unit? ('0' :: '0' :: hexDigit (n / 16) :: hexDigit (n % 16) :: s) = some (n, s) := by
  have hz : hexValue? '0' = some 0 := by decide
  have hq := hexValue?_hexDigit (n := n / 16) (by omega)
  have hr := hexValue?_hexDigit (n := n % 16) (by omega)
  have hn : n / 16 * 16 + n % 16 = n := by omega
  simp [unit?, hz, hq, hr, hn]

theorem quoted_simple {c d : Char} (h : simpleEscape? d = some c) (seen s : List Char) :
    quoted (some seen) ('\\' :: d :: s) = quoted (some (c :: seen)) s := by
  have hd : d ≠ 'u' := by
    rintro rfl
    cases h
  rw [quoted]
  · simp [h]
  · exact hd

theorem quoted_unit {n : Nat} {s r : List Char} (h : unit? s = some (n, r)) (hn : n < 32)
    (seen : List Char) :
    quoted (some seen) ('\\' :: 'u' :: s) = quoted (some (Char.ofNat n :: seen)) r := by
  rw [quoted]
  split
  · rename_i hu
    rw [h] at hu
    cases hu
  · rename_i m r' hu
    rw [h] at hu
    obtain ⟨rfl, rfl⟩ := Prod.mk.inj (Option.some.inj hu)
    rw [if_neg (by omega), if_neg (by omega)]
    rfl

/-- What is written for a character is read as this character. -/
theorem quoted_escape (seen : List Char) (c : Char) (s : List Char) :
    quoted (some seen) (escape c ++ s) = quoted (some (c :: seen)) s := by
  obtain ⟨d, he, hd⟩ | ⟨hc, he⟩ | ⟨hc, hq, hb, he⟩ := escape_cases c
  · rw [he]
    exact quoted_simple hd seen s
  · rw [he]
    have hu := quoted_unit (unit?_hexDigit (n := c.toNat) (by omega) s) hc seen
    rwa [Char.ofNat_toNat] at hu
  · rw [he, List.singleton_append, quoted]
    · have hn : ¬ (c.toNat < 32 ∨ c = '\\') := not_or.mpr ⟨Nat.not_lt.mpr hc, hb⟩
      rw [if_neg hn]
      rfl
    · exact hq
    · exact fun _ hr _ => hb hr
    · exact fun _ _ hr _ => hb hr

theorem quoted_written (cs seen s : List Char) :
    quoted (some seen) (cs.flatMap escape ++ '"' :: s) =
      some (some (String.ofList (seen.reverse ++ cs)), s) := by
  induction cs generalizing seen with
  | nil =>
    rw [List.flatMap_nil, List.nil_append, quoted, List.append_nil]
    rfl
  | cons c cs ih =>
    rw [List.flatMap_cons, List.append_assoc, quoted_escape, ih, List.reverse_cons,
      List.append_assoc, List.singleton_append]

theorem read?_numeral {c : Char} (hc : c = '-' ∨ c.isDigit = true) (s : List Char) :
    read? c s = (Numeral.read? (c :: s)).map fun p => (.scalar p.1.value?, p.2) := by
  unfold read?
  split <;> first | rfl | simp [Char.isDigit] at hc

inductive IsScalar : Json → Prop
  | null : IsScalar .null
  | bool (b : Bool) : IsScalar (.bool b)
  | int {n : Int} (h : IsWord n) : IsScalar (.int n)
  | float (x : Binary64) : IsScalar (.float x)

/-- Only scalars are the value of one word that is not a text. -/
def IsProper (t : Token) : Prop := ∀ v, t = .scalar (some v) → IsScalar v

theorem isProper_after? {word s r : List Char} {v : Json} {t : Token} (hv : IsScalar v)
    (h : (after? word s).map (fun r => (Token.scalar (some v), r)) = some (t, r)) : IsProper t := by
  obtain ⟨r', -, h⟩ := Option.map_eq_some_iff.mp h
  obtain ⟨rfl, -⟩ := Prod.mk.inj h
  rintro v' hv'
  obtain rfl := Option.some.inj (Token.scalar.inj hv')
  exact hv

theorem isProper_read? {c : Char} {s r : List Char} {t : Token} (h : read? c s = some (t, r)) :
    IsProper t := by
  unfold read? at h
  split at h
  any_goals (obtain ⟨rfl, -⟩ := Prod.mk.inj (Option.some.inj h); exact nofun)
  · obtain ⟨p, -, h⟩ := Option.map_eq_some_iff.mp h
    obtain ⟨rfl, -⟩ := Prod.mk.inj h
    exact nofun
  · exact isProper_after? .null h
  · exact isProper_after? (.bool true) h
  · exact isProper_after? (.bool false) h
  · obtain ⟨p, -, h⟩ := Option.map_eq_some_iff.mp h
    obtain ⟨rfl, -⟩ := Prod.mk.inj h
    intro v hv
    obtain ⟨n, rfl, hn⟩ | ⟨x, rfl⟩ := Numeral.value?_cases (Token.scalar.inj hv)
    · exact .int hn
    · exact .float x

theorem isProper_scan {fuel : Nat} {s : List Char} {done ts : List Token}
    (hd : ∀ t ∈ done, IsProper t) (h : scan fuel s done = some ts) : ∀ t ∈ ts, IsProper t := by
  induction fuel generalizing s done with
  | zero =>
    cases s with
    | nil =>
      obtain rfl := Option.some.inj h
      exact fun t ht => hd t (List.mem_reverse.mp ht)
    | cons c s => cases h
  | succ fuel ih =>
    cases s with
    | nil =>
      obtain rfl := Option.some.inj h
      exact fun t ht => hd t (List.mem_reverse.mp ht)
    | cons c s =>
      rw [scan] at h
      split at h
      · exact ih hd h
      · split at h
        · cases h
        · rename_i hr
          exact ih (List.forall_mem_cons.mpr ⟨isProper_read? hr, hd⟩) h

theorem isProper_ofText {s : List Char} {ts : List Token} (h : ofText s = some ts) :
    ∀ t ∈ ts, IsProper t :=
  isProper_scan (List.forall_mem_nil _) h

theorem apart_of_isSpace {c : Char} (h : isSpace c = true) :
    c.isDigit = false ∧ c ≠ '.' ∧ c ≠ 'e' ∧ c ≠ 'E' := by
  simp only [isSpace, Bool.or_eq_true, decide_eq_true_eq] at h
  obtain ((rfl | rfl) | rfl) | rfl := h <;> decide

theorem scan_blank {blank : List Char} (hb : ∀ c ∈ blank, isSpace c = true) {fuel : Nat}
    (hf : blank.length ≤ fuel) (done : List Token) : scan fuel blank done = some done.reverse := by
  induction blank generalizing fuel with
  | nil => cases fuel <;> rfl
  | cons c blank ih =>
    cases fuel with
    | zero => cases hf
    | succ fuel =>
      rw [scan, if_pos (hb c List.mem_cons_self)]
      exact ih (fun d hd => hb d (List.mem_cons_of_mem c hd)) (Nat.le_of_succ_le_succ hf)

/-- A text is read as these words if no number in it could go on with what follows. -/
def Scans (s : List Char) (ts : List Token) : Prop :=
  ∀ rest, Numeral.Ends rest → ∀ fuel done, (s ++ rest).length ≤ fuel → ∃ fuel',
    rest.length ≤ fuel' ∧ scan fuel (s ++ rest) done = scan fuel' rest (ts.reverse ++ done)

namespace Scans

variable {s s' : List Char} {ts ts' : List Token}

theorem append (h : Scans s ts) (he : Numeral.Ends s') (h' : Scans s' ts') :
    Scans (s ++ s') (ts ++ ts') := by
  intro rest hr fuel done hf
  rw [List.append_assoc] at hf
  obtain ⟨fuel₁, hf₁, h₁⟩ := h (s' ++ rest) (he.append hr) fuel done hf
  obtain ⟨fuel₂, hf₂, h₂⟩ := h' rest hr fuel₁ (ts.reverse ++ done) hf₁
  refine ⟨fuel₂, hf₂, ?_⟩
  rw [List.append_assoc, h₁, h₂, List.reverse_append, List.append_assoc]

theorem word {c : Char} {t : Token} (hc : isSpace c = false)
    (h : ∀ rest, Numeral.Ends rest → read? c (s ++ rest) = some (t, rest)) : Scans (c :: s) [t] := by
  intro rest hr fuel done hf
  cases fuel with
  | zero => cases hf
  | succ fuel =>
    refine ⟨fuel, ?_, ?_⟩
    · rw [List.cons_append, List.length_cons, List.length_append] at hf
      omega
    · rw [List.cons_append, scan, if_neg (by rw [hc]; decide), h rest hr]
      rfl

theorem symbol {c : Char} {t : Token} (hc : isSpace c = false)
    (h : ∀ rest, read? c rest = some (t, rest)) (hs : Scans s ts) : Scans (c :: s) (t :: ts) := by
  intro rest hr fuel done hf
  cases fuel with
  | zero => cases hf
  | succ fuel =>
    obtain ⟨fuel', hf', h'⟩ := hs rest hr fuel (t :: done) (Nat.le_of_succ_le_succ hf)
    refine ⟨fuel', hf', ?_⟩
    rw [List.cons_append, scan, if_neg (by rw [hc]; decide), h]
    simp only
    rw [h', List.reverse_cons, List.append_assoc]
    rfl

theorem nil : Scans [] [] := fun _ _ fuel _ hf => ⟨fuel, hf, rfl⟩

theorem ofText (h : Scans s ts) {blank : List Char} (hb : ∀ c ∈ blank, isSpace c = true) :
    Token.ofText (s ++ blank) = some ts := by
  have he : Numeral.Ends blank := fun c hc => apart_of_isSpace (hb c (List.mem_of_mem_head? hc))
  obtain ⟨fuel, hf, hs⟩ := h blank he (s ++ blank).length [] (Nat.le_refl _)
  rw [Token.ofText, hs, scan_blank hb hf, List.append_nil, List.reverse_reverse]

theorem string (s : String) : Scans (writeString s) [.text (some s)] := by
  refine word rfl fun rest _ => ?_
  have hq := quoted_written s.toList [] rest
  rw [List.reverse_nil, List.nil_append, String.ofList_toList] at hq
  simp [read?, hq]

theorem int {n : Int} (h : IsWord n) : Scans (toString n).toList [.scalar (some (.int n))] := by
  obtain ⟨c, s, hs, hc⟩ := Numeral.toList_int n
  have hspace : isSpace c = false := by
    obtain rfl | hd := hc
    · rfl
    · refine Bool.eq_false_iff.mpr fun hb => ?_
      rw [(apart_of_isSpace hb).1] at hd
      cases hd
  rw [hs]
  refine word hspace fun rest hr => ?_
  obtain ⟨m, hm, hv⟩ := Numeral.read?_int h hr
  rw [hs, List.cons_append] at hm
  rw [read?_numeral hc, hm]
  simp [hv]

end Scans

end Token

end Relocate.Json
