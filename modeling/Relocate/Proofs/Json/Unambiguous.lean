import Relocate.Proofs.Json.Tree

namespace Relocate.Json

theorem words_eq_scalar {v w : Json} {ts us : List Token}
    (h : .scalar (some v) :: ts = w.words ++ us) : v = w ∧ ts = us := by
  cases w with
  | string s => cases h
  | array ws => cases ws <;> cases h
  | object gs => cases gs <;> cases h
  | _ =>
    obtain ⟨hv, hts⟩ := List.cons.inj h
    exact ⟨Option.some.inj (Token.scalar.inj hv), hts⟩

theorem words_eq_text {s : String} {w : Json} {ts us : List Token}
    (h : .text (some s) :: ts = w.words ++ us) : .string s = w ∧ ts = us := by
  cases w with
  | string t =>
    obtain ⟨hs, hts⟩ := List.cons.inj h
    exact ⟨congrArg Json.string (Option.some.inj (Token.text.inj hs)), hts⟩
  | array ws => cases ws <;> cases h
  | object gs => cases gs <;> cases h
  | _ => cases h

/-- What stands between the brackets of an array or an object, and the closing one. -/
def innerItems : List Json → List Token
  | [] => [.endArray]
  | v :: vs => v.words ++ itemWords vs

def innerFields : List (String × Json) → List Token
  | [] => [.endObject]
  | (k, v) :: fs => .text (some k) :: .colon :: (v.words ++ fieldWords fs)

theorem words_array (vs : List Json) : words (.array vs) = .beginArray :: innerItems vs := by
  cases vs <;> rfl

theorem words_object (fs : List (String × Json)) :
    words (.object fs) = .beginObject :: innerFields fs := by
  cases fs <;> rfl

theorem words_eq_array {vs : List Json} {w : Json} {ts us : List Token}
    (h : words (.array vs) ++ ts = w.words ++ us) :
    ∃ ws, w = .array ws ∧ innerItems vs ++ ts = innerItems ws ++ us := by
  rw [words_array] at h
  cases w with
  | array ws =>
    rw [words_array] at h
    exact ⟨ws, rfl, (List.cons.inj h).2⟩
  | object gs => cases gs <;> cases h
  | _ => cases h

theorem words_eq_object {fs : List (String × Json)} {w : Json} {ts us : List Token}
    (h : words (.object fs) ++ ts = w.words ++ us) :
    ∃ gs, w = .object gs ∧ innerFields fs ++ ts = innerFields gs ++ us := by
  rw [words_object] at h
  cases w with
  | array ws => cases ws <;> cases h
  | object gs =>
    rw [words_object] at h
    exact ⟨gs, rfl, (List.cons.inj h).2⟩
  | _ => cases h

theorem words_ne_endArray (v : Json) (ts us : List Token) : v.words ++ ts ≠ .endArray :: us := by
  cases v with
  | array vs => cases vs <;> nofun
  | object fs => cases fs <;> nofun
  | _ => nofun

theorem key_inj {k k' : String} {vs fs ts ws gs us : List Token}
    (h : .text (some k) :: .colon :: (vs ++ fs) ++ ts = .text (some k') :: .colon :: (ws ++ gs) ++ us) :
    k = k' ∧ vs ++ (fs ++ ts) = ws ++ (gs ++ us) := by
  simpa using h

mutual

theorem words_inj : ∀ (v w : Json) (ts us : List Token), v.words ++ ts = w.words ++ us →
    v = w ∧ ts = us
  | .null, _, _, _, h => words_eq_scalar h
  | .bool _, _, _, _, h => words_eq_scalar h
  | .int _, _, _, _, h => words_eq_scalar h
  | .float _, _, _, _, h => words_eq_scalar h
  | .string _, _, _, _, h => words_eq_text h
  | .array vs, w, ts, us, h => by
    obtain ⟨ws, rfl, hi⟩ := words_eq_array h
    obtain ⟨rfl, hts⟩ := innerItems_inj vs ws ts us hi
    exact ⟨rfl, hts⟩
  | .object fs, w, ts, us, h => by
    obtain ⟨gs, rfl, hi⟩ := words_eq_object h
    obtain ⟨rfl, hts⟩ := innerFields_inj fs gs ts us hi
    exact ⟨rfl, hts⟩

theorem innerItems_inj : ∀ (vs ws : List Json) (ts us : List Token),
    innerItems vs ++ ts = innerItems ws ++ us → vs = ws ∧ ts = us
  | [], [], _, _, h => ⟨rfl, (List.cons.inj h).2⟩
  | [], w :: ws, ts, us, h => by
    rw [innerItems, innerItems, List.append_assoc] at h
    exact absurd h.symm (words_ne_endArray w _ ts)
  | v :: vs, [], ts, us, h => by
    rw [innerItems, innerItems, List.append_assoc] at h
    exact absurd h (words_ne_endArray v _ us)
  | v :: vs, w :: ws, ts, us, h => by
    rw [innerItems, innerItems, List.append_assoc, List.append_assoc] at h
    obtain ⟨rfl, hvs⟩ := words_inj v w _ _ h
    obtain ⟨rfl, hts⟩ := itemWords_inj vs ws ts us hvs
    exact ⟨rfl, hts⟩

theorem itemWords_inj : ∀ (vs ws : List Json) (ts us : List Token),
    itemWords vs ++ ts = itemWords ws ++ us → vs = ws ∧ ts = us
  | [], [], _, _, h => ⟨rfl, (List.cons.inj h).2⟩
  | [], _ :: _, _, _, h => nomatch h
  | _ :: _, [], _, _, h => nomatch h
  | v :: vs, w :: ws, ts, us, h => by
    have hv := (List.cons.inj h).2
    rw [List.append_eq, List.append_eq, List.append_assoc, List.append_assoc] at hv
    obtain ⟨rfl, hvs⟩ := words_inj v w _ _ hv
    obtain ⟨rfl, hts⟩ := itemWords_inj vs ws ts us hvs
    exact ⟨rfl, hts⟩

theorem innerFields_inj : ∀ (fs gs : List (String × Json)) (ts us : List Token),
    innerFields fs ++ ts = innerFields gs ++ us → fs = gs ∧ ts = us
  | [], [], _, _, h => ⟨rfl, (List.cons.inj h).2⟩
  | [], _ :: _, _, _, h => nomatch h
  | _ :: _, [], _, _, h => nomatch h
  | (k, v) :: fs, (k', w) :: gs, ts, us, h => by
    obtain ⟨rfl, hv⟩ := key_inj h
    obtain ⟨rfl, hfs⟩ := words_inj v w _ _ hv
    obtain ⟨rfl, hts⟩ := fieldWords_inj fs gs ts us hfs
    exact ⟨rfl, hts⟩

theorem fieldWords_inj : ∀ (fs gs : List (String × Json)) (ts us : List Token),
    fieldWords fs ++ ts = fieldWords gs ++ us → fs = gs ∧ ts = us
  | [], [], _, _, h => ⟨rfl, (List.cons.inj h).2⟩
  | [], _ :: _, _, _, h => nomatch h
  | _ :: _, [], _, _, h => nomatch h
  | (k, v) :: fs, (k', w) :: gs, ts, us, h => by
    obtain ⟨rfl, hv⟩ := key_inj (List.cons.inj h).2
    obtain ⟨rfl, hfs⟩ := words_inj v w _ _ hv
    obtain ⟨rfl, hts⟩ := fieldWords_inj fs gs ts us hfs
    exact ⟨rfl, hts⟩

end

theorem words_injective : Function.Injective words := fun v w h =>
  (words_inj v w [] [] (congrArg (· ++ []) h)).1

/-- No text spells two values. -/
theorem spelled_unique {s : List Char} {v w : Json} (hv : Token.ofText s = some v.words)
    (hw : Token.ofText s = some w.words) : v = w :=
  words_injective (Option.some.inj (hv.symm.trans hw))

end Relocate.Json
