import Mathlib.Data.List.Basic
import Mathlib.Logic.Relation
import Mathlib.Order.WellFounded
import Relocate.Project.Place
import Relocate.Proofs.Files.Canonical
import Relocate.Proofs.Text.Utf8Sound

namespace Relocate

open Relocate.Path (IsName)
open Utf8 (Bytes)

/-- The longest part of `names` from the front that leads to something, where it leads, and the rest,
which leads nowhere. -/
structure FileSystem.Reached (fs : FileSystem) (names front rest here : Location) : Prop where
  split : names = front ++ rest
  leads : fs.reaches front = some here
  longest : ∀ more left, rest = more ++ left → more ≠ [] → fs.reaches (front ++ more) = none

namespace FileSystem

variable {fs : FileSystem}

namespace Reached

variable {names front rest here front' rest' here' : Location}

theorem le_of_reached (h : fs.Reached names front rest here)
    (h' : fs.Reached names front' rest' here') : front'.length ≤ front.length := by
  refine Nat.le_of_not_lt fun hlt => ?_
  -- A longer part would go on with names that are said to lead nowhere.
  obtain ⟨more, hm⟩ : front <+: front' := by
    refine List.prefix_of_prefix_length_le ⟨rest, h.split.symm⟩ ⟨rest', h'.split.symm⟩ (by omega)
  have hr : rest = more ++ rest' := by
    have hs := h.split.symm.trans h'.split
    rw [← hm, List.append_assoc] at hs
    exact List.append_cancel_left hs
  have hne : more ≠ [] := by
    rintro rfl
    rw [← hm, List.append_nil] at hlt
    omega
  have hn := h.longest more rest' hr hne
  rw [hm, h'.leads] at hn
  cases hn

theorem unique (h : fs.Reached names front rest here)
    (h' : fs.Reached names front' rest' here') : rest' = rest ∧ here' = here := by
  have hl : front'.length = front.length := Nat.le_antisymm (h.le_of_reached h') (h'.le_of_reached h)
  obtain ⟨hf, hr⟩ := List.append_inj (h'.split.symm.trans h.split) hl
  have hh := h.leads
  rw [← hf, h'.leads] at hh
  exact ⟨hr, Option.some.inj hh⟩

end Reached

theorem reached_whole {l here : Location} (h : fs.reaches l = some here) :
    fs.Reached l l [] here := by
  refine ⟨(List.append_nil l).symm, h, fun more left hl hne => ?_⟩
  exact absurd (List.append_eq_nil_iff.mp hl.symm).1 hne

inductive Recedes (fs : FileSystem) : Location × Location → Location × Location → Prop
  | turn {front : Location} {name : Bytes} {missing : Location}
    (h : fs.reaches (front ++ [name]) = none) :
    Recedes fs (front ++ [name], missing) (front, name :: missing)

/-- What the search for `names` keeps: none of them is lost, and all longer parts lead nowhere. -/
structure Seeks (fs : FileSystem) (names : Location) (s : Location × Location) : Prop where
  split : names = s.1 ++ s.2
  longer : ∀ more left, s.2 = more ++ left → more ≠ [] → fs.reaches (s.1 ++ more) = none

section

variable {names : Location} {s t : Location × Location}

theorem recedes_wellFounded (fs : FileSystem) : WellFounded fun t s => fs.Recedes s t := by
  refine Subrelation.wf (fun h => ?_) (measure fun s : Location × Location => s.1.length).wf
  cases h with
  | turn h => simp [WellFoundedRelation.rel, InvImage]

theorem seeks_start (fs : FileSystem) (names : Location) : fs.Seeks names (names, []) := by
  refine ⟨(List.append_nil names).symm, fun more left hl hne => ?_⟩
  exact absurd (List.append_eq_nil_iff.mp hl.symm).1 hne

theorem Seeks.turn (h : fs.Seeks names s) (hs : fs.Recedes s t) : fs.Seeks names t := by
  obtain ⟨hsplit, hlonger⟩ := h
  cases hs with
  | @turn front name missing hn =>
    refine ⟨hsplit.trans (List.append_cons front name missing).symm, fun more left hl hne => ?_⟩
    cases more with
    | nil => exact absurd rfl hne
    | cons first more =>
      obtain ⟨rfl, ht⟩ := List.cons.inj hl
      rw [List.append_cons]
      by_cases hmore : more = []
      · rw [hmore, List.append_nil]
        exact hn
      · exact hlonger more left ht hmore

theorem Seeks.run (h : fs.Seeks names s) (hr : Relation.ReflTransGen fs.Recedes s t) :
    fs.Seeks names t := by
  induction hr with
  | refl => exact h
  | tail _ hs ih => exact ih.turn hs

theorem Seeks.reached (h : fs.Seeks names s) (hs : ∀ t, ¬ fs.Recedes s t) :
    ∃ here, fs.Reached names s.1 s.2 here := by
  obtain ⟨front, rest⟩ := s
  cases hr : fs.reaches front with
  | some here => exact ⟨here, h.split, hr, h.longer⟩
  | none =>
    obtain rfl | ⟨up, name, rfl⟩ := List.eq_nil_or_concat' front
    · -- The root always leads to itself.
      rw [reaches_canonical .root (by decide) (by decide)] at hr
      cases hr
    · exact absurd (.turn hr) (hs (up, name :: rest))

/-- The search that begins with all names ends at their longest part that leads to something. -/
theorem search_ends (fs : FileSystem) (names : Location) :
    ∃ front rest here, Relation.ReflTransGen fs.Recedes (names, []) (front, rest) ∧
      (∀ t, ¬ fs.Recedes (front, rest) t) ∧ fs.Reached names front rest here := by
  obtain ⟨⟨front, rest⟩, hrun, hend⟩ := (recedes_wellFounded fs).has_min
    {t | Relation.ReflTransGen fs.Recedes (names, []) t} ⟨_, .refl⟩
  have hstop : ∀ t, ¬ fs.Recedes (front, rest) t := fun t ht => hend t (hrun.tail ht) ht
  obtain ⟨here, hreach⟩ := ((seeks_start fs names).run hrun).reached hstop
  exact ⟨front, rest, here, hrun, hstop, hreach⟩

end

end FileSystem

namespace Place

open FileSystem

variable {fs : FileSystem} {folder base : Location} {path : Bytes}

section

variable {s t : Location × Location}

theorem reachable_turn (h : fs.Recedes s t) :
    reachable fs s.2 s.1.reverse = reachable fs t.2 t.1.reverse := by
  cases h with
  | @turn front name missing h =>
    rw [List.reverse_concat, reachable, ← List.reverse_concat, List.reverse_reverse, h]

theorem reachable_run (h : Relation.ReflTransGen fs.Recedes s t) :
    reachable fs s.2 s.1.reverse = reachable fs t.2 t.1.reverse := by
  induction h with
  | refl => rfl
  | tail _ hs ih => exact ih.trans (reachable_turn hs)

theorem reachable_leads {front here : Location} (missing : Location)
    (h : fs.reaches front = some here) :
    reachable fs missing front.reverse = (fs.locate [] here.written).map (· ++ missing) := by
  obtain rfl | ⟨up, name, rfl⟩ := List.eq_nil_or_concat' front
  · have hroot : fs.locate [] (Location.written []) = .ok [] :=
      locate_canonical .root (by decide) (by decide) []
    obtain rfl := Except.ok.inj (hroot.symm.trans (reaches_eq_some.mp h))
    rw [hroot]
    rfl
  · rw [List.reverse_concat, reachable, ← List.reverse_concat, List.reverse_reverse, h,
      canonicalized_of_reaches h]

end

theorem reachable_reached (fs : FileSystem) (names : Location) :
    ∃ front rest here, fs.Reached names front rest here ∧
      reachable fs [] names.reverse = (fs.locate [] here.written).map (· ++ rest) := by
  obtain ⟨front, rest, here, hrun, -, hreach⟩ := search_ends fs names
  exact ⟨front, rest, here, hreach, (reachable_run hrun).trans (reachable_leads rest hreach.leads)⟩

theorem below?_eq_some {root parts rest : List Path.Part} :
    below? root parts = some rest ↔ parts = root ++ rest := by
  induction root generalizing parts with
  | nil => simp [below?, eq_comm]
  | cons r root ih =>
    cases parts with
    | nil => simp [below?]
    | cons p parts =>
      by_cases hr : r = p
      · simp [below?, hr, ih]
      · simp [below?, hr, Ne.symm hr]

theorem below?_locationParts {l : Location} (hb : ∀ name ∈ base, IsName name)
    {rest : List Path.Part} :
    below? (Path.parts base.written) (Path.locationParts l) = some rest ↔
      ∃ names, l = base ++ names ∧ rest = names.map .name := by
  rw [below?_eq_some, Path.parts_written hb, Path.locationParts, Path.locationParts, List.cons_append,
    List.cons.injEq, eq_self, true_and]
  constructor
  · intro h
    obtain ⟨front, names, rfl, hf, rfl⟩ := List.map_eq_append_iff.mp h
    have hf' : front = base := (List.map_inj_right fun _ _ => Path.Part.name.inj).mp hf
    exact ⟨names, by rw [hf'], rfl⟩
  · rintro ⟨names, rfl, rfl⟩
    exact List.map_append

theorem names_of_parts (names : Location) :
    (names.map Path.Part.name).map Path.Part.bytes = names := by
  rw [List.map_map]
  exact List.map_id names

theorem mapM_text?_eq_some {names : Location} {texts : List String} :
    names.mapM Utf8.text? = some texts ↔ names = texts.map Utf8.encode := by
  induction names generalizing texts with
  | nil => simp [eq_comm]
  | cons name names ih =>
    rw [List.mapM_cons]
    cases texts <;> simp [Option.bind_eq_some_iff, ih, Utf8.text?_eq_some_iff, @eq_comm _ name]

theorem spelled_eq_ok {names : Location} {s : String} :
    spelled names = .ok s ↔
      ∃ texts : List String, names = texts.map Utf8.encode ∧ s = Text.joined '/' texts := by
  unfold spelled
  cases h : names.mapM Utf8.text? with
  | none =>
    refine iff_of_false nofun ?_
    rintro ⟨texts, ht, -⟩
    rw [mapM_text?_eq_some.mpr ht] at h
    cases h
  | some texts =>
    obtain rfl := mapM_text?_eq_some.mp h
    constructor
    · intro hs
      exact ⟨texts, rfl, (Except.ok.inj hs).symm⟩
    · rintro ⟨texts', ht, rfl⟩
      rw [mapM_text?_eq_some.mpr ht] at h
      rw [Option.some.inj h]

theorem encode_joined (texts : List String) :
    Utf8.encode (Text.joined '/' texts) = Text.joinWith Path.slash (texts.map Utf8.encode) := by
  have hslash : String.utf8EncodeChar '/' = [Path.slash] := by decide
  rw [Text.joined, Utf8.encode, String.toList_ofList]
  induction texts with
  | nil => rfl
  | cons t texts ih =>
    cases texts with
    | nil => rfl
    | cons next texts =>
      rw [List.map_cons, List.map_cons] at ih ⊢
      rw [List.map_cons, List.map_cons, Text.joinWith, List.flatMap_append, List.flatMap_cons, ih,
        hslash, Text.joinWith]
      rfl

theorem encode_spelled {names : Location} {s : String} (h : spelled names = .ok s) :
    Utf8.encode s = Text.joinWith Path.slash names := by
  obtain ⟨texts, rfl, rfl⟩ := spelled_eq_ok.mp h
  exact encode_joined texts

/-- How a path comes to a place with these names below the root: it leads there, or it leads nowhere
and is taken without `.` and `..` as far as that leads to something. -/
inductive Resolves (fs : FileSystem) (folder base : Location) (path : Bytes) :
    Kind → Location → Place → Prop
  | found {hint : Kind} {names : Location} {s : String}
    (h : fs.canonicalized folder (Path.join folder.written path) = .ok (base ++ names))
    (hs : spelled names = .ok s) :
    Resolves fs folder base path hint names
      ⟨s, if fs.isFolderAt (base ++ names) then .folder else .file, true⟩
  | missing {names front rest here : Location} {s : String}
    (h : fs.exists? folder (Path.join folder.written path) = false)
    (hr : fs.Reached (Path.lexical folder path) front rest here) (hw : fs.reaches here = some here)
    (hl : base ++ names = here ++ rest) (hs : spelled names = .ok s) :
    Resolves fs folder base path .folder names ⟨s, .folder, false⟩

theorem names_lexical (h : ∀ name ∈ folder, IsName name) (path : Bytes) :
    ∀ name ∈ Path.lexical folder path, IsName name := by
  have hs : ∀ (steps : List Path.Step) (here : Location), (∀ name ∈ here, IsName name) →
      (∀ name, .down name ∈ steps → IsName name) →
        ∀ name ∈ steps.foldl Path.lexicalStep here, IsName name := by
    intro steps
    induction steps with
    | nil => exact fun here hh _ => hh
    | cons step steps ih =>
      intro here hh hn
      refine ih _ ?_ fun name hm => hn name (List.mem_cons_of_mem _ hm)
      cases step with
      | stay => exact hh
      | up => exact fun name hm => hh name ((List.dropLast_subset here) hm)
      | down name =>
        intro s hm
        obtain hm | hm := List.mem_append.mp hm
        · exact hh s hm
        · obtain rfl := List.mem_singleton.mp hm
          exact hn s List.mem_cons_self
  exact hs _ _ (isName_of_start h path) fun _ hm => Path.isName_of_down hm

theorem ok_of_map {α β : Type} {x : Except SystemError α} {f : α → β} {b : β}
    (h : (x.mapError Refusal.unnamed).map f = .ok b) : ∃ a, x = .ok a ∧ f a = b := by
  cases x with
  | error e => cases h
  | ok a => exact ⟨a, rfl, Except.ok.inj h⟩

section

variable {hint : Kind}

theorem lookUp_found {l : Location} (h : fs.locate folder (Path.join folder.written path) = .ok l) :
    lookUp fs folder path hint =
      ((fs.canonicalized folder (Path.join folder.written path)).mapError .unnamed).map fun named =>
        (named, if fs.isFolderAt l then .folder else .file, true) := by
  unfold lookUp
  rw [h]
  cases fs.canonicalized folder (Path.join folder.written path) <;> rfl

theorem lookUp_missing_file (h : fs.exists? folder (Path.join folder.written path) = false) :
    lookUp fs folder path .file = .error (.missing path) := by
  obtain ⟨e, he⟩ := locate_of_not_exists h
  unfold lookUp
  rw [he]

theorem lookUp_missing_folder (h : fs.exists? folder (Path.join folder.written path) = false) :
    lookUp fs folder path .folder =
      ((reachable fs [] (Path.lexical folder path).reverse).mapError .unnamed).map fun l =>
        (l, .folder, false) := by
  obtain ⟨e, he⟩ := locate_of_not_exists h
  unfold lookUp
  rw [he]
  cases reachable fs [] (Path.lexical folder path).reverse <;> rfl

theorem resolve_inner (hb : ∀ name ∈ base, IsName name) {names : Location} {kind : Kind}
    {onDisk : Bool} (h : lookUp fs folder path hint = .ok (base ++ names, kind, onDisk)) :
    resolve fs folder base.written path hint = (spelled names).map fun s => ⟨s, kind, onDisk⟩ := by
  have hl := (below?_locationParts hb).mpr ⟨names, rfl, rfl⟩
  rw [resolve, h]
  dsimp only
  rw [hl]
  dsimp only
  rw [names_of_parts]

theorem resolve_outer (hb : ∀ name ∈ base, IsName name) {l : Location} {kind : Kind} {onDisk : Bool}
    (h : lookUp fs folder path hint = .ok (l, kind, onDisk)) (hl : ¬ base <+: l) :
    resolve fs folder base.written path hint = .error (.outside path base.written) := by
  rw [resolve, h]
  dsimp only
  cases hr : below? (Path.parts base.written) (Path.locationParts l) with
  | none => rfl
  | some rest =>
    obtain ⟨names, rfl, -⟩ := (below?_locationParts hb).mp hr
    exact absurd (List.prefix_append base names) hl

theorem resolve_eq_ok {place : Place} (hb : ∀ name ∈ base, IsName name) :
    resolve fs folder base.written path hint = .ok place ↔ ∃ names kind onDisk s,
      lookUp fs folder path hint = .ok (base ++ names, kind, onDisk) ∧ spelled names = .ok s ∧
        place = ⟨s, kind, onDisk⟩ := by
  constructor
  · intro h
    cases hf : lookUp fs folder path hint with
    | error refusal =>
      rw [resolve, hf] at h
      cases h
    | ok found =>
      obtain ⟨l, kind, onDisk⟩ := found
      by_cases hl : base <+: l
      · obtain ⟨names, rfl⟩ := hl
        rw [resolve_inner hb hf] at h
        cases hs : spelled names with
        | error refusal =>
          rw [hs] at h
          cases h
        | ok s =>
          rw [hs] at h
          exact ⟨names, kind, onDisk, s, rfl, hs, (Except.ok.inj h).symm⟩
      · rw [resolve_outer hb hf hl] at h
        cases h
  · rintro ⟨names, kind, onDisk, s, hf, hs, rfl⟩
    rw [resolve_inner hb hf, hs]
    rfl

/-- How a path is resolved. -/
theorem resolve_ok {place : Place} (hf : fs.Canonical folder)
    (hb : fs.Canonical base) (h : resolve fs folder base.written path hint = .ok place) :
    ∃ names, (∀ name ∈ names, IsName name) ∧ Resolves fs folder base path hint names place := by
  obtain ⟨names, kind, onDisk, s, hl, hs, rfl⟩ := (resolve_eq_ok hb.names).mp h
  cases hx : fs.locate folder (Path.join folder.written path) with
  | ok l =>
    rw [lookUp_found hx] at hl
    obtain ⟨named, hc, hn⟩ := ok_of_map hl
    obtain ⟨rfl, rfl, rfl⟩ : named = base ++ names ∧ _ = kind ∧ true = onDisk := by simpa using hn
    obtain ⟨hx', -⟩ := (canonicalized_eq_ok hf).mp hc
    obtain rfl := Except.ok.inj (hx.symm.trans hx')
    have hcan : fs.Canonical (base ++ names) := canonical_of_locate hf hx
    exact ⟨names, fun name hm => hcan.names name (List.mem_append_right base hm), .found hc hs⟩
  | error e =>
    have hx : fs.exists? folder (Path.join folder.written path) = false := by
      rw [exists?, hx]
      rfl
    cases hint with
    | file =>
      rw [lookUp_missing_file hx] at hl
      cases hl
    | folder =>
      obtain ⟨front, rest, here, hreach, hn⟩ := reachable_reached fs (Path.lexical folder path)
      have hh := canonical_of_reaches hreach.leads
      rw [lookUp_missing_folder hx, hn] at hl
      obtain ⟨l, hm, hl⟩ := ok_of_map hl
      obtain ⟨rfl, rfl, rfl⟩ : l = base ++ names ∧ _ = kind ∧ false = onDisk := by simpa using hl
      cases hw : fs.locate [] (Location.written here) with
      | error e =>
        rw [hw] at hm
        cases hm
      | ok here' =>
        obtain rfl := locate_written hh hw
        rw [hw] at hm
        have hsplit : base ++ names = here' ++ rest := (Except.ok.inj hm).symm
        refine ⟨names, fun name hm => ?_, .missing hx hreach ?_ hsplit hs⟩
        · have hm' : name ∈ here' ++ rest := hsplit ▸ List.mem_append_right base hm
          obtain hm' | hm' := List.mem_append.mp hm'
          · exact hh.names name hm'
          · refine names_lexical hf.names path name ?_
            rw [hreach.split]
            exact List.mem_append_right front hm'
        · exact reaches_eq_some.mpr hw

theorem resolve_of_resolves {names : Location} {place : Place} (hf : fs.Canonical folder)
    (hb : fs.Canonical base) (h : Resolves fs folder base path hint names place) :
    resolve fs folder base.written path hint = .ok place := by
  refine (resolve_eq_ok hb.names).mpr ?_
  cases h with
  | found h hs =>
    refine ⟨names, _, _, _, ?_, hs, rfl⟩
    rw [lookUp_found ((canonicalized_eq_ok hf).mp h).1, h]
    rfl
  | @missing _ front rest here _ h hr hw hl hs =>
    obtain ⟨front', rest', here', hr', hn⟩ := reachable_reached fs (Path.lexical folder path)
    obtain ⟨rfl, rfl⟩ := hr.unique hr'
    refine ⟨names, _, _, _, ?_, hs, rfl⟩
    rw [lookUp_missing_folder h, hn, reaches_eq_some.mp hw, hl]
    rfl

end

end Place

end Relocate
