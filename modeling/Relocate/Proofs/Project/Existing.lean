import Relocate.Proofs.Project.Containment

namespace Relocate

open Relocate.Path (IsName)
open Utf8 (Bytes)

namespace FileSystem

variable {fs : FileSystem} {folder base : Location} {names : Location}

theorem isFolder_root (hb : fs.Canonical base) (hd : fs.isFolderAt base = true)
    (hz : (Path.join base.written []).contains 0 = false)
    (hs : (Path.join base.written []).length ≤ maxPath) (folder : Location) :
    fs.isFolder folder (Path.join base.written []) = true := by
  have hstay : Path.steps [] = [.stay] := rfl
  have hl : fs.locate folder (Path.join base.written []) = .ok base := by
    rw [locate_join hb rfl hz hs, hstay, walk_stay (entry_of_folderAt hd), walk]
  rw [isFolder, hl]
  exact hd

theorem isFolder_of_locate_join_nothing {l : Location} (hb : fs.Canonical base)
    (h : fs.locate folder (Path.join base.written []) = .ok l) :
    fs.isFolder folder (Path.join base.written []) = true := by
  obtain ⟨rfl, hd⟩ := locate_join_nothing hb h
  rw [isFolder, h]
  exact hd

theorem canonicalized_join {folder' : Location} (hf : fs.Canonical folder') (hb : fs.Canonical base)
    (hr : names = [] → fs.isFolder folder (Path.join base.written []) = true)
    (hn : ∀ name ∈ names, IsName name) (h : fs.reaches (base ++ names) = some (base ++ names)) :
    fs.canonicalized folder' (Path.join base.written (Text.joinWith Path.slash names)) =
      .ok (base ++ names) := by
  refine (canonicalized_eq_ok hf).mpr ⟨?_, h⟩
  by_cases he : names = []
  · have hj : Text.joinWith Path.slash ([] : Location) = [] := rfl
    rw [he, List.append_nil, hj,
      locate_of_isAbsolute (Path.isAbsolute_join_written base []) folder' folder]
    obtain ⟨l, hl⟩ := locate_of_isFolder (hr he)
    rw [hl, (locate_join_nothing hb hl).1]
  · rw [Path.join_written_joined hb.names hn he]
    exact locate_of_reaches h folder'

end FileSystem

namespace Place

open FileSystem

variable {fs : FileSystem} {folder base names : Location} {path : Bytes} {hint : Kind} {s : String}

/-- The place of what there is at these names below the root, of which `s` is the path. -/
def found (fs : FileSystem) (base names : Location) (s : String) : Place :=
  ⟨s, if fs.isFolderAt (base ++ names) then .folder else .file, true⟩

theorem found_inj {names' : Location} {s' : String} (hn : ∀ name ∈ names, IsName name)
    (hn' : ∀ name ∈ names', IsName name) (hs : spelled names = .ok s) (hs' : spelled names' = .ok s')
    (h : found fs base names s = found fs base names' s') : names = names' := by
  have hp := congrArg Place.names h
  rwa [found, found, names_spelled hn hs, names_spelled hn' hs'] at hp

theorem found_kind (names : Location) (s : String) :
    (found fs base names s).kind = .folder ↔ fs.isFolderAt (base ++ names) = true := by
  unfold found
  cases fs.isFolderAt (base ++ names) <;> simp

theorem lookUp_canonicalized {l : Location} (hf : fs.Canonical folder)
    (h : fs.canonicalized folder (Path.join folder.written path) = .ok l) (hint : Kind) :
    lookUp fs folder path hint = .ok (l, if fs.isFolderAt l then .folder else .file, true) := by
  rw [lookUp_found ((canonicalized_eq_ok hf).mp h).1, h]
  rfl

theorem resolve_below (hf : fs.Canonical folder) (hb : fs.Canonical base)
    (h : fs.canonicalized folder (Path.join folder.written path) = .ok (base ++ names))
    (hs : spelled names = .ok s) (hint : Kind) :
    resolve fs folder base.written path hint = .ok (found fs base names s) :=
  resolve_of_resolves hf hb (.found h hs)

theorem resolve_outside {l : Location} (hf : fs.Canonical folder) (hb : ∀ name ∈ base, IsName name)
    (h : fs.canonicalized folder (Path.join folder.written path) = .ok l) (hl : ¬ base <+: l) :
    resolve fs folder base.written path hint = .error (.outside path base.written) :=
  resolve_outer hb (lookUp_canonicalized hf h hint) hl

theorem resolve_not_text (hf : fs.Canonical folder) (hb : ∀ name ∈ base, IsName name)
    (h : fs.canonicalized folder (Path.join folder.written path) = .ok (base ++ names))
    (ht : ¬ ∃ texts : List String, names = texts.map Utf8.encode) :
    resolve fs folder base.written path hint =
      .error (.notText (Text.joinWith Path.slash names)) := by
  rw [resolve_inner hb (lookUp_canonicalized hf h hint), spelled]
  cases hm : names.mapM Utf8.text? with
  | none => rfl
  | some texts => exact absurd ⟨texts, mapM_text?_eq_some.mp hm⟩ ht

theorem resolve_unnamed {l : Location} {e : SystemError}
    (hx : fs.locate folder (Path.join folder.written path) = .ok l)
    (h : fs.canonicalized folder (Path.join folder.written path) = .error e) :
    resolve fs folder base.written path hint = .error (.unnamed e) := by
  have hlook := @lookUp_found fs folder path hint l hx
  rw [h] at hlook
  unfold resolve
  rw [hlook]
  rfl

theorem Resolves.onDisk_eq {place : Place} (hf : fs.Canonical folder)
    (h : Resolves fs folder base path hint names place) :
    place.onDisk = fs.exists? folder (Path.join folder.written path) := by
  cases h with
  | found hc => rw [exists?, ((canonicalized_eq_ok hf).mp hc).1]; rfl
  | missing hm => rw [hm]

theorem resolve_existing_ok {place : Place} (hf : fs.Canonical folder) (hb : fs.Canonical base)
    (hx : fs.exists? folder (Path.join folder.written path) = true)
    (h : resolve fs folder base.written path hint = .ok place) :
    ∃ names s, (∀ name ∈ names, IsName name) ∧
      fs.canonicalized folder (Path.join folder.written path) = .ok (base ++ names) ∧
      spelled names = .ok s ∧ place = found fs base names s := by
  obtain ⟨names, hn, hr⟩ := resolve_ok hf hb h
  cases hr with
  | found hc hs => exact ⟨names, _, hn, hc, hs, rfl⟩
  | missing hm =>
    rw [hm] at hx
    cases hx

/-- A place that was found is found again under its own path, the root only where it is a folder. -/
theorem resolve_again_iff {place : Place} (hf : fs.Canonical folder) (hb : fs.Canonical base)
    (hx : fs.exists? folder (Path.join folder.written path) = true)
    (h : resolve fs folder base.written path hint = .ok place) :
    (∀ hint', resolve fs folder base.written (Path.join base.written place.path) hint' = .ok place) ↔
      (place.path = "" → fs.isFolder folder (Path.join base.written []) = true) := by
  obtain ⟨names, s, hn, hc, hs, rfl⟩ := resolve_existing_ok hf hb hx h
  constructor
  · intro hagain hp
    dsimp only [found] at hp
    subst hp
    obtain ⟨_, -, hr⟩ := resolve_ok hf hb (hagain hint)
    have hx' := (hr.onDisk_eq hf).symm
    rw [Path.join_absolute (Path.isAbsolute_join_written _ _)] at hx'
    obtain ⟨l, hl⟩ := locate_of_exists hx'
    exact isFolder_of_locate_join_nothing hb hl
  · intro hr hint'
    refine resolve_below hf hb ?_ hs hint'
    have hroot : names = [] → fs.isFolder folder (Path.join base.written []) = true := by
      rintro rfl
      exact hr (Except.ok.inj hs).symm
    rw [Path.join_absolute (Path.isAbsolute_join_written _ _), found, encode_spelled hs]
    exact canonicalized_join hf hb hroot hn ((canonicalized_eq_ok hf).mp hc).2

/-- Resolving a path that leads to something. There is a place just if what it names without links
is the root or stands below it, name by name, and all these names are text; with any hint, it is the
place of what is there. A place found is found again under its own path, the root if it is a folder,
and two paths have one place just if they name the same thing. -/
theorem resolve_existing (hf : fs.Canonical folder) (hb : fs.Canonical base)
    (hx : fs.exists? folder (Path.join folder.written path) = true) (hint : Kind) :
    ((∃ place, resolve fs folder base.written path hint = .ok place) ↔
      ∃ texts : List String, fs.canonicalized folder (Path.join folder.written path) =
        .ok (base ++ texts.map Utf8.encode)) ∧
    (∀ l, fs.canonicalized folder (Path.join folder.written path) = .ok l → ¬ base <+: l →
      (resolve fs folder base.written path hint).mapError Refusal.failure =
        .error (.invalidArguments (Utf8.textLossy path ++ " is outside the project root " ++
          Utf8.textLossy base.written))) ∧
    (∀ names, fs.canonicalized folder (Path.join folder.written path) = .ok (base ++ names) →
      (¬ ∃ texts : List String, names = texts.map Utf8.encode) →
      (resolve fs folder base.written path hint).mapError Refusal.failure =
        .error (.invalidArguments ("path is not valid UTF-8: " ++
          Utf8.textLossy (Text.joinWith Path.slash names)))) ∧
    (∀ e, fs.canonicalized folder (Path.join folder.written path) = .error e →
      (resolve fs folder base.written path hint).mapError Refusal.failure = .error (.io e)) ∧
    ∀ place, resolve fs folder base.written path hint = .ok place →
      (∀ hint', resolve fs folder base.written path hint' = .ok place) ∧
      (∃ texts : List String, fs.canonicalized folder (Path.join folder.written path) =
          .ok (base ++ texts.map Utf8.encode) ∧
        (∀ text ∈ texts, IsName text) ∧ place.path = Text.joined '/' texts) ∧
      place.onDisk = true ∧
      (place.kind = .folder ↔ fs.isFolder folder (Path.join folder.written path) = true) ∧
      ((∀ hint', resolve fs folder base.written (Path.join base.written place.path) hint' =
          .ok place) ↔
        (place.path = "" → fs.isFolder folder (Path.join base.written []) = true)) ∧
      ∀ path' hint' place', fs.exists? folder (Path.join folder.written path') = true →
        resolve fs folder base.written path' hint' = .ok place' →
        (place = place' ↔ fs.canonicalized folder (Path.join folder.written path) =
          fs.canonicalized folder (Path.join folder.written path')) := by
  obtain ⟨l, hl⟩ := locate_of_exists hx
  refine ⟨⟨?_, ?_⟩, fun l' hc hn => ?_, fun names hc ht => ?_, fun e he => ?_, fun place h => ?_⟩
  · rintro ⟨place, h⟩
    obtain ⟨names, s, -, hc, hs, -⟩ := resolve_existing_ok hf hb hx h
    obtain ⟨texts, rfl, -⟩ := spelled_eq_ok.mp hs
    exact ⟨texts, hc⟩
  · rintro ⟨texts, hc⟩
    exact ⟨_, resolve_below hf hb hc (spelled_eq_ok.mpr ⟨texts, rfl, rfl⟩) hint⟩
  · rw [resolve_outside hf hb.names hc hn]
    rfl
  · rw [resolve_not_text hf hb.names hc ht]
    rfl
  · rw [resolve_unnamed hl he]
    rfl
  · refine ⟨?_, ?_, ?_, ?_, resolve_again_iff hf hb hx h, fun path' hint' place' hx' h' => ?_⟩
    all_goals obtain ⟨names, s, hn, hc, hs, rfl⟩ := resolve_existing_ok hf hb hx h
    · exact resolve_below hf hb hc hs
    · obtain ⟨texts, rfl, rfl⟩ := spelled_eq_ok.mp hs
      exact ⟨texts, hc, fun text hm => hn _ (List.mem_map_of_mem hm), rfl⟩
    · rfl
    · rw [found_kind, FileSystem.isFolder, ((canonicalized_eq_ok hf).mp hc).1]
    · obtain ⟨names', s', hn', hc', hs', rfl⟩ := resolve_existing_ok hf hb hx' h'
      rw [hc, hc']
      constructor
      · intro he
        rw [found_inj hn hn' hs hs' he]
      · intro he
        obtain rfl := List.append_cancel_left (Except.ok.inj he)
        rw [Except.ok.inj (hs.symm.trans hs')]

section

def linkedFiles : FileSystem :=
  ⟨[(["proj"], .folder), (["proj", "pkg"], .folder), (["proj", "pkg", "mod.py"], .file [] false),
    (["proj", "ln"], .link "pkg"), (["project"], .folder), (["project", "x.py"], .file [] false)]⟩

theorem linkedFiles_canonical : linkedFiles.Canonical ["proj"] :=
  .child .root rfl (by constructor <;> decide) (by decide) rfl (by simp)

theorem linkedFiles_canonical_mod : linkedFiles.Canonical ["proj", "pkg", "mod.py"] :=
  .child (.child linkedFiles_canonical rfl (by constructor <;> decide) (by decide) rfl (by simp))
    rfl (by constructor <;> decide) (by decide) rfl (by simp)

theorem linkedFiles_canonical_sibling : linkedFiles.Canonical ["project", "x.py"] :=
  .child (.child .root rfl (by constructor <;> decide) (by decide) rfl (by simp))
    rfl (by constructor <;> decide) (by decide) rfl (by simp)

theorem linkedFiles_walk_ln (n : Nat) (rest : List Path.Step) :
    linkedFiles.walk (n + 1) ["proj"] (.down "ln" :: rest) =
      linkedFiles.walk n ["proj", "pkg"] rest := by
  have hl : linkedFiles.walk (n + 1) ["proj"] (.down "ln" :: rest) =
      linkedFiles.walk n ["proj"] (.down "pkg" :: rest) :=
    @walk_link linkedFiles ["proj"] n "ln" "pkg" rest rfl (by decide) rfl
  rw [hl]
  exact walk_down rfl (by decide) rfl (by simp)

theorem linkedFiles_canonicalized : linkedFiles.canonicalized ["proj"]
    (Path.join (Location.written ["proj"]) "ln/../ln/./mod.py") = .ok ["proj", "pkg", "mod.py"] := by
  have hs : Path.steps "ln/../ln/./mod.py" =
      [.down "ln", .up, .down "ln", .stay, .down "mod.py"] := by decide
  have hmod : linkedFiles.walk 38 ["proj", "pkg"] [.down "mod.py"] = .ok ["proj", "pkg", "mod.py"] := by
    rw [walk_down rfl (by decide) rfl (by simp), walk]
    rfl
  refine (canonicalized_eq_ok linkedFiles_canonical).mpr
    ⟨?_, reaches_canonical linkedFiles_canonical_mod (by decide) (by decide)⟩
  rw [locate_join linkedFiles_canonical rfl (by decide) (by decide), hs]
  exact (linkedFiles_walk_ln 39 _).trans ((walk_up rfl).trans
    ((linkedFiles_walk_ln 38 _).trans ((walk_stay rfl).trans hmod)))

theorem linkedFiles_canonicalized_sibling : linkedFiles.canonicalized ["proj"]
    (Path.join (Location.written ["proj"]) "../project/x.py") = .ok ["project", "x.py"] := by
  have hs : Path.steps "../project/x.py" = [.up, .down "project", .down "x.py"] := by decide
  refine (canonicalized_eq_ok linkedFiles_canonical).mpr
    ⟨?_, reaches_canonical linkedFiles_canonical_sibling (by decide) (by decide)⟩
  rw [locate_join linkedFiles_canonical rfl (by decide) (by decide), hs]
  have hw := linkedFiles_canonical_sibling.walk 40 []
  rw [List.append_nil, walk] at hw
  exact (walk_up rfl).trans hw

theorem exists_of_canonicalized {l : Location}
    (h : fs.canonicalized folder (Path.join folder.written path) = .ok l) (hf : fs.Canonical folder) :
    fs.exists? folder (Path.join folder.written path) = true := by
  rw [exists?, ((canonicalized_eq_ok hf).mp h).1]
  rfl

theorem resolve_existing_linked :
    resolve linkedFiles ["proj"] (Location.written ["proj"]) "ln/../ln/./mod.py" .folder =
      .ok ⟨"pkg/mod.py", .file, true⟩ ∧
    resolve linkedFiles ["proj"] (Location.written ["proj"])
      (Path.join (Location.written ["proj"]) "pkg/mod.py") .file = .ok ⟨"pkg/mod.py", .file, true⟩ ∧
    ¬ ∃ place, resolve linkedFiles ["proj"] (Location.written ["proj"]) "../project/x.py" .folder =
      .ok place := by
  have hc := linkedFiles_canonical
  have hin := resolve_existing hc hc (exists_of_canonicalized linkedFiles_canonicalized hc) .folder
  have hout := resolve_existing hc hc
    (exists_of_canonicalized linkedFiles_canonicalized_sibling hc) .folder
  have hplace : resolve linkedFiles ["proj"] (Location.written ["proj"]) "ln/../ln/./mod.py" .folder =
      .ok ⟨"pkg/mod.py", .file, true⟩ :=
    @resolve_below linkedFiles ["proj"] ["proj"] ["pkg", "mod.py"] _ _ hc hc linkedFiles_canonicalized
      (spelled_eq_ok.mpr ⟨["pkg", "mod.py"], rfl, by decide⟩) .folder
  refine ⟨hplace, (hin.2.2.2.2 _ hplace).2.2.2.2.1.mpr nofun .file, fun h => ?_⟩
  obtain ⟨texts, ht⟩ := hout.1.mp h
  rw [linkedFiles_canonicalized_sibling] at ht
  exact absurd (List.cons.inj (Except.ok.inj ht)).1 (by decide)

def oddFiles : FileSystem :=
  ⟨[(["proj"], .folder), (["proj", [0xFF]], .file [] false), (["proj", "ln"], .link [0xFF]),
    (["proj", "f.py"], .file [] false)]⟩

theorem oddFiles_canonical : oddFiles.Canonical ["proj"] :=
  .child .root rfl (by constructor <;> decide) (by decide) rfl (by simp)

theorem oddFiles_canonical_odd : oddFiles.Canonical ["proj", [0xFF]] :=
  .child oddFiles_canonical rfl (by constructor <;> decide) (by decide) rfl (by simp)

theorem oddFiles_canonical_module : oddFiles.Canonical ["proj", "f.py"] :=
  .child oddFiles_canonical rfl (by constructor <;> decide) (by decide) rfl (by simp)

theorem oddFiles_canonicalized_ln : oddFiles.canonicalized ["proj"]
    (Path.join (Location.written ["proj"]) "ln") = .ok ["proj", [0xFF]] := by
  have hs : Path.steps "ln" = [.down "ln"] := by decide
  refine (canonicalized_eq_ok oddFiles_canonical).mpr
    ⟨?_, reaches_canonical oddFiles_canonical_odd (by decide) (by decide)⟩
  rw [locate_join oddFiles_canonical rfl (by decide) (by decide), hs]
  refine (@walk_link oddFiles ["proj"] 39 "ln" [0xFF] [] rfl (by decide) rfl).trans ?_
  have hodd : oddFiles.walk 39 ["proj"] [.down [0xFF]] = .ok ["proj", [0xFF]] := by
    rw [walk_down rfl (by decide) rfl (by simp), walk]
    rfl
  exact hodd

theorem odd_not_text : ¬ ∃ texts : List String, [[0xFF]] = texts.map Utf8.encode := by
  have hodd : Utf8.text? [0xFF] = none := by simp [Utf8.text?, Utf8.decode, Utf8.front, Utf8.lead?]
  rintro ⟨texts, ht⟩
  have hs := mapM_text?_eq_some.mpr ht
  rw [List.mapM_cons, hodd] at hs
  cases hs

theorem oddFiles_resolve_module :
    resolve oddFiles ["proj"] (Location.written ["proj", "f.py"]) "f.py" .folder =
      .ok ⟨"", .file, true⟩ := by
  have hc := oddFiles_canonical
  have hm := oddFiles_canonical_module
  have hj : Path.join (Location.written ["proj"]) "f.py" = Location.written ["proj", "f.py"] := by
    decide
  have hw := reaches_canonical hm (by decide) (by decide)
  have hf : oddFiles.canonicalized ["proj"] (Path.join (Location.written ["proj"]) "f.py") =
      .ok ["proj", "f.py"] := by
    rw [hj]
    exact (canonicalized_eq_ok hc).mpr ⟨locate_of_reaches hw _, hw⟩
  exact @resolve_below oddFiles ["proj"] ["proj", "f.py"] [] _ _ hc hm hf rfl .folder

theorem oddFiles_resolve_again :
    resolve oddFiles ["proj"] (Location.written ["proj", "f.py"])
      (Path.join (Location.written ["proj", "f.py"]) []) .folder = .ok ⟨"", .folder, false⟩ := by
  have hm := oddFiles_canonical_module
  have hx : oddFiles.exists? ["proj"] (Path.join (Location.written ["proj"])
      (Path.join (Location.written ["proj", "f.py"]) [])) = false := by
    have hs : Path.steps [] = [.stay] := rfl
    rw [Path.join_absolute rfl, exists?, locate_join hm rfl (by decide) (by decide), hs,
      walk_not_folder (by decide)]
    rfl
  have hl : Path.lexical ["proj"] (Path.join (Location.written ["proj", "f.py"]) []) =
      (["proj", "f.py"] : Location) := by decide
  have hw := reaches_canonical hm (by decide) (by decide)
  exact resolve_of_resolves oddFiles_canonical hm (.missing hx (hl ▸ reached_whole hw) hw rfl rfl)

/-- A path that is text leads, through a link, below the root and is refused all the same. And a
root that is a file is not found again under its own path. -/
theorem resolve_existing_odd :
    oddFiles.Canonical ["proj"] ∧
      oddFiles.canonicalized ["proj"] (Path.join (Location.written ["proj"]) "ln") =
        .ok ["proj", [0xFF]] ∧
      resolve oddFiles ["proj"] (Location.written ["proj"]) "ln" .file = .error (.notText [0xFF]) ∧
      oddFiles.Canonical ["proj", "f.py"] ∧
      resolve oddFiles ["proj"] (Location.written ["proj", "f.py"]) "f.py" .folder =
        .ok ⟨"", .file, true⟩ ∧
      resolve oddFiles ["proj"] (Location.written ["proj", "f.py"])
        (Path.join (Location.written ["proj", "f.py"]) []) .folder = .ok ⟨"", .folder, false⟩ := by
  have hc := oddFiles_canonical
  exact ⟨hc, oddFiles_canonicalized_ln,
    resolve_not_text hc hc.names oddFiles_canonicalized_ln odd_not_text, oddFiles_canonical_module,
    oddFiles_resolve_module, oddFiles_resolve_again⟩

end

end Place

end Relocate
