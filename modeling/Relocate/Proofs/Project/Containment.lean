import Relocate.Proofs.Project.Resolution

namespace Relocate

open Relocate.Path (IsName)
open Utf8 (Bytes)

namespace FileSystem

variable {fs : FileSystem} {base here : Location} {names rest : Location}

theorem LinkFree.of_canonical (hh : fs.Canonical here) (h : base ++ names = here ++ rest)
    (hl : fs.LinkFree here rest) : fs.LinkFree base names := by
  intro front hp hn target ht
  have hpre : base ++ front <+: here ++ rest := h ▸ (List.prefix_append_right_inj base).mpr hp
  have hne : base ++ front ≠ [] := by simp [hn]
  obtain hb | ⟨more, hm⟩ := List.prefix_or_prefix_of_prefix hpre (List.prefix_append here rest)
  · exact hh.linkFree (base ++ front) hb hne target ht
  · rw [← hm] at hpre ht hne
    by_cases hmore : more = []
    · rw [hmore, List.append_nil] at ht hne
      exact hh.linkFree here List.prefix_rfl hne target ht
    · exact hl more ((List.prefix_append_right_inj here).mp hpre) hmore target ht

end FileSystem

namespace Place

def names (p : Place) : Location := if p.path = "" then [] else Text.splitAt Path.slash p.path

theorem names_spelled {names : Location} (h : ∀ name ∈ names, IsName name) {s : String}
    (hs : spelled names = .ok s) (kind : Kind) (onDisk : Bool) :
    Place.names ⟨s, kind, onDisk⟩ = names := by
  have hbytes := encode_spelled hs
  unfold Place.names
  dsimp only
  split
  · rename_i he
    rw [he] at hbytes
    exact (Classical.byContradiction fun hn => Path.joined_ne_nil h (Ne.symm hn) hbytes.symm)
  · rename_i he
    have hn : names ≠ [] := by
      rintro rfl
      exact he (Except.ok.inj hs).symm
    rw [hbytes, Text.splitAt_joinWith hn fun name hm => (h name hm).no_slash]

/-- The path leads nowhere, and a link is among the names that follow the longest part of it that
does lead to something. -/
def HidesLink (fs : FileSystem) (folder : Location) (path : Bytes) : Prop :=
  fs.exists? folder (Path.join folder.written path) = false ∧ ∃ front rest here,
    fs.Reached (Path.lexical folder path) front rest here ∧ ¬ fs.LinkFree here rest

section

variable {fs : FileSystem} {folder base : Location} {path : Bytes} {hint : Kind} {place : Place}
  {names : Location}

theorem Resolves.names_eq (h : Resolves fs folder base path hint names place)
    (hn : ∀ name ∈ names, IsName name) :
    place.names = names ∧ (place.path : Bytes) = Text.joinWith Path.slash names := by
  cases h with
  | found _ hs => exact ⟨names_spelled hn hs _ _, encode_spelled hs⟩
  | missing _ _ _ _ hs => exact ⟨names_spelled hn hs _ _, encode_spelled hs⟩

theorem Resolves.linkFree_iff (h : Resolves fs folder base path hint names place)
    (hf : fs.Canonical folder) (hb : fs.Canonical base) :
    fs.LinkFree base names ↔ ¬ HidesLink fs folder path := by
  cases h with
  | found h =>
    obtain ⟨hl, -⟩ := (FileSystem.canonicalized_eq_ok hf).mp h
    have hx : fs.exists? folder (Path.join folder.written path) = true := by
      rw [FileSystem.exists?, hl]
      rfl
    have hc : fs.Canonical (base ++ names) := FileSystem.canonical_of_locate hf hl
    refine iff_of_true (.of_canonical .root rfl ?_) fun hl => ?_
    · exact hc.linkFree
    · rw [hl.1] at hx
      cases hx
  | @missing _ front rest here _ h hr hw hl =>
    have hh := FileSystem.canonical_of_reaches hr.leads
    -- The names below the root and those after the part that exists end in the same location.
    constructor
    · rintro hfree ⟨-, front', rest', here', hr', hlink⟩
      obtain ⟨rfl, rfl⟩ := hr.unique hr'
      exact hlink (.of_canonical hb hl.symm hfree)
    · intro hn
      refine .of_canonical hh hl (Classical.byContradiction fun hlink => ?_)
      exact hn ⟨h, front, rest, here, hr, hlink⟩

theorem locate_linkFree {folder' l : Location} (hb : fs.Canonical base)
    (hn : ∀ name ∈ names, IsName name) (hl : fs.LinkFree base names)
    (h : fs.locate folder' (Path.join base.written (Text.joinWith Path.slash names)) = .ok l) :
    l = base ++ names := by
  by_cases he : names = []
  · rw [he] at h ⊢
    rw [(FileSystem.locate_join_nothing hb h).1, List.append_nil]
  · have hw := FileSystem.walk_of_locate_join hb (Path.isAbsolute_joined hn) h
    rw [Path.steps_joined hn, if_neg he] at hw
    exact FileSystem.walk_linkFree hl hw

end

/-- A resolved place is inside the project, whatever is on disk: its path goes down by names alone,
and there is no link on the way below the root, so that what is read, written or made through it
stays there. The one exception is a path that leads nowhere because of a link: the link is taken
for a folder that does not exist yet. -/
theorem resolve_inside {fs : FileSystem} {folder base : Location} {path : Bytes} {hint : Kind}
    {place : Place} (hf : fs.Canonical folder) (hb : fs.Canonical base)
    (h : resolve fs folder base.written path hint = .ok place) :
    (∀ name ∈ place.names, IsName name) ∧
      (fs.LinkFree base place.names ↔ ¬ HidesLink fs folder path) ∧
      (¬ HidesLink fs folder path →
        (∀ folder' l, fs.locate folder' (Path.join base.written place.path) = .ok l →
          l = base ++ place.names) ∧
        (fs.makeFolders base place.names).2 = base ++ place.names) := by
  obtain ⟨names, hn, hr⟩ := resolve_ok hf hb h
  obtain ⟨hnames, hpath⟩ := hr.names_eq hn
  have hl := hr.linkFree_iff hf hb
  rw [hnames, hpath]
  refine ⟨hn, hl, fun hh => ⟨fun folder' l => ?_, ?_⟩⟩
  · exact locate_linkFree hb hn (hl.mpr hh)
  · exact FileSystem.makeFolders_linkFree (hl.mpr hh)

section

def danglingFiles : FileSystem := ⟨[(["proj"], .folder), (["proj", "new"], .link "/out")]⟩

theorem danglingFiles_canonical : danglingFiles.Canonical ["proj"] :=
  .child .root rfl (by constructor <;> decide) (by decide) rfl (by simp)

theorem danglingFiles_locate_new (folder : Location) :
    danglingFiles.locate folder (Location.written ["proj", "new"]) = .error .noSuchEntry := by
  have hl := @FileSystem.locate_written_append danglingFiles ["proj"] ["new"] danglingFiles_canonical
    (List.forall_mem_singleton.mpr (by constructor <;> decide)) (by decide) (by decide) folder
  have hlink : danglingFiles.walk FileSystem.maxLinks ["proj"] [.down "new"] =
      danglingFiles.walk 39 [] [.stay, .down "out"] :=
    @FileSystem.walk_link danglingFiles ["proj"] 39 "new" "/out" [] rfl (by decide) rfl
  have hout : danglingFiles.walk 39 [] [.down "out"] = .error .noSuchEntry :=
    FileSystem.walk_missing rfl (by decide) rfl
  rw [List.map_singleton, hlink, FileSystem.walk_stay_root, hout] at hl
  exact hl

theorem danglingFiles_locate_sub (folder : Location) :
    danglingFiles.locate folder (Location.written ["proj", "sub"]) = .error .noSuchEntry := by
  have hl := @FileSystem.locate_written_append danglingFiles ["proj"] ["sub"] danglingFiles_canonical
    (List.forall_mem_singleton.mpr (by constructor <;> decide)) (by decide) (by decide) folder
  rw [List.map_singleton, FileSystem.walk_missing rfl (by decide) rfl] at hl
  exact hl

theorem danglingFiles_resolves {name : String}
    (hl : Path.lexical ["proj"] name = (["proj", name] : Location))
    (hj : Path.join (Location.written ["proj"]) name = Location.written ["proj", name])
    (h : ∀ folder, danglingFiles.locate folder (Location.written ["proj", name]) = .error .noSuchEntry) :
    Resolves danglingFiles ["proj"] ["proj"] name .folder [name]
      ⟨name, .folder, false⟩ := by
  have hx : danglingFiles.exists? ["proj"] (Path.join (Location.written ["proj"]) name) = false := by
    rw [FileSystem.exists?, hj, h]
    rfl
  have hw := FileSystem.reaches_canonical danglingFiles_canonical (by decide) (by decide)
  have hr : danglingFiles.Reached (Path.lexical ["proj"] name) ["proj"] [name] ["proj"] := by
    refine ⟨hl, hw, fun more left hs hn => ?_⟩
    obtain ⟨rfl, -⟩ := (List.singleton_eq_append_iff.mp hs).resolve_left fun h => hn h.1
    rw [FileSystem.reaches, List.singleton_append, h]
    rfl
  exact .missing hx hr hw rfl (spelled_eq_ok.mpr ⟨[name], rfl, String.ofList_toList.symm⟩)

theorem resolve_inside_sub :
    Place.names ⟨"sub", .folder, false⟩ = (["sub"] : Location) ∧
      danglingFiles.LinkFree ["proj"] ["sub"] ∧ ¬ HidesLink danglingFiles ["proj"] "sub" := by
  have hr := danglingFiles_resolves (by decide) (by decide) danglingFiles_locate_sub
  have h := resolve_inside danglingFiles_canonical danglingFiles_canonical
    (resolve_of_resolves danglingFiles_canonical danglingFiles_canonical hr)
  have hl : danglingFiles.LinkFree ["proj"] ["sub"] := by
    intro front hp hn target ht
    obtain ⟨left, hs⟩ := hp
    obtain ⟨rfl, -⟩ := (List.singleton_eq_append_iff.mp hs.symm).resolve_left fun h => hn h.1
    have he : danglingFiles.entry? ["proj", "sub"] = none := rfl
    cases he.symm.trans ht
  exact ⟨by decide, hl, h.2.1.mp hl⟩

/-- The link itself is taken for a folder that does not exist yet. Once there is one where the link
leads to, the place is outside the project. -/
theorem resolve_dangling :
    danglingFiles.Canonical ["proj"] ∧
      resolve danglingFiles ["proj"] (Location.written ["proj"]) "new" .folder =
        .ok ⟨"new", .folder, false⟩ ∧
      ¬ danglingFiles.LinkFree ["proj"] ["new"] ∧
      (danglingFiles.put ["out"] .folder).locate ["proj"]
        (Path.join (Location.written ["proj"]) "new") = .ok ["out"] := by
  have hr := danglingFiles_resolves (by decide) (by decide) danglingFiles_locate_new
  refine ⟨danglingFiles_canonical,
    resolve_of_resolves danglingFiles_canonical danglingFiles_canonical hr,
    fun h => h ["new"] List.prefix_rfl (by simp) "/out" rfl, ?_⟩
  have hc : (danglingFiles.put ["out"] .folder).Canonical ["proj"] :=
    .child .root rfl (by constructor <;> decide) (by decide) rfl (by simp)
  have hl := @FileSystem.locate_written_append (danglingFiles.put ["out"] .folder) ["proj"] ["new"] hc
    (List.forall_mem_singleton.mpr (by constructor <;> decide)) (by decide) (by decide) ["proj"]
  have hlink : (danglingFiles.put ["out"] .folder).walk FileSystem.maxLinks ["proj"] [.down "new"] =
      (danglingFiles.put ["out"] .folder).walk 39 [] [.stay, .down "out"] :=
    @FileSystem.walk_link _ ["proj"] 39 "new" "/out" [] rfl (by decide) rfl
  have hj : Path.join (Location.written ["proj"]) "new" = Location.written ["proj", "new"] := by
    decide
  rw [hj]
  refine hl.trans ?_
  rw [List.map_singleton, hlink, FileSystem.walk_stay_root,
    FileSystem.walk_down rfl (by decide) rfl (by simp), FileSystem.walk]
  rfl

end

end Place

end Relocate
