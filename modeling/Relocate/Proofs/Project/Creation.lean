import Relocate.Proofs.Files.Growth
import Relocate.Proofs.Project.Existing

namespace Relocate

open Relocate.Path (IsName)
open Utf8 (Bytes)

namespace Place

open FileSystem

/-- All of `rest` can be made below `here`: that is a folder, nothing but folders is in the way, not
all of them are there yet, and the system takes the names and the path. -/
structure Free (fs : FileSystem) (here : Location) (rest : Location) : Prop where
  folder : fs.isFolderAt here = true
  clear : fs.Clear here rest
  gap : ∃ front, front <+: rest ∧ fs.entry? (here ++ front) = none
  short : ∀ name ∈ rest, name.length ≤ maxName
  plain : (Location.written (here ++ rest)).contains 0 = false
  fits : (Location.written (here ++ rest)).length ≤ maxPath

/-- There is nothing where the place is, what is nearest to it is a folder, and once the missing
folders are made the place is found on disk. -/
structure Creatable (fs : FileSystem) (folder base : Location) (place : Place) : Prop where
  vacant : fs.exists? folder (Path.join base.written place.path) = false
  grounded : ∃ front rest here, fs.Reached (base ++ place.names) front rest here ∧
    fs.isFolderAt here = true
  made : ∃ fs', fs.makePath (base ++ place.names) = .ok fs' ∧
    ∀ hint, resolve fs' folder base.written (Path.join base.written place.path) hint =
      .ok { place with onDisk := true }

section

variable {fs : FileSystem} {folder base here names rest : Location} {s : String}

theorem Free.clear_root (h : Free fs here rest) (hc : fs.Canonical here) :
    fs.Clear [] (here ++ rest) := by
  intro front hp
  rw [List.nil_append]
  obtain hp' | ⟨more, rfl⟩ := List.prefix_or_prefix_of_prefix hp (List.prefix_append here rest)
  · exact .inr (hc.folders (entry_of_folderAt h.folder) front hp')
  · exact h.clear more ((List.prefix_append_right_inj here).mp hp)

theorem Free.not_canonical (h : Free fs here rest) : ¬ fs.Canonical (here ++ rest) := by
  intro hc
  obtain ⟨front, hp, hn⟩ := h.gap
  obtain ⟨e, he⟩ := (hc.of_prefix ((List.prefix_append_right_inj here).mpr hp)).entry
  rw [hn] at he
  cases he

theorem reached_of_stuck (hc : fs.Canonical here) (hn : ∀ name ∈ rest, IsName name)
    (hz : (Location.written here).contains 0 = false)
    (hs : (Location.written here).length ≤ maxPath)
    (h : ∀ name, rest.head? = some name →
      ∀ n steps, ∃ e, fs.walk n here (.down name :: steps) = .error e) :
    fs.Reached (here ++ rest) here rest here := by
  refine ⟨rfl, reaches_canonical hc hz hs, fun more left hl hne => ?_⟩
  cases more with
  | nil => exact absurd rfl hne
  | cons name more =>
    have hnames : ∀ s ∈ here ++ name :: more, IsName s := by
      refine List.forall_mem_append.mpr ⟨hc.names, fun s hm => hn s ?_⟩
      rw [hl]
      exact List.mem_append_left left hm
    rw [reaches]
    cases ht : fs.locate [] (Location.written (here ++ name :: more)) with
    | error e => rfl
    | ok l =>
      obtain ⟨e, he⟩ := h name (by rw [hl]; rfl) maxLinks (more.map .down)
      have hw := walk_of_locate ht
      rw [walk_written hnames, List.map_append, hc.walk, List.map_cons, he] at hw
      cases hw

theorem folder_of_locate {l l' : Location} (hf : fs.Canonical folder)
    (hn : ∀ name ∈ l, IsName name) (h : fs.Clear [] l) (hl : fs.locate folder l.written = .ok l') :
    l' = l ∧ fs.isFolderAt l = true := by
  have hw := walk_of_locate hl
  rw [walk_written hn] at hw
  obtain rfl : l' = l := walk_linkFree h.linkFree hw
  obtain ⟨e, he⟩ := (canonical_of_locate hf hl).entry
  obtain hnone | hfolder := h l' List.prefix_rfl
  · rw [List.nil_append, he] at hnone
    cases hnone
  · exact ⟨rfl, by simpa [isFolderAt] using hfolder⟩

theorem Free.creatable (h : Free fs here rest) (hf : fs.Canonical folder) (hb : fs.Canonical base)
    (hh : fs.Canonical here) (hn : ∀ name ∈ names, IsName name) (hs : spelled names = .ok s)
    (hl : base ++ names = here ++ rest) : Creatable fs folder base ⟨s, .folder, false⟩ := by
  have hclear : fs.Clear [] (base ++ names) := hl ▸ h.clear_root hh
  have hnames : ∀ name ∈ base ++ names, IsName name := List.forall_mem_append.mpr ⟨hb.names, hn⟩
  have hne : names ≠ [] := by
    rintro rfl
    rw [List.append_nil] at hl
    exact h.not_canonical (hl ▸ hb)
  have hpath : Path.join base.written s = Location.written (base ++ names) := by
    rw [encode_spelled hs]
    exact Path.join_written_joined hb.names hn hne
  have hplain : (Location.written (base ++ names)).contains 0 = false := hl ▸ h.plain
  have hfits : (Location.written (base ++ names)).length ≤ maxPath := hl ▸ h.fits
  have hshort : ∀ name ∈ base ++ names, name.length ≤ maxName :=
    hl ▸ List.forall_mem_append.mpr ⟨hh.short, h.short⟩
  refine ⟨?_, ?_, ?_⟩
  · dsimp only
    rw [hpath, exists?]
    cases ht : fs.locate folder (Location.written (base ++ names)) with
    | error e => rfl
    | ok l =>
      obtain ⟨rfl, -⟩ := folder_of_locate hf hnames hclear ht
      exact absurd (hl ▸ canonical_of_locate hf ht) h.not_canonical
  · obtain ⟨front, left, here', hreach, -⟩ := reachable_reached fs (base ++ names)
    rw [names_spelled hn hs]
    refine ⟨front, left, here', hreach, ?_⟩
    have hp : front <+: base ++ names := ⟨left, hreach.split.symm⟩
    have hfront : fs.Clear [] front := fun more hm => hclear more (hm.trans hp)
    have hs := locate_of_reaches hreach.leads []
    obtain ⟨rfl, hd⟩ := folder_of_locate .root (fun s hm => hnames s (hp.subset hm)) hfront hs
    exact hd
  · obtain ⟨fs', hmake, hall⟩ := hclear.makeMissing rfl hshort
    have hgrow := makeMissing_grows hmake
    have hd := Canonical.append .root hnames hshort hall
    rw [List.nil_append] at hd
    have hc : fs'.canonicalized folder (Path.join folder.written (Location.written (base ++ names))) =
        .ok (base ++ names) := by
      rw [Path.join_absolute (Path.isAbsolute_written _)]
      exact (canonicalized_eq_ok (hgrow.canonical hf)).mpr
        ⟨locate_canonical hd hplain hfits folder, reaches_canonical hd hplain hfits⟩
    rw [names_spelled hn hs]
    refine ⟨fs', ?_, fun hint => ?_⟩
    · rw [makePath, hplain, if_neg Bool.false_ne_true, if_neg (by omega)]
      exact hmake
    · have hkind : fs'.isFolderAt (base ++ names) = true := by
        have hentry := hall (base ++ names) List.prefix_rfl
        simpa [isFolderAt] using hentry
      dsimp only
      rw [hpath, resolve_below (hgrow.canonical hf) (hgrow.canonical hb) hc hs, found, hkind]
      rfl

theorem Creatable.free
    (h : Creatable fs folder base ⟨s, .folder, false⟩)
    (hf : fs.Canonical folder) (hb : fs.Canonical base)
    (hr : fs.isFolder folder (Path.join base.written []) = true) (hh : fs.Canonical here)
    (hn : ∀ name ∈ names, IsName name) (hs : spelled names = .ok s)
    (hl : base ++ names = here ++ rest) : Free fs here rest := by
  obtain ⟨fs', hpath, hres⟩ := h.made
  rw [names_spelled hn hs] at hpath
  obtain ⟨hplain, hfits, hmake⟩ := makePath_ok hpath
  have hgrow := makeMissing_grows hmake
  -- In the later file system the place is found, so all on the way to it are folders.
  have hf' := hgrow.canonical hf
  obtain ⟨names', hn', hr'⟩ := resolve_ok hf' (hgrow.canonical hb) (hres .folder)
  obtain ⟨names', s', hn', hc, hs', he⟩ := resolve_existing_ok hf' (hgrow.canonical hb)
    (hr'.onDisk_eq hf').symm (hres .folder)
  obtain rfl : names = names' := by
    have hp := congrArg Place.names he
    rwa [found, names_spelled hn' hs', names_spelled hn hs] at hp
  have hd : fs'.isFolderAt (base ++ names) = true :=
    (found_kind names s').mp (congrArg Place.kind he).symm
  have hcanonical : fs'.Canonical (base ++ names) :=
    canonical_of_locate hf' ((canonicalized_eq_ok hf').mp hc).1
  have hclear : fs.Clear here rest := by
    refine hgrow.clear fun front hp => ?_
    refine hcanonical.folders (entry_of_folderAt hd) _ ?_
    rw [hl]
    exact (List.prefix_append_right_inj here).mpr hp
  have hshort : ∀ name ∈ rest, name.length ≤ maxName := fun name hm =>
    hcanonical.short name (hl ▸ List.mem_append_right here hm)
  rw [hl] at hplain hfits
  refine ⟨?_, hclear, ?_, hshort, hplain, hfits⟩
  · obtain ⟨e, he⟩ := hh.entry
    obtain hnone | hfolder := hclear [] List.nil_prefix
    · rw [List.append_nil, he] at hnone
      cases hnone
    · simpa [isFolderAt] using hfolder
  · -- Were all of it there, something would be at the place.
    refine Classical.byContradiction fun hgap => ?_
    have hall : ∀ front, front <+: rest → fs.entry? (here ++ front) = some .folder := fun front hp =>
      (hclear front hp).resolve_left fun hnone => hgap ⟨front, hp, hnone⟩
    have hnames : ∀ name ∈ rest, IsName name := fun name hm =>
      hcanonical.names name (hl ▸ List.mem_append_right here hm)
    have hw := reaches_canonical (hh.append hnames hshort hall) hplain hfits
    rw [← hl] at hw
    have hx := h.vacant
    dsimp only at hx
    rw [encode_spelled hs, exists?,
      ((canonicalized_eq_ok hf).mp (canonicalized_join hf hb (fun _ => hr) hn hw)).1] at hx
    cases hx

end

/-- A folder that is said not to exist yet is a place for it just if what is left of the path can be
made below the part of it that exists. Resolving a path does not see to that. -/
theorem resolve_creatable {fs : FileSystem} {folder base : Location} {path : Bytes} {place : Place}
    (hf : fs.Canonical folder) (hb : fs.Canonical base)
    (hr : fs.isFolder folder (Path.join base.written []) = true)
    (h : resolve fs folder base.written path .folder = .ok place) (hd : place.onDisk = false) :
    ∃ front rest here, fs.Reached (Path.lexical folder path) front rest here ∧
      base ++ place.names = here ++ rest ∧
      (Creatable fs folder base place ↔ Free fs here rest) := by
  obtain ⟨names, hn, hres⟩ := resolve_ok hf hb h
  obtain ⟨hnames, -⟩ := hres.names_eq hn
  cases hres with
  | found => cases hd
  | @missing _ front rest here _ hx hreach hw hl hs =>
    have hh := canonical_of_reaches hreach.leads
    refine ⟨front, rest, here, hreach, by rw [hnames, hl], ?_, ?_⟩
    · exact fun hc => hc.free hf hb hr hh hn hs hl
    · exact fun hfree => hfree.creatable hf hb hh hn hs hl

section

def plainFiles : FileSystem :=
  ⟨[(["proj"], .folder), (["proj", "pkg"], .folder), (["proj", "top.py"], .file [] false)]⟩

theorem plainFiles_canonical : plainFiles.Canonical ["proj"] :=
  .child .root rfl (by constructor <;> decide) (by decide) rfl (by simp)

theorem plainFiles_canonical_pkg : plainFiles.Canonical ["proj", "pkg"] :=
  .child plainFiles_canonical rfl (by constructor <;> decide) (by decide) rfl (by simp)

theorem plainFiles_canonical_top : plainFiles.Canonical ["proj", "top.py"] :=
  .child plainFiles_canonical rfl (by constructor <;> decide) (by decide) rfl (by simp)

theorem plainFiles_root :
    plainFiles.isFolder ["proj"] (Path.join (Location.written ["proj"]) []) = true :=
  isFolder_root plainFiles_canonical rfl (by decide) (by decide) ["proj"]

theorem plainFiles_resolves {path : Bytes} (names : Location) {here rest : Location}
    {s : String} {e : SystemError}
    (hx : plainFiles.locate ["proj"] (Path.join (Location.written ["proj"]) path) = .error e)
    (hl : Path.lexical ["proj"] path = here ++ rest)
    (hr : plainFiles.Reached (here ++ rest) here rest here)
    (hn : (["proj"] : Location) ++ names = here ++ rest) (hs : spelled names = .ok s) :
    resolve plainFiles ["proj"] (Location.written ["proj"]) path .folder = .ok ⟨s, .folder, false⟩ := by
  have hm : plainFiles.exists? ["proj"] (Path.join (Location.written ["proj"]) path) = false := by
    rw [exists?, hx]
    rfl
  exact resolve_of_resolves plainFiles_canonical plainFiles_canonical
    (.missing hm (hl ▸ hr) hr.leads hn hs)

theorem plainFiles_new (n : Nat) (steps : List Path.Step) :
    plainFiles.walk n ["proj"] (.down "new" :: steps) = .error .noSuchEntry :=
  walk_missing rfl (by decide) rfl

theorem plainFiles_top (n : Nat) (step : Path.Step) (steps : List Path.Step) :
    plainFiles.walk n ["proj", "top.py"] (step :: steps) = .error .notDirectory :=
  walk_not_folder (by decide)

theorem plainFiles_reached_new :
    plainFiles.Reached ["proj", "new", "sub"] ["proj"] ["new", "sub"] ["proj"] := by
  refine reached_of_stuck plainFiles_canonical ?_ (by decide) (by decide) fun name h n steps => ?_
  · exact List.forall_mem_cons.mpr ⟨by constructor <;> decide,
      List.forall_mem_singleton.mpr (by constructor <;> decide)⟩
  · obtain rfl := Option.some.inj h
    exact ⟨_, plainFiles_new n steps⟩

theorem plainFiles_reached_top :
    plainFiles.Reached ["proj", "top.py", "sub"] ["proj", "top.py"] ["sub"] ["proj", "top.py"] := by
  refine reached_of_stuck plainFiles_canonical_top
    (List.forall_mem_singleton.mpr (by constructor <;> decide)) (by decide) (by decide)
    fun name h n steps => ?_
  exact ⟨_, plainFiles_top n _ steps⟩

theorem plainFiles_reached_pkg :
    plainFiles.Reached ["proj", "pkg"] ["proj", "pkg"] [] ["proj", "pkg"] :=
  reached_whole (reaches_canonical plainFiles_canonical_pkg (by decide) (by decide))

theorem plainFiles_free : Free plainFiles ["proj"] ["new", "sub"] := by
  refine ⟨rfl, fun front hp => ?_, ⟨["new"], ⟨["sub"], rfl⟩, rfl⟩, by decide, by decide, by decide⟩
  obtain rfl | ⟨more, rfl, hmore⟩ := List.prefix_cons_iff.mp hp
  · exact .inr rfl
  · obtain rfl | ⟨last, rfl, hlast⟩ := List.prefix_cons_iff.mp hmore
    · exact .inl rfl
    · rw [List.prefix_nil.mp hlast]
      exact .inl rfl

theorem resolve_creatable_new :
    resolve plainFiles ["proj"] (Location.written ["proj"]) "new/sub" .folder =
      .ok ⟨"new/sub", .folder, false⟩ ∧
    Creatable plainFiles ["proj"] ["proj"] ⟨"new/sub", .folder, false⟩ := by
  have hl : Path.lexical ["proj"] "new/sub" = (["proj", "new", "sub"] : Location) := by decide
  have hr : resolve plainFiles ["proj"] (Location.written ["proj"]) "new/sub" .folder =
      .ok ⟨"new/sub", .folder, false⟩ :=
    @plainFiles_resolves "new/sub" ["new", "sub"] ["proj"] ["new", "sub"] _ _
      ((locate_join plainFiles_canonical rfl (by decide) (by decide) _).trans
        (plainFiles_new _ [.down "sub"]))
      hl plainFiles_reached_new rfl (spelled_eq_ok.mpr ⟨["new", "sub"], rfl, by decide⟩)
  obtain ⟨front, rest, here, hreach, -, hiff⟩ := resolve_creatable plainFiles_canonical
    plainFiles_canonical plainFiles_root hr rfl
  rw [hl] at hreach
  obtain ⟨rfl, rfl⟩ := plainFiles_reached_new.unique hreach
  exact ⟨hr, hiff.mpr plainFiles_free⟩

/-- A package that exists is said not to exist if the path to it turns back behind a name that leads
nowhere, and a folder is said to be missing where a module is in the way. -/
theorem resolve_uncreatable :
    plainFiles.Canonical ["proj"] ∧
      resolve plainFiles ["proj"] (Location.written ["proj"]) "new/../pkg" .folder =
        .ok ⟨"pkg", .folder, false⟩ ∧
      plainFiles.isFolder ["proj"] (Path.join (Location.written ["proj"]) "pkg") = true ∧
      resolve plainFiles ["proj"] (Location.written ["proj"]) "top.py/sub" .folder =
        .ok ⟨"top.py/sub", .folder, false⟩ ∧
      plainFiles.isFile ["proj"] (Path.join (Location.written ["proj"]) "top.py") = true ∧
      ¬ Creatable plainFiles ["proj"] ["proj"] ⟨"pkg", .folder, false⟩ ∧
      ¬ Creatable plainFiles ["proj"] ["proj"] ⟨"top.py/sub", .folder, false⟩ := by
  have hpkg : plainFiles.locate ["proj"] (Path.join (Location.written ["proj"]) "pkg") =
      .ok ["proj", "pkg"] := by
    have hj : Path.join (Location.written ["proj"]) "pkg" = Location.written ["proj", "pkg"] := by decide
    rw [hj]
    exact locate_canonical plainFiles_canonical_pkg (by decide) (by decide) _
  have htop : plainFiles.locate ["proj"] (Path.join (Location.written ["proj"]) "top.py") =
      .ok ["proj", "top.py"] := by
    have hj : Path.join (Location.written ["proj"]) "top.py" = Location.written ["proj", "top.py"] := by
      decide
    rw [hj]
    exact locate_canonical plainFiles_canonical_top (by decide) (by decide) _
  refine ⟨plainFiles_canonical, ?_, ?_, ?_, ?_, fun h => ?_, fun h => ?_⟩
  · exact @plainFiles_resolves "new/../pkg" ["pkg"] ["proj", "pkg"] [] _ _
      ((locate_join plainFiles_canonical rfl (by decide) (by decide) _).trans
        (plainFiles_new _ [.up, .down "pkg"]))
      (by decide) plainFiles_reached_pkg rfl (spelled_eq_ok.mpr ⟨["pkg"], rfl, by decide⟩)
  · rw [FileSystem.isFolder, hpkg]
    rfl
  · exact @plainFiles_resolves "top.py/sub" ["top.py", "sub"] ["proj", "top.py"] ["sub"] _ _
      ((locate_join plainFiles_canonical rfl (by decide) (by decide) _).trans
        ((walk_down rfl (by decide) rfl (by simp)).trans (plainFiles_top _ (.down "sub") [])))
      (by decide) plainFiles_reached_top rfl (spelled_eq_ok.mpr ⟨["top.py", "sub"], rfl, by decide⟩)
  · rw [isFile, htop]
    rfl
  · have hx := h.vacant
    rw [exists?, hpkg] at hx
    cases hx
  · have hn : ∀ name ∈ (["top.py", "sub"] : Location), IsName name :=
      List.forall_mem_cons.mpr ⟨by constructor <;> decide,
        List.forall_mem_singleton.mpr (by constructor <;> decide)⟩
    have hfree : Free plainFiles ["proj", "top.py"] ["sub"] :=
      Creatable.free h plainFiles_canonical plainFiles_canonical plainFiles_root
        plainFiles_canonical_top hn (spelled_eq_ok.mpr ⟨["top.py", "sub"], rfl, by decide⟩) rfl
    exact absurd hfree.folder (by decide)

end

end Place

end Relocate
