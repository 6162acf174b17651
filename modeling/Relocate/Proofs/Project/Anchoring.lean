import Relocate.Proofs.Files.Lexical
import Relocate.Proofs.Files.Links
import Relocate.Proofs.Project.Resolution

namespace Relocate

open Relocate.Path (IsName)
open Utf8 (Bytes)

namespace FileSystem

/-- The system does not look for what is at a location: its path is too long, or there are too many
links on it. -/
def GivesUp (fs : FileSystem) (l : Location) : Prop :=
  maxPath < l.written.length ∨ fs.locate [] l.written = .error .tooManyLinks

variable {fs : FileSystem} {names front rest here l : Location}

theorem not_nul_of_locate {folder : Location} {path : Bytes}
    (h : fs.locate folder path = .ok l) : 0 ∉ path := by
  unfold locate at h
  split at h
  · cases h
  · split at h
    · cases h
    · rename_i hz
      exact fun hm => hz (List.contains_iff_mem.mpr hm)

theorem locate_concat {name : Bytes} (hn : ∀ s ∈ front ++ [name], IsName s)
    (hw : fs.reaches front = some here) (hz : 0 ∉ name)
    (hs : (Location.written (front ++ [name])).length ≤ maxPath) :
    ∃ k ≤ maxLinks,
      fs.locate [] (Location.written (front ++ [name])) = fs.walk k here [.down name] := by
  have hfront := locate_of_reaches hw []
  have hplain : (Location.written (front ++ [name])).contains 0 = false := by
    rw [← Bool.not_eq_true, List.contains_iff_mem, Path.mem_written (by decide)]
    rintro ⟨s, hm, hc⟩
    obtain hm | hm := List.mem_append.mp hm
    · exact not_nul_of_locate hfront ((Path.mem_written (by decide) front).mpr ⟨s, hm, hc⟩)
    · exact hz (List.mem_singleton.mp hm ▸ hc)
  have hpart := walk_of_locate hfront
  rw [walk_written fun s hm => hn s (List.mem_append_left _ hm)] at hpart
  obtain ⟨k, hk, happ⟩ := walk_append fs maxLinks [] (front.map .down)
  refine ⟨k, hk, ?_⟩
  rw [locate_eq_walk (Path.written_ne_nil _) hplain hs, walk_written hn, List.map_append, happ, hpart]
  rfl

/-- A name that leads nowhere after a part of a path leads nowhere from where that part leads to,
whatever comes after it, unless the system has given up on it. -/
theorem walk_down_error {name : Bytes} (hn : ∀ s ∈ front ++ [name], IsName s)
    (hw : fs.reaches front = some here) (h : fs.reaches (front ++ [name]) = none)
    (hg : ¬ fs.GivesUp (front ++ [name])) (hz : 0 ∉ name) (more : List Path.Step) :
    ∃ e, fs.walk maxLinks here (.down name :: more) = .error e := by
  obtain ⟨hs, hl⟩ := not_or.mp hg
  obtain ⟨k, hk, hlocate⟩ := locate_concat hn hw hz (Nat.le_of_not_lt hs)
  rw [reaches, hlocate] at h
  rw [hlocate] at hl
  cases hd : fs.walk k here [.down name] with
  | ok l =>
    rw [hd] at h
    cases h
  | error e =>
    -- More links do not help, and neither does what comes after the name.
    obtain ⟨_, -, happ⟩ := walk_append fs maxLinks here [.down name]
    have hmore := happ more
    rw [walk_more_links hd (hd ▸ hl) hk] at hmore
    exact ⟨e, hmore⟩

theorem Reached.again (h : fs.Reached names front rest here) (hn : ∀ name ∈ names, IsName name)
    (hw : fs.reaches here = some here) (hg : ∀ next ∈ rest.head?, ¬ fs.GivesUp (front ++ [next])) :
    fs.Reached (here ++ rest) here rest here := by
  refine ⟨rfl, hw, fun more left hl hne => ?_⟩
  cases more with
  | nil => exact absurd rfl hne
  | cons next more =>
    have hnames : ∀ s ∈ front ++ rest, IsName s := h.split ▸ hn
    have hrest : ∀ s ∈ next :: more, s ∈ rest := fun s hm => hl ▸ List.mem_append_left left hm
    have hall : ∀ s ∈ here ++ next :: more, IsName s :=
      List.forall_mem_append.mpr ⟨(canonical_of_reaches hw).names, fun s hm =>
        hnames s (List.mem_append_right front (hrest s hm))⟩
    have hnext : ∀ s ∈ front ++ [next], IsName s := by
      refine List.forall_mem_append.mpr ⟨fun s hm => hnames s (List.mem_append_left rest hm), ?_⟩
      exact List.forall_mem_singleton.mpr (hall next (by simp))
    have hnone : fs.reaches (front ++ [next]) = none :=
      h.longest [next] (more ++ left) (by rw [hl]; rfl) (by simp)
    have hgive : ¬ fs.GivesUp (front ++ [next]) := hg next (by rw [hl]; rfl)
    cases hr : fs.reaches (here ++ next :: more) with
    | none => rfl
    | some l =>
      have hlocate := locate_of_reaches hr []
      have hz : 0 ∉ next := fun hc =>
        not_nul_of_locate hlocate ((Path.mem_written (by decide) _).mpr ⟨next, by simp, hc⟩)
      obtain ⟨e, he⟩ := walk_down_error hnext h.leads hnone hgive hz (more.map .down)
      have hwalk := walk_of_locate hlocate
      rw [walk_written hall, List.map_append, (canonical_of_reaches hw).walk, List.map_cons,
        he] at hwalk
      cases hwalk

end FileSystem

namespace Place

open FileSystem

/-- What a path names, seen from the root: links are resolved in the longest part of its normal form
that leads to something, and the names after that part follow. -/
def anchored (fs : FileSystem) (path : Bytes) : Except SystemError Location :=
  reachable fs [] (Path.lexical [] path).reverse

section

variable {fs : FileSystem} {path : Bytes} {front rest here l : Location}

theorem lookUp_anchored {folder : Location} (hf : ∀ name ∈ folder, IsName name)
    (h : fs.exists? folder (Path.join folder.written path) = false) :
    lookUp fs folder path .folder =
      ((anchored fs (Path.join folder.written path)).mapError .unnamed).map fun l =>
        (l, .folder, false) := by
  rw [lookUp_missing_folder h, anchored, Path.lexical_join hf]

theorem names_lexical_root (path : Bytes) : ∀ name ∈ Path.lexical [] path, IsName name :=
  names_lexical (List.forall_mem_nil _) path

theorem anchored_reached (h : fs.Reached (Path.lexical [] path) front rest here) :
    anchored fs path = (fs.locate [] here.written).map (· ++ rest) := by
  obtain ⟨front', rest', here', hr, he⟩ := reachable_reached fs (Path.lexical [] path)
  obtain ⟨rfl, rfl⟩ := h.unique hr
  exact he

theorem anchored_ok (h : fs.Reached (Path.lexical [] path) front rest here)
    (hl : anchored fs path = .ok l) : l = here ++ rest ∧ fs.reaches here = some here := by
  rw [anchored_reached h] at hl
  cases hw : fs.locate [] here.written with
  | error e =>
    rw [hw] at hl
    cases hl
  | ok here' =>
    obtain rfl := locate_written (canonical_of_reaches h.leads) hw
    rw [hw] at hl
    exact ⟨(Except.ok.inj hl).symm, reaches_eq_some.mpr hw⟩

theorem anchored_names (h : fs.Reached (Path.lexical [] path) front rest here)
    (hl : anchored fs path = .ok l) : ∀ name ∈ l, IsName name := by
  obtain ⟨rfl, hw⟩ := anchored_ok h hl
  refine List.forall_mem_append.mpr ⟨(canonical_of_reaches hw).names, fun name hm => ?_⟩
  exact names_lexical_root path name (h.split ▸ List.mem_append_right front hm)

theorem anchored_written_iff (h : ∀ name ∈ l, IsName name) :
    anchored fs l.written = .ok l ↔
      ∀ front rest here, fs.Reached l front rest here → here = front := by
  obtain ⟨front, rest, here, -, -, hr⟩ := search_ends fs l
  have hl : fs.Reached (Path.lexical [] l.written) front rest here := by rwa [Path.lexical_written h]
  constructor
  · intro ha front' rest' here' hr'
    obtain ⟨hs, -⟩ := anchored_ok hl ha
    obtain ⟨rfl, rfl⟩ := hr.unique hr'
    exact List.append_cancel_right (hs.symm.trans hr'.split)
  · intro hall
    obtain rfl := hall front rest here hr
    rw [anchored_reached hl, locate_of_reaches hr.leads [], hr.split]
    rfl

/-- Anchoring what was anchored changes nothing, unless the system had given up on a name. -/
theorem anchored_again (h : fs.Reached (Path.lexical [] path) front rest here)
    (hg : ∀ next ∈ rest.head?, ¬ fs.GivesUp (front ++ [next])) (hl : anchored fs path = .ok l) :
    anchored fs l.written = .ok l := by
  obtain ⟨rfl, hw⟩ := anchored_ok h hl
  have hr := h.again (names_lexical_root path) hw hg
  refine (anchored_written_iff (anchored_names h hl)).mpr fun front' rest' here' hr' => ?_
  obtain ⟨rfl, rfl⟩ := hr.unique hr'
  exact List.append_cancel_right hr'.split

/-- An absolute path, anchored. Only its normal form counts, in which nothing goes above the root.
The search for the part of it that exists ends, at the longest part that leads to something; what is
returned is that part with its links resolved, if the system can name it, and then the names that
are left, in their order. Anchored again, this stays the same if there is no link on the longest
part of it that exists, and that is so unless the system had given up on the first name left. -/
theorem anchored_longest (fs : FileSystem) (path : Bytes) :
    (∀ name ∈ Path.lexical [] path, IsName name) ∧
    (∀ rest, Path.lexical [] path = [] →
      Path.lexical [] (path ++ "/../" ++ rest) = Path.lexical [] ("/" ++ rest)) ∧
    anchored fs (Path.lexical [] path).written = anchored fs path ∧
    (∀ path', Path.lexical [] path' = Path.lexical [] path → anchored fs path' = anchored fs path) ∧
    (WellFounded fun t s => fs.Recedes s t) ∧
    (∀ s t, fs.Recedes s t → reachable fs s.2 s.1.reverse = reachable fs t.2 t.1.reverse) ∧
    ∃ front rest here,
      Relation.ReflTransGen fs.Recedes (Path.lexical [] path, []) (front, rest) ∧
      (∀ t, ¬ fs.Recedes (front, rest) t) ∧
      fs.Reached (Path.lexical [] path) front rest here ∧
      anchored fs path = (fs.canonicalized [] front.written).map (· ++ rest) ∧
      ∀ l, anchored fs path = .ok l →
        l = here ++ rest ∧ fs.Canonical here ∧ (∀ name ∈ l, IsName name) ∧
        (anchored fs l.written = .ok l ↔
          ∀ front' rest' here', fs.Reached l front' rest' here' → here' = front') ∧
        ((∀ next ∈ rest.head?, ¬ fs.GivesUp (front ++ [next])) → anchored fs l.written = .ok l) := by
  obtain ⟨front, rest, here, hrun, hstop, hr⟩ := search_ends fs (Path.lexical [] path)
  have hspelling : ∀ path', Path.lexical [] path' = Path.lexical [] path →
      anchored fs path' = anchored fs path := fun path' hp => by rw [anchored, anchored, hp]
  refine ⟨names_lexical_root path, fun rest hroot => Path.lexical_up_root hroot rest,
    hspelling _ (Path.lexical_written (names_lexical_root path)), hspelling, recedes_wellFounded fs,
    fun _ _ => reachable_turn, front, rest, here, hrun, hstop, hr, ?_, fun l hl => ?_⟩
  · rw [anchored_reached hr, canonicalized_of_reaches hr.leads]
  · have hn := anchored_names hr hl
    exact ⟨(anchored_ok hr hl).1, canonical_of_reaches hr.leads, hn, anchored_written_iff hn,
      fun hg => anchored_again hr hg hl⟩

end

section

def windingFiles : FileSystem :=
  ⟨[(["proj"], .folder), (["proj", "step"], .link "."),
    (["proj", "turn"], .link (Text.joinWith Path.slash (List.replicate 24 "step")))]⟩

theorem windingFiles_canonical : windingFiles.Canonical ["proj"] :=
  .child .root rfl (by constructor <;> decide) (by decide) rfl (by simp)

theorem windingFiles_names : ∀ name ∈ (["turn", "turn"] : Location), IsName name :=
  List.forall_mem_cons.mpr ⟨by constructor <;> decide,
    List.forall_mem_singleton.mpr (by constructor <;> decide)⟩

theorem windingFiles_walk_step (n : Nat) (rest : List Path.Step) :
    windingFiles.walk (n + 1) ["proj"] (.down "step" :: rest) = windingFiles.walk n ["proj"] rest :=
  (@walk_link windingFiles ["proj"] n "step" "." rest rfl (by decide) rfl).trans (walk_stay rfl)

theorem windingFiles_walk_steps (n k : Nat) (rest : List Path.Step) :
    windingFiles.walk (n + k) ["proj"] (List.replicate k (.down "step") ++ rest) =
      windingFiles.walk n ["proj"] rest := by
  induction k with
  | zero => rfl
  | succ k ih => exact (windingFiles_walk_step (n + k) _).trans ih

theorem windingFiles_walk_turn (n : Nat) (rest : List Path.Step) :
    windingFiles.walk (n + 1) ["proj"] (.down "turn" :: rest) =
      windingFiles.walk n ["proj"] (List.replicate 24 (.down "step") ++ rest) := by
  have hn : ∀ name ∈ List.replicate 24 (Utf8.encode "step"), IsName name := fun name hm =>
    List.eq_of_mem_replicate hm ▸ by constructor <;> decide
  have hs : Path.steps (Text.joinWith Path.slash (List.replicate 24 "step")) =
      List.replicate 24 (.down "step") := by
    rw [Path.steps_joined hn, if_neg (by simp), List.map_replicate]
  have hl := @walk_link windingFiles ["proj"] n "turn" _ rest rfl (by decide) rfl
  rwa [Path.start, Path.isAbsolute_joined hn, if_neg Bool.false_ne_true, hs] at hl

theorem windingFiles_walk_once (rest : List Path.Step) :
    windingFiles.walk maxLinks ["proj"] (.down "turn" :: rest) =
      windingFiles.walk 15 ["proj"] rest :=
  (windingFiles_walk_turn 39 rest).trans (windingFiles_walk_steps 15 24 rest)

theorem windingFiles_walk_twice :
    windingFiles.walk maxLinks ["proj"] [.down "turn", .down "turn"] = .error .tooManyLinks := by
  have hs : List.replicate 24 (Path.Step.down "step") =
      List.replicate 14 (.down "step") ++ List.replicate 10 (.down "step") := rfl
  rw [windingFiles_walk_once, windingFiles_walk_turn 14, hs, List.append_assoc]
  refine (windingFiles_walk_steps 0 14 _).trans ?_
  exact @walk_no_link windingFiles ["proj"] "step" "." _ rfl (by decide) rfl

theorem windingFiles_locate_once :
    windingFiles.locate [] (Location.written ["proj", "turn"]) = .ok ["proj"] := by
  have hl := @locate_written_append windingFiles ["proj"] ["turn"] windingFiles_canonical
    (fun name hm => windingFiles_names name (List.mem_cons_of_mem _ hm)) (by decide) (by decide) []
  exact hl.trans ((windingFiles_walk_once []).trans (by rw [walk]))

theorem windingFiles_locate_twice (folder : Location) :
    windingFiles.locate folder (Location.written ["proj", "turn", "turn"]) = .error .tooManyLinks := by
  have hl := @locate_written_append windingFiles ["proj"] ["turn", "turn"] windingFiles_canonical
    windingFiles_names (by decide) (by decide) folder
  exact hl.trans windingFiles_walk_twice

theorem windingFiles_reached_once :
    windingFiles.Reached ["proj", "turn"] ["proj", "turn"] [] ["proj"] :=
  reached_whole (reaches_eq_some.mpr windingFiles_locate_once)

theorem windingFiles_reached_twice :
    windingFiles.Reached ["proj", "turn", "turn"] ["proj", "turn"] ["turn"] ["proj"] := by
  refine ⟨rfl, reaches_eq_some.mpr windingFiles_locate_once, fun more left hl hne => ?_⟩
  obtain ⟨rfl, rfl⟩ | ⟨rfl, rfl⟩ : _ := List.append_eq_singleton_iff.mp hl.symm
  · exact absurd rfl hne
  · rw [reaches, List.cons_append, List.cons_append, List.nil_append, windingFiles_locate_twice]
    rfl

theorem windingFiles_gone :
    windingFiles.exists? ["proj"] (Path.join (Location.written ["proj"]) "gone/../turn") = false := by
  have hs : Path.steps "gone/../turn" = [.down "gone", .up, .down "turn"] := by decide
  rw [exists?, locate_join windingFiles_canonical rfl (by decide) (by decide), hs,
    walk_missing rfl (by decide) rfl]
  rfl

/-- Two turns are too many, so the second is left as a name that leads nowhere; but anchored again
from where the first one leads to, it is followed. The project sees both: a folder that is said not
to exist is the project itself under another spelling of its path. -/
theorem anchored_unsettled :
    anchored windingFiles "/proj/turn/turn" = .ok ["proj", "turn"] ∧
      anchored windingFiles (Location.written ["proj", "turn"]) = .ok ["proj"] ∧
      resolve windingFiles ["proj"] (Location.written ["proj"]) "turn/turn" .folder =
        .ok ⟨"turn", .folder, false⟩ ∧
      resolve windingFiles ["proj"] (Location.written ["proj"]) "gone/../turn" .folder =
        .ok ⟨"", .folder, false⟩ := by
  have hroot : windingFiles.locate [] (Location.written ["proj"]) = .ok ["proj"] :=
    locate_canonical windingFiles_canonical (by decide) (by decide) []
  have htwice : anchored windingFiles "/proj/turn/turn" = .ok ["proj", "turn"] := by
    have hp : Path.lexical [] "/proj/turn/turn" = (["proj", "turn", "turn"] : Location) := by decide
    rw [anchored_reached (hp ▸ windingFiles_reached_twice), hroot]
    rfl
  have honce : ∀ path, Path.lexical [] path = (["proj", "turn"] : Location) →
      anchored windingFiles path = .ok ["proj"] := by
    intro path hp
    rw [anchored_reached (hp ▸ windingFiles_reached_once), hroot]
    rfl
  have hj : Path.join (Location.written ["proj"]) "turn/turn" = "/proj/turn/turn" := by decide
  have hx : windingFiles.exists? ["proj"] (Path.join (Location.written ["proj"]) "turn/turn") =
      false := by
    have ht : Path.join (Location.written ["proj"]) "turn/turn" =
        Location.written ["proj", "turn", "turn"] := by decide
    rw [ht, exists?, windingFiles_locate_twice]
    rfl
  have hn := windingFiles_canonical.names
  refine ⟨htwice, honce _ (by decide), ?_, ?_⟩
  · refine (resolve_eq_ok hn).mpr
      ⟨["turn"], .folder, false, "turn", ?_, spelled_eq_ok.mpr ⟨["turn"], rfl, by decide⟩, rfl⟩
    rw [lookUp_anchored hn hx, hj, htwice]
    rfl
  · refine (resolve_eq_ok hn).mpr ⟨[], .folder, false, "", ?_, rfl, rfl⟩
    rw [lookUp_anchored hn windingFiles_gone, honce _ (by decide)]
    rfl

end

end Place

end Relocate
