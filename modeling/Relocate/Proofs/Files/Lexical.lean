import Mathlib.Logic.Basic
import Relocate.Proofs.Files.Spelling

namespace Relocate.Path

open Utf8 (Bytes)

theorem lexical_root (path : Bytes) : lexical [] path = (steps path).foldl lexicalStep [] := by
  rw [lexical, start, ite_self]

theorem foldl_down (names here : Location) :
    (names.map .down).foldl lexicalStep here = here ++ names := by
  induction names generalizing here with
  | nil => exact (List.append_nil here).symm
  | cons name names ih => exact (ih (here ++ [name])).trans (List.append_cons here name names).symm

theorem lexical_written {l : Location} (h : ∀ name ∈ l, IsName name) : lexical [] l.written = l := by
  rw [lexical_root, steps_written h]
  split
  · rename_i hl
    rw [hl]
    rfl
  · exact foldl_down l []

theorem lexical_join {folder : Location} (h : ∀ name ∈ folder, IsName name) (path : Bytes) :
    lexical [] (join folder.written path) = lexical folder path := by
  cases hp : isAbsolute path with
  | true => simp [join_absolute, lexical, start, hp]
  | false =>
    rw [lexical_root, steps_join_written h hp, List.foldl_cons, List.foldl_append]
    have hf : (folder.map .down).foldl lexicalStep (lexicalStep [] .stay) = folder :=
      foldl_down folder []
    rw [hf, lexical, start, hp, if_neg Bool.false_ne_true]

theorem lexical_up_root {path : Bytes} (h : lexical [] path = []) (rest : Bytes) :
    lexical [] (path ++ "/../" ++ rest) = lexical [] ("/" ++ rest) := by
  have hdots : Utf8.encode "/../" = slash :: [dot, dot] ++ slash :: [] := by decide
  have hslash : Utf8.encode "/" = [] ++ slash :: [] := by decide
  have hup : path ++ Utf8.encode "/../" ++ rest =
      path ++ slash :: ([dot, dot] ++ slash :: rest) := by
    simp [hdots]
  have hroot : Utf8.encode "/" ++ rest = [] ++ slash :: rest := by rw [hslash, List.append_assoc]; rfl
  rw [lexical_root] at h
  rw [hup, hroot, lexical_root, lexical_root, steps_append_slash, steps_append_slash,
    steps_append_slash, List.foldl_append, List.foldl_append, List.foldl_append, h]
  rfl

theorem mem_joinWith {sep c : UInt8} (hc : c ≠ sep) (pieces : List Bytes) :
    c ∈ Text.joinWith sep pieces ↔ ∃ piece ∈ pieces, c ∈ piece := by
  fun_induction Text.joinWith sep pieces with
  | case1 => simp
  | case2 piece => simp
  | case3 piece next pieces ih => simp [ih, hc]

theorem mem_written {c : UInt8} (hc : c ≠ slash) (l : Location) :
    c ∈ Location.written l ↔ ∃ name ∈ l, c ∈ name := by
  rw [Location.written, List.mem_cons, or_iff_right hc, mem_joinWith hc]

end Relocate.Path
