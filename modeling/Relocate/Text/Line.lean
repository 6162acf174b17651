import Relocate.Text.Utf8

namespace Relocate

abbrev Line := List UInt8

namespace Line

/-- The bytes up to and with the first line feed, and what follows them. -/
def first : List UInt8 → List UInt8 × List UInt8
  | [] => ([], [])
  | b :: s => if b = 10 then ([b], s) else (b :: (first s).1, (first s).2)

theorem first_append (s : List UInt8) : (first s).1 ++ (first s).2 = s := by
  induction s with
  | nil => rfl
  | cons b s ih => by_cases h : b = 10 <;> simp [first, h, ih]

theorem length_first (b : UInt8) (s : List UInt8) :
    (first (b :: s)).2.length < (b :: s).length := by
  induction s generalizing b with
  | nil => by_cases h : b = 10 <;> simp [first, h]
  | cons c s ih =>
    by_cases h : b = 10
    · simp [first, h]
    · have := ih c
      simp only [List.length_cons] at this
      simp only [first, h, ↓reduceIte, List.length_cons]
      simp only [first] at this
      omega

def ofStream : List UInt8 → List Line
  | [] => []
  | b :: s => (first (b :: s)).1 :: ofStream (first (b :: s)).2
termination_by s => s.length
decreasing_by exact length_first b s

def text? (l : Line) : Option String := Utf8.text? l

end Line

end Relocate
