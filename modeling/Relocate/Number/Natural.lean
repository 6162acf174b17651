namespace Relocate.Natural

inductive Error
  | empty
  | invalidDigit
  | tooLarge
  deriving DecidableEq, Repr

def Error.message : Error → String
  | .empty => "cannot parse integer from empty string"
  | .invalidDigit => "invalid digit found in string"
  | .tooLarge => "number too large to fit in target type"

/-- Goes on from `n`. The first fault from the left counts. -/
def extend (limit n : Nat) : List Char → Except Error Nat
  | [] => .ok n
  | c :: s =>
    if !c.isDigit then .error .invalidDigit
    else if limit < n * 10 + (c.toNat - 48) then .error .tooLarge
    else extend limit (n * 10 + (c.toNat - 48)) s

def read (limit : Nat) : List Char → Except Error Nat
  | [] => .error .empty
  | ['+'] => .error .invalidDigit
  | '+' :: s => extend limit 0 s
  | s => extend limit 0 s

def max32 : Nat := Nat.pow 2 32 - 1

def max64 : Nat := Nat.pow 2 64 - 1

end Relocate.Natural
