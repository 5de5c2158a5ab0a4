import Mathlib.Tactic.Common

/-!
# Run lengths

A list as its runs of equal neighbours, each with its length, and back.
-/

namespace RunLength

variable {α β : Type*}

/-- The list that runs stand for. -/
def expand (runs : List (α × Nat)) : List α :=
  runs.flatMap fun run => List.replicate run.2 run.1

@[simp]
lemma expand_nil : expand ([] : List (α × Nat)) = [] := rfl

variable [DecidableEq α]

/-- The runs of a list, the first of which has begun already. -/
def runsFrom (a : α) (n : Nat) : List α → List (α × Nat)
  | [] => [(a, n)]
  | b :: rest => if b = a then runsFrom a (n + 1) rest else (a, n) :: runsFrom b 1 rest

def runs : List α → List (α × Nat)
  | [] => []
  | a :: rest => runsFrom a 1 rest

end RunLength
