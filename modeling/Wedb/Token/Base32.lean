import Mathlib.Data.List.Sort
import Mathlib.Tactic.IntervalCases
import Wedb.Lib.Positional

/-!
# File names of checkpoints

A checkpoint is named by a token of 128 bits, written as 26 characters of base 32 (`wbase::base32`): the first
character carries three bits and the others five each. The directory of the checkpoints is read back by the names
of the metadata files (`wcpr`).
-/

namespace Wedb.Token

open List Positional

abbrev Byte := UInt8

variable {t : Nat}

variable {dir : List (List Byte)}

end Wedb.Token
