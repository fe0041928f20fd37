import Mathlib.Algebra.GroupWithZero.Nat
import Mathlib.Algebra.Order.Monoid.Unbundled.Basic
import Mathlib.Data.List.Basic

/-!
# Lists cut down to a budget

Items are taken from the first one on as long as there is room for them. The first for which there
is not is trimmed to the room that is left, and nothing is taken after it.
-/

namespace Budget

variable {α β : Type*} (size : α → Nat) (trim : Nat → α → Option α)

def totalSize (xs : List α) : Nat := (xs.map size).sum

variable {size trim}

end Budget
