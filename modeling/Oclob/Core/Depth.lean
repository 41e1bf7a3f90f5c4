import Oclob.Core.Batch
import Oclob.Lib.Checked

/-!
# The published depth

Model of `validate_public_levels` in `oclob-core/src/lib.rs`.
-/

namespace Oclob.Core

open Oclob.Lib

/-- The loop of `validate_public_levels` after the level with key `previous`. -/
def checkLevels : Option (Nat ×ₗ Nat) → List PriceLevel → Except String Unit
  | _, [] => .ok ()
  | previous, level :: rest => do
    require (level.price ≠ 0 ∧ level.price < 2 ^ 32 ∧ level.quantity ≠ 0 ∧
      level.quantity ≤ (2 ^ 32 - 1) * (maxMatchSlots + 1)) "public depth is outside circuit bounds"
    require (previous.all (fun before => decide (before < level.sortKey)) = true)
      "public depth has duplicate or unordered levels"
    checkLevels (some level.sortKey) rest

/-- `validate_public_levels`. -/
def validatePublicLevels (levels : List PriceLevel) : Except String Unit := do
  require (levels.length ≤ maxMatchSlots + 1) "public depth exceeds circuit capacity"
  checkLevels none levels

end Oclob.Core
