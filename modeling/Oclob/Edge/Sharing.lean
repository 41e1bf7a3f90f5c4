import Mathlib.Algebra.Module.Basic
import Mathlib.Data.ZMod.Basic
import Oclob.Core.Wire
import Oclob.Edge.Decimal
import Oclob.Edge.Manifest

/-!
# Scalars and commitments of the edge

Model of the scalars and polynomials of `oclob-edge/src/lib.rs`: a scalar travels as 32 bytes,
least significant first (`scalarBytes`), and is read back from canonical bytes only
(`canonicalScalar`); a secret is the constant of a polynomial of degree two, to whose coefficients
the manifest commits (`EdgeSuite.combine` evaluates them in the group). The group and its encoding
belong to another crate: `EdgeSuite` names them.
-/

namespace Oclob.Edge

open Oclob.Core Oclob.Lib

/-! ## Scalars -/

/-- `Scalar`. -/
abbrev Scalar := ZMod scalarOrder

instance : NeZero scalarOrder := ⟨by decide⟩

/-- `Scalar::to_bytes`. -/
def scalarBytes (scalar : Scalar) : Digest32 :=
  Fin.ofNat (2 ^ 256) (fromBeBytes (toBeBytes 32 scalar.val).reverse)

/-- `canonical_scalar`. -/
def canonicalScalar (bytes : Digest32) : Except EdgeError Scalar :=
  if leValue bytes.bytes < scalarOrder then .ok (leValue bytes.bytes) else .error .share

theorem leValue_reverse (bytes : Bytes) : leValue bytes.reverse = fromBeBytes bytes := by
  induction bytes using List.reverseRecOn with
  | nil => rfl
  | append_singleton bytes byte ih =>
    rw [List.reverse_append, List.reverse_singleton, List.singleton_append, leValue, List.map_cons,
      Nat.ofDigits_cons, ← leValue, ih, fromBeBytes_concat]
    ring

theorem bytes_scalarBytes (scalar : Scalar) :
    (scalarBytes scalar).bytes = (toBeBytes 32 scalar.val).reverse := by
  have hlength : (toBeBytes 32 scalar.val).reverse.length = 32 := by simp
  have hlt := fromBeBytes_lt (toBeBytes 32 scalar.val).reverse
  have hback := toBeBytes_fromBeBytes (toBeBytes 32 scalar.val).reverse
  rw [hlength] at hlt hback
  have hbound : fromBeBytes (toBeBytes 32 scalar.val).reverse < 2 ^ 256 := hlt
  have hmod := Nat.mod_eq_of_lt hbound
  rw [Digest32.bytes, scalarBytes, Fin.val_ofNat, hmod, hback]

@[simp] theorem leValue_scalarBytes (scalar : Scalar) :
    leValue (scalarBytes scalar).bytes = scalar.val := by
  have hlt : scalar.val < 256 ^ 32 := (ZMod.val_lt scalar).trans (by decide)
  rw [bytes_scalarBytes, leValue_reverse, fromBeBytes_toBeBytes, Nat.mod_eq_of_lt hlt]

@[simp] theorem canonicalScalar_scalarBytes (scalar : Scalar) :
    canonicalScalar (scalarBytes scalar) = .ok scalar := by
  rw [canonicalScalar, leValue_scalarBytes, if_pos (ZMod.val_lt scalar), ZMod.natCast_zmod_val]

/-- `[Scalar; VSS_COEFFICIENTS]`. -/
structure Coefficients where
  constant : Scalar
  linear : Scalar
  quadratic : Scalar

/-- `evaluate`. -/
def evaluate (coefficients : Coefficients) (x : Scalar) : Scalar :=
  coefficients.constant + coefficients.linear * x + coefficients.quadratic * x * x

/-! ## Commitments -/

/-- The group of the edge's commitments, from another crate. -/
structure EdgeSuite (G : Type) where
  /-- `RISTRETTO_BASEPOINT_POINT`. -/
  basepoint : G
  compress : G → Digest32
  decompress : Digest32 → Option G

namespace EdgeSuite

variable {G : Type} [AddCommGroup G] [Module Scalar G]

/-- The loop over the coefficients: `right += point * power; power *= x`. -/
def combine (suite : EdgeSuite G) (x : Scalar) : List Digest32 → Scalar → G → Except EdgeError G
  | [], _, right => .ok right
  | encoded :: rest, power, right => do
    let point ← okOr (suite.decompress encoded) .manifest
    suite.combine x rest (power * x) (right + power • point)

end EdgeSuite

end Oclob.Edge
