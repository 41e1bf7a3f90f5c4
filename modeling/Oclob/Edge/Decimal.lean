import Mathlib.Data.Nat.Digits.Defs
import Mathlib.Tactic.Ring
import Oclob.Core.Order

/-!
# Scalars in decimal

Model of `scalar_le_bytes_to_decimal` in `oclob-edge/src/lib.rs`: the bytes, most significant
first, are multiplied into limbs of nine decimal digits, least significant limb first, and the
limbs are printed from the top, each but the first with its leading zeros.

`scalarLeBytesToDecimal_eq` says that the text is the decimal of the little-endian number, for
bytes of any number; `scalarLeBytesToDecimal_exact` adds that the text is canonical and that the
loop on `u32` limbs and a `u64` carry never overflows. A limb is below `limbBase` after every byte
(`pushByte_lt`), so that the carry stays a byte.
-/

namespace Oclob.Edge

open Oclob.Core Oclob.Lib

/-- `BASE`. -/
def limbBase : Nat := 1000000000

/-- The inner `for`: every limb times 256, with the carry of the limb below; and the last carry. -/
def mulLimbs : List Nat → Nat → List Nat × Nat
  | [], carry => ([], carry)
  | limb :: limbs, carry =>
    let next := limb * 256 + carry
    let after := mulLimbs limbs (next / limbBase)
    (next % limbBase :: after.1, after.2)

/-- The inner `while`: the limbs of the carry, in at most `turns` turns. -/
def carryLimbs : Nat → Nat → List Nat
  | 0, _ => []
  | turns + 1, carry =>
    if carry = 0 then [] else carry % limbBase :: carryLimbs turns (carry / limbBase)

/-- One turn of the outer `for`. -/
def pushByte (limbs : List Nat) (byte : UInt8) : List Nat :=
  let after := mulLimbs limbs byte.toNat
  after.1 ++ carryLimbs after.2 after.2

/-- The second `while`, on the limbs from the top: leading zero limbs go, one limb stays. -/
def popZeros : List Nat → List Nat
  | 0 :: limb :: limbs => popZeros (limb :: limbs)
  | limbs => limbs

/-- `format!("{limb:09}")`. -/
def padLimb (limb : Nat) : String := String.ofList ((Nat.toDigits 10 limb).leftpad 9 '0')

/-- `scalar_le_bytes_to_decimal`. -/
def scalarLeBytesToDecimal (bytes : Bytes) : String :=
  match popZeros (bytes.reverse.foldl pushByte [0]).reverse with
  | [] => toString 0
  | top :: limbs => limbs.foldl (fun output limb => output ++ padLimb limb) (toString top)

/-- The little-endian number of the bytes. -/
def leValue (bytes : Bytes) : Nat := Nat.ofDigits 256 (bytes.map UInt8.toNat)

/-! ## The limbs -/

theorem mulLimbs_value (limbs : List Nat) (carry : Nat) :
    Nat.ofDigits limbBase (mulLimbs limbs carry).1 +
      limbBase ^ (mulLimbs limbs carry).1.length * (mulLimbs limbs carry).2 =
      256 * Nat.ofDigits limbBase limbs + carry := by
  induction limbs generalizing carry with
  | nil => simp [mulLimbs]
  | cons limb limbs ih =>
    have hrest := ih ((limb * 256 + carry) / limbBase)
    have hsplit := Nat.mod_add_div (limb * 256 + carry) limbBase
    simp only [mulLimbs, Nat.ofDigits_cons, List.length_cons, pow_succ]
    generalize mulLimbs limbs ((limb * 256 + carry) / limbBase) = after at hrest
    calc (limb * 256 + carry) % limbBase + limbBase * Nat.ofDigits limbBase after.1 +
          limbBase ^ after.1.length * limbBase * after.2
        = (limb * 256 + carry) % limbBase +
            limbBase * (Nat.ofDigits limbBase after.1 + limbBase ^ after.1.length * after.2) := by
          ring
      _ = (limb * 256 + carry) % limbBase + limbBase * ((limb * 256 + carry) / limbBase) +
            limbBase * (256 * Nat.ofDigits limbBase limbs) := by rw [hrest]; ring
      _ = 256 * (limb + limbBase * Nat.ofDigits limbBase limbs) + carry := by rw [hsplit]; ring

variable {limbs : List Nat} {carry limb n : Nat}

theorem mulLimbs_lt (h : limb ∈ (mulLimbs limbs carry).1) :
    limb < limbBase := by
  induction limbs generalizing carry with
  | nil => exact absurd h List.not_mem_nil
  | cons first limbs ih =>
    rcases List.mem_cons.mp h with rfl | h
    · exact Nat.mod_lt _ (by decide)
    · exact ih h

theorem carryLimbs_value {turns : Nat} (h : carry ≤ turns) :
    Nat.ofDigits limbBase (carryLimbs turns carry) = carry := by
  induction turns generalizing carry with
  | zero => simp [carryLimbs, Nat.le_zero.mp h]
  | succ turns ih =>
    unfold carryLimbs
    split_ifs with hzero
    · simp [hzero]
    · have hless : carry / limbBase < carry := Nat.div_lt_self (by omega) (by decide)
      rw [Nat.ofDigits_cons, ih (by omega), Nat.mod_add_div]

theorem carryLimbs_lt {turns : Nat} (h : limb ∈ carryLimbs turns carry) :
    limb < limbBase := by
  induction turns generalizing carry with
  | zero => exact absurd h List.not_mem_nil
  | succ turns ih =>
    unfold carryLimbs at h
    split_ifs at h with hzero
    · exact absurd h List.not_mem_nil
    · rcases List.mem_cons.mp h with rfl | h
      · exact Nat.mod_lt _ (by decide)
      · exact ih h

theorem pushByte_value (limbs : List Nat) (byte : UInt8) :
    Nat.ofDigits limbBase (pushByte limbs byte) =
      256 * Nat.ofDigits limbBase limbs + byte.toNat := by
  rw [pushByte, Nat.ofDigits_append, carryLimbs_value le_rfl, mulLimbs_value]

theorem pushByte_lt {byte : UInt8}
    (h : limb ∈ pushByte limbs byte) : limb < limbBase := by
  rcases List.mem_append.mp h with h | h
  · exact mulLimbs_lt h
  · exact carryLimbs_lt h

/-- The outer loop collects the number and keeps the limbs small. -/
theorem foldl_pushByte (bytes : Bytes) :
    Nat.ofDigits limbBase (bytes.reverse.foldl pushByte [0]) = leValue bytes ∧
      ∀ limb ∈ bytes.reverse.foldl pushByte [0], limb < limbBase := by
  rw [List.foldl_reverse]
  induction bytes with
  | nil => exact ⟨rfl, by decide⟩
  | cons byte bytes ih =>
    refine ⟨?_, fun limb h => pushByte_lt h⟩
    rw [List.foldr_cons, pushByte_value, ih.1, leValue, leValue, List.map_cons, Nat.ofDigits_cons,
      add_comm]

/-! ## The text -/

/-- The number of limbs from the top, after a number. -/
def topValue (value : Nat) (limbs : List Nat) : Nat :=
  limbs.foldl (fun value limb => limbBase * value + limb) value

theorem topValue_reverse (limbs : List Nat) :
    topValue 0 limbs.reverse = Nat.ofDigits limbBase limbs := by
  rw [topValue, List.foldl_reverse]
  induction limbs with
  | nil => rfl
  | cons limb limbs ih => rw [List.foldr_cons, ih, Nat.ofDigits_cons, add_comm]

theorem popZeros_spec (limbs : List Nat) :
    topValue 0 (popZeros limbs) = topValue 0 limbs ∧ (∀ limb ∈ popZeros limbs, limb ∈ limbs) ∧
      (∀ top rest, popZeros limbs = top :: rest → top = 0 → rest = []) := by
  fun_induction popZeros limbs with
  | case1 limb limbs ih =>
    refine ⟨ih.1, fun x hx => List.mem_cons_of_mem _ (ih.2.1 x hx), ih.2.2⟩
  | case2 limbs hne =>
    refine ⟨rfl, fun _ h => h, ?_⟩
    rintro top rest rfl rfl
    cases rest with
    | nil => rfl
    | cons limb limbs => exact absurd rfl (hne limb limbs)

/-- The last digit of a padded number. -/
theorem leftpad_toDigits (m width : Nat) (hwidth : 0 < width) :
    (Nat.toDigits 10 m).leftpad (width + 1) '0' =
      (Nat.toDigits 10 (m / 10)).leftpad width '0' ++ Nat.toDigits 10 (m % 10) := by
  rcases Nat.lt_or_ge m 10 with hm | hm
  · obtain ⟨width, rfl⟩ := Nat.exists_eq_succ_of_ne_zero hwidth.ne'
    rw [Nat.div_eq_of_lt hm, Nat.mod_eq_of_lt hm, Nat.toDigits_of_lt_base hm]
    simp [List.leftpad, List.replicate_succ']
  · have hsplit := @Nat.toDigits_append_toDigits 10 (m / 10) (m % 10) (by decide) (by omega)
      (Nat.mod_lt m (by decide))
    rw [Nat.div_add_mod] at hsplit
    rw [← hsplit, Nat.toDigits_of_lt_base (Nat.mod_lt m (by decide))]
    simp [List.leftpad]

/-- A number followed by `width` more digits, with their leading zeros. -/
theorem toDigits_append_leftpad {m width : Nat} (hn : 0 < n) (hm : m < 10 ^ (width + 1)) :
    Nat.toDigits 10 n ++ (Nat.toDigits 10 m).leftpad (width + 1) '0' =
      Nat.toDigits 10 (10 ^ (width + 1) * n + m) := by
  induction width generalizing m with
  | zero =>
    have hm : m < 10 := by simpa using hm
    rw [zero_add, pow_one, ← Nat.toDigits_append_toDigits (by decide) hn hm,
      Nat.toDigits_of_lt_base hm]
    rfl
  | succ width ih =>
    -- split the last digit off both numbers
    have hdiv : m / 10 < 10 ^ (width + 1) := by
      rw [pow_succ] at hm
      exact Nat.div_lt_of_lt_mul (by rwa [mul_comm])
    have hmod : m % 10 < 10 := Nat.mod_lt m (by decide)
    have hpad := leftpad_toDigits m (width + 1) (Nat.succ_pos width)
    have hnumber : 10 ^ (width + 1 + 1) * n + m =
        10 * (10 ^ (width + 1) * n + m / 10) + m % 10 := by
      rw [pow_succ]
      have := Nat.div_add_mod m 10
      linarith
    have hpos : 0 < 10 ^ (width + 1) * n + m / 10 :=
      Nat.add_pos_left (Nat.mul_pos (Nat.pow_pos (by decide)) hn) _
    rw [hpad, hnumber, ← Nat.toDigits_append_toDigits (by decide) hpos hmod, ← ih hdiv,
      List.append_assoc]

theorem append_padLimb (hn : 0 < n) (hlimb : limb < limbBase) :
    toString n ++ padLimb limb = toString (limbBase * n + limb) := by
  have hdigits := toDigits_append_leftpad hn (show limb < 10 ^ (8 + 1) from hlimb)
  refine String.toList_injective ?_
  simpa [padLimb, String.toList_append, limbBase] using hdigits

theorem foldl_padLimb (hn : 0 < n)
    (hlimbs : ∀ limb ∈ limbs, limb < limbBase) :
    limbs.foldl (fun output limb => output ++ padLimb limb) (toString n) =
      toString (topValue n limbs) := by
  induction limbs generalizing n with
  | nil => rfl
  | cons limb limbs ih =>
    rw [List.foldl_cons, append_padLimb hn (hlimbs limb List.mem_cons_self)]
    exact ih (Nat.add_pos_left (Nat.mul_pos (by decide) hn) _)
      fun l hl => hlimbs l (List.mem_cons_of_mem _ hl)

/-- **The text is the decimal of the little-endian number.** -/
theorem scalarLeBytesToDecimal_eq (bytes : Bytes) :
    scalarLeBytesToDecimal bytes = toString (leValue bytes) := by
  obtain ⟨hvalue, hlt⟩ := foldl_pushByte bytes
  obtain ⟨htop, hmem, hzero⟩ := popZeros_spec (bytes.reverse.foldl pushByte [0]).reverse
  rw [topValue_reverse, hvalue] at htop
  rw [scalarLeBytesToDecimal]
  generalize popZeros _ = limbs at *
  cases limbs with
  | nil => exact congrArg toString htop
  | cons top rest =>
    have hfirst : topValue 0 (top :: rest) = topValue top rest := by
      rw [topValue, List.foldl_cons, mul_zero, zero_add, topValue]
    rw [hfirst] at htop
    rcases Nat.eq_zero_or_pos top with hnone | hpos
    · rw [hzero top rest rfl hnone] at htop ⊢
      exact congrArg toString htop
    · have hrest : ∀ limb ∈ rest, limb < limbBase := fun limb h =>
        hlt limb (List.mem_reverse.mp (hmem limb (List.mem_cons_of_mem _ h)))
      rw [← htop]
      exact foldl_padLimb hpos hrest

/-! ## Machine integers

The source keeps a limb in a `u32` and the carry in a `u64`. -/

/-- `n as u32`, or `none` where the cast would lose bits. -/
def narrow (n : Nat) : Option Nat := if n < 2 ^ 32 then some n else none

/-- `mulLimbs` on machine integers, `none` where a step overflows. -/
def mulLimbsChecked : List Nat → Nat → Option (List Nat × Nat)
  | [], carry => some ([], carry)
  | limb :: limbs, carry => do
    let next ← checkedAdd (← checkedMul limb 256) carry
    let low ← narrow (next % limbBase)
    let after ← mulLimbsChecked limbs (next / limbBase)
    return (low :: after.1, after.2)

/-- `carryLimbs` on machine integers. -/
def carryLimbsChecked : Nat → Nat → Option (List Nat)
  | 0, _ => some []
  | turns + 1, carry =>
    if carry = 0 then some [] else do
      let low ← narrow (carry % limbBase)
      return low :: (← carryLimbsChecked turns (carry / limbBase))

/-- `pushByte` on machine integers. -/
def pushByteChecked (limbs : List Nat) (byte : UInt8) : Option (List Nat) := do
  let after ← mulLimbsChecked limbs byte.toNat
  return after.1 ++ (← carryLimbsChecked after.2 after.2)

/-- `scalar_le_bytes_to_decimal` on machine integers: `none` where a limb computation overflows. -/
def scalarLeBytesToDecimalChecked (bytes : Bytes) : Option String := do
  match popZeros (← bytes.reverse.foldlM pushByteChecked [0]).reverse with
  | [] => return toString 0
  | top :: limbs =>
    return limbs.foldl (fun output limb => output ++ padLimb limb) (toString top)

theorem narrow_mod (n : Nat) : narrow (n % limbBase) = some (n % limbBase) :=
  if_pos (lt_of_lt_of_le (Nat.mod_lt n (by decide)) (by decide))

/-- The carry never exceeds a byte, so that `next` stays far below `2 ^ 64`. -/
theorem mulLimbsChecked_eq (hlimbs : ∀ limb ∈ limbs, limb < limbBase) (hcarry : carry < 256) :
    mulLimbsChecked limbs carry = some (mulLimbs limbs carry) := by
  induction limbs generalizing carry with
  | nil => rfl
  | cons limb limbs ih =>
    have hlimb : limb < 1000000000 := hlimbs limb List.mem_cons_self
    have hmul : checkedMul limb 256 = some (limb * 256) :=
      checkedMul_eq_some.mpr ⟨by unfold u64Bound; omega, rfl⟩
    have hadd : checkedAdd (limb * 256) carry = some (limb * 256 + carry) :=
      checkedAdd_eq_some.mpr ⟨by unfold u64Bound; omega, rfl⟩
    have hnext : (limb * 256 + carry) / limbBase < 256 :=
      Nat.div_lt_of_lt_mul (by unfold limbBase; omega)
    have hrest := ih (fun l hl => hlimbs l (List.mem_cons_of_mem _ hl)) hnext
    simp [mulLimbsChecked, mulLimbs, hmul, hadd, narrow_mod, hrest]

theorem carryLimbsChecked_eq (turns carry : Nat) :
    carryLimbsChecked turns carry = some (carryLimbs turns carry) := by
  induction turns generalizing carry with
  | zero => rfl
  | succ turns ih =>
    unfold carryLimbsChecked carryLimbs
    split_ifs
    · rfl
    · simp [narrow_mod, ih]

theorem foldlM_pushByteChecked {bytes : Bytes} (hlimbs : ∀ limb ∈ limbs, limb < limbBase) :
    bytes.foldlM pushByteChecked limbs = some (bytes.foldl pushByte limbs) := by
  induction bytes generalizing limbs with
  | nil => rfl
  | cons byte bytes ih =>
    have hpush : pushByteChecked limbs byte = some (pushByte limbs byte) := by
      simp [pushByteChecked, pushByte, mulLimbsChecked_eq hlimbs byte.toNat_lt,
        carryLimbsChecked_eq]
    rw [List.foldlM_cons, hpush]
    exact ih fun limb => pushByte_lt

theorem head?_toDigits_ne (hn : 0 < n) : (Nat.toDigits 10 n).head? ≠ some '0' := by
  induction n using Nat.strong_induction_on with
  | _ n ih =>
    rcases Nat.lt_or_ge n 10 with hlt | hge
    · rw [Nat.toDigits_of_lt_base hlt]
      have hdigit : ∀ m < 10, 0 < m → [m.digitChar].head? ≠ some '0' := by decide
      exact hdigit n hlt hn
    · have hdiv : 0 < n / 10 := by omega
      have hsplit := @Nat.toDigits_append_toDigits 10 (n / 10) (n % 10) (by decide) hdiv
        (Nat.mod_lt n (by decide))
      rw [Nat.div_add_mod] at hsplit
      have hrest := ih (n / 10) (by omega) hdiv
      rw [← hsplit]
      cases hdigits : Nat.toDigits 10 (n / 10) with
      | nil => exact absurd hdigits Nat.toDigits_ne_nil
      | cons digit digits => rwa [hdigits] at hrest

/-- **`scalar_le_bytes_to_decimal` is exact**: on machine integers no limb computation overflows
and the text is the decimal of the little-endian number, `"0"` for zero and without a leading
zero for every other number. -/
theorem scalarLeBytesToDecimal_exact (bytes : Bytes) :
    scalarLeBytesToDecimalChecked bytes = some (scalarLeBytesToDecimal bytes) ∧
      scalarLeBytesToDecimal bytes = toString (leValue bytes) ∧
      (leValue bytes = 0 → scalarLeBytesToDecimal bytes = "0") ∧
      (0 < leValue bytes → (scalarLeBytesToDecimal bytes).toList.head? ≠ some '0') := by
  have htext := scalarLeBytesToDecimal_eq bytes
  refine ⟨?_, htext, fun hzero => by rw [htext, hzero]; rfl, fun hpos => ?_⟩
  · rw [scalarLeBytesToDecimalChecked, foldlM_pushByteChecked (by decide), scalarLeBytesToDecimal]
    rw [Option.bind_eq_bind, Option.bind_some]
    split <;> rfl
  · rw [htext]
    simpa using head?_toDigits_ne hpos

end Oclob.Edge
