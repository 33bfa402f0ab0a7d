import Mathlib.Data.Nat.Log
import Mathlib.Algebra.Ring.Nat
import Mathlib.Algebra.Order.Ring.Nat

namespace Binary64

-- A double by its fields: sign, biased exponent and fraction.
structure Double where
  negative : Bool
  exponent : Fin 2048
  fraction : Fin (2 ^ 52)
  deriving DecidableEq

def zero : Double := ⟨false,0,0⟩

def one : Double := ⟨false,1023,0⟩

def nan : Double := ⟨false,2047,1⟩

def isNaN (d : Double) : Bool := d.exponent.val == 2047 && d.fraction.val != 0

-- The value in units of 2 ^ -1074, the smallest difference of two doubles. An
-- infinity counts as the power of two after the largest finite value.
def magnitude (d : Double) : Nat :=
  if d.exponent.val = 0 then d.fraction.val else (2 ^ 52 + d.fraction.val) * 2 ^ (d.exponent.val - 1)

def scaled (d : Double) : Int := if d.negative then -(magnitude d : Int) else magnitude d

def bits (d : Double) : UInt64 :=
  UInt64.ofNat ((if d.negative then 2 ^ 63 else 0) + d.exponent.val * 2 ^ 52 + d.fraction.val)

def lt (a b : Double) : Bool := !isNaN a && !isNaN b && decide (scaled a < scaled b)

def le (a b : Double) : Bool := !isNaN a && !isNaN b && decide (scaled a ≤ scaled b)

-- A quotient by a power of two, to the nearest and on a tie to the even one.
def nearest (m shift : Nat) : Nat :=
  let q := m / 2 ^ shift
  let r := m % 2 ^ shift
  if 2 * r < 2 ^ shift ∨ 2 * r = 2 ^ shift ∧ q % 2 = 0 then q else q + 1

def pack (negative : Bool) (exponent significand : Nat) : Double :=
  if fits : exponent < 2047 then ⟨negative,⟨exponent,Nat.lt_succ_of_lt fits⟩,Fin.ofNat (2 ^ 52) significand⟩
  else ⟨negative,2047,0⟩

-- Conversion of an integer, rounded where it has more than 53 digits; a carry
-- out of the significand moves the exponent.
def ofInt (n : Int) : Double :=
  let m := n.natAbs
  if m = 0 then zero else
  let e := m.log2
  let significand := if e ≤ 52 then m * 2 ^ (52 - e) else nearest m (e - 52)
  pack (decide (n < 0)) (e + 1023 + significand / 2 ^ 53) significand

section Order

-- A test for being outside a range lets through what is inside it, and what is
-- no number at all.
theorem outside_false (low high : Double) (lower : isNaN low = false) (upper : isNaN high = false) (d : Double) :
    (lt d low || lt high d) = false ↔ isNaN d = true ∨ le low d = true ∧ le d high = true := by
  unfold lt le
  rw [lower,upper]
  cases isNaN d with
  | true => simp
  | false => simp

theorem lt_iff (first : isNaN a = false) (second : isNaN b = false) : lt a b = true ↔ scaled a < scaled b := by
  simp [lt,first,second]

theorem le_number (fits : le a b = true) : isNaN a = false ∧ isNaN b = false := by
  unfold le at fits
  cases first : isNaN a <;> cases second : isNaN b <;> simp_all

theorem magnitude_normal {d : Double} (normal : k + 1 ≤ d.exponent.val) : 2 ^ 52 * 2 ^ k ≤ magnitude d := by
  have some_ : d.exponent.val ≠ 0 := by omega
  unfold magnitude
  rw [if_neg some_]
  exact Nat.mul_le_mul (Nat.le_add_right _ _) (Nat.pow_le_pow_right (by decide) (by omega))

theorem pack_number (negative : Bool) (exponent significand : Nat) : isNaN (pack negative exponent significand) = false := by
  unfold pack isNaN
  split
  · rename_i fits
    have other : exponent ≠ 2047 := by omega
    simp [other]
  · simp

theorem pack_exponent (negative : Bool) (significand : Nat) (large : k ≤ exponent) (fits : k ≤ 2047) :
    k ≤ (pack negative exponent significand).exponent.val := by
  unfold pack
  split
  · exact large
  · exact fits

theorem pack_negative (negative : Bool) (exponent significand : Nat) :
    (pack negative exponent significand).negative = negative := by
  unfold pack
  split <;> rfl

end Order
section Integers

theorem ofInt_number (n : Int) : isNaN (ofInt n) = false := by
  unfold ofInt
  dsimp only
  split
  · rfl
  · exact pack_number _ _ _

theorem ofInt_sign {n : Int} (some_ : n ≠ 0) : (ofInt n).negative = decide (n < 0) := by
  unfold ofInt
  dsimp only
  rw [if_neg (by omega),pack_negative]

theorem ofInt_magnitude {n : Int} (large : 2 ^ k ≤ n.natAbs) (fits : k ≤ 1024) :
    2 ^ 52 * 2 ^ (k + 1022) ≤ magnitude (ofInt n) := by
  have some_ : n.natAbs ≠ 0 := by
    have := Nat.two_pow_pos k
    omega
  have digits : k ≤ n.natAbs.log2 := (Nat.le_log2 some_).mpr large
  apply magnitude_normal
  unfold ofInt
  dsimp only
  rw [if_neg some_]
  exact pack_exponent _ _ (by omega) (by omega)

theorem ofInt_below {n : Int} (below : n < 0) : lt (ofInt n) zero = true := by
  have size := ofInt_magnitude (n := n) (k := 0) (by simp; omega) (by decide)
  have positive : 0 < 2 ^ 52 * 2 ^ (0 + 1022) := by decide +kernel
  have value : scaled (ofInt n) = -(magnitude (ofInt n) : Int) := by
    rw [scaled,ofInt_sign (by omega),if_pos (by simpa using below)]
  refine (lt_iff (ofInt_number n) rfl).mpr ?_
  change scaled (ofInt n) < 0
  omega

theorem ofInt_above {n : Int} (above : 1 < n) : lt one (ofInt n) = true := by
  have size := ofInt_magnitude (n := n) (k := 1) (by omega) (by decide)
  have unit : magnitude one < 2 ^ 52 * 2 ^ (1 + 1022) := by decide +kernel
  have value : scaled (ofInt n) = magnitude (ofInt n) := by
    rw [scaled,ofInt_sign (by omega),if_neg (by simp; omega)]
  refine (lt_iff rfl (ofInt_number n)).mpr ?_
  change (magnitude one : Int) < _
  omega

end Integers
end Binary64
