-- Numbers written as strings of bytes, the most significant byte first, and
-- integers in two's complement on a fixed number of bytes.
import Mathlib.Data.List.Induction
import Mathlib.Tactic.Ring
import Mathlib.Tactic.Linarith

namespace Digits

/-! ## Base 256 -/

/-- The number that a string of bytes writes in base 256. -/
def ofBytes (l : List UInt8) : Nat := l.foldl (fun n b => n * 256 + b.toNat) 0

/-- The last `n` base-256 digits of `v`. -/
def toBytes : Nat → Nat → List UInt8
  | 0, _ => []
  | n + 1, v => toBytes n (v / 256) ++ [UInt8.ofNat (v % 256)]

@[simp] theorem length_toBytes (n v : Nat) : (toBytes n v).length = n := by
  induction n generalizing v with
  | zero => rfl
  | succ n ih => simp [toBytes, ih]

theorem ofBytes_snoc (l : List UInt8) (b : UInt8) :
    ofBytes (l ++ [b]) = ofBytes l * 256 + b.toNat := by
  simp [ofBytes, List.foldl_append]

theorem ofBytes_lt (l : List UInt8) : ofBytes l < 256 ^ l.length := by
  induction l using List.reverseRecOn with
  | nil => simp [ofBytes]
  | append_singleton l b ih =>
    rw [ofBytes_snoc, List.length_append, List.length_singleton, pow_succ]
    have := b.toNat_lt
    omega

theorem ofBytes_toBytes (n v : Nat) : ofBytes (toBytes n v) = v % 256 ^ n := by
  induction n generalizing v with
  | zero => simp [toBytes, ofBytes, Nat.mod_one]
  | succ n ih =>
    calc ofBytes (toBytes (n + 1) v)
        = v / 256 % 256 ^ n * 256 + (UInt8.ofNat (v % 256)).toNat := by
          rw [toBytes, ofBytes_snoc, ih]
      _ = v % 256 + 256 * (v / 256 % 256 ^ n) := by simp; ring
      _ = v % 256 ^ (n + 1) := by rw [pow_succ', Nat.mod_mul]

theorem toBytes_ofBytes (l : List UInt8) : toBytes l.length (ofBytes l) = l := by
  induction l using List.reverseRecOn with
  | nil => rfl
  | append_singleton l b ih =>
    have hb := b.toNat_lt
    rw [List.length_append, List.length_singleton, toBytes, ofBytes_snoc]
    have hdiv : (ofBytes l * 256 + b.toNat) / 256 = ofBytes l := by omega
    have hmod : (ofBytes l * 256 + b.toNat) % 256 = b.toNat := by omega
    rw [hdiv, hmod, ih]
    simp

/-- The last two digits of a number, and those before them. -/
theorem toBytes_add_two (n v : Nat) : toBytes (n + 2) v = toBytes n (v / 256 ^ 2) ++ toBytes 2 v := by
  simp only [toBytes, Nat.div_div_eq_div_mul, List.nil_append, List.append_assoc]
  rfl

/-! ## Two's complement -/

/-- The representation of `z` on `n` bytes. -/
def wrap (n : Nat) (z : Int) : Nat := (z % 256 ^ n).toNat

/-- The integer that `w` represents on `n` bytes, when the top bit is the sign. -/
def signed (n w : Nat) : Int := if 2 * w < 256 ^ n then w else w - 256 ^ n

theorem pow_pos' (n : Nat) : (0 : Int) < 256 ^ n := by positivity

theorem wrap_lt (n : Nat) (z : Int) : wrap n z < 256 ^ n := by
  have h0 := Int.emod_nonneg z (pow_pos' n).ne'
  have h1 := Int.emod_lt_of_pos z (pow_pos' n)
  unfold wrap
  zify
  omega

theorem wrap_of_nonneg {n : Nat} {z : Int} (h0 : 0 ≤ z) (h1 : z < 256 ^ n) :
    (wrap n z : Int) = z := by
  unfold wrap
  rw [Int.emod_eq_of_lt h0 h1]
  omega

theorem signed_wrap {n : Nat} {z : Int} (h0 : -256 ^ n ≤ 2 * z) (h1 : 2 * z < 256 ^ n) :
    signed n (wrap n z) = z := by
  have hp := pow_pos' n
  rcases Int.lt_or_le z 0 with hz | hz
  · have hw : (wrap n z : Int) = z + 256 ^ n := by
      unfold wrap
      rw [← Int.add_emod_right, Int.emod_eq_of_lt (by omega) (by omega)]
      omega
    unfold signed
    have : ¬ 2 * wrap n z < 256 ^ n := by zify; omega
    rw [if_neg this, hw]
    omega
  · have hw := wrap_of_nonneg hz (by omega : z < 256 ^ n)
    unfold signed
    have : 2 * wrap n z < 256 ^ n := by zify; omega
    rw [if_pos this, hw]

theorem wrap_natCast {n w : Nat} (h : w < 256 ^ n) : wrap n (w : Int) = w := by
  have hw := wrap_of_nonneg (z := (w : Int)) (Int.natCast_nonneg w) (by exact_mod_cast h)
  exact_mod_cast hw

theorem wrap_signed {n w : Nat} (h : w < 256 ^ n) : wrap n (signed n w) = w := by
  unfold signed
  split
  · exact wrap_natCast h
  · have hshift : ((w : Int) - 256 ^ n) % 256 ^ n = w % 256 ^ n := Int.sub_emod_right _ _
    have hw := wrap_natCast h
    unfold wrap at hw ⊢
    rw [hshift, hw]

end Digits
