-- Registers that divide a string of bits by a polynomial over GF(2). A bit comes in at the low
-- end, the register moves down by one place, and the polynomial is added when the bit that falls
-- out is set.
import Mathlib.Data.Nat.Bitwise
import Mathlib.Logic.Function.Iterate

namespace ShiftRegisters

/-- The register moves down by one place. -/
def shift (poly crc : Nat) : Nat := if crc &&& 1 ≠ 0 then (crc >>> 1) ^^^ poly else crc >>> 1

/-- The register after a string of bits. -/
def feed (poly : Nat) : Nat → List Bool → Nat
  | crc, [] => crc
  | crc, b :: bits => feed poly (shift poly (crc ^^^ b.toNat)) bits

/-- The number with these bits, the lowest bit first. -/
def number : List Bool → Nat
  | [] => 0
  | b :: bits => b.toNat ^^^ (number bits <<< 1)

variable {poly : Nat}

/-! ## Shifts are linear -/

theorem shift_eq (crc : Nat) :
    shift poly crc = (crc >>> 1) ^^^ (if crc.testBit 0 then poly else 0) := by
  unfold shift
  rw [Nat.and_one_is_mod, Nat.testBit_zero]
  rcases Nat.mod_two_eq_zero_or_one crc with h | h <;> simp [h]

@[simp] theorem shift_zero : shift poly 0 = 0 := by simp [shift]

theorem shift_xor (a b : Nat) : shift poly (a ^^^ b) = shift poly a ^^^ shift poly b := by
  simp only [shift_eq, Nat.shiftRight_xor_distrib, Nat.testBit_xor]
  have hswap : ∀ p q r s : Nat, p ^^^ q ^^^ (r ^^^ s) = p ^^^ r ^^^ (q ^^^ s) := by
    intro p q r s
    rw [Nat.xor_assoc, Nat.xor_assoc, ← Nat.xor_assoc q r s, Nat.xor_comm q r, Nat.xor_assoc r q s]
  rw [hswap]
  congr 1
  cases a.testBit 0 <;> cases b.testBit 0 <;> simp

theorem iterate_shift_zero (n : Nat) : (shift poly)^[n] 0 = 0 :=
  Function.iterate_fixed shift_zero n

theorem iterate_shift_xor (n a b : Nat) :
    (shift poly)^[n] (a ^^^ b) = (shift poly)^[n] a ^^^ (shift poly)^[n] b := by
  induction n generalizing a b with
  | zero => rfl
  | succ n ih => rw [Function.iterate_succ_apply, Function.iterate_succ_apply,
      Function.iterate_succ_apply, shift_xor, ih]

theorem shift_shiftLeft (a : Nat) : shift poly (a <<< 1) = a := by
  rw [shift_eq, Nat.shiftLeft_shiftRight]
  simp

/-- A number whose lowest `n` bits are clear moves down by `n` places. -/
theorem iterate_shift_shiftLeft (n a : Nat) : (shift poly)^[n] (a <<< n) = a := by
  induction n with
  | zero => rfl
  | succ n ih => rw [Function.iterate_succ_apply, Nat.shiftLeft_add a n 1, shift_shiftLeft, ih]

/-- The lowest `n` bits go through the polynomial, the others only move down. -/
theorem iterate_shift_split (n a : Nat) :
    (shift poly)^[n] a = (shift poly)^[n] (a % 2 ^ n) ^^^ (a >>> n) := by
  have hsplit : a = a % 2 ^ n ^^^ ((a >>> n) <<< n) := by
    apply Nat.eq_of_testBit_eq
    intro i
    rw [Nat.testBit_xor, Nat.testBit_mod_two_pow, Nat.testBit_shiftLeft, Nat.testBit_shiftRight]
    rcases Nat.lt_or_ge i n with h | h
    · simp [h, Nat.not_le.mpr h]
    · simp [h, Nat.not_lt.mpr h]
  calc (shift poly)^[n] a
      = (shift poly)^[n] (a % 2 ^ n ^^^ ((a >>> n) <<< n)) := by rw [← hsplit]
    _ = (shift poly)^[n] (a % 2 ^ n) ^^^ (a >>> n) := by
      rw [iterate_shift_xor, iterate_shift_shiftLeft]

/-! ## Strings of bits -/

theorem testBit_number (bits : List Bool) (i : Nat) :
    (number bits).testBit i = bits.getD i false := by
  induction bits generalizing i with
  | nil => simp [number]
  | cons b bits ih =>
    rw [number, Nat.testBit_xor, Nat.testBit_shiftLeft]
    cases i with
    | zero => cases b <;> simp
    | succ i =>
      have hb : b.toNat.testBit (i + 1) = false := by
        cases b <;> simp [Nat.testBit_succ]
      simp [hb, ih]

theorem number_map_testBit (n a : Nat) : number ((List.range n).map a.testBit) = a % 2 ^ n := by
  apply Nat.eq_of_testBit_eq
  intro i
  rw [testBit_number, Nat.testBit_mod_two_pow, List.getD_eq_getElem?_getD, List.getElem?_map]
  rcases Nat.lt_or_ge i n with h | h
  · simp [h]
  · simp [Nat.not_lt.mpr h]

theorem number_eq_zero {bits : List Bool} (h : number bits = 0) : true ∉ bits := by
  intro hmem
  obtain ⟨i, hi, hbit⟩ := List.getElem_of_mem hmem
  have hset := testBit_number bits i
  rw [h, Nat.zero_testBit, List.getD_eq_getElem _ _ hi, hbit] at hset
  cases hset

/-- A string of bits goes into the register as its number, and then the register moves. -/
theorem feed_eq (crc : Nat) (bits : List Bool) :
    feed poly crc bits = (shift poly)^[bits.length] (crc ^^^ number bits) := by
  induction bits generalizing crc with
  | nil => simp [feed, number]
  | cons b bits ih =>
    rw [feed, ih, List.length_cons, Function.iterate_succ_apply, number, ← Nat.xor_assoc,
      shift_xor (crc ^^^ b.toNat), shift_shiftLeft]

theorem feed_append (crc : Nat) (xs ys : List Bool) :
    feed poly crc (xs ++ ys) = feed poly (feed poly crc xs) ys := by
  induction xs generalizing crc with
  | nil => rfl
  | cons x xs ih => exact ih _

/-- Two strings of one length: the registers differ by what their difference leaves in a register
that starts with the difference of the two. -/
theorem feed_xor (a b : Nat) {xs ys : List Bool} (hlen : xs.length = ys.length) :
    feed poly a xs ^^^ feed poly b ys = feed poly (a ^^^ b) (List.zipWith xor xs ys) := by
  induction xs generalizing a b ys with
  | nil =>
    cases List.length_eq_zero_iff.mp hlen.symm
    rfl
  | cons x xs ih =>
    cases ys with
    | nil => simp at hlen
    | cons y ys =>
      have hbit : a ^^^ x.toNat ^^^ (b ^^^ y.toNat) = a ^^^ b ^^^ (x ^^ y).toNat := by
        have hxy : (x ^^ y).toNat = x.toNat ^^^ y.toNat := by cases x <;> cases y <;> rfl
        rw [hxy, Nat.xor_assoc, Nat.xor_assoc, ← Nat.xor_assoc x.toNat, Nat.xor_comm x.toNat,
          Nat.xor_assoc b]
      rw [feed, feed, ih _ _ (by simpa using hlen), ← shift_xor, hbit]
      rfl

/-! ## Detection of errors -/

section Detection

variable {m : Nat} (hpoly : poly < 2 ^ (m + 1)) (htop : poly.testBit m = true)

theorem shift_lt {w a : Nat} (hpoly : poly < 2 ^ w) (ha : a < 2 ^ w) : shift poly a < 2 ^ w := by
  rw [shift_eq]
  apply Nat.xor_lt_two_pow
  · exact Nat.lt_of_le_of_lt (Nat.shiftRight_le a 1) ha
  · split
    · exact hpoly
    · exact Nat.two_pow_pos w

include htop

/-- The polynomial sets the top bit, so no register but the zero one moves down to zero. -/
theorem shift_ne_zero {a : Nat} (ha : a < 2 ^ (m + 1)) (hne : a ≠ 0) : shift poly a ≠ 0 := by
  intro hzero
  rw [shift_eq] at hzero
  have hhigh : (a >>> 1).testBit m = false := by
    rw [Nat.testBit_shiftRight]
    exact Nat.testBit_lt_two_pow (by rw [Nat.add_comm 1 m]; exact ha)
  cases hlow : a.testBit 0 with
  | true =>
    rw [hlow] at hzero
    have hm := congrArg (fun n => n.testBit m) hzero
    simp [Nat.testBit_xor, hhigh, htop] at hm
  | false =>
    rw [hlow] at hzero
    simp only [Bool.false_eq_true, if_false, Nat.xor_zero] at hzero
    rw [Nat.testBit_zero, decide_eq_false_iff_not] at hlow
    rw [Nat.shiftRight_eq_div_pow] at hzero
    omega

include hpoly

theorem iterate_shift_ne_zero (n : Nat) {a : Nat} (ha : a < 2 ^ (m + 1)) (hne : a ≠ 0) :
    (shift poly)^[n] a ≠ 0 := by
  induction n generalizing a with
  | zero => exact hne
  | succ n ih =>
    rw [Function.iterate_succ_apply]
    exact ih (shift_lt hpoly ha) (shift_ne_zero htop ha hne)

/-- A burst of errors that is no longer than the register leaves something in it. -/
theorem feed_burst_ne_zero {errors : List Bool} {start : Nat} (hsome : true ∈ errors)
    (hwithin : ∀ i, errors.getD i false = true → start ≤ i ∧ i < start + (m + 1)) :
    feed poly 0 errors ≠ 0 := by
  obtain ⟨k, hk, hbit⟩ := List.getElem_of_mem hsome
  have hstart : start ≤ errors.length := by
    have := (hwithin k (by rw [List.getD_eq_getElem _ _ hk, hbit])).1
    omega
  have hout : ∀ i, i < start ∨ start + (m + 1) ≤ i → (number errors).testBit i = false := by
    intro i hi
    rw [testBit_number]
    cases hset : errors.getD i false with
    | false => rfl
    | true =>
      have := hwithin i hset
      omega
  have hlt : number errors >>> start < 2 ^ (m + 1) := by
    apply Nat.lt_pow_two_of_testBit
    intro i hi
    rw [Nat.testBit_shiftRight]
    exact hout _ (by omega)
  have hmove : number errors = (number errors >>> start) <<< start := by
    apply Nat.eq_of_testBit_eq
    intro i
    rw [Nat.testBit_shiftLeft, Nat.testBit_shiftRight]
    rcases Nat.lt_or_ge i start with h | h
    · simp [hout i (.inl h), Nat.not_le.mpr h]
    · simp [h]
  have hne : number errors >>> start ≠ 0 := by
    intro hzero
    rw [hzero, Nat.zero_shiftLeft] at hmove
    exact number_eq_zero hmove hsome
  obtain ⟨n, hn⟩ := Nat.exists_eq_add_of_le hstart
  rw [feed_eq, Nat.zero_xor, hmove, hn, Nat.add_comm, Function.iterate_add_apply,
    iterate_shift_shiftLeft]
  exact iterate_shift_ne_zero hpoly htop n hlt hne

end Detection

/-! ## Parity -/

/-- Whether the number of bits that are set among the lowest `w` is odd. -/
def parity : Nat → Nat → Bool
  | 0, _ => false
  | w + 1, a => a.testBit 0 ^^ parity w (a >>> 1)

theorem parity_xor (w a b : Nat) : parity w (a ^^^ b) = (parity w a ^^ parity w b) := by
  induction w generalizing a b with
  | zero => rfl
  | succ w ih =>
    rw [parity, parity, parity, Nat.shiftRight_xor_distrib, ih, Nat.testBit_xor]
    cases a.testBit 0 <;> cases b.testBit 0 <;> simp

theorem parity_zero (w : Nat) : parity w 0 = false := by
  have h := parity_xor w 0 0
  rwa [Nat.xor_self, Bool.xor_self] at h

theorem parity_succ {w a : Nat} (h : a < 2 ^ w) : parity (w + 1) a = parity w a := by
  induction w generalizing a with
  | zero =>
    have ha : a = 0 := by omega
    subst ha
    rfl
  | succ w ih =>
    rw [parity, ih, parity]
    rw [Nat.shiftRight_eq_div_pow]
    omega

theorem parity_toNat (w : Nat) (b : Bool) : parity (w + 1) b.toNat = b := by
  cases b
  · exact parity_zero (w + 1)
  · rw [parity]
    simp [parity_zero]

section

variable {w : Nat} (hw : 0 < w) (hpoly : poly < 2 ^ w) (hodd : parity w poly = true)

include hodd

/-- A polynomial with an odd number of bits set, the highest one not counted, is a multiple of
`x + 1`: a shift keeps the parity. -/
theorem parity_shift {a : Nat} (ha : a < 2 ^ w) : parity w (shift poly a) = parity w a := by
  have hlow : parity w a = (a.testBit 0 ^^ parity w (a >>> 1)) := by
    rw [← parity_succ ha, parity]
  rw [shift_eq, parity_xor, hlow]
  cases a.testBit 0
  · simp [parity_zero]
  · simp [hodd, Bool.xor_comm]

include hw hpoly

theorem parity_feed {crc : Nat} (bits : List Bool) (hcrc : crc < 2 ^ w) :
    parity w (feed poly crc bits) = (parity w crc ^^ decide (bits.count true % 2 = 1)) := by
  obtain ⟨m, rfl⟩ : ∃ m, w = m + 1 := ⟨w - 1, by omega⟩
  induction bits generalizing crc with
  | nil => simp [feed]
  | cons b bits ih =>
    have hb : b.toNat < 2 ^ (m + 1) := by
      have := b.toNat_lt
      have := Nat.two_pow_pos m
      rw [Nat.pow_succ]
      omega
    have hxor := Nat.xor_lt_two_pow hcrc hb
    rw [feed, ih (shift_lt hpoly hxor), parity_shift hodd hxor, parity_xor, parity_toNat,
      List.count_cons]
    cases b
    · simp
    · have hflip : decide ((bits.count true + 1) % 2 = 1) =
          !decide (bits.count true % 2 = 1) := by
        rw [← decide_not]
        exact decide_eq_decide.mpr (by omega)
      simp [hflip]

/-- An odd number of errors leaves something in the register. -/
theorem feed_odd_ne_zero {errors : List Bool} (h : errors.count true % 2 = 1) :
    feed poly 0 errors ≠ 0 := by
  intro hzero
  have hparity := parity_feed hw hpoly hodd errors (Nat.two_pow_pos w)
  rw [hzero, parity_zero, decide_eq_true h] at hparity
  cases hparity

end

end ShiftRegisters
