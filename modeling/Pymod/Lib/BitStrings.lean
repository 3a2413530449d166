-- Strings of bits held in bytes, the lowest bit of each byte first.
import Mathlib.Data.Nat.Bitwise
import Mathlib.Data.List.Basic

namespace BitStrings

/-- Bit `i` of the string: bit `i % 8` of byte `i / 8`. -/
def bitAt (data : List UInt8) (i : Nat) : Bool :=
  (data.getD (i / 8) 0).toNat.testBit (i % 8)

/-- `data[i // 8] |= 1 << (i % 8)` -/
def orBit (data : List UInt8) (i : Nat) : List UInt8 :=
  data.modify (i / 8) fun b => b ||| UInt8.ofNat (1 <<< (i % 8))

@[simp] theorem length_orBit (data : List UInt8) (i : Nat) :
    (orBit data i).length = data.length := by
  simp [orBit]

theorem testBit_or_one_shift (b : UInt8) (i j : Nat) (hi : i < 8) :
    (b ||| UInt8.ofNat (1 <<< i)).toNat.testBit j = (b.toNat.testBit j || decide (j = i)) := by
  have hlt : 1 <<< i < 2 ^ 8 := by
    rw [Nat.one_shiftLeft]
    exact Nat.pow_lt_pow_right (by omega) hi
  rw [UInt8.toNat_or, Nat.testBit_lor, UInt8.toNat_ofNat', Nat.mod_eq_of_lt hlt,
    Nat.one_shiftLeft, Nat.testBit_two_pow]
  congr 1
  exact decide_eq_decide.mpr eq_comm

/-- Setting one bit sets that bit and no other. -/
theorem bitAt_orBit (data : List UInt8) (i j : Nat) (hi : i / 8 < data.length) :
    bitAt (orBit data i) j = (bitAt data j || decide (j = i)) := by
  unfold bitAt orBit
  simp only [List.getD_eq_getElem?_getD, List.getElem?_modify]
  by_cases hij : i / 8 = j / 8
  · have hj : j / 8 < data.length := by omega
    simp only [hij, if_true, List.getElem?_eq_getElem hj, Option.map_eq_map, Option.map_some,
      Option.getD_some]
    rw [testBit_or_one_shift _ _ _ (Nat.mod_lt _ (by omega))]
    congr 1
    exact decide_eq_decide.mpr ⟨fun h => by omega, fun h => by omega⟩
  · have hne : j ≠ i := fun h => hij (by rw [h])
    simp [hij, hne]

theorem bitAt_replicate (n i : Nat) : bitAt (List.replicate n 0) i = false := by
  unfold bitAt
  rw [List.getD_eq_getElem?_getD, List.getElem?_replicate]
  split <;> simp

/-- Two strings with the same bytes count and the same bits are the same. -/
theorem ext_bitAt {a b : List UInt8} (hl : a.length = b.length)
    (hb : ∀ i < 8 * a.length, bitAt a i = bitAt b i) : a = b := by
  apply List.ext_getElem hl
  intro k hk hk'
  apply UInt8.toNat.inj
  apply Nat.eq_of_testBit_eq
  intro j
  by_cases hj : j < 8
  · have := hb (8 * k + j) (by omega)
    have hdiv : (8 * k + j) / 8 = k := by omega
    have hmod : (8 * k + j) % 8 = j := by omega
    simpa [bitAt, hdiv, hmod, List.getD_eq_getElem, hk, hk'] using this
  · have hlt : ∀ c : UInt8, c.toNat.testBit j = false := fun c =>
      Nat.testBit_lt_two_pow (lt_of_lt_of_le c.toNat_lt (Nat.pow_le_pow_right (by omega) (by omega)))
    rw [hlt, hlt]

/-! ## Lists of bits -/

/-- The bytes of a list of bits: `orBit` at the place of each bit that is set. -/
def pack (values : List Bool) : List UInt8 :=
  values.zipIdx.foldl (fun buf v => if v.1 then orBit buf v.2 else buf)
    (List.replicate ((values.length + 7) / 8) 0)

/-- The first `count` bits. -/
def unpack (count : Nat) (data : List UInt8) : List Bool :=
  (List.range count).map fun i => bitAt data i

@[simp] theorem length_unpack (count : Nat) (data : List UInt8) :
    (unpack count data).length = count := by
  simp [unpack]

theorem length_foldl_orBit (vs : List (Bool × Nat)) (buf : List UInt8) :
    (vs.foldl (fun buf v => if v.1 then orBit buf v.2 else buf) buf).length = buf.length := by
  induction vs generalizing buf with
  | nil => rfl
  | cons v vs ih =>
    rw [List.foldl_cons, ih]
    split <;> simp

@[simp] theorem length_pack (values : List Bool) :
    (pack values).length = (values.length + 7) / 8 := by
  rw [pack, length_foldl_orBit, List.length_replicate]

theorem bitAt_foldl_orBit (values : List Bool) (k j : Nat) (buf : List UInt8)
    (hroom : k + values.length ≤ 8 * buf.length) :
    bitAt ((values.zipIdx k).foldl (fun buf v => if v.1 then orBit buf v.2 else buf) buf) j =
      (bitAt buf j || (decide (k ≤ j) && values.getD (j - k) false)) := by
  induction values generalizing k buf with
  | nil => simp
  | cons v vs ih =>
    rw [List.length_cons] at hroom
    rw [List.zipIdx_cons, List.foldl_cons]
    have hlen : (if v = true then orBit buf k else buf).length = buf.length := by
      split <;> simp
    rw [ih (k + 1) _ (by rw [hlen]; omega)]
    have hfirst : bitAt (if v = true then orBit buf k else buf) j =
        (bitAt buf j || (v && decide (j = k))) := by
      cases v
      · simp
      · simpa using bitAt_orBit buf k j (by omega)
    rw [hfirst, Bool.or_assoc]
    congr 1
    rcases Nat.lt_trichotomy j k with hlt | rfl | hgt
    · have h1 : ¬ j = k := by omega
      have h2 : ¬ k + 1 ≤ j := by omega
      have h3 : ¬ k ≤ j := by omega
      simp [h1, h2, h3]
    · simp
    · obtain ⟨d, rfl⟩ : ∃ d, j = k + 1 + d := ⟨j - (k + 1), by omega⟩
      have h1 : ¬ k + 1 + d = k := by omega
      have h2 : k ≤ k + 1 + d := by omega
      have h3 : k + 1 + d - (k + 1) = d := by omega
      have h4 : k + 1 + d - k = d + 1 := by omega
      simp [h1, h2, h3, h4]

/-- The bits of a packed list are the list's, and zeros after it. -/
theorem bitAt_pack (values : List Bool) (j : Nat) :
    bitAt (pack values) j = values.getD j false := by
  rw [pack, bitAt_foldl_orBit values 0 j _ (by rw [List.length_replicate]; omega),
    bitAt_replicate]
  simp

theorem unpack_pack (values : List Bool) : unpack values.length (pack values) = values := by
  apply List.ext_getElem (length_unpack _ _)
  intro i _ hi
  simp [unpack, bitAt_pack, hi]

/-! ## Bits past the count -/

/-- The string with the bits of its last byte cleared that lie behind the first `count`. -/
def keepBits (count : Nat) (data : List UInt8) : List UInt8 :=
  data.modify (count / 8) fun b => b &&& UInt8.ofNat (2 ^ (count % 8) - 1)

@[simp] theorem length_keepBits (count : Nat) (data : List UInt8) :
    (keepBits count data).length = data.length := by
  simp [keepBits]

theorem testBit_and_mask (b : UInt8) {n : Nat} (hn : n < 8) (j : Nat) :
    (b &&& UInt8.ofNat (2 ^ n - 1)).toNat.testBit j = (b.toNat.testBit j && decide (j < n)) := by
  have hlt : 2 ^ n - 1 < 2 ^ 8 :=
    lt_of_le_of_lt (Nat.sub_le _ _) (Nat.pow_lt_pow_right (by omega) hn)
  rw [UInt8.toNat_and, Nat.testBit_and, UInt8.toNat_ofNat', Nat.mod_eq_of_lt hlt,
    Nat.testBit_two_pow_sub_one]

theorem bitAt_keepBits {count : Nat} {data : List UInt8} (hlen : data.length = (count + 7) / 8)
    (j : Nat) : bitAt (keepBits count data) j = (bitAt data j && decide (j < count)) := by
  unfold bitAt keepBits
  simp only [List.getD_eq_getElem?_getD, List.getElem?_modify]
  by_cases hj : count / 8 = j / 8
  · by_cases hin : j / 8 < data.length
    · simp only [hj, if_true, List.getElem?_eq_getElem hin, Option.map_eq_map, Option.map_some,
        Option.getD_some]
      rw [testBit_and_mask _ (Nat.mod_lt _ (by omega))]
      congr 1
      exact decide_eq_decide.mpr ⟨fun h => by omega, fun h => by omega⟩
    · simp [List.getElem?_eq_none (show data.length ≤ j / 8 by omega)]
  · rcases Nat.lt_or_ge j count with hlt | hge
    · simp [hj, hlt]
    · simp [hj, List.getElem?_eq_none (show data.length ≤ j / 8 by omega)]

/-- Unpacking and packing again keeps the first `count` bits and clears the others. -/
theorem pack_unpack {count : Nat} {data : List UInt8} (hlen : data.length = (count + 7) / 8) :
    pack (unpack count data) = keepBits count data := by
  apply ext_bitAt (by simp [hlen])
  intro j _
  rw [bitAt_pack, bitAt_keepBits hlen]
  by_cases hj : j < count
  · simp [unpack, hj]
  · simp [unpack, hj]

end BitStrings
