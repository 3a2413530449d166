-- Which bit of which register each bit index names, for every way to order the words, the bytes
-- and the bits of a block.
import Mathlib.Data.List.GetD
import Pymod.RegisterLayouts

namespace pymod.codec

open errors Digits Slices

/-! ## The bit that an index names -/

/-- The place of an index in the number that the block makes up. -/
def bit_place (n : Nat) (bit_numbering : BitNumbering) (i : Int) : Nat :=
  if bit_numbering = .lsb_first then i.toNat else 16 * n - 1 - i.toNat

/-- The register, and the bit of it, that stand at place `p` of that number. -/
def bit_of_place (n : Nat) (word_order byte_order : Order) (p : Nat) : Nat × Nat :=
  (if word_order = .big then n - 1 - p / 16 else p / 16,
    if byte_order = .big then p % 16 else p % 16 ^^^ 8)

/-- The register, and the bit of it, that an index names in a block of `n` registers. -/
def named_bit (n : Nat) (word_order byte_order : Order) (bit_numbering : BitNumbering) (i : Int) :
    Nat × Nat :=
  bit_of_place n word_order byte_order (bit_place n bit_numbering i)

theorem xor_eight {j : Nat} (h : j < 16) : j ^^^ 8 = if j < 8 then j + 8 else j - 8 := by
  revert j
  decide

theorem testBit_swap_bytes {w j : Nat} (hw : w < 65536) (hj : j < 16) :
    (swap_bytes w).testBit j = w.testBit (j ^^^ 8) := by
  have hhigh : w / 256 < 2 ^ 8 := by omega
  have hswap : swap_bytes w = 2 ^ 8 * (w % 256) + w / 256 := by
    unfold swap_bytes
    omega
  rw [hswap, Nat.testBit_two_pow_mul_add _ hhigh, xor_eight hj]
  split
  · have hdiv : w / 256 = w >>> 8 := by rw [Nat.shiftRight_eq_div_pow]
    rw [hdiv, Nat.testBit_shiftRight, Nat.add_comm]
  · have hmod : w % 256 = w % 2 ^ 8 := rfl
    rw [hmod, Nat.testBit_mod_two_pow, decide_eq_true (by omega), Bool.true_and]

/-- The bits of a block of words, each written on two bytes. -/
theorem testBit_ofBytes_flatMap {f : Int → Bytes} (hf : ∀ r, (f r).length = 2) (seq : List Int)
    {p : Nat} (hp : p < 16 * seq.length) :
    (ofBytes (seq.flatMap f)).testBit p =
      (ofBytes (f (seq.reverse.getD (p / 16) 0))).testBit (p % 16) := by
  induction seq using List.reverseRecOn generalizing p with
  | nil => simp at hp
  | append_singleton seq r ih =>
    obtain ⟨a, b, hab⟩ := List.length_eq_two.mp (hf r)
    have hpair : ∀ xs : Bytes, ofBytes (xs ++ [a, b]) = 2 ^ 16 * ofBytes xs + ofBytes [a, b] := by
      intro xs
      simp only [ofBytes, List.foldl_append, List.foldl_cons, List.foldl_nil]
      omega
    have hlt : ofBytes [a, b] < 2 ^ 16 := by simpa using ofBytes_lt [a, b]
    rw [List.flatMap_append, List.flatMap_singleton, hab, hpair, Nat.testBit_two_pow_mul_add _ hlt,
      List.reverse_append, List.reverse_singleton, List.singleton_append]
    split
    · rename_i hlow
      rw [Nat.div_eq_of_lt hlow, Nat.mod_eq_of_lt hlow, List.getD_cons_zero, hab]
    · rename_i hhigh
      have hdiv : p / 16 = (p - 16) / 16 + 1 := by omega
      have hmod : p % 16 = (p - 16) % 16 := by omega
      rw [List.length_append, List.length_singleton] at hp
      rw [ih (by omega), hdiv, hmod, List.getD_cons_succ]

theorem getD_of_forall {registers : List Int} (h : ∀ r ∈ registers, IsRegister r) (k : Nat) :
    IsRegister (registers.getD k 0) := by
  rw [List.getD_eq_getElem?_getD]
  cases hk : registers[k]? with
  | none => decide
  | some r => exact h r (List.mem_of_getElem? hk)

/-- A bit of the number that a block makes up is a bit of one of its registers. -/
theorem testBit_register_string {registers : List Int} (h : ∀ r ∈ registers, IsRegister r)
    (word_order byte_order : Order) {p : Nat} (hp : p < 16 * registers.length) :
    (ofBytes (register_string registers word_order byte_order)).testBit p =
      (registers.getD (bit_of_place registers.length word_order byte_order p).1 0).toNat.testBit
        (bit_of_place registers.length word_order byte_order p).2 := by
  have hk : p / 16 < registers.length := by omega
  have hreverse : registers.reverse.getD (p / 16) 0 =
      registers.getD (registers.length - 1 - p / 16) 0 := by
    rw [List.getD_eq_getElem _ _ (by simpa using hk), List.getElem_reverse,
      List.getD_eq_getElem _ _ (by omega)]
  have hreg : ∀ r, IsRegister r → ofBytes (register_bytes r) = r.toNat := by
    intro r hr
    have := ofBytes_register_bytes hr
    omega
  have hswapped : ∀ r, IsRegister r → ofBytes (register_bytes r).reverse = swap_bytes r.toNat := by
    intro r hr
    have := hr.2
    rw [register_bytes, ofBytes_swapped_pair, Nat.mod_eq_of_lt (by omega)]
  have hlegal := getD_of_forall h
  have hswap : ∀ k, (swap_bytes (registers.getD k 0).toNat).testBit (p % 16) =
      (registers.getD k 0).toNat.testBit (p % 16 ^^^ 8) := by
    intro k
    have := (hlegal k).2
    exact testBit_swap_bytes (by omega) (Nat.mod_lt _ (by decide))
  have hrev2 : ∀ r : Int, (register_bytes r).reverse.length = 2 := fun r => by
    rw [List.length_reverse, length_register_bytes]
  have hp' : p < 16 * registers.reverse.length := by simpa using hp
  unfold register_string bit_of_place
  cases word_order <;> cases byte_order <;> simp only [reduceCtorEq, if_true, if_false]
  · rw [testBit_ofBytes_flatMap length_register_bytes _ hp, hreverse, hreg _ (hlegal _)]
  · rw [testBit_ofBytes_flatMap hrev2 _ hp, hreverse, hswapped _ (hlegal _), hswap]
  · rw [testBit_ofBytes_flatMap length_register_bytes _ hp', List.reverse_reverse,
      hreg _ (hlegal _)]
  · rw [testBit_ofBytes_flatMap hrev2 _ hp', List.reverse_reverse, hswapped _ (hlegal _), hswap]

/-- Every bit of a block stands at one place of its number. -/
theorem existsUnique_place {n k b : Nat} (hk : k < n) (hb : b < 16)
    (word_order byte_order : Order) :
    ∃ p, p < 16 * n ∧ bit_of_place n word_order byte_order p = (k, b) ∧
      ∀ q, q < 16 * n → bit_of_place n word_order byte_order q = (k, b) → q = p := by
  have hword : ∃ k', k' < n ∧ ∀ j, j < n →
      ((if word_order = .big then n - 1 - j else j) = k ↔ j = k') := by
    cases word_order
    · exact ⟨n - 1 - k, by omega, fun j hj => by simp only [if_true]; omega⟩
    · exact ⟨k, hk, fun j _ => by simp⟩
  have hbyte : ∃ b', b' < 16 ∧ ∀ j, j < 16 →
      ((if byte_order = .big then j else j ^^^ 8) = b ↔ j = b') := by
    cases byte_order
    · exact ⟨b, hb, fun j _ => by simp⟩
    · refine ⟨if b < 8 then b + 8 else b - 8, by split <;> omega, fun j hj => ?_⟩
      simp only [reduceCtorEq, if_false, xor_eight hj]
      split <;> split <;> omega
  obtain ⟨k', hk', hword⟩ := hword
  obtain ⟨b', hb', hbyte⟩ := hbyte
  have hplace : ∀ q, q < 16 * n →
      (bit_of_place n word_order byte_order q = (k, b) ↔ q / 16 = k' ∧ q % 16 = b') := by
    intro q hq
    rw [bit_of_place, Prod.mk.injEq, hword _ (by omega), hbyte _ (Nat.mod_lt _ (by decide))]
  refine ⟨16 * k' + b', by omega, ?_, ?_⟩
  · rw [hplace _ (by omega)]
    omega
  · intro q hq h
    have := (hplace q hq).mp h
    omega

theorem existsUnique_index {n k b : Nat} (hk : k < n) (hb : b < 16)
    (word_order byte_order : Order) (bit_numbering : BitNumbering) :
    ∃! i : Int, (0 ≤ i ∧ i < 16 * n) ∧ named_bit n word_order byte_order bit_numbering i = (k, b) := by
  obtain ⟨p, hp, hnamed, hunique⟩ := existsUnique_place hk hb word_order byte_order
  have hindex : ∃ i : Int, (0 ≤ i ∧ i < 16 * n) ∧ bit_place n bit_numbering i = p ∧
      ∀ j : Int, 0 ≤ j ∧ j < 16 * n → bit_place n bit_numbering j = p → j = i := by
    unfold bit_place
    cases bit_numbering
    · refine ⟨p, by omega, by simp, fun j hj h => ?_⟩
      simp only [if_true] at h
      omega
    · refine ⟨16 * n - 1 - p, by omega, ?_, fun j hj h => ?_⟩
      · simp only [reduceCtorEq, if_false]
        omega
      · simp only [reduceCtorEq, if_false] at h
        omega
  obtain ⟨i, hi, rfl, honly⟩ := hindex
  refine ⟨i, ⟨hi, hnamed⟩, ?_⟩
  rintro j ⟨hj, hnamed'⟩
  apply honly j hj
  apply hunique _ _ hnamed'
  unfold bit_place
  split <;> omega

/-! ## The extraction -/

section Extraction

variable {registers : List Int} (hlegal : ∀ r ∈ registers, IsRegister r)

theorem resolve_pos_ok {i : Int} {n : Nat} (bit_numbering : BitNumbering)
    (hi : 0 ≤ i ∧ i < 16 * n) :
    ∃ pos : Int, resolve_pos i (n * 16) bit_numbering = .ok pos ∧
      pos.toNat = bit_place n bit_numbering i ∧ bit_place n bit_numbering i < 16 * n := by
  unfold resolve_pos bit_place
  rw [if_neg (by push_cast; omega)]
  cases bit_numbering
  · refine ⟨i, by simp; rfl, by simp, ?_⟩
    simp only [if_true]
    omega
  · refine ⟨(n * 16 : Nat) - 1 - i, by simp; rfl, ?_, ?_⟩
    · simp only [reduceCtorEq, if_false]
      push_cast
      omega
    · simp only [reduceCtorEq, if_false]
      omega

theorem resolve_pos_out {i : Int} {n : Nat} (bit_numbering : BitNumbering)
    (hi : ¬ (0 ≤ i ∧ i < 16 * n)) :
    ∃ m, resolve_pos i (n * 16) bit_numbering = .error (.ValueError m) := by
  unfold resolve_pos
  rw [if_pos (by push_cast; omega)]
  exact ⟨_, rfl⟩

include hlegal

/-- `extract_bit` of a legal block, by its two steps. -/
theorem extract_bit_eq (hne : registers ≠ []) (i : Int) (word_order byte_order : Order)
    (bit_numbering : BitNumbering) :
    extract_bit registers i word_order byte_order bit_numbering =
      (resolve_pos i (registers.length * 16) bit_numbering).map
        (bit_of (ofBytes (register_string registers word_order byte_order))) := by
  have hlen : registers.length ≠ 0 := by simpa using hne
  have hint : registers_to_int registers word_order byte_order =
      .ok (ofBytes (register_string registers word_order byte_order)) := by
    unfold registers_to_int
    rw [registers_to_bytes_ok hlegal]
    rfl
  unfold extract_bit
  rw [if_neg hlen]
  simp only [hint]
  cases resolve_pos i (registers.length * 16) bit_numbering <;> rfl

theorem extract_bits_eq (hne : registers ≠ []) (bit_indices : List Int)
    (word_order byte_order : Order) (bit_numbering : BitNumbering) :
    extract_bits registers bit_indices word_order byte_order bit_numbering =
      bit_indices.mapM fun i => extract_bit registers i word_order byte_order bit_numbering := by
  have hlen : registers.length ≠ 0 := by simpa using hne
  unfold extract_bits
  rw [if_neg hlen]
  simp only [registers_to_int, registers_to_bytes_ok hlegal, bind, Except.bind, pure, Except.pure]
  apply mapM_congr
  intro i _
  rw [extract_bit_eq hlegal hne]
  cases resolve_pos i (registers.length * 16) bit_numbering <;> rfl

theorem extract_bit_named {i : Int} (hi : 0 ≤ i ∧ i < 16 * registers.length)
    (word_order byte_order : Order) (bit_numbering : BitNumbering) :
    ∃ r, registers[(named_bit registers.length word_order byte_order bit_numbering i).1]? = some r ∧
      extract_bit registers i word_order byte_order bit_numbering =
        .ok (r.toNat.testBit
          (named_bit registers.length word_order byte_order bit_numbering i).2) := by
  have hne : registers ≠ [] := by
    rintro rfl
    simp at hi
    omega
  obtain ⟨pos, hpos, hplace, hlt⟩ := resolve_pos_ok bit_numbering hi
  have hk : (named_bit registers.length word_order byte_order bit_numbering i).1 <
      registers.length := by
    simp only [named_bit, bit_of_place]
    split <;> omega
  refine ⟨_, List.getElem?_eq_getElem hk, ?_⟩
  rw [extract_bit_eq hlegal hne, hpos]
  simp only [Except.map, bit_of, hplace]
  rw [testBit_register_string hlegal _ _ hlt, ← List.getD_eq_getElem registers 0 hk]
  rfl

/-- The unsigned type as wide as the block decodes to the number that the bits are taken from. -/
theorem decode_unsigned_block {F : Type} [FloatOps F] {dtype : NumericDType}
    (hd : (dtype, registers.length) ∈
      [(NumericDType.uint16, 1), (NumericDType.uint32, 2), (NumericDType.uint64, 4)])
    (word_order byte_order : Order) :
    decode_registers registers dtype word_order byte_order =
      .ok [(.int (ofBytes (register_string registers word_order byte_order) : Int) : Value F)] := by
  have hlen : regs_per_item dtype = registers.length ∧
      ∀ raw, (decode_one raw dtype : Value F) = .int (ofBytes raw : Int) := by
    simp only [List.mem_cons, Prod.mk.injEq, List.not_mem_nil, or_false] at hd
    rcases hd with ⟨rfl, h⟩ | ⟨rfl, h⟩ | ⟨rfl, h⟩ <;> exact ⟨h.symm, fun _ => rfl⟩
  obtain ⟨hlen, hone⟩ := hlen
  have hwindow : windows (regs_per_item dtype) registers = [registers] := by
    have h := windows_flatten [registers] (regs_per_item_pos dtype) (by simp [hlen])
    simpa using h
  simp only [decode_registers]
  rw [if_neg (by rw [hlen, Nat.mod_self]; simp), hwindow, List.mapM_cons,
    registers_to_bytes_ok hlegal]
  simp only [bind, Except.bind, pure, Except.pure, List.mapM_nil, hone]

/-- The bits of a block of registers: which indices are accepted, which bit of which register an
index names, that each bit has one index, and that the list of bits and the unsigned value of the
block agree with it. -/
theorem block_bits {F : Type} [FloatOps F] (hne : registers ≠ []) (word_order byte_order : Order)
    (bit_numbering : BitNumbering) :
    (∀ i : Int, (∃ m, extract_bit registers i word_order byte_order bit_numbering =
      .error (.ValueError m)) ↔ ¬ (0 ≤ i ∧ i < 16 * registers.length)) ∧
    (∀ i : Int, 0 ≤ i ∧ i < 16 * registers.length →
      ∃ r, registers[(named_bit registers.length word_order byte_order bit_numbering i).1]? =
          some r ∧
        extract_bit registers i word_order byte_order bit_numbering =
          .ok (r.toNat.testBit
            (named_bit registers.length word_order byte_order bit_numbering i).2)) ∧
    (∀ k < registers.length, ∀ b < 16, ∃! i : Int, (0 ≤ i ∧ i < 16 * registers.length) ∧
      named_bit registers.length word_order byte_order bit_numbering i = (k, b)) ∧
    (∀ bit_indices : List Int,
      extract_bits registers bit_indices word_order byte_order bit_numbering =
        bit_indices.mapM fun i => extract_bit registers i word_order byte_order bit_numbering) ∧
    ∀ dtype, (dtype, registers.length) ∈
        [(NumericDType.uint16, 1), (NumericDType.uint32, 2), (NumericDType.uint64, 4)] →
      ∃ v : Nat, decode_registers registers dtype word_order byte_order =
          .ok [(.int (v : Int) : Value F)] ∧
        ∀ i : Int, 0 ≤ i ∧ i < 16 * registers.length →
          extract_bit registers i word_order byte_order .lsb_first = .ok (v.testBit i.toNat) := by
  refine ⟨fun i => ⟨?_, ?_⟩, fun i hi => extract_bit_named hlegal hi _ _ _,
    fun k hk b hb => existsUnique_index hk hb _ _ _,
    fun bit_indices => extract_bits_eq hlegal hne bit_indices _ _ _, fun dtype hd => ?_⟩
  · rintro ⟨m, h⟩ hi
    obtain ⟨r, -, hok⟩ := extract_bit_named hlegal hi word_order byte_order bit_numbering
    rw [h] at hok
    cases hok
  · intro hi
    obtain ⟨m, hm⟩ := resolve_pos_out bit_numbering hi
    rw [extract_bit_eq hlegal hne, hm]
    exact ⟨m, rfl⟩
  · refine ⟨_, decode_unsigned_block hlegal hd word_order byte_order, fun i hi => ?_⟩
    obtain ⟨pos, hpos, hplace, -⟩ := resolve_pos_ok .lsb_first hi
    rw [extract_bit_eq hlegal hne, hpos]
    simp only [Except.map, bit_of, hplace]
    rfl

end Extraction

/-- Two registers, the low word first and the bytes swapped: index 3 is bit 11 of the first one. -/
theorem a_bit_behind_a_swap :
    ∃ r, ([0x0800, 0x0001] : List Int)[(named_bit 2 .little .little .lsb_first 3).1]? = some r ∧
      extract_bit [0x0800, 0x0001] 3 .little .little .lsb_first =
        .ok (r.toNat.testBit (named_bit 2 .little .little .lsb_first 3).2) := by
  have hlegal : ∀ r ∈ ([0x0800, 0x0001] : List Int), IsRegister r := by decide
  obtain ⟨-, hnamed, -⟩ := block_bits (F := Float) hlegal (by decide) .little .little .lsb_first
  exact hnamed 3 (by decide)

end pymod.codec
