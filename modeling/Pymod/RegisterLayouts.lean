-- Where the words of a typed value stand: the registers that `encode_registers` writes for the
-- integers of each type, and the integers that legal registers decode to.
import Pymod.CodecLaws
import Pymod.Floats

namespace pymod.codec

open errors Digits Slices

/-! ## The layout -/

/-- The two bytes of a word change places. -/
def swap_bytes (word : Nat) : Nat := word % 256 * 256 + word / 256

/-- The word number `j` of an integer on `r` registers, counted from the most significant one of
its two's complement. -/
def word (r : Nat) (z : Int) (j : Nat) : Nat := wrap (2 * r) z / 65536 ^ (r - 1 - j) % 65536

/-- What register `k` of a value holds. -/
def value_register (r : Nat) (word_order byte_order : Order) (z : Int) (k : Nat) : Int :=
  let w := word r z (if word_order = .big then k else r - 1 - k)
  if byte_order = .big then (w : Int) else (swap_bytes w : Int)

/-- The registers of a value. -/
def value_registers (r : Nat) (word_order byte_order : Order) (z : Int) : List Int :=
  (List.range r).map (value_register r word_order byte_order z)

theorem byte_pairs_append {xs : Bytes} (h : xs.length % 2 = 0) (ys : Bytes) :
    byte_pairs (xs ++ ys) = byte_pairs xs ++ byte_pairs ys := by
  fun_induction byte_pairs xs with
  | case1 => rfl
  | case2 a => simp at h
  | case3 a b xs ih =>
    have heven : xs.length % 2 = 0 := by
      simp only [List.length_cons] at h
      omega
    rw [List.cons_append, List.cons_append, byte_pairs, ih heven, List.cons_append]

/-- The pairs of bytes of a number are its words, the most significant one first. -/
theorem byte_pairs_toBytes (r v : Nat) :
    byte_pairs (toBytes (2 * r) v) =
      (List.range r).map fun j => toBytes 2 (v / 65536 ^ (r - 1 - j)) := by
  induction r generalizing v with
  | zero => rfl
  | succ r ih =>
    have hlen : (toBytes (2 * r) (v / 256 ^ 2)).length % 2 = 0 := by
      rw [length_toBytes]
      omega
    have hlast : byte_pairs (toBytes 2 v) = [toBytes 2 v] := rfl
    rw [Nat.mul_succ, toBytes_add_two, byte_pairs_append hlen, ih, hlast, List.range_succ,
      List.map_append]
    congr 1
    · apply List.map_congr_left
      intro j hj
      have hj := List.mem_range.mp hj
      have hpow : 65536 ^ (r + 1 - 1 - j) = 256 ^ 2 * 65536 ^ (r - 1 - j) := by
        have hexp : r + 1 - 1 - j = (r - 1 - j) + 1 := by omega
        rw [hexp, Nat.pow_succ']
        rfl
      rw [hpow, ← Nat.div_div_eq_div_mul]
    · simp

theorem ofBytes_pair (v : Nat) : ofBytes (toBytes 2 v) = v % 65536 := ofBytes_toBytes 2 v

theorem ofBytes_swapped_pair (v : Nat) :
    ofBytes (toBytes 2 v).reverse = swap_bytes (v % 65536) := by
  have hlow : (UInt8.ofNat (v % 256)).toNat = v % 256 := by simp
  have hhigh : (UInt8.ofNat (v / 256 % 256)).toNat = v / 256 % 256 := by simp
  simp only [toBytes, List.nil_append, List.reverse_cons, List.reverse_nil,
    ofBytes, List.cons_append, List.foldl_cons, List.foldl_nil, hlow, hhigh, swap_bytes]
  omega

theorem reverse_map_range {α : Type} (f : Nat → α) (r : Nat) :
    ((List.range r).map f).reverse = (List.range r).map fun k => f (r - 1 - k) := by
  apply List.ext_getElem (by simp)
  intro k hk _
  simp only [List.length_reverse, List.length_map, List.length_range] at hk
  simp [List.getElem_reverse]

/-- The block of one integer, in each of the four layouts. -/
theorem string_registers_int (r : Nat) (z : Int) (word_order byte_order : Order) :
    string_registers (int_to_bytes z (2 * r)) word_order byte_order =
      value_registers r word_order byte_order z := by
  unfold string_registers int_to_bytes value_registers
  rw [byte_pairs_toBytes, List.map_map, List.map_map]
  cases word_order <;> cases byte_order <;>
    simp [value_register, word, reverse_map_range, ofBytes_pair, ofBytes_swapped_pair,
      Function.comp_def]

/-! ## From registers to values -/

/-- The registers that make up a byte string are the registers of that string. -/
theorem string_registers_register_string {registers : List Int}
    (h : ∀ r ∈ registers, IsRegister r) (word_order byte_order : Order) :
    string_registers (register_string registers word_order byte_order) word_order byte_order =
      registers := by
  have hpairs : ∀ (f : Int → Bytes), (∀ r, (f r).length = 2) → ∀ seq : List Int,
      byte_pairs (seq.flatMap f) = seq.map f := by
    intro f hf seq
    induction seq with
    | nil => rfl
    | cons r seq ih =>
      obtain ⟨a, b, hab⟩ := List.length_eq_two.mp (hf r)
      rw [List.flatMap_cons, List.map_cons, hab, ← ih]
      rfl
  have hback : ∀ seq : List Int, (∀ r ∈ seq, IsRegister r) →
      seq.map (fun r => (ofBytes (register_bytes r) : Int)) = seq := fun seq hseq =>
    (List.map_congr_left fun r hr => ofBytes_register_bytes (hseq r hr)).trans (List.map_id _)
  unfold string_registers register_string
  cases word_order <;> cases byte_order <;>
    simp [hpairs _ length_register_bytes, hpairs (fun r => (register_bytes r).reverse)
      (fun r => by rw [List.length_reverse, length_register_bytes]), Function.comp_def, hback _ h]

theorem length_register_string (registers : List Int) (word_order byte_order : Order) :
    (register_string registers word_order byte_order).length = 2 * registers.length := by
  have hflat : ∀ (f : Int → Bytes), (∀ r, (f r).length = 2) → ∀ seq : List Int,
      (seq.flatMap f).length = 2 * seq.length := by
    intro f hf seq
    induction seq with
    | nil => rfl
    | cons r seq ih =>
      rw [List.flatMap_cons, List.length_append, hf, ih, List.length_cons]
      omega
  unfold register_string
  cases word_order <;> cases byte_order <;>
    simp [hflat _ length_register_bytes, hflat (fun r => (register_bytes r).reverse)
      (fun r => by rw [List.length_reverse, length_register_bytes])]

theorem int_to_bytes_int_from_bytes (raw : Bytes) (s : Bool) :
    int_to_bytes (int_from_bytes raw s) raw.length = raw := by
  unfold int_to_bytes int_from_bytes
  cases s
  · simp only [Bool.false_eq_true, if_false]
    rw [wrap_natCast (ofBytes_lt raw), toBytes_ofBytes]
  · simp only [if_true]
    rw [wrap_signed (ofBytes_lt raw), toBytes_ofBytes]

theorem int_from_bytes_unsigned_bounds (raw : Bytes) :
    0 ≤ int_from_bytes raw false ∧ int_from_bytes raw false < 256 ^ raw.length := by
  have := ofBytes_lt raw
  simp only [int_from_bytes, Bool.false_eq_true, if_false]
  zify at this
  omega

theorem int_from_bytes_signed_bounds (raw : Bytes) :
    -256 ^ raw.length ≤ 2 * int_from_bytes raw true ∧
      2 * int_from_bytes raw true < 256 ^ raw.length := by
  have := ofBytes_lt raw
  simp only [int_from_bytes, if_true, signed]
  zify at this
  split
  · rename_i h
    zify at h
    omega
  · rename_i h
    zify at h
    omega

section Values

variable {F : Type} [FloatOps F]

/-- The bytes of an integer type are those of one integer in its range. -/
theorem decode_one_int_bytes {dtype : NumericDType} {lo hi : Int} {raw : Bytes}
    (hr : int_range dtype = some (lo, hi)) (hlen : raw.length = 2 * regs_per_item dtype) :
    ∃ z, decode_one raw dtype = (.int z : Value F) ∧ lo ≤ z ∧ z ≤ hi ∧
      int_to_bytes z (2 * regs_per_item dtype) = raw := by
  have hunsigned := int_from_bytes_unsigned_bounds raw
  have hsigned := int_from_bytes_signed_bounds raw
  have hback := int_to_bytes_int_from_bytes raw
  rw [hlen] at hunsigned hsigned hback
  cases dtype <;> simp only [int_range, Option.some.injEq, Prod.mk.injEq, reduceCtorEq] at hr
  all_goals
    obtain ⟨rfl, rfl⟩ := hr
    simp only [regs_per_item] at hunsigned hsigned
    refine ⟨_, rfl, ?_, ?_, hback _⟩ <;> omega

/-! ## Blocks of integers -/

def integer_dtypes : List NumericDType := [.int16, .uint16, .int32, .uint32, .int64, .uint64]

/-- The integers that the type represents on its registers. -/
def represents (dtype : NumericDType) (z : Int) : Prop :=
  if dtype ∈ [.int16, .int32, .int64] then
    -65536 ^ regs_per_item dtype ≤ 2 * z ∧ 2 * z < 65536 ^ regs_per_item dtype
  else
    0 ≤ z ∧ z < 65536 ^ regs_per_item dtype

/-- The table of ranges has the range of each integer type. -/
theorem int_range_represents {dtype : NumericDType} (hd : dtype ∈ integer_dtypes) :
    ∃ lo hi, int_range dtype = some (lo, hi) ∧ ∀ z, represents dtype z ↔ lo ≤ z ∧ z ≤ hi := by
  simp only [integer_dtypes, List.mem_cons, List.not_mem_nil, or_false] at hd
  rcases hd with rfl | rfl | rfl | rfl | rfl | rfl
  all_goals
    refine ⟨_, _, rfl, fun z => ?_⟩
    simp [represents, regs_per_item]
    omega

theorem encode_one_int_iff {dtype : NumericDType} {lo hi z : Int} {raw : Bytes}
    (hr : int_range dtype = some (lo, hi)) :
    encode_one (.int z : Value F) dtype = .ok raw ↔
      (lo ≤ z ∧ z ≤ hi) ∧ raw = int_to_bytes z (2 * regs_per_item dtype) := by
  constructor
  · intro h
    by_cases hz : lo ≤ z ∧ z ≤ hi
    · rw [encode_one_int hr hz.1 hz.2] at h
      cases h
      exact ⟨hz, rfl⟩
    · unfold encode_one at h
      rw [hr] at h
      simp only [integer_of, bind, Except.bind, pure, Except.pure, if_neg hz] at h
      cases h
  · rintro ⟨hz, rfl⟩
    exact encode_one_int hr hz.1 hz.2

/-- What `encode_registers` accepts of a list of integers, and what it makes of it. -/
theorem encode_registers_int {dtype : NumericDType} {lo hi : Int} {zs regs : List Int}
    {word_order byte_order : Order} (hr : int_range dtype = some (lo, hi))
    (h : encode_registers (zs.map (.int : Int → Value F)) dtype word_order byte_order = .ok regs) :
    (∀ z ∈ zs, lo ≤ z ∧ z ≤ hi) ∧
      regs = zs.flatMap (value_registers (regs_per_item dtype) word_order byte_order) := by
  obtain ⟨raws, hraws, rfl⟩ := encode_registers_blocks h
  rw [List.forall₂_map_left_iff] at hraws
  clear h
  induction hraws with
  | nil => exact ⟨by simp, rfl⟩
  | @cons z raw zs raws hz _ ih =>
    obtain ⟨hrange, rfl⟩ := (encode_one_int_iff hr).mp hz
    obtain ⟨hall, hflat⟩ := ih
    refine ⟨?_, ?_⟩
    · intro y hy
      rcases List.mem_cons.mp hy with rfl | hy
      · exact hrange
      · exact hall y hy
    · rw [List.map_cons, List.flatten_cons, hflat, string_registers_int, List.flatMap_cons]

/-- Legal registers, as many as whole values take, are decoded to integers that are encoded to the
same registers. -/
theorem encode_decode_registers {dtype : NumericDType} {lo hi : Int} {regs : List Int}
    {word_order byte_order : Order} (hr : int_range dtype = some (lo, hi))
    (hlegal : ∀ r ∈ regs, IsRegister r) (hlen : regs.length % regs_per_item dtype = 0) :
    ∃ zs : List Int,
      decode_registers regs dtype word_order byte_order = .ok (zs.map (.int : Int → Value F)) ∧
      encode_registers (zs.map (.int : Int → Value F)) dtype word_order byte_order = .ok regs := by
  obtain ⟨ws, rfl, hws⟩ := exists_pieces hlen
  have hlegal_block : ∀ w ∈ ws, ∀ r ∈ w, IsRegister r := fun w hw r hr =>
    hlegal r (List.mem_flatten.mpr ⟨w, hw, hr⟩)
  let raw_of := fun w : List Int => register_string w word_order byte_order
  have hstring : ∀ w ∈ ws, string_registers (raw_of w) word_order byte_order = w := fun w hw =>
    string_registers_register_string (hlegal_block w hw) word_order byte_order
  have hraw : ∀ w ∈ ws, (raw_of w).length = 2 * regs_per_item dtype := by
    intro w hw
    rw [← hws w hw]
    exact length_register_string w word_order byte_order
  have hblocks : ws.flatten =
      ((ws.map raw_of).map fun raw => string_registers raw word_order byte_order).flatten := by
    rw [List.map_map]
    exact congrArg List.flatten ((List.map_congr_left hstring).trans (List.map_id ws)).symm
  have hvalue : ∀ w ∈ ws, ∃ z, decode_one (raw_of w) dtype = (.int z : Value F) ∧ lo ≤ z ∧ z ≤ hi ∧
      int_to_bytes z (2 * regs_per_item dtype) = raw_of w := fun w hw =>
    decode_one_int_bytes hr (hraw w hw)
  choose! value hdecode hlo hhi hbytes using hvalue
  have hzs : ∀ z ∈ ws.map value, lo ≤ z ∧ z ≤ hi := by
    simp only [List.forall_mem_map]
    exact fun w hw => ⟨hlo w hw, hhi w hw⟩
  obtain ⟨regs, hregs, -⟩ := decode_encode_registers (F := F) hr hzs word_order byte_order
  have hsame : regs = ws.flatten := by
    rw [(encode_registers_int hr hregs).2, List.flatMap_map, List.flatMap_def]
    congr 1
    refine (List.map_congr_left fun w hw => ?_).trans (List.map_id ws)
    rw [← string_registers_int, hbytes w hw, hstring w hw, id]
  refine ⟨ws.map value, ?_, hsame ▸ hregs⟩
  have hall : ∀ raw ∈ ws.map raw_of, raw.length = 2 * regs_per_item dtype := by
    simp only [List.forall_mem_map]
    exact hraw
  rw [hblocks, decode_registers_blocks word_order byte_order hall, List.map_map, List.map_map]
  congr 1
  exact List.map_congr_left hdecode

/-- The registers of integers: which lists are accepted, where each word of each value stands, and
that decoding undoes encoding and encoding undoes decoding. -/
theorem integer_registers {dtype : NumericDType} (hd : dtype ∈ integer_dtypes)
    (word_order byte_order : Order) :
    (∀ zs : List Int,
      (∃ regs, encode_registers (zs.map (.int : Int → Value F)) dtype word_order byte_order =
        .ok regs) ↔ ∀ z ∈ zs, represents dtype z) ∧
    (∀ zs regs : List Int,
      encode_registers (zs.map (.int : Int → Value F)) dtype word_order byte_order = .ok regs →
      regs = zs.flatMap (value_registers (regs_per_item dtype) word_order byte_order) ∧
      decode_registers regs dtype word_order byte_order = .ok (zs.map (.int : Int → Value F))) ∧
    ∀ regs : List Int, (∀ r ∈ regs, IsRegister r) → regs.length % regs_per_item dtype = 0 →
      ∃ values : List (Value F), decode_registers regs dtype word_order byte_order = .ok values ∧
        encode_registers values dtype word_order byte_order = .ok regs := by
  obtain ⟨lo, hi, hr, hrep⟩ := int_range_represents hd
  refine ⟨fun zs => ⟨?_, ?_⟩, fun zs regs h => ⟨?_, ?_⟩, fun regs hlegal hlen => ?_⟩
  · rintro ⟨regs, h⟩ z hz
    exact (hrep z).mpr ((encode_registers_int hr h).1 z hz)
  · intro hz
    obtain ⟨regs, h, -⟩ := decode_encode_registers (F := F) hr (fun z hmem => (hrep z).mp (hz z hmem))
      word_order byte_order
    exact ⟨regs, h⟩
  · exact (encode_registers_int hr h).2
  · obtain ⟨regs', h', hback⟩ := decode_encode_registers (F := F) hr (encode_registers_int hr h).1
      word_order byte_order
    rw [h] at h'
    cases h'
    exact hback
  · obtain ⟨zs, hdecode, hencode⟩ := encode_decode_registers (F := F) hr hlegal hlen
    exact ⟨_, hdecode, hencode⟩

end Values

/-- A negative 32-bit value, its low word first. -/
theorem a_negative_value_is_written_low_word_first :
    ∃ regs, encode_registers ([-2].map (.int : Int → Value Float)) .int32 .little .big = .ok regs ∧
      regs = [0xFFFE, 0xFFFF] ∧
      decode_registers regs .int32 .little .big = .ok ([-2].map (.int : Int → Value Float)) := by
  have hint : NumericDType.int32 ∈ integer_dtypes := by decide
  obtain ⟨haccepts, hlayout, -⟩ := integer_registers (F := Float) hint .little .big
  obtain ⟨regs, hregs⟩ := (haccepts [-2]).mpr (by simp [represents, regs_per_item])
  obtain ⟨rfl, hback⟩ := hlayout [-2] regs hregs
  exact ⟨_, hregs, by decide, hback⟩

end pymod.codec
