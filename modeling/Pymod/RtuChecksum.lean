-- The checksum of RTU frames: the table computes the bit-by-bit CRC, and which errors on the line
-- it finds. A frame goes over the line byte by byte, the lowest bit of each byte first.
import Pymod.AduRtu
import Pymod.Lib.BitStrings
import Pymod.Lib.ShiftRegisters

namespace pymod.adu_rtu

open errors codec Digits BitStrings ShiftRegisters

/-! ## The table -/

/-- One turn of the inner loop of the bit-by-bit CRC. -/
def crc16_reference_bit (crc : Nat) : Nat :=
  if crc % 2 = 1 then (crc / 2) ^^^ 0xA001 else crc / 2

/-- The Modbus CRC, bit by bit. -/
def crc16_reference (data : Bytes) : Nat :=
  data.foldl (fun crc byte => Nat.repeat crc16_reference_bit 8 (crc ^^^ byte.toNat)) 0xFFFF

theorem repeat_eq_iterate {α : Type} (f : α → α) (n : Nat) (a : α) :
    Nat.repeat f n a = f^[n] a := by
  induction n with
  | zero => rfl
  | succ n ih => rw [Function.iterate_succ_apply', Nat.repeat, ih]

theorem crc16_shift_eq : crc16_shift = shift 0xA001 := rfl

theorem crc16_reference_bit_eq : crc16_reference_bit = shift 0xA001 := by
  funext crc
  unfold crc16_reference_bit shift
  rw [Nat.and_one_is_mod, Nat.shiftRight_eq_div_pow, Nat.pow_one]
  rcases Nat.mod_two_eq_zero_or_one crc with h | h <;> simp [h]

/-- The byte at the low end goes through the table, the rest of the register moves down. -/
theorem crc16_byte_eq (crc : Nat) (byte : UInt8) :
    crc16_byte crc byte = (shift 0xA001)^[8] (crc ^^^ byte.toNat) := by
  have hhigh : (crc ^^^ byte.toNat) >>> 8 = crc >>> 8 := by
    have hbyte : byte.toNat >>> 8 = 0 := by
      rw [Nat.shiftRight_eq_div_pow]
      exact Nat.div_eq_of_lt byte.toNat_lt
    rw [Nat.shiftRight_xor_distrib, hbyte, Nat.xor_zero]
  have hindex : (crc ^^^ byte.toNat) &&& 0xFF = (crc ^^^ byte.toNat) % 2 ^ 8 :=
    Nat.and_two_pow_sub_one_eq_mod _ 8
  have hentry : CRC16_TABLE.getD ((crc ^^^ byte.toNat) % 2 ^ 8) 0 =
      (shift 0xA001)^[8] ((crc ^^^ byte.toNat) % 2 ^ 8) := by
    have hlt : (crc ^^^ byte.toNat) % 2 ^ 8 < 256 := Nat.mod_lt _ (by decide)
    rw [CRC16_TABLE, List.getD_eq_getElem?_getD, List.getElem?_map, List.getElem?_range hlt,
      Option.map_some, Option.getD_some, crc16_entry, repeat_eq_iterate, crc16_shift_eq]
  rw [crc16_byte, hindex, hentry, iterate_shift_split 8 (crc ^^^ byte.toNat), hhigh, Nat.xor_comm]

/-- The table-driven checksum is the bit-by-bit one. -/
theorem crc16_is_bit_by_bit (data : Bytes) : crc16 data = crc16_reference data := by
  unfold crc16 crc16_reference
  congr 1
  funext crc byte
  rw [crc16_byte_eq, repeat_eq_iterate, crc16_reference_bit_eq]

/-! ## The bits on the line -/

/-- The bits of a string of bytes in the order in which they go over the line. -/
def line_bits (data : Bytes) : List Bool := unpack (8 * data.length) data

@[simp] theorem length_line_bits (data : Bytes) : (line_bits data).length = 8 * data.length :=
  length_unpack _ _

theorem line_bits_cons (b : UInt8) (data : Bytes) :
    line_bits (b :: data) = (List.range 8).map b.toNat.testBit ++ line_bits data := by
  have hlen : 8 * (b :: data).length = 8 + 8 * data.length := by
    rw [List.length_cons]
    omega
  unfold line_bits unpack
  rw [hlen, List.range_add, List.map_append, List.map_map]
  congr 1
  apply List.map_congr_left
  intro i _
  have hdiv : (8 + i) / 8 = i / 8 + 1 := by omega
  have hmod : (8 + i) % 8 = i % 8 := by omega
  simp [bitAt, hdiv, hmod]

theorem line_bits_append (xs ys : Bytes) : line_bits (xs ++ ys) = line_bits xs ++ line_bits ys := by
  induction xs with
  | nil => rfl
  | cons b xs ih => rw [List.cons_append, line_bits_cons, line_bits_cons, ih, List.append_assoc]

/-- The checksum is what the bits leave in the register. -/
theorem crc16_eq_feed (data : Bytes) : crc16 data = feed 0xA001 0xFFFF (line_bits data) := by
  have hfold : ∀ (data : Bytes) (crc : Nat),
      data.foldl crc16_byte crc = feed 0xA001 crc (line_bits data) := by
    intro data
    induction data with
    | nil => exact fun _ => rfl
    | cons b data ih =>
      intro crc
      have hbits : ((List.range 8).map b.toNat.testBit).length = 8 := by simp
      rw [List.foldl_cons, ih, line_bits_cons, feed_append, feed_eq crc, hbits,
        number_map_testBit, Nat.mod_eq_of_lt b.toNat_lt, crc16_byte_eq]
  exact hfold data 0xFFFF

/-- The two bytes behind the body are a number whose low byte comes first. -/
theorem number_trailer {trailer : Bytes} (h : trailer.length = 2) :
    number (line_bits trailer) = unpack_le_H trailer := by
  obtain ⟨lo, hi, rfl⟩ := List.length_eq_two.mp h
  have hvalue : unpack_le_H [lo, hi] = 2 ^ 8 * hi.toNat + lo.toNat := by
    simp [unpack_le_H, ofBytes]
    omega
  have hbyte : ∀ (b : UInt8) (i : Nat),
      ((List.range 8).map b.toNat.testBit).getD i false = b.toNat.testBit i := by
    intro b i
    rw [← testBit_number, number_map_testBit, Nat.mod_eq_of_lt b.toNat_lt]
  rw [hvalue, line_bits_cons]
  apply Nat.eq_of_testBit_eq
  intro i
  rw [testBit_number, Nat.testBit_two_pow_mul_add _ lo.toNat_lt]
  rcases Nat.lt_or_ge i 8 with hlt | hge
  · rw [if_pos hlt, List.getD_append _ _ _ _ (by simpa using hlt), hbyte]
  · rw [if_neg (by omega), List.getD_append_right _ _ _ _ (by simpa using hge), line_bits_cons]
    have hnil : line_bits [] = [] := rfl
    rw [hnil, List.append_nil, hbyte]
    simp

theorem polynomial_lt : 0xA001 < 2 ^ 16 := by decide

/-- A body and the two bytes behind it leave nothing in the register when these two are the
checksum of the body. -/
theorem feed_frame_eq_zero_iff (body : Bytes) {trailer : Bytes} (h : trailer.length = 2) :
    feed 0xA001 0xFFFF (line_bits (body ++ trailer)) = 0 ↔ crc16 body = unpack_le_H trailer := by
  have hlt : unpack_le_H trailer < 2 ^ 16 := by
    have := ofBytes_lt trailer.reverse
    rw [List.length_reverse, h] at this
    exact this
  rw [line_bits_append, feed_append, ← crc16_eq_feed, feed_eq, number_trailer h]
  constructor
  · intro hzero
    by_contra hne
    apply iterate_shift_ne_zero polynomial_lt (by decide) _
      (Nat.xor_lt_two_pow (crc16_lt body) hlt) _ hzero
    rwa [ne_eq, Nat.xor_eq_zero_iff]
  · intro heq
    rw [heq, Nat.xor_self, iterate_shift_zero]

/-! ## Errors on the line -/

/-- The positions of the bits in which the two frames differ. -/
def differing (frame frame' : Bytes) : List Nat :=
  (List.range (8 * frame.length)).filter fun i => bitAt frame i != bitAt frame' i

/-- The errors of the line, as a string of bits. -/
def line_errors (frame frame' : Bytes) : List Bool :=
  List.zipWith xor (line_bits frame) (line_bits frame')

variable {frame frame' : Bytes}

theorem line_errors_eq (hlen : frame'.length = frame.length) :
    line_errors frame frame' =
      (List.range (8 * frame.length)).map fun i => bitAt frame i != bitAt frame' i := by
  unfold line_errors line_bits unpack
  rw [hlen, List.zipWith_map, List.zipWith_self]

theorem count_line_errors (hlen : frame'.length = frame.length) :
    (line_errors frame frame').count true = (differing frame frame').length := by
  rw [line_errors_eq hlen, differing, ← List.countP_eq_length_filter, List.count, List.countP_map]
  congr 1
  funext i
  simp

theorem getD_line_errors (hlen : frame'.length = frame.length) (i : Nat) :
    (line_errors frame frame').getD i false = true ↔ i ∈ differing frame frame' := by
  rw [line_errors_eq hlen, differing, List.getD_eq_getElem?_getD, List.getElem?_map,
    List.mem_filter, List.mem_range]
  rcases Nat.lt_or_ge i (8 * frame.length) with h | h
  · simp [h]
  · simp [Nat.not_lt.mpr h]

theorem differing_ne_nil (hlen : frame'.length = frame.length) (hne : frame' ≠ frame) :
    ∃ i, i ∈ differing frame frame' := by
  by_contra hnone
  apply hne
  apply ext_bitAt hlen
  intro i hi
  by_contra hbit
  apply hnone
  refine ⟨i, List.mem_filter.mpr ⟨List.mem_range.mpr (by omega), ?_⟩⟩
  simpa using fun h => hbit h.symm

/-- What the line has changed leaves something in the register: an odd number of bits, or bits
that all lie within 16 consecutive places. -/
theorem feed_line_errors_ne_zero (hlen : frame'.length = frame.length) (hne : frame' ≠ frame)
    (herrors : (differing frame frame').length % 2 = 1 ∨
      ∃ start, ∀ i ∈ differing frame frame', start ≤ i ∧ i < start + 16) :
    feed 0xA001 0 (line_errors frame frame') ≠ 0 := by
  rcases herrors with hodd | ⟨start, hburst⟩
  · apply feed_odd_ne_zero (w := 16) (by decide) polynomial_lt (by decide)
    rw [count_line_errors hlen, hodd]
  · refine feed_burst_ne_zero polynomial_lt (by decide) ?_
      fun i hi => hburst i ((getD_line_errors hlen i).mp hi)
    obtain ⟨i, hi⟩ := differing_ne_nil hlen hne
    have hset := (getD_line_errors hlen i).mpr hi
    have hin : i < (line_errors frame frame').length := by
      by_contra hout
      rw [List.getD_eq_getElem?_getD, List.getElem?_eq_none (by omega)] at hset
      cases hset
    rw [List.getD_eq_getElem _ _ hin] at hset
    rw [← hset]
    exact List.getElem_mem hin

/-- A frame that comes in with the register not at zero is refused. -/
theorem decode_rtu_frame_crc_error {frame : Bytes} (h4 : RTU_MIN_FRAME_LENGTH ≤ frame.length)
    (h : feed 0xA001 0xFFFF (line_bits frame) ≠ 0) :
    ∃ m, decode_rtu_frame frame = .error (.modbus (.ModbusCRCError m)) := by
  unfold RTU_MIN_FRAME_LENGTH at h4
  have hsplit := List.take_append_drop (frame.length - 2) frame
  have htrailer : (frame.drop (frame.length - 2)).length = 2 := by
    rw [List.length_drop]
    omega
  have hcrc : crc16 (frame.take (frame.length - 2)) ≠
      unpack_le_H (frame.drop (frame.length - 2)) := by
    rw [ne_eq, ← feed_frame_eq_zero_iff _ htrailer, hsplit]
    exact h
  unfold decode_rtu_frame RTU_MIN_FRAME_LENGTH
  rw [if_neg (by omega)]
  simp only
  rw [if_pos hcrc]
  exact ⟨_, rfl⟩

/-- A frame that the line has changed is refused, when the number of the bits that changed is odd
or they all lie within 16 consecutive places. -/
theorem corrupted_frame_raises_crc_error {unit_id : Int} {pdu frame frame' : Bytes}
    (hframe : encode_rtu_frame unit_id pdu = .ok frame) (hlen : frame'.length = frame.length)
    (hne : frame' ≠ frame)
    (herrors : (differing frame frame').length % 2 = 1 ∨
      ∃ start, ∀ i ∈ differing frame frame', start ≤ i ∧ i < start + 16) :
    ∃ m, decode_rtu_frame frame' = .error (.modbus (.ModbusCRCError m)) := by
  unfold encode_rtu_frame at hframe
  split at hframe
  · cases hframe
  split at hframe
  · cases hframe
  rename_i hpdu
  cases hframe
  generalize hbody : toBytes 1 unit_id.toNat ++ pdu = body at *
  have hsize : 2 ≤ body.length := by
    rw [← hbody, List.length_append, length_toBytes]
    omega
  have hzero : feed 0xA001 0xFFFF (line_bits (body ++ pack_le_H (crc16 body))) = 0 := by
    rw [feed_frame_eq_zero_iff _ (length_pack_le_H _), unpack_pack_le_H (crc16_lt body)]
  apply decode_rtu_frame_crc_error
  · rw [hlen, List.length_append, length_pack_le_H]
    unfold RTU_MIN_FRAME_LENGTH
    omega
  · have hleft := feed_line_errors_ne_zero hlen hne herrors
    have hbits : (line_bits (body ++ pack_le_H (crc16 body))).length = (line_bits frame').length := by
      rw [length_line_bits, length_line_bits, hlen]
    unfold line_errors at hleft
    rw [← Nat.xor_self 0xFFFF, ← feed_xor _ _ hbits, hzero, Nat.zero_xor] at hleft
    exact hleft

/-- The request to read one register, with the lowest bit of its function code flipped. -/
theorem a_flipped_bit_raises_crc_error :
    encode_rtu_frame 1 [0x03, 0x00, 0x00, 0x00, 0x01] =
        .ok [0x01, 0x03, 0x00, 0x00, 0x00, 0x01, 0x84, 0x0A] ∧
      ∃ m, decode_rtu_frame [0x01, 0x02, 0x00, 0x00, 0x00, 0x01, 0x84, 0x0A] =
        .error (.modbus (.ModbusCRCError m)) := by
  have hframe : encode_rtu_frame 1 [0x03, 0x00, 0x00, 0x00, 0x01] =
      .ok [0x01, 0x03, 0x00, 0x00, 0x00, 0x01, 0x84, 0x0A] := by decide
  exact ⟨hframe, corrupted_frame_raises_crc_error hframe (by decide) (by decide)
    (.inl (by decide))⟩

end pymod.adu_rtu
