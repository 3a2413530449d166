-- The RTU framing, `protocol/adu_rtu.py`, and the reader of a response that both
-- RTU transports share, `transport/_rtu_response.py`.
import Pymod.Pdu
import Pymod.Lib.Readers

namespace pymod.adu_rtu

open errors codec pdu Digits Readers

def RTU_MIN_FRAME_LENGTH : Nat := 4

/-! ## The checksum -/

/-- One turn of the inner loop of `_build_crc16_table`. -/
def crc16_shift (crc : Nat) : Nat :=
  if crc &&& 1 ≠ 0 then (crc >>> 1) ^^^ 0xA001 else crc >>> 1

/-- The entry of `_build_crc16_table` for the byte. -/
def crc16_entry (byte : Nat) : Nat := Nat.repeat crc16_shift 8 byte

def CRC16_TABLE : List Nat := (List.range 256).map crc16_entry

def crc16_byte (crc : Nat) (byte : UInt8) : Nat :=
  (crc >>> 8) ^^^ CRC16_TABLE.getD ((crc ^^^ byte.toNat) &&& 0xFF) 0

def crc16 (data : Bytes) : Nat := data.foldl crc16_byte 0xFFFF

/-! ## Frames -/

/-- `struct.pack("<H", v)` of a 16-bit number. -/
def pack_le_H (v : Nat) : Bytes := (toBytes 2 v).reverse

/-- `struct.unpack("<H", raw)[0]` -/
def unpack_le_H (raw : Bytes) : Nat := ofBytes raw.reverse

def encode_rtu_frame (unit_id : Int) (pdu : Bytes) : Except PyError Bytes :=
  if ¬ (0 ≤ unit_id ∧ unit_id ≤ 0xFF) then
    throw (.ValueError s!"unit_id out of range: {unit_id}")
  else if pdu.length = 0 then
    throw (.ValueError "empty PDU")
  else
    let body := toBytes 1 unit_id.toNat ++ pdu
    pure (body ++ pack_le_H (crc16 body))

def decode_rtu_frame (frame : Bytes) : Except PyError (Nat × Bytes) :=
  if frame.length < RTU_MIN_FRAME_LENGTH then
    throw (.modbus (.ModbusProtocolError s!"RTU frame too short: {frame.length} bytes"))
  else
    let body := frame.take (frame.length - 2)
    let crc_bytes := frame.drop (frame.length - 2)
    let expected := crc16 body
    let actual := unpack_le_H crc_bytes
    if expected ≠ actual then
      throw (.modbus (.ModbusCRCError
        s!"CRC mismatch: expected {hex 4 expected}, got {hex 4 actual}"))
    else
      pure (ofBytes (body.take 1), body.drop 1)

/-! ## The reader of a response -/

def READ_FCS : List UInt8 := [0x01, 0x02, 0x03, 0x04]
def WRITE_FCS : List UInt8 := [0x05, 0x06, 0x0F, 0x10]

def unknown_fc_error (fc_byte : UInt8) : PyError :=
  .modbus (.ModbusProtocolError
    s!"unknown function code in response: {hex 2 fc_byte.toNat}; custom FC support over RTU not yet implemented")

/-- `read_rtu_response_async` and `read_rtu_response_sync`: they differ only in how a read waits. -/
def read_rtu_response : Reader UInt8 PyError Bytes :=
  .read_exactly 2 fun head =>
    let fc_byte := head.getD 1 0
    if fc_byte &&& EXCEPTION_BIT ≠ 0 then
      .read_exactly 3 fun rest => .done (head ++ rest)
    else if fc_byte ∈ READ_FCS then
      .read_exactly 1 fun bc =>
        .read_exactly ((bc.getD 0 0).toNat + 2) fun rest => .done (head ++ bc ++ rest)
    else if fc_byte ∈ WRITE_FCS then
      .read_exactly 6 fun rest => .done (head ++ rest)
    else
      .raised (unknown_fc_error fc_byte)

/-! ## Laws -/

theorem crc16_shift_lt {crc : Nat} (h : crc < 2 ^ 16) : crc16_shift crc < 2 ^ 16 := by
  have hs : crc >>> 1 < 2 ^ 16 := by
    rw [Nat.shiftRight_eq_div_pow]
    omega
  unfold crc16_shift
  split
  · exact Nat.xor_lt_two_pow hs (by decide)
  · exact hs

theorem crc16_entry_lt {byte : Nat} (h : byte < 2 ^ 16) : crc16_entry byte < 2 ^ 16 := by
  have hrepeat : ∀ n, Nat.repeat crc16_shift n byte < 2 ^ 16 := by
    intro n
    induction n with
    | zero => exact h
    | succ n ih => exact crc16_shift_lt ih
  exact hrepeat 8

theorem crc16_byte_lt {crc : Nat} (h : crc < 2 ^ 16) (byte : UInt8) :
    crc16_byte crc byte < 2 ^ 16 := by
  unfold crc16_byte
  apply Nat.xor_lt_two_pow
  · rw [Nat.shiftRight_eq_div_pow]
    omega
  · have hindex : (crc ^^^ byte.toNat) &&& 0xFF < 256 :=
      Nat.lt_of_le_of_lt Nat.and_le_right (by decide)
    unfold CRC16_TABLE
    rw [List.getD_eq_getElem?_getD, List.getElem?_map, List.getElem?_range hindex]
    exact crc16_entry_lt (by omega)

theorem crc16_lt (data : Bytes) : crc16 data < 2 ^ 16 := by
  have hfold : ∀ (data : Bytes) (crc : Nat), crc < 2 ^ 16 →
      data.foldl crc16_byte crc < 2 ^ 16 := by
    intro data
    induction data with
    | nil => exact fun _ h => h
    | cons byte data ih => exact fun crc h => ih _ (crc16_byte_lt h byte)
  exact hfold data 0xFFFF (by decide)

theorem unpack_pack_le_H {v : Nat} (h : v < 2 ^ 16) : unpack_le_H (pack_le_H v) = v := by
  unfold unpack_le_H pack_le_H
  rw [List.reverse_reverse, ofBytes_toBytes]
  exact Nat.mod_eq_of_lt (by omega)

@[simp] theorem length_pack_le_H (v : Nat) : (pack_le_H v).length = 2 := by
  simp [pack_le_H]

/-- A frame as it goes on the wire. -/
def rtu_frame (unit_id : Nat) (pdu : Bytes) : Bytes :=
  toBytes 1 unit_id ++ pdu ++ pack_le_H (crc16 (toBytes 1 unit_id ++ pdu))

theorem encode_rtu_frame_ok {unit_id : Nat} {pdu : Bytes} (hunit : unit_id < 0x100)
    (hpdu : pdu ≠ []) : encode_rtu_frame unit_id pdu = .ok (rtu_frame unit_id pdu) := by
  have hlen : pdu.length ≠ 0 := by simpa using hpdu
  unfold encode_rtu_frame
  rw [if_neg (by omega), if_neg hlen]
  rfl

/-- A frame that was encoded is decoded to what it was made from. -/
theorem decode_encode_rtu_frame {unit_id : Nat} {pdu : Bytes} (hunit : unit_id < 0x100)
    (hpdu : pdu ≠ []) : decode_rtu_frame (rtu_frame unit_id pdu) = .ok (unit_id, pdu) := by
  have hlen : 0 < pdu.length := List.length_pos_of_ne_nil hpdu
  have htotal : (rtu_frame unit_id pdu).length - 2 = (toBytes 1 unit_id ++ pdu).length := by
    simp only [rtu_frame, List.length_append, length_pack_le_H]
    omega
  have hsize : (rtu_frame unit_id pdu).length = 1 + pdu.length + 2 := by
    simp only [rtu_frame, List.length_append, length_pack_le_H, length_toBytes]
  unfold decode_rtu_frame
  rw [if_neg (by rw [hsize]; unfold RTU_MIN_FRAME_LENGTH; omega), htotal]
  unfold rtu_frame
  rw [List.take_left, List.drop_left]
  simp only [unpack_pack_le_H (crc16_lt _), ne_eq, not_true_eq_false, if_false]
  rw [List.take_left' (by simp), List.drop_left' (by simp), ofBytes_toBytes, Nat.pow_one,
    Nat.mod_eq_of_lt hunit]
  rfl

/-- The frame that the reader returns is what its reads have taken off the stream. -/
theorem read_rtu_response_takes {s frame rest : Bytes}
    (h : run read_rtu_response s = some (.ok frame, rest)) : s = frame ++ rest := by
  have hread : ∀ {n : Nat} {k : Bytes → Reader UInt8 PyError Bytes} {s : Bytes},
      run (.read_exactly n k) s = some (.ok frame, rest) →
      run (k (s.take n)) (s.drop n) = some (.ok frame, rest) := by
    intro n k s h
    rw [run] at h
    split at h
    · exact h
    · cases h
  have h1 := hread h
  simp only at h1
  split at h1
  · cases hread h1
    rw [List.append_assoc, List.take_append_drop, List.take_append_drop]
  · split at h1
    · cases hread (hread h1)
      simp only [List.append_assoc, List.take_append_drop]
    · split at h1
      · cases hread h1
        rw [List.append_assoc, List.take_append_drop, List.take_append_drop]
      · cases h1

/-- The response of a slave is read in three reads at most. -/
theorem within_read_rtu_response : Within 3 read_rtu_response := by
  intro head
  simp only
  split
  · exact fun _ => trivial
  · split
    · exact fun _ _ => trivial
    · split
      · exact fun _ => trivial
      · trivial

end pymod.adu_rtu
