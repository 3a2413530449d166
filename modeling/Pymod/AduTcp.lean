-- The MBAP framing, `protocol/adu_tcp.py`, and the cutting of a byte stream into
-- frames, which the read loops share.
import Pymod.PduLaws

namespace pymod.adu_tcp

open errors codec pdu Digits

def MBAP_HEADER_LENGTH : Nat := 7
def MBAP_LENGTH_FIELD_OFFSET : Nat := 4
def MBAP_LENGTH_FIELD_SIZE : Nat := 2
def MBAP_PROTOCOL_ID : Int := 0x0000
def MBAP_MIN_PEEK_BYTES : Nat := MBAP_LENGTH_FIELD_OFFSET + MBAP_LENGTH_FIELD_SIZE

/-- `struct.pack(">HHHB", a, b, c, n)` -/
def pack_HHHB (a b c n : Int) : Except PyError Bytes := do
  let raw_a ← pack_H a
  let raw_b ← pack_H b
  let raw_c ← pack_H c
  let raw_n ← pack_B n
  pure (raw_a ++ raw_b ++ raw_c ++ raw_n)

def encode_mbap_frame (transaction_id unit_id : Int) (pdu : Bytes) : Except PyError Bytes :=
  if ¬ (0 ≤ transaction_id ∧ transaction_id ≤ 0xFFFF) then
    throw (.ValueError s!"transaction_id out of range: {transaction_id}")
  else if ¬ (0 ≤ unit_id ∧ unit_id ≤ 0xFF) then
    throw (.ValueError s!"unit_id out of range: {unit_id}")
  else if pdu.length = 0 then
    throw (.ValueError "empty PDU")
  else
    let length := 1 + pdu.length
    if 0xFFFF < length then
      throw (.ValueError s!"PDU too large for MBAP: {pdu.length} bytes")
    else do
      let header ← pack_HHHB transaction_id MBAP_PROTOCOL_ID length unit_id
      pure (header ++ pdu)

def decode_mbap_frame (frame : Bytes) : Except PyError (Nat × Nat × Bytes) :=
  if frame.length < MBAP_HEADER_LENGTH then
    throw (.modbus (.ModbusProtocolError s!"MBAP frame too short: {frame.length} bytes"))
  else
    let tid := ofBytes (frame.take 2)
    let pid := ofBytes ((frame.drop 2).take 2)
    let length := ofBytes ((frame.drop 4).take 2)
    let uid := ofBytes ((frame.drop 6).take 1)
    let pdu := frame.drop MBAP_HEADER_LENGTH
    let expected_pdu_length : Int := length - 1
    if (pid : Int) ≠ MBAP_PROTOCOL_ID then
      throw (.modbus (.ModbusProtocolError s!"unexpected MBAP protocol id: {hex 4 pid}"))
    else if expected_pdu_length ≠ pdu.length then
      throw (.modbus (.ModbusProtocolError
        s!"MBAP length mismatch: header says {length} (PDU expected {expected_pdu_length}), got {pdu.length} bytes"))
    else if pdu.length = 0 then
      throw (.modbus (.ModbusProtocolError "empty PDU"))
    else
      pure (tid, uid, pdu)

def expected_frame_length (header : Bytes) : Except PyError Nat :=
  if header.length < MBAP_MIN_PEEK_BYTES then
    throw (.modbus (.ModbusProtocolError
      s!"need at least {MBAP_MIN_PEEK_BYTES} bytes to read MBAP length, got {header.length}"))
  else
    let length := ofBytes ((header.drop MBAP_LENGTH_FIELD_OFFSET).take
      MBAP_LENGTH_FIELD_SIZE)
    pure (MBAP_MIN_PEEK_BYTES + length)

/-! ## Cutting a stream -/

/-- `await reader.readexactly(n)` on the unread bytes; `none` while it has to wait. -/
def readexactly (n : Nat) (unread : Bytes) : Option (Bytes × Bytes) :=
  if n ≤ unread.length then some (unread.take n, unread.drop n) else none

/-- The three reads at the head of a read loop: the frame, and the bytes left unread. -/
def read_frame (unread : Bytes) : Except PyError (Option (Bytes × Bytes)) :=
  match readexactly MBAP_MIN_PEEK_BYTES unread with
  | none => pure none
  | some (header, behind) => do
    let total ← expected_frame_length header
    match readexactly (total - MBAP_MIN_PEEK_BYTES) behind with
    | none => pure none
    | some (rest, behind) => pure (some (header ++ rest, behind))

/-! ## Laws -/

/-- The bytes in front of the PDU. -/
def mbap_header (transaction_id unit_id length : Nat) : Bytes :=
  toBytes 2 transaction_id ++ toBytes 2 0 ++ toBytes 2 length ++ toBytes 1 unit_id

theorem encode_mbap_frame_eq {transaction_id unit_id : Int} {pdu frame : Bytes}
    (h : encode_mbap_frame transaction_id unit_id pdu = .ok frame) :
    ∃ tid uid : Nat, (tid : Int) = transaction_id ∧ (uid : Int) = unit_id ∧ tid < 0x10000 ∧
      uid < 0x100 ∧ 0 < pdu.length ∧ 1 + pdu.length < 0x10000 ∧
      frame = mbap_header tid uid (1 + pdu.length) ++ pdu := by
  unfold encode_mbap_frame at h
  by_cases h1 : 0 ≤ transaction_id ∧ transaction_id ≤ 0xFFFF
  swap
  · rw [if_pos h1] at h
    cases h
  by_cases h2 : 0 ≤ unit_id ∧ unit_id ≤ 0xFF
  swap
  · rw [if_neg (not_not.mpr h1), if_pos h2] at h
    cases h
  by_cases h3 : pdu.length = 0
  · rw [if_neg (not_not.mpr h1), if_neg (not_not.mpr h2), if_pos h3] at h
    cases h
  by_cases h4 : 0xFFFF < 1 + pdu.length
  · simp only [if_neg (not_not.mpr h1), if_neg (not_not.mpr h2), if_neg h3, if_pos h4] at h
    cases h
  simp only [if_neg (not_not.mpr h1), if_neg (not_not.mpr h2), if_neg h3, if_neg h4] at h
  have hlen : IsRegister ((1 + pdu.length : Nat) : Int) := by
    refine ⟨?_, ?_⟩ <;> omega
  have hhead : pack_HHHB transaction_id MBAP_PROTOCOL_ID ((1 + pdu.length : Nat) : Int) unit_id =
      .ok (mbap_header transaction_id.toNat unit_id.toNat (1 + pdu.length)) := by
    unfold pack_HHHB
    rw [pack_H_ok h1, pack_H_ok (by decide), pack_H_ok hlen, pack_B, if_pos h2]
    have hb : toBytes 1 unit_id.toNat = [UInt8.ofNat unit_id.toNat] := by
      have : unit_id.toNat % 256 = unit_id.toNat := Nat.mod_eq_of_lt (by omega)
      simp [toBytes, this]
    simp only [mbap_header, hb]
    rfl
  rw [hhead] at h
  cases h
  exact ⟨transaction_id.toNat, unit_id.toNat, by omega, by omega, by omega, by omega, by omega,
    by omega, rfl⟩

theorem encode_mbap_frame_ok {tid uid : Nat} {pdu : Bytes} (htid : tid < 0x10000)
    (huid : uid < 0x100) (h0 : 0 < pdu.length) (h1 : 1 + pdu.length < 0x10000) :
    encode_mbap_frame tid uid pdu = .ok (mbap_header tid uid (1 + pdu.length) ++ pdu) := by
  cases h : encode_mbap_frame tid uid pdu with
  | ok frame =>
    obtain ⟨tid', uid', ht, hu, _, _, _, _, rfl⟩ := encode_mbap_frame_eq h
    rw [Nat.cast_injective ht, Nat.cast_injective hu]
  | error e =>
    exfalso
    unfold encode_mbap_frame at h
    rw [if_neg (by omega), if_neg (by omega), if_neg (by omega)] at h
    simp only [if_neg (show ¬ 0xFFFF < 1 + pdu.length by omega)] at h
    have hlen : IsRegister ((1 + pdu.length : Nat) : Int) := by
      refine ⟨?_, ?_⟩ <;> omega
    have htid : IsRegister (tid : Int) := by
      refine ⟨?_, ?_⟩ <;> omega
    unfold pack_HHHB at h
    rw [pack_H_ok htid, pack_H_ok (by decide), pack_H_ok hlen, pack_B, if_pos (by omega)] at h
    cases h

@[simp] theorem length_mbap_header (tid uid length : Nat) :
    (mbap_header tid uid length).length = 7 := by
  simp [mbap_header]

theorem mbap_header_fields {tid uid length : Nat} (htid : tid < 0x10000) (huid : uid < 0x100)
    (hlen : length < 0x10000) (pdu : Bytes) :
    ofBytes ((mbap_header tid uid length ++ pdu).take 2) = tid ∧
      ofBytes (((mbap_header tid uid length ++ pdu).drop 2).take 2) = 0 ∧
      ofBytes (((mbap_header tid uid length ++ pdu).drop 4).take 2) = length ∧
      ofBytes (((mbap_header tid uid length ++ pdu).drop 6).take 1) = uid := by
  have h2 : ∀ v, (toBytes 2 v).length = 2 := length_toBytes 2
  have h1 : ∀ v, (toBytes 1 v).length = 1 := length_toBytes 1
  have htwo : ∀ v, v < 0x10000 → ofBytes (toBytes 2 v) = v := fun v hv => by
    rw [ofBytes_toBytes]
    exact Nat.mod_eq_of_lt hv
  have hone : ofBytes (toBytes 1 uid) = uid := by
    rw [ofBytes_toBytes]
    exact Nat.mod_eq_of_lt huid
  have hd2 : (mbap_header tid uid length ++ pdu).drop 2 =
      toBytes 2 0 ++ (toBytes 2 length ++ (toBytes 1 uid ++ pdu)) := by
    simp [mbap_header, h2, List.append_assoc]
  have hd4 : (mbap_header tid uid length ++ pdu).drop 4 =
      toBytes 2 length ++ (toBytes 1 uid ++ pdu) := by
    rw [← List.drop_drop (i := 2) (j := 2), hd2, List.drop_left' (h2 0)]
  have hd6 : (mbap_header tid uid length ++ pdu).drop 6 = toBytes 1 uid ++ pdu := by
    rw [← List.drop_drop (i := 2) (j := 4), hd4, List.drop_left' (h2 length)]
  refine ⟨?_, ?_, ?_, ?_⟩
  · have : (mbap_header tid uid length ++ pdu).take 2 = toBytes 2 tid := by
      simp only [mbap_header, List.append_assoc]
      exact List.take_left' (h2 tid)
    rw [this, htwo tid htid]
  · rw [hd2, List.take_left' (h2 0), htwo 0 (by decide)]
  · rw [hd4, List.take_left' (h2 length), htwo length hlen]
  · rw [hd6, List.take_left' (h1 uid), hone]

/-- What the encoder wrote, the decoder reads. -/
theorem decode_encode_mbap_frame {transaction_id unit_id : Int} {pdu frame : Bytes}
    (h : encode_mbap_frame transaction_id unit_id pdu = .ok frame) :
    decode_mbap_frame frame = .ok (transaction_id.toNat, unit_id.toNat, pdu) := by
  obtain ⟨tid, uid, rfl, rfl, htid, huid, h0, h1, rfl⟩ := encode_mbap_frame_eq h
  obtain ⟨ft, fp, fl, fu⟩ := mbap_header_fields htid huid h1 pdu
  have hdrop : (mbap_header tid uid (1 + pdu.length) ++ pdu).drop MBAP_HEADER_LENGTH = pdu :=
    List.drop_left' (length_mbap_header _ _ _)
  unfold decode_mbap_frame
  simp only [ft, fp, fl, fu, hdrop]
  rw [if_neg (by simp [MBAP_HEADER_LENGTH]), if_neg (by simp [MBAP_PROTOCOL_ID]),
    if_neg (by omega), if_neg (by omega)]
  rfl

/-- A stream that starts with an encoded frame is cut right behind that frame. -/
theorem read_frame_encoded {transaction_id unit_id : Int} {pdu frame : Bytes}
    (h : encode_mbap_frame transaction_id unit_id pdu = .ok frame) (behind : Bytes) :
    read_frame (frame ++ behind) = .ok (some (frame, behind)) := by
  obtain ⟨tid, uid, rfl, rfl, htid, huid, h0, h1, rfl⟩ := encode_mbap_frame_eq h
  obtain ⟨-, -, fl, -⟩ := mbap_header_fields htid huid h1 pdu
  generalize hf : mbap_header tid uid (1 + pdu.length) ++ pdu = frame at fl
  have hlen : frame.length = 7 + pdu.length := by simp [← hf]
  have hhead : readexactly MBAP_MIN_PEEK_BYTES (frame ++ behind) =
      some (frame.take 6, frame.drop 6 ++ behind) := by
    unfold readexactly
    rw [if_pos (by simp [MBAP_MIN_PEEK_BYTES, MBAP_LENGTH_FIELD_OFFSET,
      MBAP_LENGTH_FIELD_SIZE]; omega)]
    have ht : (frame ++ behind).take 6 = frame.take 6 := by
      rw [List.take_append_of_le_length (by omega)]
    have hd : (frame ++ behind).drop 6 = frame.drop 6 ++ behind := by
      rw [List.drop_append_of_le_length (by omega)]
    exact congrArg some (Prod.ext ht hd)
  have htotal : expected_frame_length (frame.take 6) = .ok (6 + (1 + pdu.length)) := by
    unfold expected_frame_length
    rw [if_neg (by simp [MBAP_MIN_PEEK_BYTES, MBAP_LENGTH_FIELD_OFFSET,
      MBAP_LENGTH_FIELD_SIZE]; omega)]
    have : (((frame.take 6).drop 4).take 2) = ((frame.drop 4).take 2) := by
      rw [List.drop_take, List.take_take]
      rfl
    simp only [MBAP_LENGTH_FIELD_OFFSET, MBAP_LENGTH_FIELD_SIZE, this, fl]
    rfl
  have hrest : readexactly (6 + (1 + pdu.length) - MBAP_MIN_PEEK_BYTES)
      (frame.drop 6 ++ behind) = some (frame.drop 6, behind) := by
    have hl : (frame.drop 6).length = 6 + (1 + pdu.length) - MBAP_MIN_PEEK_BYTES := by
      simp [MBAP_MIN_PEEK_BYTES, MBAP_LENGTH_FIELD_OFFSET, MBAP_LENGTH_FIELD_SIZE]
      omega
    unfold readexactly
    rw [if_pos (by simp [← hl]), ← hl, List.take_left, List.drop_left]
  unfold read_frame
  rw [hhead]
  simp only [htotal]
  change (match readexactly (6 + (1 + pdu.length) - MBAP_MIN_PEEK_BYTES)
      (frame.drop 6 ++ behind) with
    | none => pure none
    | some (rest, behind) => pure (some (frame.take 6 ++ rest, behind))) = _
  rw [hrest]
  simp only [List.take_append_drop]
  rfl

theorem readexactly_append {n : Nat} {unread got behind : Bytes} (more : Bytes)
    (h : readexactly n unread = some (got, behind)) :
    readexactly n (unread ++ more) = some (got, behind ++ more) := by
  unfold readexactly at h ⊢
  by_cases hn : n ≤ unread.length
  · rw [if_pos hn] at h
    cases h
    rw [if_pos (by simp; omega), List.take_append_of_le_length hn,
      List.drop_append_of_le_length hn]
  · rw [if_neg hn] at h
    cases h

/-- A frame that is complete is cut off the same way whatever arrives behind it. -/
theorem read_frame_append {unread frame behind : Bytes} (more : Bytes)
    (h : read_frame unread = .ok (some (frame, behind))) :
    read_frame (unread ++ more) = .ok (some (frame, behind ++ more)) := by
  unfold read_frame at h ⊢
  rcases hh : readexactly MBAP_MIN_PEEK_BYTES unread with _ | ⟨header, tail⟩
  · rw [hh] at h
    cases h
  rw [hh] at h
  rw [readexactly_append more hh]
  simp only at h ⊢
  rcases ht : expected_frame_length header with e | total
  · rw [ht] at h
    cases h
  rw [ht] at h
  rcases hr : readexactly (total - MBAP_MIN_PEEK_BYTES) tail with _ | ⟨rest, last⟩
  · simp only [bind, Except.bind, hr] at h
    cases h
  · simp only [bind, Except.bind, hr] at h ⊢
    rw [readexactly_append more hr]
    cases h
    rfl

/-- Reading a frame takes its bytes off the front and nothing else. -/
theorem read_frame_takes {unread frame behind : Bytes}
    (h : read_frame unread = .ok (some (frame, behind))) : frame ++ behind = unread := by
  have htake : ∀ {n : Nat} {unread got behind : Bytes},
      readexactly n unread = some (got, behind) → got ++ behind = unread := by
    intro n unread got behind h
    unfold readexactly at h
    by_cases hn : n ≤ unread.length
    · rw [if_pos hn] at h
      cases h
      exact List.take_append_drop n unread
    · rw [if_neg hn] at h
      cases h
  unfold read_frame at h
  rcases hh : readexactly MBAP_MIN_PEEK_BYTES unread with _ | ⟨header, tail⟩
  · rw [hh] at h
    cases h
  rw [hh] at h
  simp only at h
  rcases ht : expected_frame_length header with e | total
  · rw [ht] at h
    cases h
  rw [ht] at h
  rcases hr : readexactly (total - MBAP_MIN_PEEK_BYTES) tail with _ | ⟨rest, last⟩
  · simp only [bind, Except.bind, hr] at h
    cases h
  · simp only [bind, Except.bind, hr] at h
    cases h
    rw [List.append_assoc, htake hr, htake hh]

end pymod.adu_tcp
