-- The framing of a response on an RTU line: the reader finds the end of every
-- frame by itself, and the frame and its two parts give each other back.
import Pymod.AduRtu
import Pymod.PduLaws

namespace pymod.adu_rtu

open errors codec pdu Digits BitStrings Readers

/-! ## The two readers -/

def read_rtu_response_async : Reader UInt8 PyError Bytes := read_rtu_response

def read_rtu_response_sync : Reader UInt8 PyError Bytes := read_rtu_response

/-! ## The responses of the protocol -/

/-- The PDUs that a slave answers with: a read response with its byte count, the echo of a
write, and an exception response. -/
inductive IsResponse : Bytes → Prop
  | read {fc byte_count : UInt8} {data : Bytes} (hfc : fc ∈ READ_FCS)
      (hcount : byte_count.toNat = data.length) : IsResponse (fc :: byte_count :: data)
  | echo {fc : UInt8} {body : Bytes} (hfc : fc ∈ WRITE_FCS) (hlen : body.length = 4) :
      IsResponse (fc :: body)
  | exception {fc : UInt8} (code : UInt8) (hfc : fc &&& EXCEPTION_BIT ≠ 0) :
      IsResponse [fc, code]

theorem IsResponse.ne_nil {pdu : Bytes} (h : IsResponse pdu) : pdu ≠ [] := by
  cases h <;> exact List.cons_ne_nil _ _

theorem read_fcs_no_exception {fc : UInt8} (h : fc ∈ READ_FCS) : fc &&& EXCEPTION_BIT = 0 := by
  simp only [READ_FCS, List.mem_cons, List.not_mem_nil, or_false] at h
  rcases h with rfl | rfl | rfl | rfl <;> decide

theorem write_fcs_no_exception {fc : UInt8} (h : fc ∈ WRITE_FCS) :
    fc &&& EXCEPTION_BIT = 0 ∧ fc ∉ READ_FCS := by
  simp only [WRITE_FCS, List.mem_cons, List.not_mem_nil, or_false] at h
  rcases h with rfl | rfl | rfl | rfl <;> decide

/-- What the server's encoders write is of these kinds. -/
theorem isResponse_encode_response_bits {fc : UInt8} {values : List Bool} {pdu : Bytes}
    (hfc : fc ∈ READ_FCS) (h : encode_response_bits fc values = .ok pdu) : IsResponse pdu := by
  unfold encode_response_bits at h
  by_cases hlen : (values.length + 7) / 8 < 256
  · rw [byte_of_ok (by omega) (by omega)] at h
    cases h
    refine IsResponse.read hfc ?_
    rw [show (((values.length : Int) + 7) / 8).toNat = (values.length + 7) / 8 by omega,
      toNat_ofNat hlen, length_pack]
  · rw [byte_of, if_neg (by omega)] at h
    cases h

theorem isResponse_encode_response_registers {fc : UInt8} {values : List Int} {pdu : Bytes}
    (hfc : fc ∈ READ_FCS) (h : encode_response_registers fc values = .ok pdu) :
    IsResponse pdu := by
  unfold encode_response_registers at h
  cases hwords : values.mapM to_two_bytes with
  | error e =>
    rw [hwords] at h
    cases h
  | ok words =>
    rw [hwords] at h
    simp only [bind, Except.bind] at h
    by_cases hlen : words.flatten.length < 256
    · rw [byte_of_ok (by omega) (by omega)] at h
      cases h
      refine IsResponse.read hfc ?_
      rw [Int.toNat_natCast, toNat_ofNat hlen]
    · rw [byte_of, if_neg (by omega)] at h
      cases h

theorem isResponse_pack_BHH {fc : UInt8} {a b : Int} {pdu : Bytes} (hfc : fc ∈ WRITE_FCS)
    (h : pack_BHH fc a b = .ok pdu) : IsResponse pdu := by
  unfold pack_BHH pack_H at h
  by_cases ha : IsRegister a
  · by_cases hb : IsRegister b
    · rw [if_pos ha, if_pos hb] at h
      cases h
      exact IsResponse.echo hfc (by simp [length_register_bytes])
    · rw [if_pos ha, if_neg hb] at h
      cases h
  · rw [if_neg ha] at h
    cases h

theorem isResponse_encode_exception_response {fc code : Int} {pdu : Bytes}
    (h : encode_exception_response fc code = .ok pdu) : IsResponse pdu := by
  have hbit : ∀ c : UInt8, (c ||| EXCEPTION_BIT) &&& EXCEPTION_BIT ≠ 0 := by
    intro c
    have habsorb : (c ||| EXCEPTION_BIT) &&& EXCEPTION_BIT = EXCEPTION_BIT := by
      apply UInt8.toNat.inj
      apply Nat.eq_of_testBit_eq
      intro i
      rw [UInt8.toNat_and, UInt8.toNat_or, Nat.testBit_and, Nat.testBit_or]
      cases EXCEPTION_BIT.toNat.testBit i <;> simp
    rw [habsorb]
    decide
  unfold encode_exception_response at h
  split at h
  · cases h
  · split at h
    · cases h
    · cases h
      exact IsResponse.exception _ (hbit _)

/-! ## What the reader takes -/

/-- The reads of the reader take the frame of a response, and then it has ended. -/
theorem after_rtu_frame {unit_id : Nat} {pdu : Bytes} (h : IsResponse pdu) :
    After read_rtu_response (rtu_frame unit_id pdu) (.done (rtu_frame unit_id pdu)) := by
  have hcrc := length_pack_le_H (crc16 (toBytes 1 unit_id ++ pdu))
  unfold rtu_frame
  generalize pack_le_H (crc16 (toBytes 1 unit_id ++ pdu)) = crc at hcrc
  obtain ⟨uid, huid⟩ : ∃ uid, toBytes 1 unit_id = [uid] := ⟨_, rfl⟩
  rw [huid]
  have hstart := After.start read_rtu_response
  have htwo : ∀ fc : UInt8, [uid, fc].length = 2 := fun _ => rfl
  cases h with
  | @read fc byte_count data hfc hcount =>
    have hlast : (data ++ crc).length = byte_count.toNat + 2 := by
      rw [List.length_append, hcount, hcrc]
    have h2 := hstart.read (htwo fc)
    simp only [List.getD_cons_succ, List.getD_cons_zero, read_fcs_no_exception hfc, ne_eq,
      not_true_eq_false, if_false, if_pos hfc] at h2
    have hone : [byte_count].length = 1 := rfl
    have h3 := (h2.read hone).read hlast
    simpa using h3
  | @echo fc body hfc hlen =>
    have hlast : (body ++ crc).length = 6 := by rw [List.length_append, hlen, hcrc]
    obtain ⟨hexc, hread⟩ := write_fcs_no_exception hfc
    have h2 := hstart.read (htwo fc)
    simp only [List.getD_cons_succ, List.getD_cons_zero, hexc, ne_eq, not_true_eq_false, if_false,
      if_neg hread, if_pos hfc] at h2
    have h3 := h2.read hlast
    simpa using h3
  | @exception fc code hfc =>
    have hlast : ([code] ++ crc).length = 3 := by rw [List.length_append, hcrc]; rfl
    have h2 := hstart.read (htwo fc)
    simp only [List.getD_cons_succ, List.getD_cons_zero, if_pos hfc] at h2
    have h3 := h2.read hlast
    simpa using h3

/-- From a stream that starts with the frame of a response, the reader takes that frame. -/
theorem read_rtu_response_frame {unit_id : Nat} {pdu : Bytes} (h : IsResponse pdu)
    (rest : Bytes) :
    run read_rtu_response (rtu_frame unit_id pdu ++ rest) =
      some (.ok (rtu_frame unit_id pdu), rest) :=
  after_rtu_frame h rest

/-! ## Frames that are accepted -/

theorem pack_unpack_le_H {raw : Bytes} (h : raw.length = 2) : pack_le_H (unpack_le_H raw) = raw := by
  have hlen : raw.reverse.length = 2 := by rw [List.length_reverse, h]
  have hback := toBytes_ofBytes raw.reverse
  rw [hlen] at hback
  rw [pack_le_H, unpack_le_H, hback, List.reverse_reverse]

/-- A frame that the decoder accepts is the frame of what it gives. -/
theorem rtu_frame_of_decode {frame pdu : Bytes} {unit_id : Nat}
    (h : decode_rtu_frame frame = .ok (unit_id, pdu)) :
    unit_id < 0x100 ∧ pdu ≠ [] ∧ frame = rtu_frame unit_id pdu := by
  unfold decode_rtu_frame at h
  by_cases hlen : frame.length < RTU_MIN_FRAME_LENGTH
  · rw [if_pos hlen] at h
    cases h
  rw [if_neg hlen] at h
  unfold RTU_MIN_FRAME_LENGTH at hlen
  by_cases hcrc : crc16 (frame.take (frame.length - 2)) ≠
      unpack_le_H (frame.drop (frame.length - 2))
  · simp only [if_pos hcrc] at h
    cases h
  simp only [if_neg hcrc] at h
  rw [not_ne_iff] at hcrc
  cases h
  have hbody : (frame.take (frame.length - 2)).length = frame.length - 2 := by
    rw [List.length_take]
    omega
  have htail : (frame.drop (frame.length - 2)).length = 2 := by
    rw [List.length_drop]
    omega
  have hsplit : frame = frame.take (frame.length - 2) ++ frame.drop (frame.length - 2) :=
    (List.take_append_drop _ _).symm
  generalize hb : frame.take (frame.length - 2) = body at *
  generalize frame.drop (frame.length - 2) = tail at *
  have hone : (body.take 1).length = 1 := by
    rw [List.length_take]
    omega
  have huid : toBytes 1 (ofBytes (body.take 1)) = body.take 1 := by
    have hback := toBytes_ofBytes (body.take 1)
    rwa [hone] at hback
  refine ⟨?_, ?_, ?_⟩
  · have hlt := ofBytes_lt (body.take 1)
    rwa [hone] at hlt
  · apply List.ne_nil_of_length_pos
    rw [List.length_drop]
    omega
  · rw [rtu_frame, huid, List.take_append_drop, hcrc, pack_unpack_le_H htail]
    exact hsplit

/-- The framing of a response, both ways: both readers take the frame off the line and leave
what follows, the decoder gives back what was framed, and it accepts nothing but frames. -/
theorem rtu_framing_round_trips :
    (∀ (unit_id : Nat) (pdu rest : Bytes), unit_id < 0x100 → IsResponse pdu →
      ∃ frame, encode_rtu_frame unit_id pdu = .ok frame ∧
        run read_rtu_response_sync (frame ++ rest) = some (.ok frame, rest) ∧
        run read_rtu_response_async (frame ++ rest) = some (.ok frame, rest) ∧
        decode_rtu_frame frame = .ok (unit_id, pdu)) ∧
    ∀ (frame pdu : Bytes) (unit_id : Nat), decode_rtu_frame frame = .ok (unit_id, pdu) →
      encode_rtu_frame unit_id pdu = .ok frame := by
  constructor
  · intro unit_id pdu rest hunit hpdu
    exact ⟨rtu_frame unit_id pdu, encode_rtu_frame_ok hunit hpdu.ne_nil,
      read_rtu_response_frame hpdu rest, read_rtu_response_frame hpdu rest,
      decode_encode_rtu_frame hunit hpdu.ne_nil⟩
  · intro frame pdu unit_id h
    obtain ⟨hunit, hpdu, rfl⟩ := rtu_frame_of_decode h
    exact encode_rtu_frame_ok hunit hpdu

/-- One register read from unit 17, with a byte of the next frame behind it. -/
theorem rtu_framing_round_trips_one_register :
    (∃ frame, encode_rtu_frame (17 : Nat) [0x03, 0x02, 0x00, 0x05] = .ok frame ∧
      run read_rtu_response_sync (frame ++ [0x11]) = some (.ok frame, [0x11]) ∧
      run read_rtu_response_async (frame ++ [0x11]) = some (.ok frame, [0x11]) ∧
      decode_rtu_frame frame = .ok (17, [0x03, 0x02, 0x00, 0x05])) ∧
    encode_rtu_frame (17 : Nat) [0x03, 0x02, 0x00, 0x05] =
      .ok (rtu_frame 17 [0x03, 0x02, 0x00, 0x05]) :=
  ⟨rtu_framing_round_trips.1 17 [0x03, 0x02, 0x00, 0x05] [0x11] (by decide)
      (.read (by decide) (by decide)),
    rtu_framing_round_trips.2 _ _ _ (decode_encode_rtu_frame (by decide) (List.cons_ne_nil _ _))⟩

end pymod.adu_rtu
