-- The laws of the PDUs: when an encoder accepts its arguments and what it writes,
-- what a decoder accepts, and that each side reads what the other one wrote.
import Pymod.Pdu
import Pymod.CodecLaws

namespace pymod.pdu

open errors codec Digits BitStrings Slices

/-! ## Two integers after a function code -/

/-- A function code and two 16-bit integers. -/
def words (fc : UInt8) (a b : Int) : Bytes := fc :: register_bytes a ++ register_bytes b

@[simp] theorem length_words (fc : UInt8) (a b : Int) : (words fc a b).length = 5 := by
  simp [words, length_register_bytes]

@[simp] theorem head_words (fc : UInt8) (a b : Int) : (words fc a b).head? = some fc := rfl

theorem unpack_HH_words {a b : Int} (fc : UInt8) (rest : Bytes) (ha : IsRegister a)
    (hb : IsRegister b) : unpack_HH (words fc a b ++ rest) = (a, b) := by
  have hla := length_register_bytes a
  have hlb := length_register_bytes b
  have h1 : ((words fc a b ++ rest).drop 1).take 2 = register_bytes a := by
    simp [words, hla]
  have h2 : ((words fc a b ++ rest).drop 3).take 2 = register_bytes b := by
    have : (words fc a b ++ rest).drop 3 = register_bytes b ++ rest := by
      simp [words, hla]
    rw [this, List.take_left' hlb]
  simp only [unpack_HH, h1, h2, ofBytes_register_bytes ha, ofBytes_register_bytes hb]

theorem unpack_HH_words' {a b : Int} (fc : UInt8) (ha : IsRegister a) (hb : IsRegister b) :
    unpack_HH (words fc a b) = (a, b) := by
  simpa using unpack_HH_words fc [] ha hb

theorem isRegister_unpack_HH (pdu : Bytes) (h : 5 ≤ pdu.length) :
    IsRegister (unpack_HH pdu).1 ∧ IsRegister (unpack_HH pdu).2 := by
  constructor
  · exact isRegister_ofBytes (by simp; omega)
  · exact isRegister_ofBytes (by simp; omega)

/-- A PDU of at least five bytes starts with its code and the two integers in it. -/
theorem words_unpack_HH (pdu : Bytes) {fc : UInt8} (h : 5 ≤ pdu.length)
    (hfc : pdu.head? = some fc) :
    pdu = words fc (unpack_HH pdu).1 (unpack_HH pdu).2 ++ pdu.drop 5 := by
  have h1 : ((pdu.drop 1).take 2).length = 2 := by simp; omega
  have h2 : ((pdu.drop 3).take 2).length = 2 := by simp; omega
  simp only [words, unpack_HH]
  rw [register_bytes_ofBytes h1, register_bytes_ofBytes h2]
  cases pdu with
  | nil => simp at h
  | cons c rest =>
    simp only [List.head?_cons, Option.some.injEq] at hfc
    subst hfc
    have h3 : rest = rest.take 2 ++ ((rest.drop 2).take 2 ++ rest.drop 4) := by
      rw [← List.drop_drop (i := 2) (j := 2), List.take_append_drop, List.take_append_drop]
    simpa using h3

theorem pack_H_ok {v : Int} (h : IsRegister v) : pack_H v = .ok (register_bytes v) := by
  unfold pack_H
  rw [if_pos h]
  rfl

theorem pack_BHH_ok {a b : Int} (fc : UInt8) (ha : IsRegister a) (hb : IsRegister b) :
    pack_BHH fc a b = .ok (words fc a b) := by
  unfold pack_BHH
  rw [pack_H_ok ha, pack_H_ok hb]
  rfl

theorem pack_BHHB_ok {a b n : Int} (fc : UInt8) (ha : IsRegister a) (hb : IsRegister b)
    (h0 : 0 ≤ n) (h1 : n ≤ 0xFF) :
    pack_BHHB fc a b n = .ok (words fc a b ++ [UInt8.ofNat n.toNat]) := by
  unfold pack_BHHB pack_B
  rw [pack_BHH_ok fc ha hb, if_pos ⟨h0, h1⟩]
  rfl

theorem byte_of_ok {v : Int} (h0 : 0 ≤ v) (h1 : v < 256) :
    byte_of v = .ok (UInt8.ofNat v.toNat) := by
  unfold byte_of
  rw [if_pos ⟨h0, h1⟩]
  rfl

theorem check_address_ok {addr : Int} (h : IsRegister addr) : check_address addr = .ok () := by
  unfold check_address
  rw [if_pos (show 0 ≤ addr ∧ addr ≤ ADDRESS_MAX from h)]
  rfl

theorem check_count_ok {count maximum : Int} {name : String} (h0 : 1 ≤ count)
    (h1 : count ≤ maximum) : check_count count maximum name = .ok () := by
  unfold check_count
  rw [if_pos ⟨h0, h1⟩]
  rfl

/-- An address outside of `0..0xFFFF` is a `ValueError`. -/
theorem check_address_error {addr : Int} (h : ¬ IsRegister addr) :
    check_address addr = .error (.ValueError s!"address out of range: {addr}") := by
  unfold check_address
  rw [if_neg (show ¬ (0 ≤ addr ∧ addr ≤ ADDRESS_MAX) from h)]
  rfl

/-! ## Registers and bits in a PDU -/

theorem toNat_ofNat {n : Nat} (h : n < 256) : (UInt8.ofNat n).toNat = n := by
  rw [UInt8.toNat_ofNat', Nat.mod_eq_of_lt h]

theorem mapM_pack_H {values : List Int} (h : ∀ v ∈ values, IsRegister v) :
    values.mapM pack_H = .ok (values.map register_bytes) :=
  mapM_ok fun v hv => pack_H_ok (h v hv)

theorem to_two_bytes_ok {v : Int} (h : IsRegister v) :
    to_two_bytes v = .ok (register_bytes v) := by
  have h0 := h.1
  have h1 := h.2
  unfold to_two_bytes
  rw [if_neg (by omega), if_neg (by omega)]
  rfl

/-- The data bytes of a list of registers. -/
def register_data (values : List Int) : Bytes := (values.map register_bytes).flatten

@[simp] theorem length_register_data (values : List Int) :
    (register_data values).length = 2 * values.length := by
  have hall : ∀ w ∈ values.map register_bytes, w.length = 2 := by
    simp only [List.forall_mem_map]
    exact fun v _ => length_register_bytes v
  rw [register_data, length_flatten_const _ hall, List.length_map, Nat.mul_comm]

theorem byte_pairs_register_data (values : List Int) :
    byte_pairs (register_data values) = values.map register_bytes := by
  induction values with
  | nil => rfl
  | cons v vs ih =>
    have hv := length_register_bytes v
    match hr : register_bytes v, hv with
    | [a, b], _ =>
      have hcons : register_data (v :: vs) = a :: b :: register_data vs := by
        simp [register_data, hr]
      rw [hcons, byte_pairs, ih, List.map_cons, hr]

theorem unpack_H_register_data {values : List Int} (h : ∀ v ∈ values, IsRegister v) :
    unpack_H values.length (register_data values) = .ok values := by
  unfold unpack_H
  rw [if_pos (length_register_data values), byte_pairs_register_data, List.map_map]
  have hback : values.map ((fun c => (ofBytes c : Int)) ∘ register_bytes) = values.map id :=
    List.map_congr_left fun v hv => ofBytes_register_bytes (h v hv)
  rw [hback, List.map_id]
  rfl

/-- `struct.unpack` of the right number of bytes: legal registers, with these data bytes. -/
theorem unpack_H_ok (count : Nat) (raw : Bytes) (h : raw.length = 2 * count) :
    ∃ values : List Int, unpack_H count raw = .ok values ∧ values.length = count ∧
      (∀ v ∈ values, IsRegister v) ∧ raw = register_data values := by
  have hpairs := length_of_mem_byte_pairs (by omega : raw.length % 2 = 0)
  have hlen := length_flatten_const (byte_pairs raw) hpairs
  rw [flatten_byte_pairs] at hlen
  refine ⟨(byte_pairs raw).map fun c => (ofBytes c : Int), ?_, by simp; omega, ?_, ?_⟩
  · unfold unpack_H
    rw [if_pos h]
    rfl
  · simp only [List.forall_mem_map]
    exact fun c hc => isRegister_ofBytes (hpairs c hc)
  · have hback : (byte_pairs raw).map (register_bytes ∘ fun c => (ofBytes c : Int)) =
        (byte_pairs raw).map id :=
      List.map_congr_left fun c hc => register_bytes_ofBytes (hpairs c hc)
    rw [register_data, List.map_map, hback, List.map_id, flatten_byte_pairs]

theorem length_unpack_H {count : Nat} {raw : Bytes} {values : List Int}
    (h : unpack_H count raw = .ok values) : values.length = count := by
  by_cases hraw : raw.length = 2 * count
  · obtain ⟨values', hvalues, hlen, -⟩ := unpack_H_ok count raw hraw
    rw [hvalues] at h
    cases h
    exact hlen
  · rw [unpack_H, if_neg hraw] at h
    cases h

/-! ## Normal responses and exceptions -/

theorem raise_exception_ok {fc : UInt8} {rest : Bytes} :
    raise_exception (fc :: rest) fc = .ok () := by
  simp [raise_exception, detect_exception, bind, Except.bind, pure, Except.pure]

/-- Only a PDU that starts with the expected code passes. -/
theorem head_of_raise_exception {pdu : Bytes} {fc : UInt8} (h : raise_exception pdu fc = .ok ()) :
    pdu.head? = some fc := by
  unfold raise_exception detect_exception at h
  cases pdu with
  | nil => cases h
  | cons c rest =>
    by_cases hc : c = fc
    · rw [hc]; rfl
    · simp only [if_neg hc] at h
      split at h
      · cases rest <;> cases h
      · cases h

/-- An exception that the package defines, which `except ModbusError` catches. -/
def IsModbus (e : PyError) : Prop := ∃ m, e = .modbus m

/-- What a client's decoder raises of a response: it is malformed, or it is an exception
response. -/
inductive IsRefusal : PyError → Prop
  | protocol (m : String) : IsRefusal (.modbus (.ModbusProtocolError m))
  | exception (cls : ExceptionClass) (m : String) (code : Int) :
      IsRefusal (.modbus (.ModbusExceptionResponse cls m code))

theorem IsRefusal.isModbus {e : PyError} (h : IsRefusal e) : IsModbus e := by
  cases h <;> exact ⟨_, rfl⟩

theorem isRefusal_of_raise_exception {pdu : Bytes} {fc : UInt8} {e : PyError}
    (h : raise_exception pdu fc = .error e) : IsRefusal e := by
  unfold raise_exception detect_exception at h
  cases pdu with
  | nil => cases h; exact .protocol _
  | cons c rest =>
    by_cases hc : c = fc
    · simp only [if_pos hc] at h; cases h
    · simp only [if_neg hc] at h
      split at h
      · cases rest with
        | nil => cases h; exact .protocol _
        | cons code rest => cases h; exact .exception _ _ _
      · cases h; exact .protocol _

theorem check_read_response_ok {pdu : Bytes} {expected : Int}
    (h0 : byte_at pdu 1 = expected) (h1 : (pdu.length : Int) = 2 + expected) (h2 : 0 ≤ expected) :
    check_read_response pdu expected = .ok () := by
  unfold check_read_response
  rw [if_neg (by omega)]
  simp only [h0, h1, ne_eq, not_true_eq_false, if_false]
  rfl

theorem counts_of_check_read_response {pdu : Bytes} {expected : Int}
    (h : check_read_response pdu expected = .ok ()) :
    byte_at pdu 1 = expected ∧ (pdu.length : Int) = 2 + expected := by
  unfold check_read_response at h
  split at h
  · cases h
  · simp only at h
    split at h
    · cases h
    · split at h
      · cases h
      · omega

theorem length_of_check_read_response {pdu : Bytes} {expected : Int}
    (h : check_read_response pdu expected = .ok ()) : (pdu.length : Int) = 2 + expected :=
  (counts_of_check_read_response h).2

theorem isRefusal_of_check_read_response {pdu : Bytes} {expected : Int} {e : PyError}
    (h : check_read_response pdu expected = .error e) : IsRefusal e := by
  unfold check_read_response at h
  split at h
  · cases h; exact .protocol _
  · simp only at h
    split at h
    · cases h; exact .protocol _
    · split at h
      · cases h; exact .protocol _
      · cases h

/-! ## Reads: the client's decoders -/

/-- What a bind that raised did: its first part raised, or the rest did. -/
theorem bind_eq_error {α β : Type} {x : Except PyError α} {f : α → Except PyError β} {e : PyError}
    (h : x >>= f = .error e) : x = .error e ∨ ∃ a, x = .ok a ∧ f a = .error e := by
  cases x with
  | error e' => cases h; exact Or.inl rfl
  | ok a => exact Or.inr ⟨a, rfl, h⟩

/-- What a bind that returned did: its first part returned, then the rest. -/
theorem bind_eq_ok {α β : Type} {x : Except PyError α} {f : α → Except PyError β} {b : β}
    (h : x >>= f = .ok b) : ∃ a, x = .ok a ∧ f a = .ok b := by
  cases x with
  | error e => cases h
  | ok a => exact ⟨a, rfl, h⟩

theorem decode_bit_response_refusal {pdu : Bytes} {count : Int} {fc : UInt8} {e : PyError}
    (h : decode_bit_response pdu count fc = .error e) : IsRefusal e := by
  rcases bind_eq_error h with h | ⟨_, _, h⟩
  · exact isRefusal_of_raise_exception h
  · rcases bind_eq_error h with h | ⟨_, _, h⟩
    · exact isRefusal_of_check_read_response h
    · cases h

theorem decode_bit_response_modbus {pdu : Bytes} {count : Int} {fc : UInt8} {e : PyError}
    (h : decode_bit_response pdu count fc = .error e) : IsModbus e :=
  (decode_bit_response_refusal h).isModbus

theorem decode_register_response_refusal {pdu : Bytes} {count : Int} {fc : UInt8} {e : PyError}
    (h0 : 0 ≤ count) (h : decode_register_response pdu count fc = .error e) : IsRefusal e := by
  rcases bind_eq_error h with h | ⟨_, _, h⟩
  · exact isRefusal_of_raise_exception h
  · rcases bind_eq_error h with h | ⟨_, hcheck, h⟩
    · exact isRefusal_of_check_read_response h
    · have hlen := length_of_check_read_response hcheck
      obtain ⟨values, hvalues, _⟩ := unpack_H_ok count.toNat (pdu.drop 2)
        (by rw [List.length_drop]; omega)
      rw [hvalues] at h
      cases h

theorem decode_register_response_modbus {pdu : Bytes} {count : Int} {fc : UInt8} {e : PyError}
    (h0 : 0 ≤ count) (h : decode_register_response pdu count fc = .error e) : IsModbus e :=
  (decode_register_response_refusal h0 h).isModbus

/-- The client reads the bits that the server packed. -/
theorem decode_bit_response_of_pack (fc : UInt8) {values : List Bool}
    (hlen : (values.length + 7) / 8 < 256) :
    decode_bit_response (fc :: UInt8.ofNat ((values.length + 7) / 8) :: pack values)
      values.length fc = .ok values := by
  have hcheck : check_read_response
      (fc :: UInt8.ofNat ((values.length + 7) / 8) :: pack values)
      (((values.length : Int) + 7) / 8) = .ok () := by
    refine check_read_response_ok ?_ ?_ (by omega)
    · simp only [byte_at, List.getD_cons_succ, List.getD_cons_zero, toNat_ofNat hlen]
      omega
    · simp only [List.length_cons, length_pack]
      omega
  unfold decode_bit_response
  rw [raise_exception_ok]
  simp only [bind, Except.bind, hcheck, pure, Except.pure, Int.toNat_natCast]
  exact congrArg Except.ok (unpack_pack values)

/-- The client reads the registers that the server wrote. -/
theorem decode_register_response_of_data (fc : UInt8) {values : List Int}
    (hlen : 2 * values.length < 256) (hreg : ∀ v ∈ values, IsRegister v) :
    decode_register_response (fc :: UInt8.ofNat (2 * values.length) :: register_data values)
      values.length fc = .ok values := by
  have hcheck : check_read_response
      (fc :: UInt8.ofNat (2 * values.length) :: register_data values)
      (2 * (values.length : Int)) = .ok () := by
    refine check_read_response_ok ?_ ?_ (by omega)
    · simp only [byte_at, List.getD_cons_succ, List.getD_cons_zero, toNat_ofNat hlen]
      omega
    · simp only [List.length_cons, length_register_data]
      omega
  unfold decode_register_response
  rw [raise_exception_ok]
  simp only [bind, Except.bind, hcheck, Int.toNat_natCast]
  exact unpack_H_register_data hreg

/-! ## Reads: the requests -/

/-- A read request that passes its checks is the code and the two integers. -/
theorem encode_read_ok {fc : UInt8} {maximum start count : Int} {name : String}
    (hmax : maximum ≤ 0xFFFF) (hstart : IsRegister start) (h0 : 1 ≤ count) (h1 : count ≤ maximum) :
    encode_read fc maximum name start count = .ok (words fc start count) := by
  have hcount : IsRegister count := ⟨by omega, by omega⟩
  unfold encode_read
  rw [check_address_ok hstart, check_count_ok h0 h1, pack_BHH_ok fc hstart hcount]
  rfl

theorem encode_read_legal {fc : UInt8} {maximum start count : Int} {name : String} {req : Bytes}
    (h : encode_read fc maximum name start count = .ok req) :
    IsRegister start ∧ 1 ≤ count ∧ count ≤ maximum := by
  by_cases hstart : IsRegister start
  · by_cases hcount : 1 ≤ count ∧ count ≤ maximum
    · exact ⟨hstart, hcount⟩
    · unfold encode_read check_count at h
      rw [check_address_ok hstart, if_neg hcount] at h
      cases h
  · unfold encode_read at h
    rw [check_address_error hstart] at h
    cases h

theorem encode_read_error {fc : UInt8} {maximum start count : Int} {name : String}
    (hstart : ¬ IsRegister start) : encode_read fc maximum name start count =
      .error (.ValueError s!"address out of range: {start}") := by
  unfold encode_read
  rw [check_address_error hstart]
  rfl

/-- The server accepts exactly five bytes with a legal count. -/
theorem decode_request_read_ok {pdu : Bytes} {maximum : Int} {name : String}
    (hlen : pdu.length = 5) (h0 : 1 ≤ (unpack_HH pdu).2) (h1 : (unpack_HH pdu).2 ≤ maximum) :
    decode_request_read pdu maximum name = .ok (unpack_HH pdu) := by
  unfold decode_request_read
  rw [if_neg (by omega)]
  simp only
  rw [if_neg (fun h => h ⟨h0, h1⟩)]
  rfl

/-- The exception that the server answers a request of wrong shape with. -/
def IsIllegalValue (e : PyError) : Prop := ∃ m, e = illegal_value m

theorem decode_request_read_error {pdu : Bytes} {maximum : Int} {name : String}
    (h : ¬ (pdu.length = 5 ∧ 1 ≤ (unpack_HH pdu).2 ∧ (unpack_HH pdu).2 ≤ maximum)) :
    ∃ e, decode_request_read pdu maximum name = .error e ∧ IsIllegalValue e := by
  unfold decode_request_read
  by_cases hlen : pdu.length = 5
  · rw [if_neg (by omega)]
    simp only
    rw [if_pos (fun hc => h ⟨hlen, hc⟩)]
    exact ⟨_, rfl, _, rfl⟩
  · rw [if_pos hlen]
    exact ⟨_, rfl, _, rfl⟩

theorem encode_response_bits_ok {fc : UInt8} {values : List Bool}
    (hlen : (values.length + 7) / 8 < 256) : encode_response_bits fc values =
      .ok (fc :: UInt8.ofNat ((values.length + 7) / 8) :: pack values) := by
  have hn : (((values.length : Int) + 7) / 8).toNat = (values.length + 7) / 8 := by omega
  unfold encode_response_bits
  rw [byte_of_ok (by omega) (by omega), hn]
  rfl

theorem encode_response_registers_ok {fc : UInt8} {values : List Int}
    (hlen : 2 * values.length < 256) (hreg : ∀ v ∈ values, IsRegister v) :
    encode_response_registers fc values =
      .ok (fc :: UInt8.ofNat (2 * values.length) :: register_data values) := by
  have hwords : values.mapM to_two_bytes = .ok (values.map register_bytes) :=
    mapM_ok fun v hv => to_two_bytes_ok (hreg v hv)
  have hn : ((values.map register_bytes).flatten.length : Int) = 2 * values.length := by
    have := length_register_data values
    rw [register_data] at this
    omega
  have htoNat : (2 * (values.length : Int)).toNat = 2 * values.length := by omega
  unfold encode_response_registers
  rw [hwords]
  simp only [bind, Except.bind, hn]
  rw [byte_of_ok (by omega) (by omega), htoNat]
  rfl

/-! ## Writes: the client's encoders -/

/-- The word that stands for a coil value. -/
def coil_word (value : Bool) : Int := if value then COIL_ON else COIL_OFF

theorem isRegister_coil_word (value : Bool) : IsRegister (coil_word value) := by
  cases value <;> decide

theorem encode_write_single_coil_ok {address : Int} (value : Bool) (h : IsRegister address) :
    encode_write_single_coil address value =
      .ok (words FC_WRITE_SINGLE_COIL address (coil_word value)) := by
  unfold encode_write_single_coil
  rw [check_address_ok h]
  exact pack_BHH_ok _ h (isRegister_coil_word value)

theorem encode_write_single_register_ok {address value : Int} (h : IsRegister address)
    (hv : IsRegister value) : encode_write_single_register address value =
      .ok (words FC_WRITE_SINGLE_REGISTER address value) := by
  unfold encode_write_single_register
  rw [check_address_ok h]
  simp only [bind, Except.bind]
  rw [if_neg (fun hn => hn hv)]
  exact pack_BHH_ok _ h hv

/-- A request with data bytes: code, start, count, byte count, data. -/
def write_request (fc : UInt8) (start count : Int) (data : Bytes) : Bytes :=
  words fc start count ++ UInt8.ofNat data.length :: data

theorem encode_write_multiple_coils_ok {start : Int} {values : List Bool} (h : IsRegister start)
    (h0 : 1 ≤ values.length) (h1 : values.length ≤ 1968) :
    encode_write_multiple_coils start values =
      .ok (write_request FC_WRITE_MULTIPLE_COILS start values.length (pack values)) := by
  unfold encode_write_multiple_coils
  simp only
  rw [check_address_ok h, check_count_ok (by omega) (by unfold MAX_WRITE_COILS; omega),
    pack_BHHB_ok _ h (show IsRegister _ from ⟨by omega, by omega⟩) (by omega) (by omega),
    Int.toNat_natCast]
  simp [bind, Except.bind, pure, Except.pure, write_request]

theorem encode_write_multiple_registers_ok {start : Int} {values : List Int}
    (h : IsRegister start) (h0 : 1 ≤ values.length) (h1 : values.length ≤ 123)
    (hv : ∀ v ∈ values, IsRegister v) : encode_write_multiple_registers start values =
      .ok (write_request FC_WRITE_MULTIPLE_REGISTERS start values.length
        (register_data values)) := by
  unfold encode_write_multiple_registers
  simp only
  rw [check_address_ok h, check_count_ok (by omega) (by unfold MAX_WRITE_REGISTERS; omega),
    find?_register_none hv]
  simp only [bind, Except.bind]
  rw [pack_BHHB_ok _ h (show IsRegister _ from ⟨by omega, by omega⟩) (by omega) (by omega),
    mapM_pack_H hv, Int.toNat_natCast]
  change Except.ok (_ ++ register_data values) = _
  rw [write_request, length_register_data, List.append_assoc]
  rfl

/-- A start address outside of `0..0xFFFF` is a `ValueError` of every write encoder. -/
theorem encode_write_error {address : Int} (h : ¬ IsRegister address) (value : Int) (bit : Bool)
    (values : List Int) (bits : List Bool) :
    let e := PyError.ValueError s!"address out of range: {address}"
    encode_write_single_coil address bit = .error e ∧
      encode_write_single_register address value = .error e ∧
      encode_write_multiple_coils address bits = .error e ∧
      encode_write_multiple_registers address values = .error e := by
  unfold encode_write_single_coil encode_write_single_register encode_write_multiple_coils
    encode_write_multiple_registers
  rw [check_address_error h]
  exact ⟨rfl, rfl, rfl, rfl⟩

/-! ## Writes: the client's decoders -/

theorem decode_echo_refusal {pdu : Bytes} {fc : UInt8} {e : PyError}
    (h : decode_echo pdu fc = .error e) : IsRefusal e := by
  rcases bind_eq_error h with h | ⟨_, _, h⟩
  · exact isRefusal_of_raise_exception h
  · split at h
    · cases h; exact .protocol _
    · cases h

theorem decode_echo_modbus {pdu : Bytes} {fc : UInt8} {e : PyError}
    (h : decode_echo pdu fc = .error e) : IsModbus e := (decode_echo_refusal h).isModbus

theorem decode_write_single_coil_refusal {pdu : Bytes} {e : PyError}
    (h : decode_write_single_coil pdu = .error e) : IsRefusal e := by
  rcases bind_eq_error h with h | ⟨⟨address, coded⟩, _, h⟩
  · exact decode_echo_refusal h
  · simp only at h
    split at h
    · cases h
    · split at h
      · cases h
      · cases h; exact .protocol _

theorem decode_write_single_coil_modbus {pdu : Bytes} {e : PyError}
    (h : decode_write_single_coil pdu = .error e) : IsModbus e :=
  (decode_write_single_coil_refusal h).isModbus

theorem decode_echo_words (fc : UInt8) {a b : Int} (ha : IsRegister a) (hb : IsRegister b) :
    decode_echo (words fc a b) fc = .ok (a, b) := by
  unfold decode_echo
  rw [show words fc a b = fc :: (register_bytes a ++ register_bytes b) from rfl,
    raise_exception_ok, ← show words fc a b = fc :: (register_bytes a ++ register_bytes b) from rfl]
  simp only [bind, Except.bind, length_words, unpack_HH_words' fc ha hb]
  rfl

theorem decode_write_single_coil_words {address : Int} (value : Bool) (h : IsRegister address) :
    decode_write_single_coil (words FC_WRITE_SINGLE_COIL address (coil_word value)) =
      .ok (address, value) := by
  unfold decode_write_single_coil
  rw [decode_echo_words _ h (isRegister_coil_word value)]
  cases value <;> rfl

/-! ## Writes: the server's decoders -/

theorem decode_request_write_single_coil_ok {pdu : Bytes} {value : Bool} (hlen : pdu.length = 5)
    (hv : (unpack_HH pdu).2 = coil_word value) :
    decode_request_write_single_coil pdu = .ok ((unpack_HH pdu).1, value) := by
  unfold decode_request_write_single_coil
  rw [if_neg (by omega)]
  simp only [hv]
  cases value <;> rfl

theorem decode_request_write_single_coil_error {pdu : Bytes}
    (h : ¬ (pdu.length = 5 ∧ ∃ value, (unpack_HH pdu).2 = coil_word value)) :
    ∃ e, decode_request_write_single_coil pdu = .error e ∧ IsIllegalValue e := by
  unfold decode_request_write_single_coil
  by_cases hlen : pdu.length = 5
  · have hon : ¬ (unpack_HH pdu).2 = COIL_ON := fun hc => h ⟨hlen, true, hc⟩
    have hoff : ¬ (unpack_HH pdu).2 = COIL_OFF := fun hc => h ⟨hlen, false, hc⟩
    rw [if_neg (by omega)]
    simp only
    rw [if_neg hon, if_neg hoff]
    exact ⟨_, rfl, _, rfl⟩
  · rw [if_pos hlen]
    exact ⟨_, rfl, _, rfl⟩

theorem decode_request_write_single_register_ok {pdu : Bytes} (hlen : pdu.length = 5) :
    decode_request_write_single_register pdu = .ok (unpack_HH pdu) := by
  unfold decode_request_write_single_register
  rw [if_neg (by omega)]
  rfl

theorem decode_request_write_single_register_error {pdu : Bytes} (hlen : pdu.length ≠ 5) :
    ∃ e, decode_request_write_single_register pdu = .error e ∧ IsIllegalValue e := by
  unfold decode_request_write_single_register
  rw [if_pos hlen]
  exact ⟨_, rfl, _, rfl⟩

/-- What the server asks of the bytes of a multiple write. -/
structure WriteShape (pdu : Bytes) (maximum : Int) (bytes_for : Int → Int) : Prop where
  long : 6 ≤ pdu.length
  least : 1 ≤ (unpack_HH pdu).2
  most : (unpack_HH pdu).2 ≤ maximum
  byte_count : byte_at pdu 5 = bytes_for (unpack_HH pdu).2
  length : (pdu.length : Int) = 6 + byte_at pdu 5

theorem decode_request_write_ok {pdu : Bytes} {maximum : Int} {bytes_for : Int → Int}
    {name : String} (h : WriteShape pdu maximum bytes_for) :
    decode_request_write pdu maximum bytes_for name =
      .ok ((unpack_HH pdu).1, (unpack_HH pdu).2, pdu.drop 6) := by
  have hlong := h.long
  unfold decode_request_write
  rw [if_neg (by omega)]
  simp only
  rw [if_neg (fun hn => hn ⟨h.least, h.most⟩), if_neg (fun hn => hn h.byte_count),
    if_neg (fun hn => hn h.length)]
  rfl

theorem decode_request_write_error {pdu : Bytes} {maximum : Int} {bytes_for : Int → Int}
    {name : String} (h : ¬ WriteShape pdu maximum bytes_for) :
    ∃ e, decode_request_write pdu maximum bytes_for name = .error e ∧ IsIllegalValue e := by
  unfold decode_request_write
  by_cases hlong : pdu.length < 6
  · rw [if_pos hlong]
    exact ⟨_, rfl, _, rfl⟩
  · rw [if_neg hlong]
    simp only
    by_cases hcount : 1 ≤ (unpack_HH pdu).2 ∧ (unpack_HH pdu).2 ≤ maximum
    · rw [if_neg (fun hn => hn hcount)]
      by_cases hbytes : byte_at pdu 5 = bytes_for (unpack_HH pdu).2
      · rw [if_neg (fun hn => hn hbytes)]
        by_cases hlen : (pdu.length : Int) = 6 + byte_at pdu 5
        · exact absurd ⟨by omega, hcount.1, hcount.2, hbytes, hlen⟩ h
        · rw [if_pos hlen]
          exact ⟨_, rfl, _, rfl⟩
      · rw [if_pos hbytes]
        exact ⟨_, rfl, _, rfl⟩
    · rw [if_pos hcount]
      exact ⟨_, rfl, _, rfl⟩

theorem byte_at_write_request {fc : UInt8} {start count : Int} {data : Bytes}
    (hlen : data.length < 256) :
    byte_at (write_request fc start count data) 5 = data.length := by
  have hlw := length_words fc start count
  simp only [byte_at, write_request, List.getD_eq_getElem?_getD]
  rw [List.getElem?_append_right (by omega), hlw]
  simp [toNat_ofNat hlen]

theorem drop_write_request (fc : UInt8) (start count : Int) (data : Bytes) :
    (write_request fc start count data).drop 6 = data := by
  have hlw := length_words fc start count
  rw [write_request, List.drop_append, hlw, List.drop_eq_nil_of_le (by omega)]
  rfl

/-- A request that a client's encoder wrote has the shape that the server asks for. -/
theorem writeShape_write_request {fc : UInt8} {start count maximum : Int} {data : Bytes}
    {bytes_for : Int → Int} (hs : IsRegister start) (h0 : 1 ≤ count) (h1 : count ≤ maximum)
    (hmax : maximum ≤ 0xFFFF) (hlen : data.length < 256) (hdata : data.length = bytes_for count) :
    WriteShape (write_request fc start count data) maximum bytes_for := by
  have hu : unpack_HH (write_request fc start count data) = (start, count) :=
    unpack_HH_words fc _ hs ⟨by omega, by omega⟩
  have hlw := length_words fc start count
  refine ⟨?_, ?_, ?_, ?_, ?_⟩
  · simp only [write_request, List.length_append, List.length_cons]; omega
  · rw [hu]; exact h0
  · rw [hu]; exact h1
  · rw [hu, byte_at_write_request hlen, hdata]
  · rw [byte_at_write_request hlen]
    simp only [write_request, List.length_append, List.length_cons]
    omega

/-- The data of a well-shaped multiple write. -/
theorem multiple_write_shape {maximum : Int} {fc : UInt8} {bytes_for : Int → Int} {pdu : Bytes}
    (h : WriteShape pdu maximum bytes_for) (hfc : pdu.head? = some fc) :
    pdu = write_request fc (unpack_HH pdu).1 (unpack_HH pdu).2 (pdu.drop 6) ∧
      ((pdu.drop 6).length : Int) = bytes_for (unpack_HH pdu).2 := by
  have hlong := h.long
  have hlength := h.length
  have hcount : byte_at pdu 5 = (pdu.drop 6).length := by
    rw [List.length_drop]
    omega
  refine ⟨?_, by rw [← hcount, h.byte_count]⟩
  have hpdu := words_unpack_HH pdu (by omega) hfc
  have hdrop : pdu.drop 5 = UInt8.ofNat (pdu.drop 6).length :: pdu.drop 6 := by
    have hfive : 5 < pdu.length := by omega
    have hbyte : pdu[5].toNat = (pdu.drop 6).length := by
      have := hcount
      simp only [byte_at, List.getD_eq_getElem?_getD, List.getElem?_eq_getElem
        hfive, Option.getD_some] at this
      omega
    rw [← hbyte, UInt8.ofNat_toNat]
    exact List.drop_eq_getElem_cons (by omega)
  rw [write_request, ← hdrop]
  exact hpdu

/-- The server reads the bits that the client packed; bits behind the count do not matter. -/
theorem decode_write_coils_request (fc : UInt8) {start : Int} {count : Nat} {data : Bytes}
    (hs : IsRegister start) (h0 : 1 ≤ count) (h1 : count ≤ 1968)
    (hdata : data.length = (count + 7) / 8) :
    decode_request_write_multiple_coils (write_request fc start count data) =
      .ok (start, unpack count data) := by
  have hshape : WriteShape (write_request fc start count data) MAX_WRITE_COILS
      (fun count => (count + 7) / 8) :=
    writeShape_write_request hs (by omega) (by unfold MAX_WRITE_COILS; omega) (by decide)
      (by omega) (by omega)
  have hu : unpack_HH (write_request fc start count data) = (start, (count : Int)) :=
    unpack_HH_words fc _ hs ⟨by omega, by omega⟩
  unfold decode_request_write_multiple_coils
  rw [decode_request_write_ok hshape, hu, drop_write_request]
  rfl

/-- The server reads the registers that the client wrote. -/
theorem decode_write_registers_request (fc : UInt8) {start : Int} {values : List Int}
    (hs : IsRegister start) (h0 : 1 ≤ values.length) (h1 : values.length ≤ 123)
    (hv : ∀ v ∈ values, IsRegister v) :
    decode_request_write_multiple_registers
      (write_request fc start values.length (register_data values)) = .ok (start, values) := by
  have hshape : WriteShape (write_request fc start values.length (register_data values))
      MAX_WRITE_REGISTERS (fun count => 2 * count) :=
    writeShape_write_request hs (by omega) (by unfold MAX_WRITE_REGISTERS; omega) (by decide)
      (by rw [length_register_data]; omega) (by rw [length_register_data]; omega)
  have hu : unpack_HH (write_request fc start values.length (register_data values)) =
      (start, (values.length : Int)) := unpack_HH_words fc _ hs ⟨by omega, by omega⟩
  unfold decode_request_write_multiple_registers
  rw [decode_request_write_ok hshape, hu, drop_write_request]
  simp only [bind, Except.bind, Int.toNat_natCast, unpack_H_register_data hv]
  rfl

end pymod.pdu
