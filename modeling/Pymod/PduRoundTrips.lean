-- The two sides of the protocol agree on every request and every response: each
-- decoder gives back what the encoder of the other side wrote, and it accepts
-- nothing that this encoder would not write.
import Pymod.PduLaws

namespace pymod.pdu

open errors codec Digits BitStrings Slices

/-! ## Requests -/

/-- A client's encoder of requests and the server's decoder of them. The bytes that the
decoder accepts are encoded again to their normal form. -/
structure RequestsAgree {α : Type} (fc : UInt8) (encode : α → Except PyError Bytes)
    (decode : Bytes → Except PyError α) (normal : Bytes → Bytes) : Prop where
  decodes : ∀ args pdu, encode args = .ok pdu → pdu.head? = some fc ∧ decode pdu = .ok args
  encodes : ∀ pdu : Bytes, pdu.head? = some fc →
    (∃ e, decode pdu = .error e ∧ IsIllegalValue e) ∨
      ∃ args, decode pdu = .ok args ∧ encode args = .ok (normal pdu)

/-- A PDU of five bytes is its code and its two integers. -/
theorem eq_words_of_length {pdu : Bytes} {fc : UInt8} (hlen : pdu.length = 5)
    (hfc : pdu.head? = some fc) : pdu = words fc (unpack_HH pdu).1 (unpack_HH pdu).2 := by
  have hpdu := words_unpack_HH pdu (by omega) hfc
  rwa [List.drop_eq_nil_of_le (by omega), List.append_nil] at hpdu

theorem read_requests_agree (fc : UInt8) {maximum : Int} (hmax : maximum ≤ 0xFFFF)
    (name request_name : String) :
    RequestsAgree fc (fun args : Int × Int => encode_read fc maximum name args.1 args.2)
      (fun pdu => decode_request_read pdu maximum request_name) id where
  decodes := by
    intro args pdu h
    obtain ⟨hstart, h0, h1⟩ := encode_read_legal h
    simp only [encode_read_ok hmax hstart h0 h1] at h
    cases h
    have hu := unpack_HH_words' fc hstart (b := args.2) ⟨by omega, by omega⟩
    refine ⟨head_words _ _ _, ?_⟩
    rw [decode_request_read_ok (length_words _ _ _) (by rw [hu]; exact h0) (by rw [hu]; exact h1),
      hu]
  encodes := by
    intro pdu hfc
    by_cases h : pdu.length = 5 ∧ 1 ≤ (unpack_HH pdu).2 ∧ (unpack_HH pdu).2 ≤ maximum
    · obtain ⟨hlen, h0, h1⟩ := h
      refine Or.inr ⟨unpack_HH pdu, decode_request_read_ok hlen h0 h1, ?_⟩
      simp only [encode_read_ok hmax (isRegister_unpack_HH pdu (by omega)).1 h0 h1]
      exact congrArg Except.ok (eq_words_of_length hlen hfc).symm
    · exact Or.inl (decode_request_read_error h)

theorem write_single_coil_requests_agree :
    RequestsAgree FC_WRITE_SINGLE_COIL
      (fun args : Int × Bool => encode_write_single_coil args.1 args.2)
      decode_request_write_single_coil id where
  decodes := by
    intro args pdu h
    have haddr : IsRegister args.1 := by
      by_contra hn
      simp only [(encode_write_error hn 0 args.2 [] []).1] at h
      cases h
    simp only [encode_write_single_coil_ok args.2 haddr] at h
    cases h
    have hu := unpack_HH_words' FC_WRITE_SINGLE_COIL haddr (isRegister_coil_word args.2)
    refine ⟨head_words _ _ _, ?_⟩
    have hword : (unpack_HH (words FC_WRITE_SINGLE_COIL args.1 (coil_word args.2))).2 =
        coil_word args.2 := by rw [hu]
    rw [decode_request_write_single_coil_ok (length_words _ _ _) hword, hu]
  encodes := by
    intro pdu hfc
    by_cases h : pdu.length = 5 ∧ ∃ value, (unpack_HH pdu).2 = coil_word value
    · obtain ⟨hlen, value, hv⟩ := h
      refine Or.inr ⟨_, decode_request_write_single_coil_ok hlen hv, ?_⟩
      simp only [encode_write_single_coil_ok value (isRegister_unpack_HH pdu (by omega)).1]
      rw [← hv]
      exact congrArg Except.ok (eq_words_of_length hlen hfc).symm
    · exact Or.inl (decode_request_write_single_coil_error h)

theorem write_single_register_requests_agree :
    RequestsAgree FC_WRITE_SINGLE_REGISTER
      (fun args : Int × Int => encode_write_single_register args.1 args.2)
      decode_request_write_single_register id where
  decodes := by
    intro args pdu h
    have haddr : IsRegister args.1 := by
      by_contra hn
      simp only [(encode_write_error hn args.2 false [] []).2.1] at h
      cases h
    have hvalue : IsRegister args.2 := by
      by_contra hn
      unfold encode_write_single_register at h
      simp only [check_address_ok haddr, bind, Except.bind, if_pos hn] at h
      cases h
    simp only [encode_write_single_register_ok haddr hvalue] at h
    cases h
    refine ⟨head_words _ _ _, ?_⟩
    rw [decode_request_write_single_register_ok (length_words _ _ _),
      unpack_HH_words' _ haddr hvalue]
  encodes := by
    intro pdu hfc
    by_cases hlen : pdu.length = 5
    · obtain ⟨haddr, hvalue⟩ := isRegister_unpack_HH pdu (by omega)
      refine Or.inr ⟨_, decode_request_write_single_register_ok hlen, ?_⟩
      simp only [encode_write_single_register_ok haddr hvalue]
      exact congrArg Except.ok (eq_words_of_length hlen hfc).symm
    · exact Or.inl (decode_request_write_single_register_error hlen)

/-- A multiple-write encoder passes its first two checks only with a legal start and count. -/
theorem checks_passed {start count maximum : Int} {name : String} {β : Type}
    {rest : Except PyError β} {b : β}
    (h : (do check_address start; check_count count maximum name; rest) = .ok b) :
    IsRegister start ∧ 1 ≤ count ∧ count ≤ maximum ∧ rest = .ok b := by
  by_cases hstart : IsRegister start
  · by_cases hcount : 1 ≤ count ∧ count ≤ maximum
    · rw [check_address_ok hstart, check_count_ok hcount.1 hcount.2] at h
      exact ⟨hstart, hcount.1, hcount.2, h⟩
    · rw [check_address_ok hstart, check_count, if_neg hcount] at h
      cases h
  · rw [check_address_error hstart] at h
    cases h

/-- The bytes of a request with the unused high bits of its last data byte cleared. -/
def clear_unused_bits (pdu : Bytes) : Bytes :=
  pdu.take 6 ++ keepBits (unpack_HH pdu).2.toNat (pdu.drop 6)

theorem head_write_request (fc : UInt8) (start count : Int) (data : Bytes) :
    (write_request fc start count data).head? = some fc := rfl

theorem take_write_request (fc : UInt8) (start count : Int) {data other : Bytes}
    (h : other.length = data.length) :
    (write_request fc start count data).take 6 ++ other = write_request fc start count other := by
  have hsplit : write_request fc start count data =
      (words fc start count ++ [UInt8.ofNat data.length]) ++ data := by simp [write_request]
  rw [hsplit, List.take_left' (by simp), write_request, h]
  simp

theorem write_multiple_coils_requests_agree :
    RequestsAgree FC_WRITE_MULTIPLE_COILS
      (fun args : Int × List Bool => encode_write_multiple_coils args.1 args.2)
      decode_request_write_multiple_coils clear_unused_bits where
  decodes := by
    intro args pdu h
    obtain ⟨hstart, h0, h1, -⟩ := checks_passed h
    simp only [MAX_WRITE_COILS] at h1
    have hencode : encode_write_multiple_coils args.1 args.2 = .ok (write_request
        FC_WRITE_MULTIPLE_COILS args.1 args.2.length (pack args.2)) :=
      encode_write_multiple_coils_ok hstart (by omega) (by omega)
    simp only [hencode] at h
    cases h
    refine ⟨head_write_request _ _ _ _, ?_⟩
    rw [decode_write_coils_request _ hstart (by omega) (by omega) (length_pack _), unpack_pack]
  encodes := by
    intro pdu hfc
    by_cases h : WriteShape pdu MAX_WRITE_COILS fun count => (count + 7) / 8
    · obtain ⟨hpdu, hdata⟩ := multiple_write_shape h hfc
      have h0 := h.least
      have h1 := h.most
      have hlong := h.long
      simp only [MAX_WRITE_COILS] at h1
      obtain ⟨hstart, -⟩ := isRegister_unpack_HH pdu (by omega)
      obtain ⟨count, hcount⟩ : ∃ count : Nat, (unpack_HH pdu).2 = count :=
        ⟨(unpack_HH pdu).2.toNat, by omega⟩
      rw [hcount] at h0 h1 hpdu hdata
      have hlen : (pdu.drop 6).length = (count + 7) / 8 := by omega
      refine Or.inr ⟨((unpack_HH pdu).1, unpack count (pdu.drop 6)), ?_, ?_⟩
      · conv_lhs => rw [hpdu]
        exact decode_write_coils_request _ hstart (by omega) (by omega) hlen
      · have hencode : encode_write_multiple_coils (unpack_HH pdu).1 (unpack count (pdu.drop 6)) =
            .ok (write_request FC_WRITE_MULTIPLE_COILS (unpack_HH pdu).1
              (unpack count (pdu.drop 6)).length (pack (unpack count (pdu.drop 6)))) :=
          encode_write_multiple_coils_ok hstart (by rw [length_unpack]; omega)
            (by rw [length_unpack]; omega)
        have htake := take_write_request FC_WRITE_MULTIPLE_COILS (unpack_HH pdu).1 count
          (length_keepBits count (pdu.drop 6))
        rw [← hpdu] at htake
        simp only [hencode, length_unpack, pack_unpack hlen, clear_unused_bits, hcount,
          Int.toNat_natCast, htake]
    · obtain ⟨e, he, hvalue⟩ : ∃ e, decode_request_write pdu MAX_WRITE_COILS
          (fun count => (count + 7) / 8) "FC15" = .error e ∧ IsIllegalValue e :=
        decode_request_write_error h
      refine Or.inl ⟨e, ?_, hvalue⟩
      unfold decode_request_write_multiple_coils
      rw [he]
      rfl

/-- The server indexes the data bytes of a coil write inside of the PDU only. -/
theorem coil_indices_in_request {pdu : Bytes} {start : Int} {values : List Bool}
    (h : decode_request_write_multiple_coils pdu = .ok (start, values)) {i : Nat}
    (hi : i < values.length) : 6 + i / 8 < pdu.length := by
  obtain ⟨parts, hparts, hvalues⟩ := bind_eq_ok h
  by_cases hshape : WriteShape pdu MAX_WRITE_COILS fun count => (count + 7) / 8
  · rw [decode_request_write_ok hshape] at hparts
    cases hparts
    cases hvalues
    rw [length_unpack] at hi
    have hlen := hshape.length
    have hbytes := hshape.byte_count
    omega
  · obtain ⟨e, he, -⟩ : ∃ e, decode_request_write pdu MAX_WRITE_COILS
        (fun count => (count + 7) / 8) "FC15" = .error e ∧ IsIllegalValue e :=
      decode_request_write_error hshape
    rw [he] at hparts
    cases hparts

theorem write_multiple_registers_requests_agree :
    RequestsAgree FC_WRITE_MULTIPLE_REGISTERS
      (fun args : Int × List Int => encode_write_multiple_registers args.1 args.2)
      decode_request_write_multiple_registers id where
  decodes := by
    intro args pdu h
    obtain ⟨hstart, h0, h1, hrest⟩ := checks_passed h
    simp only [MAX_WRITE_REGISTERS] at h1
    have hvalues : ∀ v ∈ args.2, IsRegister v := by
      cases hfind : args.2.find? fun v => decide ¬ IsRegister v with
      | some w =>
        rw [hfind] at hrest
        cases hrest
      | none => exact fun v hv => by simpa using List.find?_eq_none.mp hfind v hv
    have hencode : encode_write_multiple_registers args.1 args.2 = .ok (write_request
        FC_WRITE_MULTIPLE_REGISTERS args.1 args.2.length (register_data args.2)) :=
      encode_write_multiple_registers_ok hstart (by omega) (by omega) hvalues
    simp only [hencode] at h
    cases h
    exact ⟨head_write_request _ _ _ _,
      decode_write_registers_request _ hstart (by omega) (by omega) hvalues⟩
  encodes := by
    intro pdu hfc
    by_cases h : WriteShape pdu MAX_WRITE_REGISTERS fun count => 2 * count
    · obtain ⟨hpdu, hdata⟩ := multiple_write_shape h hfc
      have h0 := h.least
      have h1 := h.most
      have hlong := h.long
      simp only [MAX_WRITE_REGISTERS] at h1
      obtain ⟨hstart, -⟩ := isRegister_unpack_HH pdu (by omega)
      obtain ⟨values, -, hlen, hvalues, hraw⟩ :=
        unpack_H_ok (unpack_HH pdu).2.toNat (pdu.drop 6) (by omega)
      have hcount : (unpack_HH pdu).2 = (values.length : Int) := by omega
      rw [hcount, hraw] at hpdu
      refine Or.inr ⟨((unpack_HH pdu).1, values), ?_, ?_⟩
      · conv_lhs => rw [hpdu]
        exact decode_write_registers_request _ hstart (by omega) (by omega) hvalues
      · have hencode : encode_write_multiple_registers (unpack_HH pdu).1 values =
            .ok (write_request FC_WRITE_MULTIPLE_REGISTERS (unpack_HH pdu).1 values.length
              (register_data values)) :=
          encode_write_multiple_registers_ok hstart (by omega) (by omega) hvalues
        simp only [hencode, ← hpdu, id]
    · obtain ⟨e, he, hvalue⟩ : ∃ e, decode_request_write pdu MAX_WRITE_REGISTERS
          (fun count => 2 * count) "FC16" = .error e ∧ IsIllegalValue e :=
        decode_request_write_error h
      refine Or.inl ⟨e, ?_, hvalue⟩
      unfold decode_request_write_multiple_registers
      rw [he]
      rfl

/-- Client and server agree on the requests of the eight codes. -/
theorem requests_agree :
    RequestsAgree FC_READ_COILS (fun args : Int × Int => encode_read_coils args.1 args.2)
        decode_request_read_coils id ∧
      RequestsAgree FC_READ_DISCRETE_INPUTS
        (fun args : Int × Int => encode_read_discrete_inputs args.1 args.2)
        decode_request_read_discrete_inputs id ∧
      RequestsAgree FC_READ_HOLDING_REGISTERS
        (fun args : Int × Int => encode_read_holding_registers args.1 args.2)
        decode_request_read_holding_registers id ∧
      RequestsAgree FC_READ_INPUT_REGISTERS
        (fun args : Int × Int => encode_read_input_registers args.1 args.2)
        decode_request_read_input_registers id ∧
      RequestsAgree FC_WRITE_SINGLE_COIL
        (fun args : Int × Bool => encode_write_single_coil args.1 args.2)
        decode_request_write_single_coil id ∧
      RequestsAgree FC_WRITE_SINGLE_REGISTER
        (fun args : Int × Int => encode_write_single_register args.1 args.2)
        decode_request_write_single_register id ∧
      RequestsAgree FC_WRITE_MULTIPLE_COILS
        (fun args : Int × List Bool => encode_write_multiple_coils args.1 args.2)
        decode_request_write_multiple_coils clear_unused_bits ∧
      RequestsAgree FC_WRITE_MULTIPLE_REGISTERS
        (fun args : Int × List Int => encode_write_multiple_registers args.1 args.2)
        decode_request_write_multiple_registers id :=
  ⟨read_requests_agree _ (by decide) _ _, read_requests_agree _ (by decide) _ _,
    read_requests_agree _ (by decide) _ _, read_requests_agree _ (by decide) _ _,
    write_single_coil_requests_agree, write_single_register_requests_agree,
    write_multiple_coils_requests_agree, write_multiple_registers_requests_agree⟩

/-! ## Responses -/

/-- The class that stands for an exception code on the wire. -/
def exception_class (code : UInt8) : ExceptionClass :=
  (EXCEPTION_BY_CODE.lookup (code.toNat : Int)).getD .SlaveDeviceFailure

/-- The server's encoder of responses and a client's decoder of them. The bytes that the
decoder accepts are encoded again to their normal form. -/
structure ResponsesAgree {α : Type} (fc : UInt8) (legal : α → Prop)
    (encode : α → Except PyError Bytes) (decode : Bytes → Except PyError α)
    (normal : Bytes → Bytes) : Prop where
  decodes : ∀ a, legal a → ∃ pdu, encode a = .ok pdu ∧ decode pdu = .ok a
  exceptions : ∀ code : UInt8, ∃ pdu m, encode_exception_response fc.toNat code.toNat = .ok pdu ∧
    decode pdu = .error (.modbus (.ModbusExceptionResponse (exception_class code) m code.toNat))
  encodes : ∀ pdu, (∃ e, decode pdu = .error e ∧ IsRefusal e) ∨
    ∃ a, decode pdu = .ok a ∧ encode a = .ok (normal pdu)

/-- What the decoders do first: they raise the exception that an exception response carries. -/
theorem raise_encoded_exception {fc : UInt8} (hfc : fc ≠ fc ||| EXCEPTION_BIT) (code : UInt8) :
    ∃ pdu m, encode_exception_response fc.toNat code.toNat = .ok pdu ∧
      raise_exception pdu fc =
        .error (.modbus (.ModbusExceptionResponse (exception_class code) m code.toNat)) := by
  have hc := code.toNat_lt
  have hf := fc.toNat_lt
  refine ⟨[fc ||| EXCEPTION_BIT, code], s!"slave returned exception {hex 2 code.toNat}", ?_, ?_⟩
  · unfold encode_exception_response
    rw [if_neg (by omega), if_neg (by omega), Int.toNat_natCast, Int.toNat_natCast,
      UInt8.ofNat_toNat, UInt8.ofNat_toNat]
    rfl
  · unfold raise_exception detect_exception
    simp only [if_neg hfc.symm, if_true]
    rfl

/-- A decoder that checks for an exception first raises the one that was encoded. -/
theorem exceptions_of_bind {α : Type} {fc : UInt8} (hfc : fc ≠ fc ||| EXCEPTION_BIT)
    (decode : Bytes → Except PyError α) (rest : Bytes → Except PyError α)
    (hdecode : ∀ pdu, decode pdu = raise_exception pdu fc >>= fun _ => rest pdu) (code : UInt8) :
    ∃ pdu m, encode_exception_response fc.toNat code.toNat = .ok pdu ∧
      decode pdu =
        .error (.modbus (.ModbusExceptionResponse (exception_class code) m code.toNat)) := by
  obtain ⟨pdu, m, hpdu, hraise⟩ := raise_encoded_exception hfc code
  refine ⟨pdu, m, hpdu, ?_⟩
  rw [hdecode, hraise]
  rfl

/-- A response that passed the checks of a read is its code, its byte count and its data. -/
theorem read_response_shape {pdu : Bytes} {fc : UInt8} {expected : Nat}
    (hraise : raise_exception pdu fc = .ok ())
    (hcheck : check_read_response pdu expected = .ok ()) :
    expected < 256 ∧ (pdu.drop 2).length = expected ∧
      pdu = fc :: UInt8.ofNat expected :: pdu.drop 2 := by
  obtain ⟨hcount, hlen⟩ := counts_of_check_read_response hcheck
  have hfc := head_of_raise_exception hraise
  match pdu with
  | [] => cases hfc
  | [_] => simp at hlen; omega
  | c :: n :: data =>
    simp only [List.head?_cons, Option.some.injEq] at hfc
    simp only [byte_at, List.getD_cons_succ, List.getD_cons_zero] at hcount
    have hn : n.toNat = expected := by omega
    have hlt := n.toNat_lt
    simp only [List.length_cons] at hlen
    refine ⟨by omega, ?_, ?_⟩
    · simp only [List.drop_succ_cons, List.drop_zero]
      omega
    · rw [hfc, ← hn, UInt8.ofNat_toNat]
      rfl

/-- The bytes of a response with the unused high bits of its last data byte cleared. -/
def clear_unused_response_bits (count : Nat) (pdu : Bytes) : Bytes :=
  pdu.take 2 ++ keepBits count (pdu.drop 2)

theorem bit_responses_agree {fc : UInt8} (hfc : fc ≠ fc ||| EXCEPTION_BIT) (count : Nat) :
    ResponsesAgree fc (fun values : List Bool => values.length = count ∧ count ≤ 2000)
      (encode_response_bits fc) (fun pdu => decode_bit_response pdu count fc)
      (clear_unused_response_bits count) where
  decodes := by
    intro values h
    obtain ⟨rfl, hmax⟩ := h
    exact ⟨_, encode_response_bits_ok (by omega), decode_bit_response_of_pack fc (by omega)⟩
  exceptions := exceptions_of_bind hfc _ _ fun _ => rfl
  encodes := by
    intro pdu
    cases hd : decode_bit_response pdu count fc with
    | error e => exact Or.inl ⟨e, rfl, decode_bit_response_refusal hd⟩
    | ok values =>
      obtain ⟨_, hraise, hd'⟩ := bind_eq_ok hd
      obtain ⟨_, hcheck, hvalues⟩ := bind_eq_ok hd'
      cases hvalues
      have hbytes : ((count : Int) + 7) / 8 = (((count + 7) / 8 : Nat) : Int) := by omega
      rw [hbytes] at hcheck
      obtain ⟨hlt, hlen, hpdu⟩ := read_response_shape hraise hcheck
      refine Or.inr ⟨_, rfl, ?_⟩
      rw [Int.toNat_natCast, encode_response_bits_ok (by rw [length_unpack]; exact hlt),
        length_unpack, pack_unpack hlen, clear_unused_response_bits]
      conv_rhs => rw [hpdu]
      rfl

/-- A client indexes the data bytes of a bit response inside of the PDU only. -/
theorem bit_indices_in_response {pdu : Bytes} {fc : UInt8} {count i : Nat} {values : List Bool}
    (h : decode_bit_response pdu count fc = .ok values) (hi : i < count) :
    2 + i / 8 < pdu.length := by
  obtain ⟨_, _, h'⟩ := bind_eq_ok h
  obtain ⟨_, hcheck, _⟩ := bind_eq_ok h'
  have hlen := length_of_check_read_response hcheck
  omega

theorem register_responses_agree {fc : UInt8} (hfc : fc ≠ fc ||| EXCEPTION_BIT) (count : Nat) :
    ResponsesAgree fc
      (fun values : List Int => values.length = count ∧ count ≤ 125 ∧ ∀ v ∈ values, IsRegister v)
      (encode_response_registers fc) (fun pdu => decode_register_response pdu count fc) id where
  decodes := by
    intro values h
    obtain ⟨rfl, hmax, hregs⟩ := h
    exact ⟨_, encode_response_registers_ok (by omega) hregs,
      decode_register_response_of_data fc (by omega) hregs⟩
  exceptions := exceptions_of_bind hfc _ _ fun _ => rfl
  encodes := by
    intro pdu
    cases hd : decode_register_response pdu count fc with
    | error e => exact Or.inl ⟨e, rfl, decode_register_response_refusal (by omega) hd⟩
    | ok values =>
      obtain ⟨_, hraise, hd'⟩ := bind_eq_ok hd
      obtain ⟨_, hcheck, hvalues⟩ := bind_eq_ok hd'
      have hbytes : 2 * (count : Int) = ((2 * count : Nat) : Int) := by omega
      rw [hbytes] at hcheck
      obtain ⟨hlt, hlen, hpdu⟩ := read_response_shape hraise hcheck
      obtain ⟨words, hwords, hcount, hregs, hraw⟩ := unpack_H_ok count (pdu.drop 2) hlen
      rw [Int.toNat_natCast, hwords] at hvalues
      cases hvalues
      refine Or.inr ⟨_, rfl, ?_⟩
      rw [encode_response_registers_ok (by omega) hregs, hcount, ← hraw, id, ← hpdu]

/-- The echo of a write: the code and two integers. -/
theorem words_of_decode_echo {pdu : Bytes} {fc : UInt8} {a : Int × Int}
    (h : decode_echo pdu fc = .ok a) :
    IsRegister a.1 ∧ IsRegister a.2 ∧ pdu = words fc a.1 a.2 := by
  obtain ⟨_, hraise, h⟩ := bind_eq_ok h
  split at h
  · cases h
  · cases h
    have hlen : pdu.length = 5 := by omega
    obtain ⟨h1, h2⟩ := isRegister_unpack_HH pdu (by omega)
    exact ⟨h1, h2, eq_words_of_length hlen (head_of_raise_exception hraise)⟩

theorem echo_responses_agree {fc : UInt8} (hfc : fc ≠ fc ||| EXCEPTION_BIT) :
    ResponsesAgree fc (fun echo : Int × Int => IsRegister echo.1 ∧ IsRegister echo.2)
      (fun echo => pack_BHH fc echo.1 echo.2) (fun pdu => decode_echo pdu fc) id where
  decodes := fun _ h => ⟨_, pack_BHH_ok fc h.1 h.2, decode_echo_words fc h.1 h.2⟩
  exceptions := exceptions_of_bind hfc _ _ fun _ => rfl
  encodes := by
    intro pdu
    cases hd : decode_echo pdu fc with
    | error e => exact Or.inl ⟨e, rfl, decode_echo_refusal hd⟩
    | ok echo =>
      obtain ⟨h1, h2, hpdu⟩ := words_of_decode_echo hd
      refine Or.inr ⟨echo, rfl, ?_⟩
      simp only [pack_BHH_ok fc h1 h2, ← hpdu, id]

theorem write_single_coil_responses_agree :
    ResponsesAgree FC_WRITE_SINGLE_COIL (fun echo : Int × Bool => IsRegister echo.1)
      (fun echo => encode_response_write_single_coil echo.1 echo.2) decode_write_single_coil
      id where
  decodes := fun echo h => ⟨_, pack_BHH_ok _ h (isRegister_coil_word echo.2),
    decode_write_single_coil_words echo.2 h⟩
  exceptions := by
    intro code
    obtain ⟨pdu, m, hpdu, hecho⟩ :=
      (@echo_responses_agree FC_WRITE_SINGLE_COIL (by decide)).exceptions code
    refine ⟨pdu, m, hpdu, ?_⟩
    unfold decode_write_single_coil
    rw [hecho]
    rfl
  encodes := by
    intro pdu
    cases hd : decode_write_single_coil pdu with
    | error e => exact Or.inl ⟨e, rfl, decode_write_single_coil_refusal hd⟩
    | ok echo =>
      obtain ⟨⟨address, coded⟩, hecho, hd'⟩ := bind_eq_ok hd
      obtain ⟨h1, -, hpdu⟩ := words_of_decode_echo hecho
      have hword : echo.1 = address ∧ coil_word echo.2 = coded := by
        simp only at hd'
        split at hd'
        · cases hd'
          exact ⟨rfl, by simp [coil_word, *]⟩
        · split at hd'
          · cases hd'
            exact ⟨rfl, by simp [coil_word, *]⟩
          · cases hd'
      obtain ⟨rfl, rfl⟩ := hword
      refine Or.inr ⟨echo, rfl, ?_⟩
      rw [id, hpdu]
      exact pack_BHH_ok _ h1 (isRegister_coil_word echo.2)

/-- Server and client agree on the responses of the eight codes. -/
theorem responses_agree (count : Nat) :
    ResponsesAgree FC_READ_COILS (fun values => values.length = count ∧ count ≤ 2000)
        encode_response_read_coils (fun pdu => decode_read_coils pdu count)
        (clear_unused_response_bits count) ∧
      ResponsesAgree FC_READ_DISCRETE_INPUTS (fun values => values.length = count ∧ count ≤ 2000)
        encode_response_read_discrete_inputs (fun pdu => decode_read_discrete_inputs pdu count)
        (clear_unused_response_bits count) ∧
      ResponsesAgree FC_READ_HOLDING_REGISTERS
        (fun values => values.length = count ∧ count ≤ 125 ∧ ∀ v ∈ values, IsRegister v)
        encode_response_read_holding_registers
        (fun pdu => decode_read_holding_registers pdu count) id ∧
      ResponsesAgree FC_READ_INPUT_REGISTERS
        (fun values => values.length = count ∧ count ≤ 125 ∧ ∀ v ∈ values, IsRegister v)
        encode_response_read_input_registers
        (fun pdu => decode_read_input_registers pdu count) id ∧
      ResponsesAgree FC_WRITE_SINGLE_COIL (fun echo : Int × Bool => IsRegister echo.1)
        (fun echo => encode_response_write_single_coil echo.1 echo.2)
        decode_write_single_coil id ∧
      ResponsesAgree FC_WRITE_SINGLE_REGISTER
        (fun echo : Int × Int => IsRegister echo.1 ∧ IsRegister echo.2)
        (fun echo => encode_response_write_single_register echo.1 echo.2)
        decode_write_single_register id ∧
      ResponsesAgree FC_WRITE_MULTIPLE_COILS
        (fun echo : Int × Int => IsRegister echo.1 ∧ IsRegister echo.2)
        (fun echo => encode_response_write_multiple_coils echo.1 echo.2)
        decode_write_multiple_coils id ∧
      ResponsesAgree FC_WRITE_MULTIPLE_REGISTERS
        (fun echo : Int × Int => IsRegister echo.1 ∧ IsRegister echo.2)
        (fun echo => encode_response_write_multiple_registers echo.1 echo.2)
        decode_write_multiple_registers id :=
  ⟨bit_responses_agree (by decide) count, bit_responses_agree (by decide) count,
    register_responses_agree (by decide) count, register_responses_agree (by decide) count,
    write_single_coil_responses_agree, echo_responses_agree (by decide),
    echo_responses_agree (by decide), echo_responses_agree (by decide)⟩

end pymod.pdu
