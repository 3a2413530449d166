-- What the server does with a request, whatever its callbacks are: which PDUs it answers by
-- itself, and what it calls for the others.
import Pymod.ServerCallbacks

namespace pymod.server

open errors codec pdu types data_model BitStrings

section

variable {σ : Type}

/-! ## Requests that reach a callback -/

/-- The response to a read, of the values that `on_read` returned. -/
def answer_read (area : Area) (values : Values) (count : Int) : Except PyError Bytes :=
  match area with
  | .COIL => do
    let converted ← values_to_bool_list values count
    encode_response_read_coils converted
  | .DISCRETE_INPUT => do
    let converted ← values_to_bool_list values count
    encode_response_read_discrete_inputs converted
  | .HOLDING_REGISTER => do
    let converted ← values_to_int_list values count
    encode_response_read_holding_registers converted
  | .INPUT_REGISTER => do
    let converted ← values_to_int_list values count
    encode_response_read_input_registers converted

/-- What a request comes to: the call of its callback, and the response. -/
def perform (callbacks : Callbacks σ) (echo : Bytes) : Request → Py σ Bytes
  | .read area start count => do
    let values ← callbacks.on_read area start count
    answer_read area values count
  | .write_coils start values => do
    (Call.write .COIL start (values.map .bool)).run callbacks
    pure echo
  | .write_registers start values => do
    (Call.write .HOLDING_REGISTER start ((register_words values).map .int)).run callbacks
    pure echo

variable {callbacks : Callbacks σ} {echo : Bytes}

/-- A read branch of `_handle` whose request is decoded. -/
theorem handle_read_values_ok {α : Type} {area : Area} {q : Except PyError (Int × Int)}
    {convert : Values → Int → Except PyError α} {respond : α → Except PyError Bytes}
    {start count : Int} (h : q = .ok (start, count)) :
    handle_read_values callbacks area q convert respond = (do
      let values ← callbacks.on_read area start count
      (convert values count >>= respond : Except PyError Bytes)) := by
  subst h
  funext s
  unfold handle_read_values
  rw [Py.bind_ok (Py.lift_run _ s)]
  simp only [bind]
  rcases callbacks.on_read area start count s with ⟨e | values, s'⟩
  · rfl
  · cases hconvert : convert values count <;> simp [hconvert, Except.bind]

theorem handle_callbacks_read (callbacks : Callbacks σ) (echo : Bytes) (area : Area)
    {start : Register} {count : Nat} (h0 : 1 ≤ count) (h1 : count ≤ (read_code_limit area).2) :
    handle_callbacks callbacks (read_code_limit area).1 (words (read_code_limit area).1 start count)
      = perform callbacks echo (.read area start count) := by
  have hle : (count : Int) ≤ (read_code_limit area).2 := Int.ofNat_le.mpr h1
  cases area with
  | COIL =>
    exact handle_read_values_ok (q := decode_request_read_coils (words 0x01 start count))
      (decode_request_read_words start h0 hle (by decide))
  | DISCRETE_INPUT =>
    exact handle_read_values_ok
      (q := decode_request_read_discrete_inputs (words 0x02 start count))
      (decode_request_read_words start h0 hle (by decide))
  | HOLDING_REGISTER =>
    exact handle_read_values_ok
      (q := decode_request_read_holding_registers (words 0x03 start count))
      (decode_request_read_words start h0 hle (by decide))
  | INPUT_REGISTER =>
    exact handle_read_values_ok
      (q := decode_request_read_input_registers (words 0x04 start count))
      (decode_request_read_words start h0 hle (by decide))

theorem not_mem_read_codes {fc : UInt8} (hfc : fc ∈ write_codes) : fc ∉ read_codes := by
  simp only [write_codes, List.mem_cons, List.not_mem_nil, or_false] at hfc
  rcases hfc with rfl | rfl | rfl | rfl <;> decide

theorem handle_callbacks_write {fc : UInt8} (pdu : Bytes) (hfc : fc ∈ write_codes)
    {on_write : Area → Int → List Cell → Py σ Unit} (hw : callbacks.on_write = some on_write) :
    handle_callbacks callbacks fc pdu = handle_write on_write fc pdu := by
  have hmem : fc ∈ [FC_WRITE_SINGLE_COIL, FC_WRITE_SINGLE_REGISTER, FC_WRITE_MULTIPLE_COILS,
      FC_WRITE_MULTIPLE_REGISTERS] := hfc
  have hne : ∀ c ∈ read_codes, fc ≠ c := fun c hc heq => not_mem_read_codes hfc (heq ▸ hc)
  unfold handle_callbacks
  rw [if_neg (hne FC_READ_COILS (by decide)), if_neg (hne FC_READ_DISCRETE_INPUTS (by decide)),
    if_neg (hne FC_READ_HOLDING_REGISTERS (by decide)),
    if_neg (hne FC_READ_INPUT_REGISTERS (by decide)), if_pos hmem, hw]

/-- A write branch of `_handle` whose request is decoded. -/
theorem write_branch {α : Type} {q : Except PyError (Int × α)} {start : Int} {value : α}
    (w : Int → α → Py σ Unit) (g : Int → α → Except PyError Bytes) (h : q = .ok (start, value))
    (hresp : g start value = .ok echo) :
    (do let (start, value) ← q
        w start value
        g start value : Py σ Bytes) = (do
      w start value
      pure echo) := by
  subst h
  funext s
  rw [Py.bind_ok (Py.lift_run _ s)]
  simp only [hresp]
  rfl

theorem handle_write_coils_request {start : Int} {values : List Bool} {pdu : Bytes} {fc : UInt8}
    {rest : Bytes} (hpdu : pdu = fc :: rest) (h : Carries pdu (.write_coils start values) echo)
    (on_write : Area → Int → List Cell → Py σ Unit) :
    fc ∈ write_codes ∧ handle_write on_write fc pdu = (do
      on_write .COIL start (values.map .bool)
      pure echo) := by
  cases h with
  | write_single_coil address value =>
    obtain ⟨rfl, _⟩ := List.cons.inj hpdu
    have hu := unpack_HH_words' 0x05 address.property (isRegister_coil_word value)
    have hdec := decode_request_write_single_coil_ok (length_words 0x05 address (coil_word value))
      (by rw [hu])
    rw [hu] at hdec
    refine ⟨by decide, ?_⟩
    rw [handle_write_single_coil]
    exact write_branch (fun address value => on_write .COIL address [.bool value])
      encode_response_write_single_coil hdec
      (pack_BHH_ok _ address.property (isRegister_coil_word value))
  | write_multiple_coils start count data h0 h1 hdata =>
    obtain ⟨rfl, _⟩ := List.cons.inj hpdu
    have hdec : decode_request_write_multiple_coils (write_request 0x0F start count data) =
        .ok (start.val, unpack count data) :=
      decode_write_coils_request 0x0F start.property (by omega) (by omega) (by omega)
    refine ⟨by decide, ?_⟩
    rw [handle_write_multiple_coils]
    refine write_branch (fun start bits => on_write .COIL start (bits.map .bool))
      (fun start bits => encode_response_write_multiple_coils start bits.length) hdec ?_
    rw [length_unpack]
    exact pack_BHH_ok _ start.property ⟨by omega, by omega⟩

theorem handle_write_registers_request {start : Int} {values : List Register} {pdu : Bytes}
    {fc : UInt8} {rest : Bytes} (hpdu : pdu = fc :: rest)
    (h : Carries pdu (.write_registers start values) echo)
    (on_write : Area → Int → List Cell → Py σ Unit) :
    fc ∈ write_codes ∧ handle_write on_write fc pdu = (do
      on_write .HOLDING_REGISTER start ((register_words values).map .int)
      pure echo) := by
  cases h with
  | write_single_register address value =>
    obtain ⟨rfl, _⟩ := List.cons.inj hpdu
    have hu := unpack_HH_words' 0x06 address.property value.property
    have hdec := decode_request_write_single_register_ok (length_words 0x06 address value)
    rw [hu] at hdec
    refine ⟨by decide, ?_⟩
    rw [handle_write_single_register]
    exact write_branch (fun address value => on_write .HOLDING_REGISTER address [.int value])
      encode_response_write_single_register hdec (pack_BHH_ok _ address.property value.property)
  | write_multiple_registers start values h0 h1 =>
    obtain ⟨rfl, _⟩ := List.cons.inj hpdu
    have hlen : (register_words values).length = values.length := List.length_map _
    have hdec : decode_request_write_multiple_registers (write_request 0x10 start values.length
        (register_data (register_words values))) = .ok (start.val, register_words values) := by
      rw [← hlen]
      exact decode_write_registers_request 0x10 start.property (by omega) (by omega)
        (register_words_legal values)
    refine ⟨by decide, ?_⟩
    rw [handle_write_multiple_registers]
    refine write_branch (fun start regs => on_write .HOLDING_REGISTER start (regs.map .int))
      (fun start regs => encode_response_write_multiple_registers start regs.length) hdec ?_
    rw [hlen]
    exact pack_BHH_ok _ start.property ⟨by omega, by omega⟩

/-- A request that is well formed and supported is performed. -/
theorem handle_callbacks_carried {fc : UInt8} {rest : Bytes} {r : Request}
    (hfc : Supported callbacks.on_write.isSome fc) (h : Carries (fc :: rest) r echo) :
    handle_callbacks callbacks fc (fc :: rest) = perform callbacks echo r := by
  have hwrites : fc ∈ write_codes → ∃ on_write, callbacks.on_write = some on_write := by
    intro hmem
    rcases hfc with hread | ⟨hw, -⟩
    · exact absurd hread (not_mem_read_codes hmem)
    · exact Option.isSome_iff_exists.mp hw
  cases r with
  | read area start count =>
    generalize hpdu : fc :: rest = pdu at h
    cases h with
    | read area start count h0 h1 =>
      obtain ⟨rfl, -⟩ := List.cons.inj hpdu
      exact handle_callbacks_read callbacks _ area h0 h1
  | write_coils start values =>
    obtain ⟨hmem, -⟩ := handle_write_coils_request rfl h (σ := σ) fun _ _ _ => pure ()
    obtain ⟨on_write, hw⟩ := hwrites hmem
    rw [handle_callbacks_write _ hmem hw, (handle_write_coils_request rfl h on_write).2]
    simp only [perform, Call.run, hw]
  | write_registers start values =>
    obtain ⟨hmem, -⟩ := handle_write_registers_request rfl h (σ := σ) fun _ _ _ => pure ()
    obtain ⟨on_write, hw⟩ := hwrites hmem
    rw [handle_callbacks_write _ hmem hw, (handle_write_registers_request rfl h on_write).2]
    simp only [perform, Call.run, hw]

/-! ## Every request -/

theorem handle_read_values_error {α : Type} {area : Area} {q : Except PyError (Int × Int)}
    {convert : Values → Int → Except PyError α} {respond : α → Except PyError Bytes} {e : PyError}
    (h : q = .error e) (s : σ) :
    handle_read_values callbacks area q convert respond s = (.error e, s) := by
  subst h
  exact Py.bind_error (Py.lift_run _ s)

/-- A request of a supported code that carries nothing raises `IllegalDataValue`. -/
theorem handle_callbacks_malformed {fc : UInt8} {rest : Bytes}
    (hfc : Supported callbacks.on_write.isSome fc)
    (hshape : ∀ r echo, ¬ Carries (fc :: rest) r echo) (s : σ) :
    ∃ msg, handle_callbacks callbacks fc (fc :: rest) s =
      (.error (ExceptionClass.IllegalDataValue.new msg), s) := by
  rcases hfc with hfc | ⟨hw, hfc⟩
  · simp only [read_codes, List.mem_cons, List.not_mem_nil, or_false] at hfc
    rcases hfc with rfl | rfl | rfl | rfl
    · obtain ⟨e, he, msg, rfl⟩ := decode_request_read_malformed .COIL "FC01" rfl hshape
      exact ⟨msg, handle_read_values_error he s⟩
    · obtain ⟨e, he, msg, rfl⟩ := decode_request_read_malformed .DISCRETE_INPUT "FC02" rfl hshape
      exact ⟨msg, handle_read_values_error he s⟩
    · obtain ⟨e, he, msg, rfl⟩ := decode_request_read_malformed .HOLDING_REGISTER "FC03" rfl hshape
      exact ⟨msg, handle_read_values_error he s⟩
    · obtain ⟨e, he, msg, rfl⟩ := decode_request_read_malformed .INPUT_REGISTER "FC04" rfl hshape
      exact ⟨msg, handle_read_values_error he s⟩
  · obtain ⟨on_write, hw⟩ := Option.isSome_iff_exists.mp hw
    rw [handle_callbacks_write _ hfc hw]
    simp only [write_codes, List.mem_cons, List.not_mem_nil, or_false] at hfc
    rcases hfc with rfl | rfl | rfl | rfl
    · obtain ⟨e, he, msg, rfl⟩ := malformed_write_single_coil hshape
      exact ⟨msg, Py.bind_error (by rw [he]; rfl)⟩
    · obtain ⟨e, he, msg, rfl⟩ := malformed_write_single_register hshape
      exact ⟨msg, Py.bind_error (by rw [he]; rfl)⟩
    · obtain ⟨e, he, msg, rfl⟩ := malformed_write_multiple_coils hshape
      exact ⟨msg, Py.bind_error (by rw [he]; rfl)⟩
    · obtain ⟨e, he, msg, rfl⟩ := malformed_write_multiple_registers hshape
      exact ⟨msg, Py.bind_error (by rw [he]; rfl)⟩

theorem handle_callbacks_unsupported {fc : UInt8} {pdu : Bytes}
    (h : ¬ Supported callbacks.on_write.isSome fc) :
    handle_callbacks callbacks fc pdu = pure (exception_pdu fc 0x01) := by
  have hexc : encode_exception_response fc.toNat ExceptionClass.IllegalFunction.code =
      .ok (exception_pdu fc 0x01) := encode_exception_response_ok fc (by decide) (by decide)
  have hne : ∀ c ∈ read_codes, fc ≠ c := fun c hc hfc => h (Or.inl (hfc ▸ hc))
  unfold handle_callbacks
  rw [if_neg (hne FC_READ_COILS (by decide)), if_neg (hne FC_READ_DISCRETE_INPUTS (by decide)),
    if_neg (hne FC_READ_HOLDING_REGISTERS (by decide)),
    if_neg (hne FC_READ_INPUT_REGISTERS (by decide)), hexc]
  by_cases hmem : fc ∈ [FC_WRITE_SINGLE_COIL, FC_WRITE_SINGLE_REGISTER, FC_WRITE_MULTIPLE_COILS,
      FC_WRITE_MULTIPLE_REGISTERS]
  · have hnone : callbacks.on_write = none := by
      cases hw : callbacks.on_write with
      | none => rfl
      | some on_write => exact absurd (Or.inr ⟨by rw [hw]; rfl, hmem⟩) h
    rw [if_pos hmem, hnone]
    rfl
  · rw [if_neg hmem]
    rfl

/-! The three ways of a request that has a function code and is no malformed one. -/

theorem dispatch_other_unit {fc : UInt8} {rest : Bytes} {uid : Int}
    (hunit : ¬ Accepts callbacks.unit_id uid) :
    dispatch_callbacks callbacks uid (fc :: rest) = pure (exception_pdu fc 0x0B) := by
  have hcond : callbacks.unit_id ≠ none ∧ some uid ≠ callbacks.unit_id :=
    ⟨fun h => hunit (Or.inl h), fun h => hunit (Or.inr h.symm)⟩
  unfold dispatch_callbacks
  simp only
  rw [if_pos hcond, encode_exception_response_ok fc (by decide) (by decide)]
  rfl

/-- A request for a unit that the filter lets through is handled. -/
theorem dispatch_handles {fc : UInt8} {rest : Bytes} {uid : Int}
    (hunit : Accepts callbacks.unit_id uid) :
    dispatch_callbacks callbacks uid (fc :: rest) =
      Py.except_with (handle_callbacks callbacks fc (fc :: rest)) (except_dispatch fc) := by
  have hcond : ¬ (callbacks.unit_id ≠ none ∧ some uid ≠ callbacks.unit_id) := by
    rcases hunit with h | h
    · exact fun hc => hc.1 h
    · exact fun hc => hc.2 h.symm
  unfold dispatch_callbacks
  simp only
  rw [if_neg hcond]

theorem dispatch_unsupported {fc : UInt8} {rest : Bytes} {uid : Int}
    (hunit : Accepts callbacks.unit_id uid) (hfc : ¬ Supported callbacks.on_write.isSome fc) :
    dispatch_callbacks callbacks uid (fc :: rest) = pure (exception_pdu fc 0x01) := by
  rw [dispatch_handles hunit, handle_callbacks_unsupported hfc]
  rfl

theorem dispatch_carried {fc : UInt8} {rest : Bytes} {uid : Int} {r : Request}
    (hunit : Accepts callbacks.unit_id uid) (hfc : Supported callbacks.on_write.isSome fc)
    (h : Carries (fc :: rest) r echo) :
    dispatch_callbacks callbacks uid (fc :: rest) =
      Py.except_with (perform callbacks echo r) (except_dispatch fc) := by
  rw [dispatch_handles hunit, handle_callbacks_carried hfc h]

/-- How a request for a unit is treated: the five ways, in the order of their precedence. -/
inductive Treats (callbacks : Callbacks σ) (uid : Int) : Bytes → Py σ Bytes → Prop
  | empty : Treats callbacks uid [] (pure (exception_pdu 0 0x01))
  | other_unit {fc : UInt8} {rest : Bytes} (hunit : ¬ Accepts callbacks.unit_id uid) :
      Treats callbacks uid (fc :: rest) (pure (exception_pdu fc 0x0B))
  | unsupported {fc : UInt8} {rest : Bytes} (hunit : Accepts callbacks.unit_id uid)
      (hfc : ¬ Supported callbacks.on_write.isSome fc) :
      Treats callbacks uid (fc :: rest) (pure (exception_pdu fc 0x01))
  | malformed {fc : UInt8} {rest : Bytes} (hunit : Accepts callbacks.unit_id uid)
      (hfc : Supported callbacks.on_write.isSome fc)
      (hshape : ∀ r echo, ¬ Carries (fc :: rest) r echo) :
      Treats callbacks uid (fc :: rest) (pure (exception_pdu fc 0x03))
  | carried {fc : UInt8} {rest echo : Bytes} {r : Request} (hunit : Accepts callbacks.unit_id uid)
      (hfc : Supported callbacks.on_write.isSome fc) (hshape : Carries (fc :: rest) r echo) :
      Treats callbacks uid (fc :: rest)
        (Py.except_with (perform callbacks echo r) (except_dispatch fc))

/-- `_dispatch` calls a callback for a request that it can carry out, and answers every other
request by itself. -/
theorem dispatch_treats (callbacks : Callbacks σ) (uid : Int) (pdu : Bytes) :
    Treats callbacks uid pdu (dispatch_callbacks callbacks uid pdu) := by
  cases pdu with
  | nil => exact .empty
  | cons fc rest =>
    by_cases hunit : Accepts callbacks.unit_id uid
    · by_cases hfc : Supported callbacks.on_write.isSome fc
      · by_cases hshape : ∃ r echo, Carries (fc :: rest) r echo
        · obtain ⟨r, echo, hr⟩ := hshape
          rw [dispatch_carried hunit hfc hr]
          exact .carried hunit hfc hr
        · have hnone : ∀ r echo, ¬ Carries (fc :: rest) r echo := fun r echo h => hshape ⟨r, echo, h⟩
          have hcode : encode_exception_response fc.toNat ExceptionClass.IllegalDataValue.code =
              .ok (exception_pdu fc 0x03) := encode_exception_response_ok fc (by decide) (by decide)
          have hraises : Py.except_with (handle_callbacks callbacks fc (fc :: rest))
              (except_dispatch fc) = pure (exception_pdu fc 0x03) := by
            funext s
            obtain ⟨msg, hmsg⟩ := handle_callbacks_malformed hfc hnone s
            rw [Py.except_with, hmsg]
            simp only [ExceptionClass.new, except_dispatch, hcode]
            rfl
          rw [dispatch_handles hunit, hraises]
          exact .malformed hunit hfc hnone
      · rw [dispatch_unsupported hunit hfc]
        exact .unsupported hunit hfc
    · rw [dispatch_other_unit hunit]
      exact .other_unit hunit

end

end pymod.server
