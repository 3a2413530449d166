-- The server over callbacks that do as they please: what `on_read` returns need not be a list
-- of numbers, and what a callback raises can be any exception.
import Pymod.ServerRefinement

namespace pymod.server

open errors codec pdu types data_model

/-! ## What `on_read` returns -/

/-- An element of the values: what comes of `int(v)`, and of `bool(v)`. -/
structure Element where
  as_int : Except PyError Int
  as_bool : Except PyError Bool

/-- What `on_read` returned: what comes of `len(values)`, the elements that `for v in values`
goes through, and the exception that ends it, when there is one. -/
structure Values where
  len : Except PyError Nat
  elements : List Element
  stop : Option PyError

/-- The end of `for v in values`. -/
def Values.stopped (values : Values) : Except PyError Unit :=
  match values.stop with
  | some e => throw e
  | none => pure ()

def check_len (values : Values) (expected_count : Int) : Except PyError Unit := do
  let len ← values.len
  if (len : Int) ≠ expected_count then
    throw (ExceptionClass.SlaveDeviceFailure.new
      s!"on_read returned {len} values, expected {expected_count}")
  else
    pure ()

/-- `_to_bool_list` -/
def values_to_bool_list (values : Values) (expected_count : Int) : Except PyError (List Bool) := do
  check_len values expected_count
  let out ← values.elements.mapM Element.as_bool
  values.stopped
  pure out

def register_of (v : Element) : Except PyError Int := do
  let iv ← v.as_int
  if ¬ IsRegister iv then
    throw (ExceptionClass.SlaveDeviceFailure.new
      s!"on_read returned out-of-range register value {iv}")
  else
    pure iv

/-- `_to_int_list` -/
def values_to_int_list (values : Values) (expected_count : Int) : Except PyError (List Int) := do
  check_len values expected_count
  let out ← values.elements.mapM register_of
  values.stopped
  pure out

/-! ## The dispatch of a request -/

/-- The callbacks and the unit filter of a server. -/
structure Callbacks (σ : Type) where
  on_read : Area → Int → Int → Py σ Values
  on_write : Option (Area → Int → List Cell → Py σ Unit)
  unit_id : Option Int

section

variable {σ : Type}

/-- One read branch of `_handle`. -/
def handle_read_values {α : Type} (callbacks : Callbacks σ) (area : Area)
    (request : Except PyError (Int × Int)) (convert : Values → Int → Except PyError α)
    (respond : α → Except PyError Bytes) : Py σ Bytes := do
  let (start, count) ← request
  let values ← callbacks.on_read area start count
  let converted ← convert values count
  respond converted

def handle_callbacks (callbacks : Callbacks σ) (fc : UInt8) (pdu : Bytes) : Py σ Bytes :=
  if fc = FC_READ_COILS then
    handle_read_values callbacks .COIL (decode_request_read_coils pdu) values_to_bool_list
      encode_response_read_coils
  else if fc = FC_READ_DISCRETE_INPUTS then
    handle_read_values callbacks .DISCRETE_INPUT (decode_request_read_discrete_inputs pdu)
      values_to_bool_list encode_response_read_discrete_inputs
  else if fc = FC_READ_HOLDING_REGISTERS then
    handle_read_values callbacks .HOLDING_REGISTER (decode_request_read_holding_registers pdu)
      values_to_int_list encode_response_read_holding_registers
  else if fc = FC_READ_INPUT_REGISTERS then
    handle_read_values callbacks .INPUT_REGISTER (decode_request_read_input_registers pdu)
      values_to_int_list encode_response_read_input_registers
  else if fc ∈ [FC_WRITE_SINGLE_COIL, FC_WRITE_SINGLE_REGISTER, FC_WRITE_MULTIPLE_COILS,
      FC_WRITE_MULTIPLE_REGISTERS] then
    match callbacks.on_write with
    | none => encode_exception_response fc.toNat ExceptionClass.IllegalFunction.code
    | some on_write => handle_write on_write fc pdu
  else
    encode_exception_response fc.toNat ExceptionClass.IllegalFunction.code

def dispatch_callbacks (callbacks : Callbacks σ) (uid : Int) (pdu : Bytes) : Py σ Bytes :=
  match pdu with
  | [] => encode_exception_response 0 ExceptionClass.IllegalFunction.code
  | fc :: _ =>
    if callbacks.unit_id ≠ none ∧ some uid ≠ callbacks.unit_id then
      encode_exception_response fc.toNat GATEWAY_TARGET_FAILED_TO_RESPOND
    else
      Py.except_with (handle_callbacks callbacks fc pdu) (except_dispatch fc)

/-! ## Callbacks that return lists of cells -/

def element_of (v : Cell) : Element where
  as_int := .ok v.as_int
  as_bool := .ok v.as_bool

/-- A list of numbers and bools. -/
def values_of (cells : List Cell) : Values where
  len := .ok cells.length
  elements := cells.map element_of
  stop := none

/-- The callbacks of a server that keeps to the types of `ReadCallback`. -/
def Server.callbacks (server : Server σ) : Callbacks σ where
  on_read := fun area start count => do
    let cells ← server.on_read area start count
    pure (values_of cells)
  on_write := server.on_write
  unit_id := server.unit_id

theorem values_to_bool_list_of (cells : List Cell) (count : Int) :
    values_to_bool_list (values_of cells) count = to_bool_list cells count := by
  have hcheck : check_len (values_of cells) count =
      if (cells.length : Int) ≠ count then
        throw (ExceptionClass.SlaveDeviceFailure.new
          s!"on_read returned {cells.length} values, expected {count}")
      else pure () := rfl
  have hmap : (values_of cells).elements.mapM Element.as_bool = .ok (cells.map Cell.as_bool) := by
    change (cells.map element_of).mapM Element.as_bool = _
    rw [List.mapM_map]
    exact Slices.mapM_ok fun _ _ => rfl
  unfold values_to_bool_list to_bool_list
  rw [hcheck, hmap]
  by_cases hlen : (cells.length : Int) ≠ count
  · rw [if_pos hlen, if_pos hlen]
    rfl
  · rw [if_neg hlen, if_neg hlen]
    rfl

theorem values_to_int_list_of (cells : List Cell) (count : Int) :
    values_to_int_list (values_of cells) count = to_int_list cells count := by
  have hcheck : check_len (values_of cells) count =
      if (cells.length : Int) ≠ count then
        throw (ExceptionClass.SlaveDeviceFailure.new
          s!"on_read returned {cells.length} values, expected {count}")
      else pure () := rfl
  have hmap : (values_of cells).elements.mapM register_of = cells.mapM fun v =>
      let iv := v.as_int
      if ¬ IsRegister iv then
        throw (ExceptionClass.SlaveDeviceFailure.new
          s!"on_read returned out-of-range register value {iv}")
      else
        pure iv := by
    change (cells.map element_of).mapM register_of = _
    rw [List.mapM_map]
    exact Slices.mapM_congr fun _ _ => rfl
  have hend : ∀ r : Except PyError (List Int),
      (do let out ← r; (values_of cells).stopped; pure out) = r := by
    intro r
    cases r <;> rfl
  unfold values_to_int_list to_int_list
  rw [hcheck, hmap]
  by_cases hlen : (cells.length : Int) ≠ count
  · rw [if_pos hlen, if_pos hlen]
    rfl
  · rw [if_neg hlen, if_neg hlen]
    exact hend _

theorem handle_read_values_of {α : Type} (server : Server σ) (area : Area)
    (request : Except PyError (Int × Int)) {convert : Values → Int → Except PyError α}
    {convert_cells : List Cell → Int → Except PyError α} (respond : α → Except PyError Bytes)
    (h : ∀ cells count, convert (values_of cells) count = convert_cells cells count) :
    handle_read_values server.callbacks area request convert respond =
      handle_read server area request convert_cells respond := by
  funext s
  unfold handle_read_values handle_read
  cases request with
  | error e => rfl
  | ok p =>
    rw [Py.bind_ok (Py.lift_run _ s), Py.bind_ok (Py.lift_run _ s)]
    simp only [Server.callbacks, bind]
    rcases server.on_read area p.1 p.2 s with ⟨e | cells, s'⟩
    · rfl
    · simp only [Py.pure_run, h]

/-- Over callbacks that return lists of cells, this is the dispatch of `Server`. -/
theorem dispatch_callbacks_of (server : Server σ) (uid : Int) (pdu : Bytes) :
    dispatch_callbacks server.callbacks uid pdu = dispatch server uid pdu := by
  have hhandle : ∀ fc, handle_callbacks server.callbacks fc pdu = handle server fc pdu := by
    intro fc
    unfold handle_callbacks handle
    rw [handle_read_values_of server _ _ _ values_to_bool_list_of,
      handle_read_values_of server _ _ _ values_to_bool_list_of,
      handle_read_values_of server _ _ _ values_to_int_list_of,
      handle_read_values_of server _ _ _ values_to_int_list_of]
    rfl
  cases pdu with
  | nil => rfl
  | cons fc rest =>
    unfold dispatch_callbacks dispatch
    simp only
    rw [hhandle]
    rfl

/-! ## What a request comes to -/

/-- What a response to a request of this function code looks like: it has the code, or the code
with 0x80 set and one exception code. -/
def IsResponse (fc : UInt8) (pdu : Bytes) : Prop :=
  (∃ data, pdu = fc :: data) ∨ ∃ code, pdu = [fc ||| EXCEPTION_BIT, code]

/-- What the `except` clauses of `_dispatch` answer: any exception but the ones whose code does
not fit into a byte. (`CancelledError`, which is no `Exception`, is not theirs to answer.) -/
def Answerable : PyError → Prop
  | .modbus (.ModbusExceptionResponse _ _ code) => 0 ≤ code ∧ code ≤ 0xFF
  | .CancelledError => False
  | _ => True

instance (e : PyError) : Decidable (Answerable e) := by
  unfold Answerable
  split <;> infer_instance

/-- What a step of `_handle` may end with. -/
inductive Legal (fc : UInt8) : Except PyError Bytes → Prop
  | response {resp : Bytes} (h : IsResponse fc resp) (hlen : resp.length ≤ 257) :
      Legal fc (.ok resp)
  | exception {e : PyError} (h : Answerable e) : Legal fc (.error e)

theorem legal_exception (fc : UInt8) {code : Int} (h0 : 0 ≤ code) (h1 : code ≤ 0xFF) :
    Legal fc (encode_exception_response fc.toNat code) := by
  rw [encode_exception_response_ok fc h0 h1]
  exact .response (Or.inr ⟨_, rfl⟩) (by simp [exception_pdu])

theorem except_dispatch_answerable {fc : UInt8} {e : PyError} (h : Answerable e) :
    ∃ resp, except_dispatch fc e = .ok resp ∧ IsResponse fc resp ∧ resp.length ≤ 257 := by
  have hcode : ∀ {code : Int}, 0 ≤ code → code ≤ 0xFF → ∃ resp,
      encode_exception_response fc.toNat code = .ok resp ∧ IsResponse fc resp ∧
        resp.length ≤ 257 := by
    intro code h0 h1
    have hlegal := legal_exception fc h0 h1
    rw [encode_exception_response_ok fc h0 h1] at hlegal ⊢
    cases hlegal with
    | response h hlen => exact ⟨_, rfl, h, hlen⟩
  have hfailure : ∃ resp, encode_exception_response fc.toNat ExceptionClass.SlaveDeviceFailure.code =
      .ok resp ∧ IsResponse fc resp ∧ resp.length ≤ 257 := hcode (by decide) (by decide)
  cases e with
  | modbus m =>
    cases m with
    | ModbusExceptionResponse cls m code => exact hcode h.1 h.2
    | _ => exact hfailure
  | CancelledError => exact absurd h id
  | _ => exact hfailure

theorem except_dispatch_unanswerable {fc : UInt8} {e : PyError} (h : ¬ Answerable e) :
    ∃ e', except_dispatch fc e = .error e' := by
  have hfc := fc.toNat_lt
  cases e with
  | modbus m =>
    cases m with
    | ModbusExceptionResponse cls m code =>
      have hcode : ¬ (0 ≤ code ∧ code ≤ 0xFF) := h
      refine ⟨.ValueError s!"exception_code out of range: {code}", ?_⟩
      change encode_exception_response fc.toNat code = _
      unfold encode_exception_response
      rw [if_neg (by omega), if_pos hcode]
      rfl
    | _ => exact absurd trivial h
  | CancelledError => exact ⟨_, rfl⟩
  | _ => exact absurd trivial h

/-! ## Callbacks that a request reaches -/

inductive Call
  | read (area : Area) (start count : Int)
  | write (area : Area) (start : Int) (values : List Cell)

def read_call (area : Area) (request : Except PyError (Int × Int)) : Option Call :=
  request.toOption.map fun (start, count) => .read area start count

/-- The callback that a request reaches: the one of its function code, once it is decoded. -/
def reached (callbacks : Callbacks σ) (uid : Int) (pdu : Bytes) : Option Call :=
  match pdu with
  | [] => none
  | fc :: _ =>
    if callbacks.unit_id ≠ none ∧ some uid ≠ callbacks.unit_id then
      none
    else if fc = FC_READ_COILS then
      read_call .COIL (decode_request_read_coils pdu)
    else if fc = FC_READ_DISCRETE_INPUTS then
      read_call .DISCRETE_INPUT (decode_request_read_discrete_inputs pdu)
    else if fc = FC_READ_HOLDING_REGISTERS then
      read_call .HOLDING_REGISTER (decode_request_read_holding_registers pdu)
    else if fc = FC_READ_INPUT_REGISTERS then
      read_call .INPUT_REGISTER (decode_request_read_input_registers pdu)
    else if callbacks.on_write.isNone then
      none
    else if fc = FC_WRITE_SINGLE_COIL then
      (decode_request_write_single_coil pdu).toOption.map fun (address, value) =>
        .write .COIL address [.bool value]
    else if fc = FC_WRITE_SINGLE_REGISTER then
      (decode_request_write_single_register pdu).toOption.map fun (address, value) =>
        .write .HOLDING_REGISTER address [.int value]
    else if fc = FC_WRITE_MULTIPLE_COILS then
      (decode_request_write_multiple_coils pdu).toOption.map fun (start, bits) =>
        .write .COIL start (bits.map .bool)
    else if fc = FC_WRITE_MULTIPLE_REGISTERS then
      (decode_request_write_multiple_registers pdu).toOption.map fun (start, regs) =>
        .write .HOLDING_REGISTER start (regs.map .int)
    else
      none

/-- The use that the server makes of the values of an area. -/
def use_values (area : Area) (values : Values) (count : Int) : Except PyError Unit :=
  match area with
  | .COIL => (values_to_bool_list values count).map fun _ => ()
  | .DISCRETE_INPUT => (values_to_bool_list values count).map fun _ => ()
  | .HOLDING_REGISTER => (values_to_int_list values count).map fun _ => ()
  | .INPUT_REGISTER => (values_to_int_list values count).map fun _ => ()

/-- The call itself, and for a read what the values do when the server looks at them. -/
def Call.run (callbacks : Callbacks σ) : Call → Py σ Unit
  | .read area start count => do
    let values ← callbacks.on_read area start count
    use_values area values count
  | .write area start values =>
    match callbacks.on_write with
    | none => pure ()
    | some on_write => on_write area start values

/-! ## What the encoders and decoders end with -/

theorem answerable_of_isIllegalValue {e : PyError} (h : IsIllegalValue e) : Answerable e := by
  obtain ⟨m, rfl⟩ := h
  exact ⟨by decide, by decide⟩

theorem legal_bits (fc : UInt8) (values : List Bool) : Legal fc (encode_response_bits fc values) := by
  by_cases hlen : (values.length + 7) / 8 < 256
  · rw [encode_response_bits_ok hlen]
    refine .response (Or.inl ⟨_, rfl⟩) ?_
    rw [List.length_cons, List.length_cons, BitStrings.length_pack]
    omega
  · unfold encode_response_bits byte_of
    rw [if_neg (by omega)]
    exact .exception trivial

theorem answerable_to_two_bytes {v : Int} {e : PyError} (h : to_two_bytes v = .error e) :
    Answerable e := by
  unfold to_two_bytes at h
  split at h
  · cases h; trivial
  · split at h
    · cases h; trivial
    · cases h

theorem legal_registers (fc : UInt8) (values : List Int) :
    Legal fc (encode_response_registers fc values) := by
  unfold encode_response_registers
  cases hwords : values.mapM to_two_bytes with
  | error e =>
    obtain ⟨v, -, hv⟩ := Slices.error_of_mapM hwords
    exact .exception (answerable_to_two_bytes hv)
  | ok words =>
    simp only [bind, Except.bind]
    by_cases hlen : words.flatten.length < 256
    · rw [byte_of_ok (by omega) (by omega)]
      refine .response (Or.inl ⟨_, rfl⟩) ?_
      rw [List.length_cons, List.length_cons]
      omega
    · rw [byte_of, if_neg (by omega)]
      exact .exception trivial

theorem legal_pack_BHH (fc : UInt8) (a b : Int) : Legal fc (pack_BHH fc a b) := by
  by_cases ha : IsRegister a
  · by_cases hb : IsRegister b
    · rw [pack_BHH_ok fc ha hb]
      exact .response (Or.inl ⟨_, rfl⟩) (by rw [length_words]; omega)
    · unfold pack_BHH
      rw [pack_H_ok ha, pack_H, if_neg hb]
      exact .exception trivial
  · unfold pack_BHH
    rw [pack_H, if_neg ha]
    exact .exception trivial

theorem answerable_decode_request_read {pdu : Bytes} {maximum : Int} {name : String} {e : PyError}
    (h : decode_request_read pdu maximum name = .error e) : Answerable e := by
  by_cases hshape : pdu.length = 5 ∧ 1 ≤ (unpack_HH pdu).2 ∧ (unpack_HH pdu).2 ≤ maximum
  · rw [decode_request_read_ok hshape.1 hshape.2.1 hshape.2.2] at h
    cases h
  · obtain ⟨e', he, hillegal⟩ := @decode_request_read_error pdu maximum name hshape
    rw [he] at h
    cases h
    exact answerable_of_isIllegalValue hillegal

theorem answerable_decode_request_write {pdu : Bytes} {maximum : Int} {bytes_for : Int → Int}
    {name : String} {e : PyError} (h : decode_request_write pdu maximum bytes_for name = .error e) :
    Answerable e := by
  by_cases hshape : WriteShape pdu maximum bytes_for
  · rw [decode_request_write_ok hshape] at h
    cases h
  · obtain ⟨e', he, hillegal⟩ := @decode_request_write_error pdu maximum bytes_for name hshape
    rw [he] at h
    cases h
    exact answerable_of_isIllegalValue hillegal

theorem answerable_decode_request_write_single_coil {pdu : Bytes} {e : PyError}
    (h : decode_request_write_single_coil pdu = .error e) : Answerable e := by
  by_cases hshape : pdu.length = 5 ∧ ∃ value, (unpack_HH pdu).2 = coil_word value
  · obtain ⟨hlen, value, hvalue⟩ := hshape
    rw [decode_request_write_single_coil_ok hlen hvalue] at h
    cases h
  · obtain ⟨e', he, hillegal⟩ := decode_request_write_single_coil_error hshape
    rw [he] at h
    cases h
    exact answerable_of_isIllegalValue hillegal

theorem answerable_decode_request_write_single_register {pdu : Bytes} {e : PyError}
    (h : decode_request_write_single_register pdu = .error e) : Answerable e := by
  by_cases hlen : pdu.length = 5
  · rw [decode_request_write_single_register_ok hlen] at h
    cases h
  · obtain ⟨e', he, hillegal⟩ := decode_request_write_single_register_error hlen
    rw [he] at h
    cases h
    exact answerable_of_isIllegalValue hillegal

theorem answerable_decode_request_write_multiple_coils {pdu : Bytes} {e : PyError}
    (h : decode_request_write_multiple_coils pdu = .error e) : Answerable e := by
  rcases bind_eq_error h with h | ⟨_, _, h⟩
  · exact answerable_decode_request_write h
  · cases h

theorem answerable_decode_request_write_multiple_registers {pdu : Bytes} {e : PyError}
    (h : decode_request_write_multiple_registers pdu = .error e) : Answerable e := by
  rcases bind_eq_error h with h | ⟨_, _, h⟩
  · exact answerable_decode_request_write h
  · rcases bind_eq_error h with h | ⟨_, _, h⟩
    · unfold unpack_H at h
      split at h
      · cases h
      · cases h
        trivial
    · cases h

/-! ## A request ends like its callback -/

/-- A step ends like the call that it makes: with the exception of the call, or legally; and in
the state that the call left. -/
inductive EndsLike (callbacks : Callbacks σ) (fc : UInt8) (step : Py σ Bytes) :
    Option Call → Prop
  | no_call (h : ∀ s, ∃ r, step s = (r, s) ∧ Legal fc r) : EndsLike callbacks fc step none
  | call {c : Call}
      (herror : ∀ s e s', c.run callbacks s = (.error e, s') → step s = (.error e, s'))
      (hok : ∀ s s', c.run callbacks s = (.ok (), s') → ∃ r, step s = (r, s') ∧ Legal fc r) :
      EndsLike callbacks fc step (some c)

variable {callbacks : Callbacks σ} {fc : UInt8}

theorem endsLike_read {α : Type} {area : Area} {request : Except PyError (Int × Int)}
    {convert : Values → Int → Except PyError α} {respond : α → Except PyError Bytes}
    (hrequest : ∀ e, request = .error e → Answerable e)
    (huse : ∀ values count, use_values area values count = (convert values count).map fun _ => ())
    (hrespond : ∀ a, Legal fc (respond a)) :
    EndsLike callbacks fc (handle_read_values callbacks area request convert respond)
      (read_call area request) := by
  cases request with
  | error e => exact .no_call fun s => ⟨.error e, rfl, .exception (hrequest e rfl)⟩
  | ok p =>
    obtain ⟨start, count⟩ := p
    have hstep : ∀ s, handle_read_values callbacks area (.ok (start, count)) convert respond s =
        (do let values ← callbacks.on_read area start count
            let converted ← convert values count
            respond converted : Py σ Bytes) s := fun _ => rfl
    refine .call ?_ ?_
    · intro s e s' hrun
      rw [hstep]
      simp only [Call.run, bind] at hrun ⊢
      rcases hread : callbacks.on_read area start count s with ⟨e' | values, s₁⟩
      · rw [hread] at hrun
        cases hrun
        rfl
      · rw [hread] at hrun
        simp only [huse, Py.lift_run] at hrun ⊢
        cases hconvert : convert values count with
        | error e' =>
          rw [hconvert] at hrun
          cases hrun
          rfl
        | ok a =>
          rw [hconvert] at hrun
          cases hrun
    · intro s s' hrun
      rw [hstep]
      simp only [Call.run, bind] at hrun ⊢
      rcases hread : callbacks.on_read area start count s with ⟨e' | values, s₁⟩
      · rw [hread] at hrun
        cases hrun
      · rw [hread] at hrun
        simp only [huse, Py.lift_run] at hrun ⊢
        cases hconvert : convert values count with
        | error e' =>
          rw [hconvert] at hrun
          cases hrun
        | ok a =>
          rw [hconvert] at hrun
          cases hrun
          exact ⟨respond a, rfl, hrespond a⟩

theorem endsLike_write {α : Type} {area : Area} {on_write : Area → Int → List Cell → Py σ Unit}
    {request : Except PyError (Int × α)} {cells : α → List Cell}
    {respond : Int → α → Except PyError Bytes} (hw : callbacks.on_write = some on_write)
    (hrequest : ∀ e, request = .error e → Answerable e)
    (hrespond : ∀ a v, Legal fc (respond a v)) :
    EndsLike callbacks fc
      (do let (address, value) ← request
          on_write area address (cells value)
          respond address value)
      (request.toOption.map fun (address, value) => .write area address (cells value)) := by
  cases request with
  | error e => exact .no_call fun s => ⟨.error e, rfl, .exception (hrequest e rfl)⟩
  | ok p =>
    obtain ⟨address, value⟩ := p
    have hcall : ∀ s, (Call.write area address (cells value)).run callbacks s =
        on_write area address (cells value) s := by
      intro s
      simp only [Call.run, hw]
    refine .call ?_ ?_
    · intro s e s' hrun
      rw [hcall] at hrun
      rw [Py.bind_ok (Py.lift_run _ s)]
      exact Py.bind_error hrun
    · intro s s' hrun
      rw [hcall] at hrun
      rw [Py.bind_ok (Py.lift_run _ s)]
      simp only
      rw [Py.bind_ok hrun]
      exact ⟨respond address value, rfl, hrespond address value⟩

/-- `_handle` ends like the callback that the request reaches. -/
theorem endsLike_handle {uid : Int} {rest : Bytes}
    (haccept : ¬ (callbacks.unit_id ≠ none ∧ some uid ≠ callbacks.unit_id)) :
    EndsLike callbacks fc (handle_callbacks callbacks fc (fc :: rest))
      (reached callbacks uid (fc :: rest)) := by
  unfold handle_callbacks reached
  simp only
  rw [if_neg haccept]
  by_cases h1 : fc = FC_READ_COILS
  · rw [if_pos h1, if_pos h1, h1]
    exact endsLike_read (fun _ => answerable_decode_request_read) (fun _ _ => rfl) (legal_bits _)
  rw [if_neg h1, if_neg h1]
  by_cases h2 : fc = FC_READ_DISCRETE_INPUTS
  · rw [if_pos h2, if_pos h2, h2]
    exact endsLike_read (fun _ => answerable_decode_request_read) (fun _ _ => rfl) (legal_bits _)
  rw [if_neg h2, if_neg h2]
  by_cases h3 : fc = FC_READ_HOLDING_REGISTERS
  · rw [if_pos h3, if_pos h3, h3]
    exact endsLike_read (fun _ => answerable_decode_request_read) (fun _ _ => rfl)
      (legal_registers _)
  rw [if_neg h3, if_neg h3]
  by_cases h4 : fc = FC_READ_INPUT_REGISTERS
  · rw [if_pos h4, if_pos h4, h4]
    exact endsLike_read (fun _ => answerable_decode_request_read) (fun _ _ => rfl)
      (legal_registers _)
  rw [if_neg h4, if_neg h4]
  have hillegal : ∀ s : σ, ∃ r, (liftM (encode_exception_response fc.toNat
      ExceptionClass.IllegalFunction.code) : Py σ Bytes) s = (r, s) ∧ Legal fc r := fun s =>
    ⟨_, rfl, legal_exception fc (by decide) (by decide)⟩
  by_cases hmem : fc ∈ [FC_WRITE_SINGLE_COIL, FC_WRITE_SINGLE_REGISTER,
      FC_WRITE_MULTIPLE_COILS, FC_WRITE_MULTIPLE_REGISTERS]
  · rw [if_pos hmem]
    cases hwrite : callbacks.on_write with
    | none => exact .no_call hillegal
    | some on_write =>
      rw [if_neg (by simp)]
      simp only [List.mem_cons, List.not_mem_nil, or_false] at hmem
      rcases hmem with rfl | rfl | rfl | rfl
      · exact @endsLike_write σ callbacks _ Bool .COIL on_write (decode_request_write_single_coil _)
          (fun v => [.bool v]) encode_response_write_single_coil hwrite
          (fun _ => answerable_decode_request_write_single_coil) fun _ _ => legal_pack_BHH _ _ _
      · exact @endsLike_write σ callbacks _ Int .HOLDING_REGISTER on_write (decode_request_write_single_register _)
          (fun v => [.int v]) encode_response_write_single_register hwrite
          (fun _ => answerable_decode_request_write_single_register) fun _ _ => legal_pack_BHH _ _ _
      · exact @endsLike_write σ callbacks _ (List Bool) .COIL on_write (decode_request_write_multiple_coils _)
          (fun bits => bits.map .bool) (fun start bits => encode_response_write_multiple_coils start bits.length) hwrite
          (fun _ => answerable_decode_request_write_multiple_coils) fun _ _ => legal_pack_BHH _ _ _
      · exact @endsLike_write σ callbacks _ (List Int) .HOLDING_REGISTER on_write (decode_request_write_multiple_registers _)
          (fun regs => regs.map .int) (fun start regs => encode_response_write_multiple_registers start regs.length) hwrite
          (fun _ => answerable_decode_request_write_multiple_registers) fun _ _ => legal_pack_BHH _ _ _
  · rw [if_neg hmem]
    simp only [List.mem_cons, List.not_mem_nil, or_false, not_or] at hmem
    obtain ⟨h5, h6, h15, h16⟩ := hmem
    rw [if_neg h5, if_neg h6, if_neg h15, if_neg h16, ite_self]
    exact .no_call hillegal

/-- The state that the callback of a request leaves. -/
def after (callbacks : Callbacks σ) (uid : Int) (pdu : Bytes) (s : σ) : σ :=
  match reached callbacks uid pdu with
  | none => s
  | some c => (c.run callbacks s).2

/-- The callback that the request reaches raises nothing, or something that can be answered. -/
def EndsWell (callbacks : Callbacks σ) (uid : Int) (pdu : Bytes) (s : σ) : Prop :=
  ∀ c, reached callbacks uid pdu = some c → ∀ e, (c.run callbacks s).1 = .error e → Answerable e

/-- What `except_dispatch` makes of a legal end is a response. -/
theorem except_with_legal {step : Py σ Bytes} {s s' : σ} {r : Except PyError Bytes}
    (hstep : step s = (r, s')) (hlegal : Legal fc r) :
    ∃ resp, Py.except_with step (except_dispatch fc) s = (.ok resp, s') ∧ IsResponse fc resp ∧
      resp.length ≤ 257 := by
  unfold Py.except_with
  rw [hstep]
  cases hlegal with
  | response h hlen => exact ⟨_, rfl, h, hlen⟩
  | exception h =>
    obtain ⟨resp, hresp, hall⟩ := except_dispatch_answerable h
    exact ⟨resp, by simp only [hresp], hall⟩

/-- A request is answered when its callback ends well, and otherwise `_dispatch` raises. -/
theorem dispatch_callbacks_spec (callbacks : Callbacks σ) (uid : Int) (fc : UInt8) (rest : Bytes)
    (s : σ) :
    (EndsWell callbacks uid (fc :: rest) s → ∃ resp,
      dispatch_callbacks callbacks uid (fc :: rest) s =
        (.ok resp, after callbacks uid (fc :: rest) s) ∧ IsResponse fc resp ∧
        resp.length ≤ 257) ∧
    (¬ EndsWell callbacks uid (fc :: rest) s →
      ∃ e s', dispatch_callbacks callbacks uid (fc :: rest) s = (.error e, s')) := by
  unfold EndsWell after dispatch_callbacks
  simp only
  by_cases hreject : callbacks.unit_id ≠ none ∧ some uid ≠ callbacks.unit_id
  · have hnone : reached callbacks uid (fc :: rest) = none := by
      unfold reached
      simp only
      exact if_pos hreject
    rw [if_pos hreject, hnone]
    have hcode : encode_exception_response fc.toNat GATEWAY_TARGET_FAILED_TO_RESPOND =
        .ok (exception_pdu fc 0x0B) := encode_exception_response_ok fc (by decide) (by decide)
    refine ⟨fun _ => ⟨_, by rw [hcode]; rfl, Or.inr ⟨_, rfl⟩, by simp⟩, ?_⟩
    intro hnot
    exact absurd (fun c hc => by cases hc) hnot
  · rw [if_neg hreject]
    have hends := @endsLike_handle σ callbacks fc uid rest hreject
    cases hcall : reached callbacks uid (fc :: rest) with
    | none =>
      rw [hcall] at hends
      cases hends with
      | no_call h =>
        obtain ⟨r, hr, hlegal⟩ := h s
        refine ⟨fun _ => except_with_legal hr hlegal, ?_⟩
        intro hnot
        exact absurd (fun c hc => by cases hc) hnot
    | some c =>
      rw [hcall] at hends
      cases hends with
      | call herror hok =>
        simp only [Option.some.injEq, forall_eq']
        rcases hrun : c.run callbacks s with ⟨e | u, s'⟩
        · have hstep := herror s e s' hrun
          constructor
          · intro hwell
            exact except_with_legal hstep (.exception (hwell e rfl))
          · intro hnot
            have hbad : ¬ Answerable e := fun h => hnot fun e' he' => by
              cases he'
              exact h
            obtain ⟨e', he'⟩ := @except_dispatch_unanswerable fc e hbad
            refine ⟨e', s', ?_⟩
            unfold Py.except_with
            rw [hstep]
            simp only [he']
        · obtain ⟨r, hr, hlegal⟩ := hok s s' hrun
          refine ⟨fun _ => except_with_legal hr hlegal, ?_⟩
          intro hnot
          exact absurd (fun e he => by cases he) hnot

end

end pymod.server
