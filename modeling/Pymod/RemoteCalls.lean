-- A batch that is sent to a server comes to the calls of the server's callbacks: the planner over
-- the wire is the planner over the callbacks themselves.
import Pymod.BatchMemory
import Pymod.Lib.Fallible
import Pymod.PduRoundTrips
import Pymod.ServerRequests
import Pymod.WriteEchoes

namespace pymod.planner

open errors codec pdu types data_model server BitStrings Ranges Slices

/-! ## What comes back of an exception -/

/-- The exception that a client makes of an exception code. -/
def refusal (code : UInt8) : ModbusError :=
  .ModbusExceptionResponse (exception_class code) s!"slave returned exception {hex 2 code.toNat}"
    code.toNat

/-- The code that the server sends for an exception of a callback. -/
def refusal_code : PyError → UInt8
  | .modbus (.ModbusExceptionResponse _ _ code) => UInt8.ofNat code.toNat
  | _ => 0x04

theorem raise_exception_pdu {fc : UInt8} (hfc : fc ≠ fc ||| EXCEPTION_BIT) (code : UInt8) :
    raise_exception (exception_pdu fc code) fc = .error (.modbus (refusal code)) := by
  change raise_exception [fc ||| EXCEPTION_BIT, code] fc = _
  unfold raise_exception detect_exception
  simp only [if_neg hfc.symm, if_true]
  rfl

/-- The client reads the code of an exception response to a read. -/
theorem read_cells_refused (area : Area) (count : Int) (code : UInt8) :
    read_cells area count (exception_pdu (read_code area) code) =
      .error (.modbus (refusal code)) := by
  have hbits : ∀ fc : UInt8, fc ≠ fc ||| EXCEPTION_BIT →
      (decode_bit_response (exception_pdu fc code) count fc).map (fun values =>
        values.map Cell.bool) = .error (.modbus (refusal code)) := by
    intro fc hfc
    unfold decode_bit_response
    rw [raise_exception_pdu hfc]
    rfl
  have hregs : ∀ fc : UInt8, fc ≠ fc ||| EXCEPTION_BIT →
      (decode_register_response (exception_pdu fc code) count fc).map (fun values =>
        values.map Cell.int) = .error (.modbus (refusal code)) := by
    intro fc hfc
    unfold decode_register_response
    rw [raise_exception_pdu hfc]
    rfl
  cases area with
  | COIL => exact hbits FC_READ_COILS (by decide)
  | DISCRETE_INPUT => exact hbits FC_READ_DISCRETE_INPUTS (by decide)
  | HOLDING_REGISTER => exact hregs FC_READ_HOLDING_REGISTERS (by decide)
  | INPUT_REGISTER => exact hregs FC_READ_INPUT_REGISTERS (by decide)

/-- The client reads the code of an exception response to a write. -/
theorem payload_refused (payload : Payload) (code : UInt8) :
    payload_response payload (exception_pdu (payload_code payload) code) =
      .error (.modbus (refusal code)) := by
  have hecho : ∀ fc : UInt8, fc ≠ fc ||| EXCEPTION_BIT →
      decode_echo (exception_pdu fc code) fc = .error (.modbus (refusal code)) := by
    intro fc hfc
    unfold decode_echo
    rw [raise_exception_pdu hfc]
    rfl
  have hcoil : decode_write_single_coil (exception_pdu FC_WRITE_SINGLE_COIL code) =
      .error (.modbus (refusal code)) := by
    unfold decode_write_single_coil
    rw [hecho FC_WRITE_SINGLE_COIL (by decide)]
    rfl
  match payload with
  | .registers [_] =>
    exact congrArg (· >>= fun _ => pure ()) (hecho FC_WRITE_SINGLE_REGISTER (by decide))
  | .registers [] =>
    exact congrArg (· >>= fun _ => pure ()) (hecho FC_WRITE_MULTIPLE_REGISTERS (by decide))
  | .registers (_ :: _ :: _) =>
    exact congrArg (· >>= fun _ => pure ()) (hecho FC_WRITE_MULTIPLE_REGISTERS (by decide))
  | .coils [_] => exact congrArg (· >>= fun _ => pure ()) hcoil
  | .coils [] =>
    exact congrArg (· >>= fun _ => pure ()) (hecho FC_WRITE_MULTIPLE_COILS (by decide))
  | .coils (_ :: _ :: _) =>
    exact congrArg (· >>= fun _ => pure ()) (hecho FC_WRITE_MULTIPLE_COILS (by decide))

theorem payload_request_head (start : Int) (payload : Payload) :
    ∃ rest, payload_request start payload = payload_code payload :: rest := by
  match payload with
  | .registers [_] => exact ⟨_, rfl⟩
  | .registers [] => exact ⟨_, rfl⟩
  | .registers (_ :: _ :: _) => exact ⟨_, rfl⟩
  | .coils [_] => exact ⟨_, rfl⟩
  | .coils [] => exact ⟨_, rfl⟩
  | .coils (_ :: _ :: _) => exact ⟨_, rfl⟩

theorem payload_code_mem (payload : Payload) : payload_code payload ∈ write_codes := by
  unfold payload_code
  split <;> decide

theorem except_dispatch_code (fc : UInt8) {e : PyError} (h : Answerable e) :
    except_dispatch fc e = .ok (exception_pdu fc (refusal_code e)) := by
  have hfailure : encode_exception_response fc.toNat ExceptionClass.SlaveDeviceFailure.code =
      .ok (exception_pdu fc 0x04) := encode_exception_response_ok fc (by decide) (by decide)
  cases e with
  | modbus m =>
    cases m with
    | ModbusExceptionResponse cls m code => exact encode_exception_response_ok fc h.1 h.2
    | _ => exact hfailure
  | CancelledError => exact absurd h id
  | _ => exact hfailure

/-! ## What comes back of values -/

/-- `on_read` returned a list: it has as many elements as `len` says, and nothing is raised
behind them. -/
structure Listed (values : Values) : Prop where
  len : values.len = .ok values.elements.length
  ends : values.stop = none

/-- The values as the client has them. -/
def cells_of (area : Area) (values : Values) (count : Int) : Except PyError (List Cell) :=
  match area with
  | .COIL => (values_to_bool_list values count).map fun bits => bits.map .bool
  | .DISCRETE_INPUT => (values_to_bool_list values count).map fun bits => bits.map .bool
  | .HOLDING_REGISTER => (values_to_int_list values count).map fun regs => regs.map .int
  | .INPUT_REGISTER => (values_to_int_list values count).map fun regs => regs.map .int

/-- A list that is converted has as many elements as were asked for. -/
theorem converted_spec {α : Type} {f : Element → Except PyError α} {values : Values} {count : Int}
    {out : List α} (hlist : Listed values)
    (h : (do check_len values count
             let out ← values.elements.mapM f
             values.stopped
             pure out) = .ok out) :
    count = out.length ∧ List.Forall₂ (fun v a => f v = .ok a) values.elements out := by
  obtain ⟨u, hlen, h⟩ := Fallible.bind_eq_ok.mp h
  obtain ⟨out', hmap, h⟩ := Fallible.bind_eq_ok.mp h
  obtain ⟨u', -, h⟩ := Fallible.bind_eq_ok.mp h
  obtain rfl := Fallible.pure_eq_ok.mp h
  have hall := forall₂_of_mapM_ok hmap
  unfold check_len at hlen
  rw [hlist.len, Fallible.ok_bind] at hlen
  by_cases hcount : (values.elements.length : Int) ≠ count
  · rw [if_pos hcount] at hlen
    cases hlen
  · refine ⟨?_, hall⟩
    rw [← hall.length_eq]
    omega

theorem isRegister_of_register_of {v : Element} {r : Int} (h : register_of v = .ok r) :
    IsRegister r := by
  obtain ⟨iv, -, h⟩ := Fallible.bind_eq_ok.mp h
  by_cases hreg : IsRegister iv
  · rw [if_neg (not_not.mpr hreg)] at h
    cases h
    exact hreg
  · rw [if_pos hreg] at h
    cases h

/-- The client reads in the response what the server converted. -/
theorem answer_read_cells {area : Area} {values : Values} {count : Int} {cells : List Cell}
    (hlist : Listed values) (hmax : count ≤ READ_LIMITS area)
    (h : cells_of area values count = .ok cells) :
    ∃ resp, answer_read area values count = .ok resp ∧
      read_cells area count resp = .ok cells := by
  have hbits : ∀ fc : UInt8, count ≤ 2000 →
      (values_to_bool_list values count).map (fun bits => bits.map Cell.bool) = .ok cells →
      ∃ resp, (values_to_bool_list values count >>= encode_response_bits fc) = .ok resp ∧
        (decode_bit_response resp count fc).map (fun bits => bits.map Cell.bool) = .ok cells := by
    intro fc hle hcells
    cases hconvert : values_to_bool_list values count with
    | error e =>
      rw [hconvert] at hcells
      cases hcells
    | ok bits =>
      rw [hconvert] at hcells
      cases hcells
      obtain ⟨rfl, -⟩ := converted_spec hlist hconvert
      have hlen : (bits.length + 7) / 8 < 256 := by omega
      rw [Fallible.ok_bind]
      exact ⟨_, encode_response_bits_ok hlen,
        congrArg (Except.map _) (decode_bit_response_of_pack fc hlen)⟩
  have hregs : ∀ fc : UInt8, count ≤ 125 →
      (values_to_int_list values count).map (fun regs => regs.map Cell.int) = .ok cells →
      ∃ resp, (values_to_int_list values count >>= encode_response_registers fc) = .ok resp ∧
        (decode_register_response resp count fc).map (fun regs => regs.map Cell.int) =
          .ok cells := by
    intro fc hle hcells
    cases hconvert : values_to_int_list values count with
    | error e =>
      rw [hconvert] at hcells
      cases hcells
    | ok regs =>
      rw [hconvert] at hcells
      cases hcells
      obtain ⟨rfl, hall⟩ := converted_spec hlist hconvert
      have hwords : ∀ r ∈ regs, IsRegister r :=
        forall₂_right hall fun _ _ => isRegister_of_register_of
      have hlen : 2 * regs.length < 256 := by omega
      rw [Fallible.ok_bind]
      exact ⟨_, encode_response_registers_ok hlen hwords,
        congrArg (Except.map _) (decode_register_response_of_data fc hlen hwords)⟩
  cases area with
  | COIL => exact hbits FC_READ_COILS hmax h
  | DISCRETE_INPUT => exact hbits FC_READ_DISCRETE_INPUTS hmax h
  | HOLDING_REGISTER => exact hregs FC_READ_HOLDING_REGISTERS hmax h
  | INPUT_REGISTER => exact hregs FC_READ_INPUT_REGISTERS hmax h

/-- What cannot be converted is not answered. -/
theorem answer_read_error {area : Area} {values : Values} {count : Int} {e : PyError}
    (h : cells_of area values count = .error e) : answer_read area values count = .error e := by
  have hbits : ∀ fc : UInt8,
      (values_to_bool_list values count).map (fun bits => bits.map Cell.bool) = .error e →
      (values_to_bool_list values count >>= encode_response_bits fc) = .error e := by
    intro fc hcells
    rw [except_map_error hcells]
    rfl
  have hregs : ∀ fc : UInt8,
      (values_to_int_list values count).map (fun regs => regs.map Cell.int) = .error e →
      (values_to_int_list values count >>= encode_response_registers fc) = .error e := by
    intro fc hcells
    rw [except_map_error hcells]
    rfl
  cases area with
  | COIL => exact hbits FC_READ_COILS h
  | DISCRETE_INPUT => exact hbits FC_READ_DISCRETE_INPUTS h
  | HOLDING_REGISTER => exact hregs FC_READ_HOLDING_REGISTERS h
  | INPUT_REGISTER => exact hregs FC_READ_INPUT_REGISTERS h

section

variable {σ : Type}

/-! ## One chunk -/

/-- A chunk that is read by calling `on_read`. -/
def call_read_chunk (callbacks : Callbacks σ) (uid : Int) (c : ReadChunk) :
    Py σ ReadChunkResult := fun s =>
  if callbacks.unit_id = none ∨ callbacks.unit_id = some uid then
    let call : Py σ (List Cell) := do
      let values ← callbacks.on_read c.area c.start c.count
      cells_of c.area values c.count
    match call s with
    | (.ok cells, s') => (.ok { chunk := c, values := some cells, error := none }, s')
    | (.error e, s') =>
      (.ok { chunk := c, values := none, error := some (refusal (refusal_code e)) }, s')
  else
    (.ok { chunk := c, values := none, error := some (refusal 0x0B) }, s)

/-- A chunk that is written by calling `on_write`. -/
def call_write_chunk (callbacks : Callbacks σ) (uid : Int) (c : WriteChunk) :
    Py σ WriteChunkResult := fun s =>
  if callbacks.unit_id = none ∨ callbacks.unit_id = some uid then
    match callbacks.on_write with
    | none => (.ok { chunk := c, error := some (refusal 0x01) }, s)
    | some on_write =>
      match on_write c.area c.start c.payload.cells s with
      | (.ok (), s') => (.ok { chunk := c, error := none }, s')
      | (.error e, s') => (.ok { chunk := c, error := some (refusal (refusal_code e)) }, s')
  else
    (.ok { chunk := c, error := some (refusal 0x0B) }, s)

/-- What the server asks of its callbacks so that a client gets an answer to everything: lists,
and exceptions that can be answered. -/
structure Answering (callbacks : Callbacks σ) : Prop where
  lists : ∀ area start count s values, (callbacks.on_read area start count s).1 = .ok values →
    Listed values
  read : ∀ area start count s e,
    ((Call.read area start count).run callbacks s).1 = .error e → Answerable e
  write : ∀ area start values s e,
    ((Call.write area start values).run callbacks s).1 = .error e → Answerable e

variable {callbacks : Callbacks σ} {uid : Int}

theorem except_with_ok {call : Py σ Bytes} {handler : PyError → Except PyError Bytes} {s s' : σ}
    {resp : Bytes} (hcall : call s = (.ok resp, s')) :
    Py.except_with call handler s = (.ok resp, s') := by
  unfold Py.except_with
  rw [hcall]

/-- Of an exception of a callback, the code comes back. -/
theorem except_dispatch_raised {call : Py σ Bytes} {fc : UInt8} {s s' : σ} {e : PyError}
    (hcall : call s = (.error e, s')) (hanswer : Answerable e) :
    Py.except_with call (except_dispatch fc) s =
      (.ok (exception_pdu fc (refusal_code e)), s') := by
  unfold Py.except_with
  rw [hcall]
  simp only
  rw [except_dispatch_code fc hanswer]

/-- The client's end of a chunk whose request was answered. -/
theorem execute_read_chunk_answered {c : ReadChunk} {execute : Bytes → Py σ Bytes} {resp : Bytes}
    {s s' : σ} (hstart : IsRegister c.start) (h0 : 1 ≤ c.count) (h1 : c.count ≤ READ_LIMITS c.area)
    (hexec : execute (chunk_request c) s = (.ok resp, s')) :
    execute_read_chunk c execute s =
      (Py.handled (fun values => { chunk := c, values := some values, error := none })
        (fun e => { chunk := c, values := none, error := some e })
        (read_cells c.area c.count resp), s') := by
  have hread : read_chunk c execute s = (read_cells c.area c.count resp, s') := by
    rw [read_chunk_eq, read_request_ok c.area hstart h0 h1]
    exact exchange_run hexec
  exact execute_read_chunk_run hread

theorem use_values_eq (area : Area) (values : Values) (count : Int) :
    use_values area values count = (cells_of area values count).map fun _ => () := by
  have hmap : ∀ {α β : Type} (x : Except PyError α) (f : α → β),
      x.map (fun _ => ()) = (x.map f).map fun _ => () := by
    intro α β x f
    cases x <;> rfl
  cases area <;> exact hmap _ _

/-- A request for a chunk calls `on_read`. -/
theorem dispatch_read (hunit : Accepts callbacks.unit_id uid) {area : Area} {start count : Int}
    (hstart : IsRegister start) (h0 : 1 ≤ count) (h1 : count ≤ READ_LIMITS area) :
    dispatch_callbacks callbacks uid (words (read_code area) start count) =
      Py.except_with
        (do let values ← callbacks.on_read area start count
            answer_read area values count)
        (except_dispatch (read_code area)) := by
  have hread : read_code area ∈ read_codes := by cases area <;> decide
  have hdispatch := dispatch_carried hunit (Or.inl hread) (carries_read area hstart h0 h1)
  simp only [perform, Int.toNat_of_nonneg (by omega : 0 ≤ count)] at hdispatch
  exact hdispatch

/-- A chunk that is read over the server is read by calling `on_read`. -/
theorem execute_read_chunk_calls (hanswering : Answering callbacks) {c : ReadChunk}
    (hstart : IsRegister c.start) (h0 : 1 ≤ c.count) (h1 : c.count ≤ READ_LIMITS c.area) (s : σ) :
    execute_read_chunk c (dispatch_callbacks callbacks uid) s =
      call_read_chunk callbacks uid c s := by
  obtain ⟨area, start, count⟩ := c
  simp only at hstart h0 h1
  have hrefused : ∀ code s',
      dispatch_callbacks callbacks uid (chunk_request ⟨area, start, count⟩) s =
        (.ok (exception_pdu (read_code area) code), s') →
      execute_read_chunk ⟨area, start, count⟩ (dispatch_callbacks callbacks uid) s =
        (.ok { chunk := ⟨area, start, count⟩, values := none, error := some (refusal code) }, s') := by
    intro code s' hdispatch
    rw [execute_read_chunk_answered hstart h0 h1 hdispatch, read_cells_refused]
    rfl
  unfold call_read_chunk
  by_cases hunit : callbacks.unit_id = none ∨ callbacks.unit_id = some uid
  · rw [if_pos hunit]
    have hdispatch : dispatch_callbacks callbacks uid (chunk_request ⟨area, start, count⟩) =
        Py.except_with
          (do let values ← callbacks.on_read area start count
              answer_read area values count)
          (except_dispatch (read_code area)) := dispatch_read hunit hstart h0 h1
    have hraised := hanswering.read area start count s
    simp only [Call.run, bind] at hraised ⊢
    rcases hcall : callbacks.on_read area start count s with ⟨e | values, s'⟩
    · rw [hcall] at hraised
      refine hrefused _ s' ?_
      rw [hdispatch]
      exact except_dispatch_raised (Py.bind_error hcall) (hraised e rfl)
    · have hlist := hanswering.lists area start count s values (by rw [hcall])
      rw [hcall] at hraised
      simp only [Py.lift_run, use_values_eq] at hraised ⊢
      cases hcells : cells_of area values count with
      | error e =>
        rw [hcells] at hraised
        refine hrefused _ s' ?_
        rw [hdispatch]
        refine except_dispatch_raised ?_ (hraised e rfl)
        rw [Py.bind_ok hcall, answer_read_error hcells]
        rfl
      | ok cells =>
        obtain ⟨resp, hresp, hread⟩ := answer_read_cells hlist h1 hcells
        have hexec : dispatch_callbacks callbacks uid (chunk_request ⟨area, start, count⟩) s =
            (.ok resp, s') := by
          rw [hdispatch]
          refine except_with_ok ?_
          rw [Py.bind_ok hcall, hresp]
          rfl
        rw [execute_read_chunk_answered hstart h0 h1 hexec]
        simp only [hread]
        rfl
  · rw [if_neg hunit]
    exact hrefused 0x0B s (congrFun (dispatch_other_unit hunit) s)

/-- A request for a payload calls `on_write`, and is echoed. -/
theorem dispatch_write (hunit : Accepts callbacks.unit_id uid)
    {on_write : Area → Int → List Cell → Py σ Unit} (hwrite : callbacks.on_write = some on_write)
    {start : Int} {payload : Payload} (hstart : IsRegister start) (hlegal : payload.Legal) :
    ∃ echo, payload_response payload echo = .ok () ∧
      dispatch_callbacks callbacks uid (payload_request start payload) =
        Py.except_with
          (do on_write payload.area start payload.cells
              pure echo)
          (except_dispatch (payload_code payload)) := by
  obtain ⟨rest, hrest⟩ := payload_request_head start payload
  have hfc : Supported callbacks.on_write.isSome (payload_code payload) :=
    Or.inr ⟨by rw [hwrite]; rfl, payload_code_mem payload⟩
  cases payload with
  | registers values =>
    obtain ⟨h0, h1, hvalues⟩ := hlegal
    obtain ⟨rs, rfl⟩ := exists_register_words hvalues
    rw [register_words, List.length_map] at h0 h1
    obtain ⟨echo, hcarries, hecho⟩ := carries_registers rs hstart h0 h1
    rw [hrest] at hcarries
    have hdispatch := dispatch_carried hunit hfc hcarries
    simp only [perform, Call.run, hwrite] at hdispatch
    refine ⟨echo, hecho, ?_⟩
    rw [hrest, hdispatch]
    rfl
  | coils values =>
    obtain ⟨h0, h1⟩ := hlegal
    obtain ⟨echo, hcarries, hecho⟩ := carries_coils values hstart h0 h1
    rw [hrest] at hcarries
    have hdispatch := dispatch_carried hunit hfc hcarries
    simp only [perform, Call.run, hwrite] at hdispatch
    refine ⟨echo, hecho, ?_⟩
    rw [hrest, hdispatch]
    rfl

/-- A chunk that is written over the server is written by calling `on_write`. -/
theorem execute_write_chunk_calls (hanswering : Answering callbacks) (idx : Nat) {start : Int}
    {payload : Payload} (hstart : IsRegister start) (hlegal : payload.Legal) (s : σ) :
    execute_write_chunk (payload_chunk idx start payload) (dispatch_callbacks callbacks uid) s =
      call_write_chunk callbacks uid (payload_chunk idx start payload) s := by
  have hrun : ∀ resp s', dispatch_callbacks callbacks uid (payload_request start payload) s =
      (.ok resp, s') →
      execute_write_chunk (payload_chunk idx start payload) (dispatch_callbacks callbacks uid) s =
        (Py.handled (fun _ => { chunk := payload_chunk idx start payload, error := none })
          (fun e => { chunk := payload_chunk idx start payload, error := some e })
          (payload_response payload resp), s') := by
    intro resp s' hexec
    have hwrite : write_chunk (payload_chunk idx start payload)
        (dispatch_callbacks callbacks uid) s = (payload_response payload resp, s') := by
      rw [write_chunk_payload idx hlegal hstart]
      exact exchange_run hexec
    exact execute_write_chunk_run hwrite
  have hrefused : ∀ code s', dispatch_callbacks callbacks uid (payload_request start payload) s =
      (.ok (exception_pdu (payload_code payload) code), s') →
      execute_write_chunk (payload_chunk idx start payload) (dispatch_callbacks callbacks uid) s =
        (.ok { chunk := payload_chunk idx start payload, error := some (refusal code) }, s') := by
    intro code s' hdispatch
    rw [hrun _ s' hdispatch, payload_refused]
    rfl
  obtain ⟨rest, hrest⟩ := payload_request_head start payload
  unfold call_write_chunk
  by_cases hunit : callbacks.unit_id = none ∨ callbacks.unit_id = some uid
  · rw [if_pos hunit]
    cases hwrite : callbacks.on_write with
    | none =>
      have hfc : ¬ Supported callbacks.on_write.isSome (payload_code payload) := by
        rintro (hread | ⟨hsome, -⟩)
        · exact not_mem_read_codes (payload_code_mem payload) hread
        · rw [hwrite] at hsome
          cases hsome
      refine hrefused 0x01 s ?_
      rw [hrest]
      exact congrFun (dispatch_unsupported hunit hfc) s
    | some on_write =>
      obtain ⟨echo, hecho, hdispatch⟩ := dispatch_write hunit hwrite hstart hlegal
      have hraised := hanswering.write payload.area start payload.cells s
      simp only [Call.run, hwrite] at hraised
      have harea : (payload_chunk idx start payload).area = payload.area := by cases payload <;> rfl
      simp only [payload_chunk_payload, payload_chunk_start, harea]
      rcases hcall : on_write payload.area start payload.cells s with ⟨e | u, s'⟩
      · rw [hcall] at hraised
        refine hrefused _ s' ?_
        rw [hdispatch]
        exact except_dispatch_raised (Py.bind_error hcall) (hraised e rfl)
      · have hexec : dispatch_callbacks callbacks uid (payload_request start payload) s =
            (.ok echo, s') := by
          rw [hdispatch]
          refine except_with_ok ?_
          rw [Py.bind_ok hcall]
          rfl
        rw [hrun echo s' hexec, hecho]
        rfl
  · rw [if_neg hunit]
    refine hrefused 0x0B s ?_
    rw [hrest]
    exact congrFun (dispatch_other_unit hunit) s

/-! ## A batch -/

variable {F : Type} [FloatOps F]

/-- `plan_and_execute_reads`, with each chunk read by calling `on_read`. -/
def reads_by_calls (callbacks : Callbacks σ) (uid : Int) (items : List ReadItem) :
    Py σ (List (ReadResult F)) := do
  (items.forM validate_read_item : Except PyError Unit)
  let chunk_results ← Py.gather ((plan_read_chunks items).map (call_read_chunk callbacks uid))
  (items.mapM fun item => decode_read_item item chunk_results :
    Except PyError (List (ReadResult F)))

/-- `plan_and_execute_writes`, with each chunk written by calling `on_write`. -/
def writes_by_calls (callbacks : Callbacks σ) (uid : Int) (items : List (WriteItem F)) :
    Py σ (List (WriteResult F)) := do
  let chunks ← plan_writes items
  let chunk_results ← Py.gather (chunks.map (call_write_chunk callbacks uid))
  pure (chunk_results.foldl apply_error
    (items.map fun item => { item, ok := true, error := none }))

theorem forM_valid {items : List ReadItem} (h : items.forM validate_read_item = .ok ()) :
    ∀ item ∈ items, validate_read_item item = .ok () := by
  induction items with
  | nil => exact fun item hitem => absurd hitem List.not_mem_nil
  | cons first others ih =>
    obtain ⟨u, hfirst, hrest⟩ := Fallible.bind_eq_ok.mp h
    intro item hitem
    rcases List.mem_cons.mp hitem with rfl | hitem
    · exact hfirst
    · exact ih hrest item hitem

theorem reads_over_callbacks (hanswering : Answering callbacks) (uid : Int)
    (items : List ReadItem) (hrange : ∀ item ∈ items, InAddressSpace (item_range item)) :
    plan_and_execute_reads (F := F) items (dispatch_callbacks callbacks uid) =
      reads_by_calls callbacks uid items := by
  cases items with
  | nil => rfl
  | cons first others =>
    unfold plan_and_execute_reads reads_by_calls
    rw [if_neg (by simp)]
    cases hvalid : (first :: others).forM validate_read_item with
    | error e => rfl
    | ok u =>
      have hpos : ∀ item ∈ first :: others, 0 < item.count := fun item hitem =>
        validate_read_item_count (forM_valid hvalid item hitem)
      have hchunks : (plan_read_chunks (first :: others)).map (fun c =>
          execute_read_chunk c (dispatch_callbacks callbacks uid)) =
          (plan_read_chunks (first :: others)).map (call_read_chunk callbacks uid) := by
        apply List.map_congr_left
        intro c hc
        obtain ⟨_, h0, h1, hrequested⟩ := plan_read_chunks.spec hpos hc
        obtain ⟨item, hitem, _, hlow, hhigh⟩ := hrequested c.start (Int.le_refl _) (by omega)
        obtain ⟨hzero, htop⟩ := hrange item hitem
        simp only [item_range] at hzero htop
        funext s
        exact execute_read_chunk_calls hanswering ⟨by omega, by omega⟩ h0 h1 s
      simp only [hchunks]

theorem Payload.Legal.one_le {payload : Payload} (h : payload.Legal) : 1 ≤ payload.length := by
  cases payload <;> exact h.1

theorem writes_over_callbacks (hanswering : Answering callbacks) (uid : Int)
    (items : List (WriteItem F)) (hrange : ∀ item ∈ items, InAddressSpace (write_range item)) :
    plan_and_execute_writes items (dispatch_callbacks callbacks uid) =
      writes_by_calls callbacks uid items := by
  cases items with
  | nil => rfl
  | cons first others =>
    unfold plan_and_execute_writes writes_by_calls
    rw [if_neg (by simp)]
    cases hplan : plan_writes (first :: others) with
    | error e => rfl
    | ok chunks =>
      have hchunks : chunks.map (fun c =>
          execute_write_chunk c (dispatch_callbacks callbacks uid)) =
          chunks.map (call_write_chunk callbacks uid) := by
        apply List.map_congr_left
        intro c hc
        obtain ⟨-, rfl⟩ := plan_writes_eq hplan
        obtain ⟨q, hq, hc⟩ := List.mem_flatMap.mp hc
        obtain ⟨p, hp, rfl⟩ := List.mem_map.mp hc
        obtain ⟨hzero, htop⟩ := hrange q.1 (List.fst_mem_of_mem_zipIdx hq)
        obtain ⟨hlow, hhigh⟩ := (item_pieces_inside q.1).1 p hp
        have hlegal := item_pieces_legal q.1 p hp
        have hlen := hlegal.one_le
        funext s
        exact execute_write_chunk_calls hanswering q.2 ⟨by omega, by omega⟩ hlegal s
      funext s
      rw [Py.bind_ok (Py.lift_run _ s), Py.bind_ok (Py.lift_run _ s), hchunks]

/-- A batch of items in the address space over a server comes to calls of the server's callbacks:
the same calls in the same order, each chunk with what its call returned or with the code of what it
raised, and the same results, whatever the callbacks do. -/
theorem a_batch_comes_to_calls_of_the_callbacks (hanswering : Answering callbacks) (uid : Int) :
    (∀ items : List ReadItem, (∀ item ∈ items, InAddressSpace (item_range item)) →
      plan_and_execute_reads (F := F) items (dispatch_callbacks callbacks uid) =
        reads_by_calls callbacks uid items) ∧
    ∀ items : List (WriteItem F), (∀ item ∈ items, InAddressSpace (write_range item)) →
      plan_and_execute_writes items (dispatch_callbacks callbacks uid) =
        writes_by_calls callbacks uid items :=
  ⟨reads_over_callbacks hanswering uid, writes_over_callbacks hanswering uid⟩

/-! ## Callbacks that return lists of cells -/

theorem listed_values_of (cells : List Cell) : Listed (values_of cells) :=
  ⟨by simp [values_of], rfl⟩

theorem answerable_of_cells {area : Area} {cells : List Cell} {count : Int} {e : PyError}
    (h : cells_of area (values_of cells) count = .error e) : Answerable e := by
  have hfailure : ∀ m, Answerable (ExceptionClass.SlaveDeviceFailure.new m) := fun _ =>
    ⟨by decide, by decide⟩
  have hbits : values_to_bool_list (values_of cells) count = .error e → Answerable e := by
    intro h
    rw [values_to_bool_list_of, to_bool_list] at h
    split at h
    · cases h
      exact hfailure _
    · cases h
  have hregs : values_to_int_list (values_of cells) count = .error e → Answerable e := by
    intro h
    rw [values_to_int_list_of, to_int_list] at h
    split at h
    · cases h
      exact hfailure _
    · obtain ⟨v, -, hv⟩ := error_of_mapM h
      simp only at hv
      split at hv
      · cases hv
        exact hfailure _
      · cases hv
  cases area with
  | COIL => exact hbits (except_map_error h)
  | DISCRETE_INPUT => exact hbits (except_map_error h)
  | HOLDING_REGISTER => exact hregs (except_map_error h)
  | INPUT_REGISTER => exact hregs (except_map_error h)

/-- A server whose callbacks keep to their types answers when their own exceptions can be. -/
theorem answering_callbacks {server : Server σ}
    (hread : ∀ area start count s e, (server.on_read area start count s).1 = .error e →
      Answerable e)
    (hwrite : ∀ on_write, server.on_write = some on_write → ∀ area start values s e,
      (on_write area start values s).1 = .error e → Answerable e) :
    Answering server.callbacks where
  lists := by
    intro area start count s values h
    simp only [Server.callbacks, bind] at h
    rcases hcall : server.on_read area start count s with ⟨e | cells, s'⟩
    · rw [hcall] at h
      cases h
    · rw [hcall] at h
      cases h
      exact listed_values_of cells
  read := by
    intro area start count s e h
    simp only [Call.run, Server.callbacks, bind] at h
    rcases hcall : server.on_read area start count s with ⟨e' | cells, s'⟩
    · rw [hcall] at h
      cases h
      exact hread area start count s e (by rw [hcall])
    · rw [hcall] at h
      simp only [Py.pure_run, Py.lift_run, use_values_eq] at h
      exact answerable_of_cells (except_map_error h)
  write := by
    intro area start values s e h
    simp only [Call.run, Server.callbacks] at h
    cases hw : server.on_write with
    | none =>
      rw [hw] at h
      cases h
    | some on_write =>
      rw [hw] at h
      exact hwrite on_write hw area start values s e h

end

/-- Its holding registers all show a setpoint, and it knows no other area. -/
def setpoint_server : Server Int where
  on_read := fun area _ count setpoint =>
    if area = .HOLDING_REGISTER then
      (.ok (List.replicate count.toNat (.int setpoint)), setpoint)
    else
      (.error (.Exception "KeyError" area.value), setpoint)
  on_write := none
  unit_id := none

theorem answering_setpoint_server : Answering setpoint_server.callbacks := by
  apply answering_callbacks
  · intro area start count s e h
    simp only [setpoint_server] at h
    split at h
    · cases h
    · cases h
      trivial
  · intro on_write h
    cases h

/-- Of a `KeyError` the client gets to know that the device failed. -/
theorem a_key_error_comes_back_as_a_failure :
    plan_and_execute_reads (F := Float) [.Holding { start := 4, count := 2 }, .Coil 3 1]
        (dispatch_callbacks setpoint_server.callbacks 1) 7 =
      (.ok [{ item := .Holding { start := 4, count := 2 }, values := [.int 7, .int 7], ok := true },
        { item := .Coil 3 1, values := [], ok := false, error := some (refusal 0x04) }], 7) := by
  have hrange : ∀ item ∈ [ReadItem.Holding { start := 4, count := 2 }, .Coil 3 1],
      InAddressSpace (item_range item) := by
    simp [InAddressSpace, item_range, ReadItem.start, ReadItem.count]
  rw [(a_batch_comes_to_calls_of_the_callbacks answering_setpoint_server 1).1 _ hrange]
  rfl

end pymod.planner
