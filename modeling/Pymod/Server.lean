-- The dispatch of one request on the server, `server.py`, and the in-memory
-- store of `pymod serve`, `_SimState` in `cli.py`.
import Pymod.Pdu
import Pymod.Types
import Mathlib.Logic.Function.Basic

namespace pymod.server

open errors codec pdu types

def GATEWAY_TARGET_FAILED_TO_RESPOND : Int := 0x0B

/-- The callbacks and the unit filter of a server. -/
structure Server (σ : Type) where
  on_read : Area → Int → Int → Py σ (List Cell)
  on_write : Option (Area → Int → List Cell → Py σ Unit)
  unit_id : Option Int

def to_bool_list (values : List Cell) (expected_count : Int) : Except PyError (List Bool) :=
  if (values.length : Int) ≠ expected_count then
    throw (ExceptionClass.SlaveDeviceFailure.new
      s!"on_read returned {values.length} values, expected {expected_count}")
  else
    pure (values.map Cell.as_bool)

def to_int_list (values : List Cell) (expected_count : Int) : Except PyError (List Int) :=
  if (values.length : Int) ≠ expected_count then
    throw (ExceptionClass.SlaveDeviceFailure.new
      s!"on_read returned {values.length} values, expected {expected_count}")
  else
    values.mapM fun v =>
      let iv := v.as_int
      if ¬ IsRegister iv then
        throw (ExceptionClass.SlaveDeviceFailure.new
          s!"on_read returned out-of-range register value {iv}")
      else
        pure iv

section

variable {σ : Type}

/-- One read branch of `_handle`. -/
def handle_read {α : Type} (server : Server σ) (area : Area)
    (request : Except PyError (Int × Int)) (convert : List Cell → Int → Except PyError α)
    (respond : α → Except PyError Bytes) : Py σ Bytes := do
  let (start, count) ← request
  let values ← server.on_read area start count
  let converted ← convert values count
  respond converted

/-- The write branches of `_handle`, once `on_write` is there. -/
def handle_write (on_write : Area → Int → List Cell → Py σ Unit) (fc : UInt8) (pdu : Bytes) :
    Py σ Bytes :=
  if fc = FC_WRITE_SINGLE_COIL then do
    let (coil_addr, coil_value) ← decode_request_write_single_coil pdu
    on_write .COIL coil_addr [.bool coil_value]
    encode_response_write_single_coil coil_addr coil_value
  else if fc = FC_WRITE_SINGLE_REGISTER then do
    let (reg_addr, reg_value) ← decode_request_write_single_register pdu
    on_write .HOLDING_REGISTER reg_addr [.int reg_value]
    encode_response_write_single_register reg_addr reg_value
  else if fc = FC_WRITE_MULTIPLE_COILS then do
    let (start, bits) ← decode_request_write_multiple_coils pdu
    on_write .COIL start (bits.map .bool)
    encode_response_write_multiple_coils start bits.length
  else if fc = FC_WRITE_MULTIPLE_REGISTERS then do
    let (start, regs) ← decode_request_write_multiple_registers pdu
    on_write .HOLDING_REGISTER start (regs.map .int)
    encode_response_write_multiple_registers start regs.length
  else
    encode_exception_response fc.toNat ExceptionClass.IllegalFunction.code

theorem handle_write_single_coil (on_write : Area → Int → List Cell → Py σ Unit) (pdu : Bytes) :
    handle_write on_write 0x05 pdu = (do
      let (coil_addr, coil_value) ← decode_request_write_single_coil pdu
      on_write .COIL coil_addr [.bool coil_value]
      encode_response_write_single_coil coil_addr coil_value) := rfl

theorem handle_write_single_register (on_write : Area → Int → List Cell → Py σ Unit)
    (pdu : Bytes) :
    handle_write on_write 0x06 pdu = (do
      let (reg_addr, reg_value) ← decode_request_write_single_register pdu
      on_write .HOLDING_REGISTER reg_addr [.int reg_value]
      encode_response_write_single_register reg_addr reg_value) := rfl

theorem handle_write_multiple_coils (on_write : Area → Int → List Cell → Py σ Unit)
    (pdu : Bytes) :
    handle_write on_write 0x0F pdu = (do
      let (start, bits) ← decode_request_write_multiple_coils pdu
      on_write .COIL start (bits.map .bool)
      encode_response_write_multiple_coils start bits.length) := rfl

theorem handle_write_multiple_registers (on_write : Area → Int → List Cell → Py σ Unit)
    (pdu : Bytes) :
    handle_write on_write 0x10 pdu = (do
      let (start, regs) ← decode_request_write_multiple_registers pdu
      on_write .HOLDING_REGISTER start (regs.map .int)
      encode_response_write_multiple_registers start regs.length) := rfl

def handle (server : Server σ) (fc : UInt8) (pdu : Bytes) : Py σ Bytes :=
  if fc = FC_READ_COILS then
    handle_read server .COIL (decode_request_read_coils pdu) to_bool_list
      encode_response_read_coils
  else if fc = FC_READ_DISCRETE_INPUTS then
    handle_read server .DISCRETE_INPUT (decode_request_read_discrete_inputs pdu) to_bool_list
      encode_response_read_discrete_inputs
  else if fc = FC_READ_HOLDING_REGISTERS then
    handle_read server .HOLDING_REGISTER (decode_request_read_holding_registers pdu) to_int_list
      encode_response_read_holding_registers
  else if fc = FC_READ_INPUT_REGISTERS then
    handle_read server .INPUT_REGISTER (decode_request_read_input_registers pdu) to_int_list
      encode_response_read_input_registers
  else if fc ∈ [FC_WRITE_SINGLE_COIL, FC_WRITE_SINGLE_REGISTER, FC_WRITE_MULTIPLE_COILS,
      FC_WRITE_MULTIPLE_REGISTERS] then
    match server.on_write with
    | none => encode_exception_response fc.toNat ExceptionClass.IllegalFunction.code
    | some on_write => handle_write on_write fc pdu
  else
    encode_exception_response fc.toNat ExceptionClass.IllegalFunction.code

/-- The `except` clauses of `_dispatch`. -/
def except_dispatch (fc : UInt8) : PyError → Except PyError Bytes
  | .modbus (.ModbusExceptionResponse _ _ code) => encode_exception_response fc.toNat code
  | .CancelledError => throw .CancelledError
  | _ => encode_exception_response fc.toNat ExceptionClass.SlaveDeviceFailure.code

def dispatch (server : Server σ) (uid : Int) (pdu : Bytes) : Py σ Bytes :=
  match pdu with
  | [] => encode_exception_response 0 ExceptionClass.IllegalFunction.code
  | fc :: _ =>
    if server.unit_id ≠ none ∧ some uid ≠ server.unit_id then
      encode_exception_response fc.toNat GATEWAY_TARGET_FAILED_TO_RESPOND
    else
      Py.except_with (handle server fc pdu) (except_dispatch fc)

/-- The requests of a session, one after the other. -/
def serve (server : Server σ) : List (Int × Bytes) → Py σ (List Bytes)
  | [] => pure []
  | (uid, pdu) :: requests => do
    let resp ← dispatch server uid pdu
    let resps ← serve server requests
    pure (resp :: resps)

end

/-! ## The store of `pymod serve` -/

/-- A dict from addresses to values. -/
abbrev Store := Int → Option Cell

structure SimState where
  holding : Store
  input : Store
  coil : Store
  discrete : Store

namespace SimState

def store (state : SimState) : Area → Store
  | .HOLDING_REGISTER => state.holding
  | .INPUT_REGISTER => state.input
  | .COIL => state.coil
  | .DISCRETE_INPUT => state.discrete

def set_store (state : SimState) (area : Area) (store : Store) : SimState :=
  match area with
  | .HOLDING_REGISTER => { state with holding := store }
  | .INPUT_REGISTER => { state with input := store }
  | .COIL => { state with coil := store }
  | .DISCRETE_INPUT => { state with discrete := store }

/-- The value at an address, or `IllegalDataAddress`. -/
def lookup (area : Area) (store : Store) (addr : Int) : Except PyError Cell :=
  match store addr with
  | none => throw (ExceptionClass.IllegalDataAddress.new
      s!"no value mapped at {area.value}/{addr}")
  | some v => pure v

def read (area : Area) (address count : Int) : Py SimState (List Cell) := fun state =>
  ((List.range count.toNat).mapM fun i : Nat => lookup area (state.store area) (address + i),
    state)

/-- `for i, v in enumerate(values): store[address + i] = v` -/
def write_cells (store : Store) (address : Int) (values : List Cell) : Store :=
  values.zipIdx.foldl (fun store v => Function.update store (address + v.2) (some v.1)) store

def write (area : Area) (address : Int) (values : List Cell) : Py SimState Unit := fun state =>
  (.ok (), state.set_store area (write_cells (state.store area) address values))

end SimState

/-- The server of `_run_serve`. -/
def sim_server (unit_id : Option Int) (readonly : Bool) : Server SimState where
  on_read := SimState.read
  on_write := if readonly then none else some SimState.write
  unit_id := unit_id

end pymod.server
