-- The commands `read`, `write` and `scan` of `cli.py`, from their arguments to what they print
-- and the exit code that they return.
import Pymod.CliValues
import Pymod.Planner
import Pymod.Retry
import Pymod.SerialTiming

namespace pymod.cli

open errors codec pdu types planner retry

/-! ## The client of a command -/

/-- The transport arguments and the call arguments. `--host` and `--rtu` may be left out. -/
structure ConnectionArgs where
  host : Option String := none
  port : Int := 502
  rtu : Option String := none
  baudrate : Int := 9600
  bytesize : Int := 8
  parity : String := "N"
  stopbits : ℚ := 1
  rtu_over_tcp : Bool := false
  unit_id : Int := 1
  timeout_s : ℚ := 0.5
  retries : Int := 1

/-- What the transport of a client connects to. -/
inductive Link
  | rtu (path : String) (settings : serial_transport.Settings)
  | rtu_over_tcp (host : String) (port : Int)
  | tcp (host : String) (port : Int)

structure Client where
  link : Link
  async_client : AsyncClient ℚ

/-- The argument, when `if arg` holds of it. -/
def given (arg : Option String) : Option String := arg.filter fun s => s ≠ ""

def make_client (args : ConnectionArgs) : Except Raised Client :=
  let retry : RetryPolicy ℚ := { max_attempts := max 1 (args.retries + 1) }
  let async_client : AsyncClient ℚ := ⟨args.unit_id, args.timeout_s, retry⟩
  match given args.rtu with
  | some path =>
    let settings : serial_transport.Settings :=
      { baudrate := args.baudrate, bytesize := args.bytesize, parity := args.parity,
        stopbits := args.stopbits }
    -- The constructor of the transport computes the gap between two frames.
    match settings.frame_gap_s with
    | .ok _ => pure ⟨.rtu path settings, async_client⟩
    | .error e => throw (.error e)
  | none =>
    match given args.host with
    | none => throw (.SystemExit "either --host or --rtu must be specified")
    | some host =>
      if args.rtu_over_tcp then pure ⟨.rtu_over_tcp host args.port, async_client⟩
      else pure ⟨.tcp host args.port, async_client⟩

/-- What a transport does: what `connect()` ends with, and each call of `send_and_receive`, which
is an attempt of some call of `execute`. -/
structure Transport where
  connect : Except ModbusError Unit
  send_and_receive (call attempt : Nat) : Except ModbusError Bytes

namespace Client

variable (client : Client) (transport : Transport)

/-- What the awaited call ends with. A sleep that is never over is left when it is cancelled. -/
def awaited : Finish → Except PyError Bytes
  | .ended r => r
  | .asleep => .error .CancelledError

/-- The state is the number of the calls so far. -/
def execute (pdu : Bytes) (unit_id : Option Int) (timeout_s : Option ℚ)
    (retry : Option (RetryPolicy ℚ)) : Py Nat Bytes := fun call =>
  let outcomes attempt := (transport.send_and_receive call attempt).mapError PyError.modbus
  (awaited (client.async_client.execute pdu unit_id timeout_s retry outcomes).2, call + 1)

/-- `_make_pdu_executor`, without overrides. -/
def make_pdu_executor (pdu : Bytes) : Py Nat Bytes :=
  client.execute transport pdu (some client.async_client.default_unit_id)
    (some client.async_client.default_timeout_s) (some client.async_client.default_retry)

def read {F : Type} [FloatOps F] (items : List ReadItem) : Py Nat (List (ReadResult F)) :=
  plan_and_execute_reads items (client.make_pdu_executor transport)

def write {F : Type} [FloatOps F] (items : List (WriteItem F)) :
    Py Nat (List (WriteResult F)) :=
  plan_and_execute_writes items (client.make_pdu_executor transport)

end Client

/-- `async with client: body` -/
def async_with {α : Type} (transport : Transport) (body : Py Nat α) : Except PyError α :=
  match transport.connect with
  | .ok () => (body 0).1
  | .error e => .error (.modbus e)

/-! ## What a command prints -/

/-- `type(e).__name__` of an exception response. -/
def class_name : ExceptionClass → String
  | .ModbusExceptionResponse => "ModbusExceptionResponse"
  | .IllegalFunction => "IllegalFunction"
  | .IllegalDataAddress => "IllegalDataAddress"
  | .IllegalDataValue => "IllegalDataValue"
  | .SlaveDeviceFailure => "SlaveDeviceFailure"
  | .Acknowledge => "Acknowledge"
  | .SlaveDeviceBusy => "SlaveDeviceBusy"
  | .MemoryParityError => "MemoryParityError"
  | .GatewayPathUnavailable => "GatewayPathUnavailable"
  | .GatewayTargetFailedToRespond => "GatewayTargetFailedToRespond"

/-- `type(e).__name__` -/
def type_name : ModbusError → String
  | .ModbusError _ => "ModbusError"
  | .ModbusTimeoutError _ => "ModbusTimeoutError"
  | .ModbusConnectionError _ => "ModbusConnectionError"
  | .ModbusCRCError _ => "ModbusCRCError"
  | .ModbusProtocolError _ => "ModbusProtocolError"
  | .ModbusExceptionResponse cls _ _ => class_name cls

/-- `str(e)`; an exception response without a message has the name of its class. -/
def str : ModbusError → String
  | .ModbusError message => message
  | .ModbusTimeoutError message => message
  | .ModbusConnectionError message => message
  | .ModbusCRCError message => message
  | .ModbusProtocolError message => message
  | .ModbusExceptionResponse cls message _ => if message = "" then class_name cls else message

/-- What `json.dumps` is called with. -/
inductive Json (F : Type)
  | bool (b : Bool)
  | int (z : Int)
  | float (x : F)
  | str (s : String)
  | list (elements : List (Json F))
  | dict (fields : List (String × Json F))

/-- The argument of a `print`. -/
inductive Printed (F : Type)
  | text (s : String)
  | dumps (payload : Json F)

/-- What a command prints, and the exit code that it returns. -/
structure Output (F : Type) where
  exit_code : Int
  stdout : List (Printed F) := []
  stderr : List (Printed F) := []

section Emit

variable {F : Type}

def emit_failure (json_mode : Bool) (err_type message : String) (exit_code : Int) : Output F :=
  if json_mode then
    { exit_code, stdout := [.dumps (.dict [("ok", .bool false),
        ("error", .dict [("type", .str err_type), ("message", .str message)])])] }
  else
    { exit_code, stderr := [.text s!"error: {err_type}: {message}"] }

def error_payload : Option ModbusError → Json F
  | none => .dict [("type", .str "Unknown"), ("message", .str "")]
  | some error => .dict [("type", .str (type_name error)), ("message", .str (str error))]

/-- `f"error: {type(err).__name__}: {err}" if err else "error: unknown"` -/
def error_line : Option ModbusError → String
  | none => "error: unknown"
  | some err =>
    let name := type_name err
    let message := str err
    s!"error: {name}: {message}"

def serialize (values : List (Value F)) : List (Json F) :=
  values.map fun v =>
    match v with
    | .bool b => .bool b
    | .int z => .int z
    | .float x => .float x

/-- The hex digits of the mask. -/
def hex_width : Option RegisterDType → Nat
  | some (.numeric .int64) | some (.numeric .uint64) => 16
  | some (.numeric .int32) | some (.numeric .uint32) => 8
  | _ => 4

/-- `f"{n:0{width}X}"` -/
def upper_hex (width n : Nat) : String :=
  String.ofList ((List.leftpad width '0' (Nat.toDigits 16 n)).map Char.toUpper)

variable [FloatOps F]

def format_value (index : Nat) (value : Value F) (dtype : Option RegisterDType) : String :=
  match value with
  | .bool true => s!"[{index}]: True"
  | .bool false => s!"[{index}]: False"
  | .int z =>
    let width := hex_width dtype
    let masked := upper_hex width (z % 16 ^ width).toNat
    s!"[{index}]: 0x{masked} ({z})"
  | .float x =>
    let text := FloatOps.repr x
    s!"[{index}]: {text}"

/-- `getattr(result.item, "dtype", None)` -/
def item_dtype : ReadItem → Option RegisterDType
  | .Holding item => some item.dtype
  | .Input item => some item.dtype
  | .Coil _ _ => none
  | .Discrete _ _ => none

def emit_read_result (result : ReadResult F) (json_mode : Bool) : Output F :=
  if json_mode then
    if result.ok then
      { exit_code := 0, stdout := [.dumps (.dict [("ok", .bool true),
          ("values", .list (serialize result.values))])] }
    else
      { exit_code := 1, stdout := [.dumps (.dict [("ok", .bool false),
          ("error", error_payload result.error)])] }
  else if result.ok then
    { exit_code := 0, stdout := result.values.zipIdx.map fun (v, i) =>
        .text (format_value i v (item_dtype result.item)) }
  else
    { exit_code := 1, stderr := [.text (error_line result.error)] }

def emit_write_result (result : WriteResult F) (json_mode : Bool) : Output F :=
  if json_mode then
    if result.ok then
      { exit_code := 0, stdout := [.dumps (.dict [("ok", .bool true)])] }
    else
      { exit_code := 1, stdout := [.dumps (.dict [("ok", .bool false),
          ("error", error_payload result.error)])] }
  else if result.ok then
    { exit_code := 0, stdout := [.text "ok"] }
  else
    { exit_code := 1, stderr := [.text (error_line result.error)] }

end Emit

/-! ## The commands -/

section Commands

variable {F : Type} [FloatOps F] (parsers : Parsers F)

structure ReadArgs where
  connection : ConnectionArgs
  area : Area
  start : Int
  count : Int
  dtype : RegisterDType := .numeric .uint16
  word_order : Order := .big
  byte_order : Order := .big
  bit_index : Option Int := none
  bit_indices : Option String := none
  bit_numbering : BitNumbering := .lsb_first
  json : Bool := false

structure WriteArgs extends WriteValues where
  connection : ConnectionArgs
  json : Bool := false

structure ScanArgs where
  connection : ConnectionArgs
  start : Int := 0
  json : Bool := false

/-- The part of `_build_read_item` for registers. -/
def build_register_item (args : ReadArgs) : Except Raised RegisterItem :=
  let item : RegisterItem :=
    { start := args.start, count := args.count, dtype := args.dtype,
      word_order := args.word_order, byte_order := args.byte_order,
      bit_numbering := args.bit_numbering }
  match args.dtype with
  | .bit =>
    match args.bit_index with
    | none => throw (.SystemExit "--bit-index required when --dtype=bit")
    | some bit_index => pure { item with bit_index := some bit_index }
  | .bits =>
    match given args.bit_indices with
    | none => throw (.SystemExit "--bit-indices required when --dtype=bits")
    | some bit_indices => do
      let bit_indices ← (split bit_indices).mapM fun s =>
        value_error "--bit-indices" (parsers.int_auto (strip s))
      pure { item with bit_indices := some bit_indices }
  | .numeric _ => pure item

def build_read_item (args : ReadArgs) : Except Raised ReadItem :=
  match args.area with
  | .COIL => pure (.Coil args.start args.count)
  | .DISCRETE_INPUT => pure (.Discrete args.start args.count)
  | .HOLDING_REGISTER => (build_register_item parsers args).map .Holding
  | .INPUT_REGISTER => (build_register_item parsers args).map .Input

/-- The `try` block of a command with its two `except` clauses, and what follows it. -/
def run_client {α : Type} (json_mode : Bool) (transport : Transport) (body : Py Nat α)
    (emit : α → Except Raised (Output F)) : Except Raised (Output F) :=
  match async_with transport body with
  | .ok a => emit a
  | .error (.modbus (.ModbusConnectionError message)) =>
    pure (emit_failure json_mode "ModbusConnectionError" message 2)
  | .error (.modbus e) => pure (emit_failure json_mode (type_name e) (str e) 1)
  | .error e => throw (.error e)

/-- `emit(results[0])` -/
def emit_first {α : Type} (emit : α → Output F) : List α → Except Raised (Output F)
  | [] => throw (.error (.Exception "IndexError" "list index out of range"))
  | result :: _ => pure (emit result)

variable (transports : Link → Transport)

def run_read (args : ReadArgs) : Except Raised (Output F) := do
  let item ← build_read_item parsers args
  let client ← make_client args.connection
  let transport := transports client.link
  run_client args.json transport (client.read transport [item])
    (emit_first fun result => emit_read_result result args.json)

def run_write (args : WriteArgs) : Except Raised (Output F) := do
  let item ← build_write_item parsers args.toWriteValues
  let client ← make_client args.connection
  let transport := transports client.link
  run_client args.json transport (client.write transport [item])
    (emit_first fun result => emit_write_result result args.json)

/-- `type(exc).__name__` of what `detect_exception` returns. -/
def exc_name : PyError → String
  | .modbus e => type_name e
  | .ValueError _ => "ValueError"
  | .TypeError _ => "TypeError"
  | .OverflowError _ => "OverflowError"
  | .AssertionError _ => "AssertionError"
  | .CancelledError => "CancelledError"
  | .Exception name _ => name

/-- The end of `_run_scan`, past its `try` block. -/
def emit_response (json_mode : Bool) (response_pdu : Bytes) : Except Raised (Output F) :=
  match detect_exception response_pdu FC_READ_HOLDING_REGISTERS with
  | .error e => throw (.error e)
  | .ok (some exc) =>
    let name := exc_name exc
    if json_mode then
      pure { exit_code := 0, stdout := [.dumps (.dict [("ok", .bool true),
        ("responsive", .bool true), ("exception", .str name)])] }
    else
      pure { exit_code := 0, stdout := [.text s!"alive (replied with {name})"] }
  | .ok none =>
    if json_mode then
      pure { exit_code := 0, stdout := [.dumps (.dict [("ok", .bool true),
        ("responsive", .bool true)])] }
    else
      pure { exit_code := 0, stdout := [.text "alive"] }

def run_scan (args : ScanArgs) : Except Raised (Output F) := do
  let client ← make_client args.connection
  let transport := transports client.link
  run_client args.json transport
    (do
      let pdu ← encode_read_holding_registers args.start 1
      client.execute transport pdu none none none)
    (emit_response args.json)

/-- The subcommands, but for `serve`. -/
inductive Command
  | read (args : ReadArgs)
  | write (args : WriteArgs)
  | scan (args : ScanArgs)

/-- `_run` -/
def run : Command → Except Raised (Output F)
  | .read args => run_read parsers transports args
  | .write args => run_write parsers transports args
  | .scan args => run_scan transports args

end Commands

end pymod.cli
