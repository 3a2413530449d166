-- `RtuOverTcpTransport` in `transport/rtu_over_tcp.py`, as a machine whose steps go
-- from one suspension point of a coroutine to the next one. Each byte that the
-- gateway sends carries the call that it answers; the code sees only the byte.
import Pymod.AduRtu
import Mathlib.Logic.Function.Basic

namespace pymod.rtu_over_tcp

open errors codec adu_rtu Readers

/-! ## What a transport holds -/

/-- A byte of an answer, and the call that the answer is for. -/
abbrev Tagged := UInt8 × Nat

def bytes (l : List Tagged) : Bytes := l.map Prod.fst

/-- The bytes of an answer to the call. -/
def tagged (c : Nat) (answer : Bytes) : List Tagged := answer.map fun b => (b, c)

inductive Kind
  | connect
  | send_and_receive
  | close
  deriving DecidableEq, Repr

/-- Where a call is suspended, or how it ended. Behind `wait_closed` it raises the exception, or
returns. -/
inductive CallAt
  | absent
  | lock
  | opening
  | draining
  | reading (reader : Nat) (r : Reader UInt8 PyError Bytes)
  | wait_closed (e : Option PyError)
  | returned (pdu : Option Bytes)
  | raised (e : PyError)

/-- One call. The last two fields are there for the statements: the bytes that its reads have
taken, and what the gateway answered. -/
structure Call where
  kind : Kind := .connect
  pdu : Bytes := []
  unit_id : Int := 0
  timeout_s : String := ""
  place : CallAt := .absent
  taken : List Tagged := []
  answer : Option Bytes := none

/-- One connection: the frames written to it, the calls that the gateway may still answer, in the
order of their requests, the bytes on the way, and those that arrived and are unread. -/
structure Conn where
  sent : List Bytes := []
  asked : List Nat := []
  wire : List Tagged := []
  unread : List Tagged := []
  eof : Bool := false

structure RtuOverTcpTransport where
  host : String
  port : Int
  connect_timeout_s : String
  reader : Option Nat := none
  writer : Option Nat := none
  connected : Bool := false
  closed : Bool := false
  lock : Option Nat := none
  calls : Nat → Call := fun _ => {}
  conns : Nat → Conn := fun _ => {}
  opened : Nat := 0

namespace RtuOverTcpTransport

/-- `RtuOverTcpTransport(host, port, connect_timeout_s=connect_timeout_s)` -/
def new (host : String) (port : Int) (connect_timeout_s : String) : RtuOverTcpTransport :=
  { host := host, port := port, connect_timeout_s := connect_timeout_s }

variable (s : RtuOverTcpTransport)

def set_call (c : Nat) (call : Call) : RtuOverTcpTransport :=
  { s with calls := Function.update s.calls c call }

def set_conn (g : Nat) (conn : Conn) : RtuOverTcpTransport :=
  { s with conns := Function.update s.conns g conn }

def move (c : Nat) (place : CallAt) : RtuOverTcpTransport :=
  s.set_call c { s.calls c with place := place }

def release (c : Nat) : RtuOverTcpTransport :=
  { s with lock := if s.lock = some c then none else s.lock }

/-- The call ends; the lock is released on the way out. -/
def end_call (c : Nat) (place : CallAt) : RtuOverTcpTransport := (s.move c place).release c

def transport_is_closed : PyError := .modbus (.ModbusError "transport is closed")

def connection_error (message : String) : PyError := .modbus (.ModbusConnectionError message)

/-! ## Teardown -/

/-- What a call does behind its teardown. -/
def torn_down (c : Nat) : Option PyError → RtuOverTcpTransport
  | some e => s.end_call c (.raised e)
  | none => s.end_call c (.returned none)

def disconnect : RtuOverTcpTransport :=
  { s with connected := false, writer := none, reader := none }

/-- `_teardown_locked`, and the exception that the call raises behind it. -/
def teardown_locked (c : Nat) (e : Option PyError) : RtuOverTcpTransport :=
  match s.writer with
  | some _ => s.disconnect.move c (.wait_closed e)
  | none => s.disconnect.torn_down c e

/-! ## Opening and sending -/

/-- The frame of the call is written, and the call is suspended in `writer.drain()`. -/
def write_frame (c writer : Nat) (frame : Bytes) : RtuOverTcpTransport :=
  let conn := s.conns writer
  (s.set_conn writer { conn with sent := conn.sent ++ [frame], asked := conn.asked ++ [c] }).move c
    .draining

/-- `send_and_receive` behind `_open_locked`, up to `writer.drain()`. -/
def write_request (c : Nat) : RtuOverTcpTransport :=
  match s.writer, s.reader with
  | some writer, some _ =>
    match encode_rtu_frame (s.calls c).unit_id (s.calls c).pdu with
    | .error e => s.end_call c (.raised e)
    | .ok frame => s.write_frame c writer frame
  | _, _ => s.end_call c (.raised (.AssertionError ""))

/-- What a call does once `_open_locked` has returned. -/
def opened_call (c : Nat) : RtuOverTcpTransport :=
  match (s.calls c).kind with
  | .send_and_receive => s.write_request c
  | _ => s.end_call c (.returned none)

/-- `_open_locked`, up to `open_connection`. -/
def open_locked (c : Nat) : RtuOverTcpTransport :=
  if s.connected then s.opened_call c
  else if s.closed then s.end_call c (.raised transport_is_closed)
  else s.move c .opening

def install : RtuOverTcpTransport :=
  { s with
    reader := some s.opened
    writer := some s.opened
    connected := true
    opened := s.opened + 1 }

/-- What the holder of the lock does first. -/
def locked (c : Nat) : RtuOverTcpTransport :=
  match (s.calls c).kind with
  | .close => s.teardown_locked c none
  | _ => s.open_locked c

/-! ## Receiving -/

/-- The checks of a response frame. -/
def check_response (c : Nat) (response_frame : Bytes) : RtuOverTcpTransport :=
  match decode_rtu_frame response_frame with
  | .error e => s.end_call c (.raised e)
  | .ok (uid, response_pdu) =>
    if (uid : Int) ≠ (s.calls c).unit_id then
      s.end_call c (.raised (.modbus (.ModbusProtocolError
        s!"unit id mismatch in response: got {uid}, expected {(s.calls c).unit_id}")))
    else
      s.end_call c (.returned (some response_pdu))

/-- The read of the response goes on, or it has ended. -/
def resume_reading (c reader : Nat) : Reader UInt8 PyError Bytes → RtuOverTcpTransport
  | .read_exactly n k => s.move c (.reading reader (.read_exactly n k))
  | .raised e => s.end_call c (.raised e)   -- a `ModbusProtocolError`, which nobody catches here
  | .done response_frame => s.check_response c response_frame

/-- The reads of the call take the next `n` bytes off the stream. -/
def take_bytes (c reader n : Nat) : RtuOverTcpTransport :=
  let conn := s.conns reader
  (s.set_conn reader { conn with unread := conn.unread.drop n }).set_call c
    { s.calls c with taken := (s.calls c).taken ++ conn.unread.take n }

/-- The task of the call is cancelled. -/
def cancel_call (c : Nat) : Option RtuOverTcpTransport :=
  match (s.calls c).place with
  | .lock | .opening | .draining | .reading _ _ | .wait_closed _ =>
    some (s.end_call c (.raised .CancelledError))
  | .absent | .returned _ | .raised _ => none

/-- How `open_connection` fails. -/
inductive OpenFailure
  | timeout
  | os_error (message : String)
  deriving DecidableEq, Repr

def open_error : OpenFailure → PyError
  | .timeout => connection_error
      s!"connect timeout to {s.host}:{s.port} after {s.connect_timeout_s}s"
  | .os_error e => connection_error s!"connect failed to {s.host}:{s.port}: {e}"

end RtuOverTcpTransport

/-! ## Steps -/

open RtuOverTcpTransport

/-- One step of a coroutine, or of the surroundings. -/
inductive Event
  | start_connect (c : Nat)
  | start_send (c : Nat) (pdu : Bytes) (unit_id : Int) (timeout_s : String)
  | start_close (c : Nat)
  | lock_acquired (c : Nat)
  | opened (c : Nat)
  | open_failed (c : Nat) (failure : OpenFailure)
  | drained (c : Nat)
  | send_failed (c : Nat) (message : String)
  | read (c : Nat)
  | read_incomplete (c : Nat)
  | read_failed (c : Nat) (message : String)
  | timed_out (c : Nat)
  | writer_closed (c : Nat)
  | cancelled (c : Nat)
  | answered (g c : Nat) (answer : Bytes)
  | bytes_arrived (g n : Nat)
  | peer_closed (g : Nat)
  deriving DecidableEq, Repr

/-- The gateway answers the request of the call, and no earlier one any more. -/
def answer_call (s : RtuOverTcpTransport) (g c : Nat) (answer : Bytes) :
    Option RtuOverTcpTransport :=
  let conn := s.conns g
  if c ∈ conn.asked ∧ (s.calls c).answer = none then
    some ((s.set_conn g { conn with
      asked := (conn.asked.dropWhile (· ≠ c)).tail
      wire := conn.wire ++ tagged c answer }).set_call c
        { s.calls c with answer := some answer })
  else none

def step (s : RtuOverTcpTransport) : Event → Option RtuOverTcpTransport
  | .start_connect c =>
    match (s.calls c).place with
    | .absent =>
      let s := s.set_call c { kind := .connect }
      if s.closed then some (s.end_call c (.raised transport_is_closed)) else some (s.move c .lock)
    | _ => none
  | .start_send c pdu unit_id timeout_s =>
    match (s.calls c).place with
    | .absent =>
      let s := s.set_call c
        { kind := .send_and_receive, pdu := pdu, unit_id := unit_id, timeout_s := timeout_s }
      if s.closed then some (s.end_call c (.raised transport_is_closed))
      else if pdu.length = 0 then some (s.end_call c (.raised (.ValueError "empty PDU")))
      else some (s.move c .lock)
    | _ => none
  | .start_close c =>
    match (s.calls c).place with
    | .absent => some ({ s.set_call c { kind := .close } with closed := true }.move c .lock)
    | _ => none
  | .lock_acquired c =>
    match (s.calls c).place, s.lock with
    | .lock, none => some ({ s with lock := some c }.locked c)
    | _, _ => none
  | .opened c =>
    match (s.calls c).place with
    | .opening => some (s.install.opened_call c)
    | _ => none
  | .open_failed c failure =>
    match (s.calls c).place with
    | .opening => some (s.end_call c (.raised (s.open_error failure)))
    | _ => none
  | .drained c =>
    match (s.calls c).place, s.reader with
    | .draining, some reader => some (s.move c (.reading reader read_rtu_response))
    | .draining, none => some (s.end_call c (.raised (.Exception "AttributeError"
        "'NoneType' object has no attribute 'readexactly'")))
    | _, _ => none
  | .send_failed c message =>
    match (s.calls c).place with
    | .draining => some (s.teardown_locked c (some (connection_error s!"send failed: {message}")))
    | _ => none
  | .read c =>
    match (s.calls c).place with
    | .reading reader (.read_exactly n k) =>
      if n ≤ (s.conns reader).unread.length then
        some ((s.take_bytes c reader n).resume_reading c reader
          (k (bytes ((s.conns reader).unread.take n))))
      else none
    | _ => none
  | .read_incomplete c =>
    match (s.calls c).place with
    | .reading reader (.read_exactly n _) =>
      let conn := s.conns reader
      if conn.eof ∧ conn.unread.length < n then
        some ((s.set_conn reader { conn with unread := [] }).teardown_locked c
          (some (connection_error
            s!"connection lost mid-response: {conn.unread.length} bytes read on a total of {n} expected bytes")))
      else none
    | _ => none
  | .read_failed c message =>
    match (s.calls c).place with
    | .reading _ _ =>
      some (s.teardown_locked c (some (connection_error s!"connection lost: {message}")))
    | _ => none
  | .timed_out c =>
    match (s.calls c).place with
    | .reading _ _ =>
      some (s.teardown_locked c (some (.modbus (.ModbusTimeoutError
        s!"no response within {(s.calls c).timeout_s}s"))))
    | _ => none
  | .writer_closed c =>
    match (s.calls c).place with
    | .wait_closed e => some (s.torn_down c e)
    | _ => none
  | .cancelled c => s.cancel_call c
  | .answered g c answer => answer_call s g c answer
  | .bytes_arrived g n =>
    let conn := s.conns g
    some (s.set_conn g { conn with
      unread := conn.unread ++ conn.wire.take n, wire := conn.wire.drop n })
  | .peer_closed g => some (s.set_conn g { s.conns g with eof := true })

end pymod.rtu_over_tcp
