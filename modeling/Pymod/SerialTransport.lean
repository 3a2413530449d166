-- `SerialTransport` in `transport/serial.py`, as a machine. The calls are coroutines
-- that go from one suspension point to the next one; the jobs that they hand to the
-- executor run on threads, which nobody stops.
import Pymod.AduRtu
import Mathlib.Logic.Function.Basic

namespace pymod.serial_transport

open errors codec adu_rtu Readers

/-! ## What a transport holds -/

/-- What is handed to `run_in_executor`: the serial factory, `_exchange_blocking` on an open port,
or the `close` of one. -/
inductive Job
  | open_port
  | exchange (ser : Nat) (frame : Bytes) (timeout_s : String)
  | close_port (ser : Nat)
  deriving DecidableEq, Repr

/-- Where a thread is in `_exchange_blocking`. -/
inductive ExchangeAt
  | gap
  | writing
  | reading (r : Reader UInt8 PyError Bytes)

inductive Result
  | handle (ser : Nat)
  | response (frame : Bytes)
  | closed
  deriving DecidableEq, Repr

inductive JobAt
  | absent
  | queued
  | exchanging (at_ : ExchangeAt)
  | busy
  | finished (result : Except PyError Result)
  | cancelled

/-- A job of the executor, and how far it has come. -/
structure Ticket where
  job : Job := .open_port
  place : JobAt := .absent

inductive Kind
  | connect
  | send_and_receive
  | close
  deriving DecidableEq, Repr

inductive CallAt
  | absent
  | lock
  | waiting (job : Nat)
  | returned (pdu : Option Bytes)
  | raised (e : PyError)
  deriving DecidableEq, Repr

structure Call where
  kind : Kind := .connect
  pdu : Bytes := []
  unit_id : Int := 0
  timeout_s : String := ""
  place : CallAt := .absent
  deriving DecidableEq, Repr

/-- Jobs are numbered as they are submitted, and handles of the port as they are opened. The last
field is the traffic on the bus: the frames with the handles that they were written to. -/
structure SerialTransport where
  port : String
  serial : Option Nat := none
  connected : Bool := false
  closed : Bool := false
  lock : Option Nat := none
  calls : Nat → Call := fun _ => {}
  jobs : Nat → Ticket := fun _ => {}
  submitted : Nat := 0
  handles : Nat := 0
  written : List (Nat × Bytes) := []

namespace SerialTransport

/-- `SerialTransport(port)` -/
def new (port : String) : SerialTransport := { port := port }

variable (s : SerialTransport)

def set_call (c : Nat) (call : Call) : SerialTransport :=
  { s with calls := Function.update s.calls c call }

/-- The job comes to another place. -/
def set_job (j : Nat) (place : JobAt) : SerialTransport :=
  { s with jobs := Function.update s.jobs j { s.jobs j with place := place } }

def move (c : Nat) (place : CallAt) : SerialTransport :=
  s.set_call c { s.calls c with place := place }

def release (c : Nat) : SerialTransport :=
  { s with lock := if s.lock = some c then none else s.lock }

/-- The call ends; the lock is released on the way out. -/
def end_call (c : Nat) (place : CallAt) : SerialTransport := (s.move c place).release c

def submit (job : Job) : SerialTransport :=
  { s with
    jobs := Function.update s.jobs s.submitted { job := job, place := .queued }
    submitted := s.submitted + 1 }

/-- `await loop.run_in_executor(None, job)` -/
def run_in_executor (c : Nat) (job : Job) : SerialTransport :=
  (s.submit job).move c (.waiting s.submitted)

def transport_is_closed : PyError := .modbus (.ModbusError "transport is closed")

/-! ## The calls -/

/-- `send_and_receive` behind `_open_locked`, up to the executor. -/
def exchange (c : Nat) : SerialTransport :=
  match s.serial with
  | none => s.end_call c (.raised (.AssertionError ""))
  | some ser =>
    match encode_rtu_frame (s.calls c).unit_id (s.calls c).pdu with
    | .error e => s.end_call c (.raised e)
    | .ok frame => s.run_in_executor c (.exchange ser frame (s.calls c).timeout_s)

/-- What a call does once `_open_locked` has returned. -/
def opened_call (c : Nat) : SerialTransport :=
  match (s.calls c).kind with
  | .send_and_receive => s.exchange c
  | _ => s.end_call c (.returned none)

/-- `_open_locked`, up to the executor. -/
def open_locked (c : Nat) : SerialTransport :=
  if s.connected then s.opened_call c
  else if s.closed then s.end_call c (.raised transport_is_closed)
  else s.run_in_executor c .open_port

def disconnect : SerialTransport := { s with connected := false, serial := none }

/-- `close` behind the lock, up to the executor. -/
def close_locked (c : Nat) : SerialTransport :=
  match s.serial with
  | some ser => s.disconnect.run_in_executor c (.close_port ser)
  | none => s.disconnect.end_call c (.returned none)

/-- What the holder of the lock does first. -/
def locked (c : Nat) : SerialTransport :=
  match (s.calls c).kind with
  | .close => s.close_locked c
  | _ => s.open_locked c

/-- The port is open, and the call goes on. -/
def install (ser : Nat) : SerialTransport := { s with serial := some ser, connected := true }

/-- The checks of a response frame. -/
def check_response (c : Nat) (response_frame : Bytes) : SerialTransport :=
  match decode_rtu_frame response_frame with
  | .error e => s.end_call c (.raised e)
  | .ok (uid, response_pdu) =>
    if (uid : Int) ≠ (s.calls c).unit_id then
      s.end_call c (.raised (.modbus (.ModbusProtocolError
        s!"unit id mismatch in response: got {uid}, expected {(s.calls c).unit_id}")))
    else
      s.end_call c (.returned (some response_pdu))

/-- `serial.SerialException`, which is an `OSError`, its subclass, or any other `OSError`. -/
def os_errors : List String := ["SerialException", "SerialTimeoutException", "OSError"]

/-- What `_open_locked` makes of an exception of the serial factory. -/
def open_error : PyError → PyError
  | .Exception name message =>
    if name ∈ os_errors then
      .modbus (.ModbusConnectionError s!"open serial port {s.port}: {message}")
    else .Exception name message
  | e => e

/-- The job of the call has ended, and the call resumes. -/
def resume (c : Nat) : Job → Except PyError Result → Option SerialTransport
  | .open_port, .ok (.handle ser) => some ((s.install ser).opened_call c)
  | .open_port, .error e => some (s.end_call c (.raised (s.open_error e)))
  | .exchange _ _ _, .ok (.response frame) => some (s.check_response c frame)
  | .exchange _ _ _, .error e => some (s.end_call c (.raised e))
  | .close_port _, _ => some (s.end_call c (.returned none))   -- an exception is passed over
  | _, _ => none

/-- The cancellation of an awaited job: one that no thread has started never runs. -/
def cancel_job (j : Nat) : SerialTransport :=
  match (s.jobs j).place with
  | .queued => s.set_job j .cancelled
  | _ => s

/-- The task of the call is cancelled. -/
def cancel_call (c : Nat) : Option SerialTransport :=
  match (s.calls c).place with
  | .lock => some (s.end_call c (.raised .CancelledError))
  | .waiting j => some ((s.cancel_job j).end_call c (.raised .CancelledError))
  | .absent | .returned _ | .raised _ => none

/-! ## The threads -/

/-- `_exchange_blocking` raises the exception that came up in it. -/
def exchange_error : PyError → PyError
  | .Exception name message =>
    if name ∈ os_errors then .modbus (.ModbusConnectionError s!"serial I/O error: {message}")
    else .Exception name message
  | e => e

/-- The write raises. -/
def write_error (timeout_s : String) : PyError → PyError
  | .Exception name message =>
    if name = "SerialTimeoutException" then
      .modbus (.ModbusTimeoutError s!"serial write timeout after {timeout_s}s: {message}")
    else exchange_error (.Exception name message)
  | e => exchange_error e

/-- The read of the response goes on, or it has ended. -/
def resume_reading (j : Nat) : Reader UInt8 PyError Bytes → SerialTransport
  | .read_exactly n k => s.set_job j (.exchanging (.reading (.read_exactly n k)))
  | .raised e => s.set_job j (.finished (.error e))
  | .done response => s.set_job j (.finished (.ok (.response response)))

/-- `ser.read(n)` has come back with the data. -/
def read (j n : Nat) (k : Bytes → Reader UInt8 PyError Bytes) (data : Bytes) : SerialTransport :=
  if data.length < n then
    s.set_job j (.finished (.error (.modbus (.ModbusTimeoutError
      s!"serial response timeout (got {data.length}/{n} bytes)"))))
  else s.resume_reading j (k data)

end SerialTransport

/-! ## Steps -/

open SerialTransport

/-- One step of a coroutine, or of a thread. -/
inductive Event
  | start_connect (c : Nat)
  | start_send (c : Nat) (pdu : Bytes) (unit_id : Int) (timeout_s : String)
  | start_close (c : Nat)
  | lock_acquired (c : Nat)
  | resumed (c : Nat)
  | cancelled (c : Nat)
  | job_started (j : Nat)
  | gap_over (j : Nat)
  | written (j : Nat)
  | write_failed (j : Nat) (e : PyError)
  | read (j : Nat) (data : Bytes)
  | deadline_reached (j : Nat)
  | io_failed (j : Nat) (e : PyError)
  | port_opened (j : Nat)
  | port_failed (j : Nat) (e : PyError)
  | port_closed (j : Nat)
  deriving DecidableEq, Repr

def step (s : SerialTransport) : Event → Option SerialTransport
  | .start_connect c =>
    if (s.calls c).place = .absent then
      let s := s.set_call c { kind := .connect }
      if s.closed then some (s.end_call c (.raised transport_is_closed)) else some (s.move c .lock)
    else none
  | .start_send c pdu unit_id timeout_s =>
    if (s.calls c).place = .absent then
      let s := s.set_call c
        { kind := .send_and_receive, pdu := pdu, unit_id := unit_id, timeout_s := timeout_s }
      if s.closed then some (s.end_call c (.raised transport_is_closed))
      else if pdu.length = 0 then some (s.end_call c (.raised (.ValueError "empty PDU")))
      else some (s.move c .lock)
    else none
  | .start_close c =>
    if (s.calls c).place = .absent then
      some ({ s.set_call c { kind := .close } with closed := true }.move c .lock)
    else none
  | .lock_acquired c =>
    if (s.calls c).place = .lock ∧ s.lock = none then some ({ s with lock := some c }.locked c)
    else none
  | .resumed c =>
    match (s.calls c).place with
    | .waiting j =>
      match (s.jobs j).place with
      | .finished result => s.resume c (s.jobs j).job result
      | _ => none
    | _ => none
  | .cancelled c => s.cancel_call c
  | .job_started j =>
    match (s.jobs j).place, (s.jobs j).job with
    | .queued, .exchange _ _ _ => some (s.set_job j (.exchanging .gap))
    | .queued, _ => some (s.set_job j .busy)
    | _, _ => none
  | .gap_over j =>
    match (s.jobs j).place with
    | .exchanging .gap => some (s.set_job j (.exchanging .writing))
    | _ => none
  | .written j =>
    match (s.jobs j).place, (s.jobs j).job with
    | .exchanging .writing, .exchange ser frame _ =>
      some { s.set_job j (.exchanging (.reading read_rtu_response)) with
        written := s.written ++ [(ser, frame)] }
    | _, _ => none
  | .write_failed j e =>
    match (s.jobs j).place, (s.jobs j).job with
    | .exchanging .writing, .exchange _ _ timeout_s =>
      some (s.set_job j (.finished (.error (write_error timeout_s e))))
    | _, _ => none
  | .read j data =>
    match (s.jobs j).place with
    | .exchanging (.reading (.read_exactly n k)) =>
      if data.length ≤ n then some (s.read j n k data) else none
    | _ => none
  | .deadline_reached j =>
    match (s.jobs j).place with
    | .exchanging (.reading _) =>
      some (s.set_job j (.finished (.error (.modbus (.ModbusTimeoutError
        "serial response timeout (deadline reached)")))))
    | _ => none
  | .io_failed j e =>
    match (s.jobs j).place with
    | .exchanging (.reading _) => some (s.set_job j (.finished (.error (exchange_error e))))
    | _ => none
  | .port_opened j =>
    match (s.jobs j).place, (s.jobs j).job with
    | .busy, .open_port =>
      some { s.set_job j (.finished (.ok (.handle s.handles))) with handles := s.handles + 1 }
    | _, _ => none
  | .port_failed j e =>
    match (s.jobs j).place with
    | .busy => some (s.set_job j (.finished (.error e)))
    | _ => none
  | .port_closed j =>
    match (s.jobs j).place, (s.jobs j).job with
    | .busy, .close_port _ => some (s.set_job j (.finished (.ok .closed)))
    | _, _ => none

end pymod.serial_transport
