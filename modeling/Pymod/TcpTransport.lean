-- `TcpTransport` in `transport/tcp.py`, as a machine whose steps go from one
-- suspension point of a coroutine to the next one. Calls, read loops and
-- teardowns interleave at these points in any order. `asyncio.wait_for` is that of
-- Python 3.12 on, which raises a timeout or a cancellation also when the future got
-- its result meanwhile; that of Python 3.11 returns the result then.
import Pymod.AduTcp
import Mathlib.Data.List.AList
import Mathlib.Logic.Function.Basic

namespace pymod.tcp

open errors codec adu_tcp

/-! ## What a transport holds -/

/-- Who runs a teardown: the call of `close`, or the read loop of a connection. -/
inductive Agent
  | caller (c : Nat)
  | reader (g : Nat)
  deriving DecidableEq, Repr

/-- Where a teardown is suspended. -/
inductive TeardownAt
  | wait_closed (writer : Nat)
  | await_task (task : Nat)
  deriving DecidableEq, Repr

inductive Kind
  | connect
  | send_and_receive
  | close
  deriving DecidableEq, Repr

/-- Where a call is suspended, or how it ended; `closed` is the end of a call of `close`. -/
inductive CallAt
  | absent
  | serial_lock
  | connection_lock
  | opening
  | draining
  | waiting
  | teardown (at_ : TeardownAt)
  | returned (pdu : Option Bytes)
  | raised (e : PyError)
  | closed
  deriving DecidableEq, Repr

/-- The future of a call. A result carries the call that its reply answered, and an
exception the teardown that set it; the code knows neither. -/
inductive FutureState
  | pending
  | result (pdu : Bytes) (origin : Option Nat)
  | exception (e : PyError) (by_ : Agent)
  | cancelled
  deriving DecidableEq, Repr

/-- What the task of a waiting call will raise when it resumes. -/
inductive Interrupt
  | timeout
  | cancel
  deriving DecidableEq, Repr

/-- One call of `connect`, `send_and_receive` or `close`. The last three fields are there for
the statements: where the id counter stood, how many ids had been given out, and what the peer
answered to the frame of the call. -/
structure Call where
  kind : Kind := .connect
  pdu : Bytes := []
  unit_id : Int := 0
  timeout_s : String := ""
  place : CallAt := .absent
  tid : Option Nat := none
  conn : Option Nat := none
  future : FutureState := .pending
  interrupt : Option Interrupt := none
  probed_at : Nat := 0
  allocated_at : Nat := 0
  answer : Option Bytes := none
  deriving DecidableEq, Repr

inductive TaskAt
  | absent
  | created
  | reading (reader : Nat)
  | teardown (at_ : TeardownAt)
  | done
  deriving DecidableEq, Repr

/-- The task of a read loop. -/
structure ReadTask where
  place : TaskAt := .absent
  cancel_requested : Bool := false
  deriving DecidableEq, Repr

/-- One connection: the frames written to it, the bytes that its peer has sent and that are on
the way, those that arrived and are unread, and the calls that its peer has answered, in the
order of the answers that are not read yet. -/
structure Conn where
  sent : List Bytes := []
  wire : Bytes := []
  unread : Bytes := []
  lost : Bool := false
  replies : List Nat := []
  deriving DecidableEq, Repr

/-- The dictionary `_pending`: transaction id to the future of a call. -/
abbrev Pending := AList fun _ : Nat => Nat

/-- Connections and their read loops are numbered as they are opened. The last two fields count
the places that the id counter has moved and the ids that were given out. -/
structure TcpTransport where
  host : String
  port : Int
  connect_timeout_s : String
  pipeline : Bool
  reader : Option Nat := none
  writer : Option Nat := none
  read_task : Option Nat := none
  connected : Bool := false
  closed : Bool := false
  next_tid : Nat := 0
  pending : Pending := ∅
  connection_lock : Option Nat := none
  serial_lock : Option Nat := none
  calls : Nat → Call := fun _ => {}
  tasks : Nat → ReadTask := fun _ => {}
  conns : Nat → Conn := fun _ => {}
  opened : Nat := 0
  probed : Nat := 0
  allocated : Nat := 0

/-- The futures in the dictionary: `self._pending.values()`. -/
def Pending.values (pending : Pending) : List Nat := pending.entries.map Sigma.snd

namespace TcpTransport

/-- `TcpTransport(host, port, pipeline=pipeline, connect_timeout_s=connect_timeout_s)` -/
def new (host : String) (port : Int) (pipeline : Bool) (connect_timeout_s : String) :
    TcpTransport :=
  { host := host, port := port, pipeline := pipeline, connect_timeout_s := connect_timeout_s }

variable (s : TcpTransport)

def set_call (c : Nat) (call : Call) : TcpTransport :=
  { s with calls := Function.update s.calls c call }

def set_task (g : Nat) (task : ReadTask) : TcpTransport :=
  { s with tasks := Function.update s.tasks g task }

def set_conn (g : Nat) (conn : Conn) : TcpTransport :=
  { s with conns := Function.update s.conns g conn }

/-- The call is suspended somewhere else. -/
def move (c : Nat) (place : CallAt) : TcpTransport :=
  s.set_call c { s.calls c with place := place }

/-- The call ends; the locks that it holds are released on the way out. -/
def end_call (c : Nat) (place : CallAt) : TcpTransport :=
  { s.move c place with
    connection_lock := if s.connection_lock = some c then none else s.connection_lock
    serial_lock := if s.serial_lock = some c then none else s.serial_lock }

def transport_is_closed : PyError := .modbus (.ModbusError "transport is closed")

/-! ## Sending -/

/-- The probe of `_allocate_tid`, over at most `fuel` ids. -/
def probe (pending : Pending) : Nat → Nat → Option Nat × Nat
  | 0, next_tid => (none, next_tid)
  | fuel + 1, next_tid =>
    let tid := next_tid
    let next_tid := (next_tid + 1) % 0x10000
    if tid ∉ pending then (some tid, next_tid) else probe pending fuel next_tid

/-- `_allocate_tid`: the id, or nothing when the id space is exhausted, and the counter. -/
def allocate_tid (pending : Pending) (next_tid : Nat) : Option Nat × Nat :=
  probe pending 0x10000 next_tid

/-- The `finally` of a call that has an id, and its end. -/
def pop_and_end (c : Nat) (place : CallAt) : TcpTransport :=
  match (s.calls c).tid with
  | none => s.end_call c place
  | some tid => { s with pending := s.pending.erase tid }.end_call c place

/-- The call gets the id, and its future goes into `_pending`. -/
def register (c tid next_tid : Nat) : TcpTransport :=
  let probed := s.probed + ((tid + 0x10000 - s.next_tid) % 0x10000 + 1)
  { s with
    next_tid := next_tid
    probed := probed
    allocated := s.allocated + 1
    pending := s.pending.insert tid c
    calls := Function.update s.calls c
      { s.calls c with
        tid := some tid, future := .pending, probed_at := probed
        allocated_at := s.allocated + 1 } }

/-- The frame of the call is written, and the call is suspended in `writer.drain()`. -/
def write_frame (c writer : Nat) (frame : Bytes) : TcpTransport :=
  let conn := s.conns writer
  (s.set_conn writer { conn with sent := conn.sent ++ [frame] }).set_call c
    { s.calls c with conn := some writer, place := .draining }

/-- The `try` of `_send_and_receive_unlocked`, up to `writer.drain()`. -/
def write_request (c tid : Nat) : TcpTransport :=
  match s.writer with
  | none =>
    s.pop_and_end c (.raised (.modbus (.ModbusConnectionError "connection unavailable")))
  | some writer =>
    match encode_mbap_frame tid (s.calls c).unit_id (s.calls c).pdu with
    | .error e => s.pop_and_end c (.raised e)
    | .ok frame => s.write_frame c writer frame

/-- `_send_and_receive_unlocked` once it is connected. -/
def send_and_receive_unlocked (c : Nat) : TcpTransport :=
  match allocate_tid s.pending s.next_tid with
  | (none, next_tid) =>
    { s with next_tid := next_tid }.end_call c
      (.raised (.modbus (.ModbusError "transaction id space exhausted")))
  | (some tid, next_tid) => (s.register c tid next_tid).write_request c tid

/-- What a call does once `_ensure_connected` has returned. -/
def connected_call (c : Nat) : TcpTransport :=
  match (s.calls c).kind with
  | .send_and_receive => s.send_and_receive_unlocked c
  | _ => s.end_call c (.returned none)

/-- `_ensure_connected`, up to its lock. -/
def ensure_connected (c : Nat) : TcpTransport :=
  if s.connected then s.connected_call c else s.move c .connection_lock

/-- `_ensure_connected` behind its lock, up to `open_connection`. -/
def ensure_connected_locked (c : Nat) : TcpTransport :=
  if s.connected then s.connected_call c
  else if s.closed then s.end_call c (.raised transport_is_closed)
  else { s with connection_lock := some c }.move c .opening

/-- The connection is there: the fields get it, and its read loop is created. -/
def install : TcpTransport :=
  { s with
    reader := some s.opened
    writer := some s.opened
    connected := true
    read_task := some s.opened
    tasks := Function.update s.tasks s.opened { place := .created }
    opened := s.opened + 1
    connection_lock := none }

/-- The rest of `_ensure_connected`, behind `open_connection`. -/
def ensure_connected_opened (c : Nat) : TcpTransport := s.install.connected_call c

/-! ## Teardown -/

def teardown_reason : Agent → String
  | .caller _ => "closed by user"
  | .reader _ => "read loop ended"

/-- `_teardown` is suspended. -/
def suspend_teardown (a : Agent) (at_ : TeardownAt) : TcpTransport :=
  match a with
  | .caller c => s.move c (.teardown at_)
  | .reader g => s.set_task g { s.tasks g with place := .teardown at_ }

/-- The futures in `_pending` that are not done get the exception. -/
def fail_pending (a : Agent) : Nat → Call := fun c =>
  let call := s.calls c
  if c ∈ s.pending.values ∧ call.future = .pending then
    { call with future := .exception (.modbus (.ModbusConnectionError
      s!"connection lost ({teardown_reason a})")) a }
  else call

/-- The last lines of `_teardown`, behind its last `await`. -/
def clear_pending (a : Agent) : TcpTransport :=
  { s with read_task := none, calls := s.fail_pending a, pending := ∅ }

/-- The end of `_teardown`, and of the coroutine that ran it. -/
def teardown_end (a : Agent) : TcpTransport :=
  let cleared := s.clear_pending a
  match a with
  | .caller c => cleared.end_call c .closed
  | .reader g => cleared.set_task g { cleared.tasks g with place := .done }

/-- `task.cancel()`. A read loop that itself awaits another one is never the task that
`_teardown` cancels, so nothing is passed on to an awaited task here. -/
def cancel_task (g : Nat) : TcpTransport :=
  s.set_task g { s.tasks g with cancel_requested := true }

/-- `_teardown` behind `wait_closed`: it cancels the read task, unless that is itself. -/
def teardown_closed (a : Agent) : TcpTransport :=
  match s.read_task with
  | none => s.teardown_end a
  | some task =>
    if a ≠ .reader task ∧ (s.tasks task).place ≠ .done then
      (s.cancel_task task).suspend_teardown a (.await_task task)
    else
      s.teardown_end a

/-- The first lines of `_teardown`. -/
def disconnect : TcpTransport :=
  { s with connected := false, writer := none, reader := none }

/-- `_teardown` up to its first `await`. -/
def teardown (a : Agent) : TcpTransport :=
  match s.writer with
  | some writer => s.disconnect.suspend_teardown a (.wait_closed writer)
  | none => s.disconnect.teardown_closed a

/-- Where the teardown of an agent is suspended. -/
def teardown_at : Agent → Option TeardownAt
  | .caller c => match (s.calls c).place with
    | .teardown at_ => some at_
    | _ => none
  | .reader g => match (s.tasks g).place with
    | .teardown at_ => some at_
    | _ => none

/-- A cancellation of the agent is on its way. -/
def cancel_pending : Agent → Bool
  | .caller _ => false
  | .reader g => (s.tasks g).cancel_requested

/-! ## The read loop -/

/-- The first step of `_read_loop`. A task that was cancelled before it never runs. -/
def read_loop (g : Nat) : TcpTransport :=
  if (s.tasks g).cancel_requested then s.set_task g { place := .done }
  else
    match s.reader with
    | none => s.set_task g { place := .done }   -- the `assert` ends the task
    | some reader => s.set_task g { place := .reading reader }

/-- What `_read_loop` does with a frame. -/
def dispatch_frame (frame : Bytes) (origin : Option Nat) : TcpTransport :=
  match decode_mbap_frame frame with
  | .error _ => s
  | .ok (tid, _, pdu) =>
    match s.pending.lookup tid with
    | none => s
    | some c =>
      if (s.calls c).future = .pending then
        s.set_call c { s.calls c with future := .result pdu origin }
      else s

/-- One turn of the loop: the frame is taken off the stream and dispatched. -/
def read_loop_frame (reader : Nat) : Option TcpTransport :=
  let conn := s.conns reader
  match read_frame conn.unread with
  | .ok (some (frame, behind)) =>
    let taken := s.set_conn reader { conn with unread := behind, replies := conn.replies.tail }
    some (taken.dispatch_frame frame conn.replies.head?)
  | _ => none

/-- The reads raise: the connection is lost, or the length of a frame cannot be read. -/
def read_raises (reader : Nat) : Bool :=
  (s.conns reader).lost ||
    match read_frame (s.conns reader).unread with
    | .error _ => true
    | .ok _ => false

/-! ## Ends of calls -/

/-- The call is interrupted while it waits: its future is cancelled with it. -/
def interrupt (c : Nat) (i : Interrupt) : TcpTransport :=
  let call := s.calls c
  s.set_call c { call with
    interrupt := some i
    future := if call.future = .pending then .cancelled else call.future }

/-- How a waiting call goes on, when it can. A timeout or a cancellation comes before a result that
is there already, as in the `wait_for` of Python 3.12. -/
def wake (call : Call) : Option CallAt :=
  match call.interrupt, call.future with
  | some .timeout, _ =>
    some (.raised (.modbus (.ModbusTimeoutError
      s!"no response within {call.timeout_s}s for tid={call.tid.getD 0}")))
  | some .cancel, _ => some (.raised .CancelledError)
  | none, .result pdu _ => some (.returned (some pdu))
  | none, .exception e _ => some (.raised e)
  | none, .cancelled => some (.raised .CancelledError)
  | none, .pending => none

/-- The task of the call is cancelled. -/
def cancel_call (c : Nat) : Option TcpTransport :=
  match (s.calls c).place with
  | .serial_lock | .connection_lock | .opening => some (s.end_call c (.raised .CancelledError))
  | .draining => some (s.pop_and_end c (.raised .CancelledError))
  | .waiting => some (s.interrupt c .cancel)
  | .teardown (.wait_closed _) => some (s.end_call c (.raised .CancelledError))
  | .teardown (.await_task task) => some (s.cancel_task task)
  | .absent | .returned _ | .raised _ | .closed => none

/-- How `open_connection` fails. -/
inductive OpenFailure
  | timeout
  | os_error (message : String)
  deriving DecidableEq, Repr

def open_error : OpenFailure → PyError
  | .timeout => .modbus (.ModbusConnectionError
      s!"connect timeout to {s.host}:{s.port} after {s.connect_timeout_s}s")
  | .os_error e => .modbus (.ModbusConnectionError
      s!"connect failed to {s.host}:{s.port}: {e}")

end TcpTransport

/-! ## Steps -/

open TcpTransport

/-- One step of a coroutine, or of the surroundings. -/
inductive Event
  | start_connect (c : Nat)
  | start_send (c : Nat) (pdu : Bytes) (unit_id : Int) (timeout_s : String)
  | start_close (c : Nat)
  | serial_acquired (c : Nat)
  | lock_acquired (c : Nat)
  | opened (c : Nat)
  | open_failed (c : Nat) (failure : OpenFailure)
  | drained (c : Nat)
  | send_failed (c : Nat) (message : String)
  | timed_out (c : Nat)
  | resumed (c : Nat)
  | cancelled (c : Nat)
  | read_started (g : Nat)
  | frame_read (g : Nat)
  | read_ended (g : Nat)
  | read_cancelled (g : Nat)
  | closed_waited (a : Agent)
  | task_awaited (a : Agent)
  | teardown_cancelled (g : Nat)
  | peer_replied (c : Nat) (unit_id : Int) (pdu : Bytes)
  | peer_sent (g : Nat) (bytes : Bytes)
  | bytes_arrived (g n : Nat)
  | connection_lost (g : Nat)
  deriving DecidableEq, Repr

/-- The reply to the frame of the call goes on the wire of the connection that the frame was
written to, with the transaction id of the frame. -/
def peer_reply (s : TcpTransport) (c : Nat) (unit_id : Int) (pdu : Bytes) :
    Option TcpTransport :=
  let call := s.calls c
  match call.conn, call.tid, call.answer with
  | some g, some tid, none =>
    match encode_mbap_frame tid unit_id pdu with
    | .error _ => none
    | .ok frame =>
      let conn := s.conns g
      some ((s.set_conn g { conn with
        wire := conn.wire ++ frame, replies := conn.replies ++ [c] }).set_call c
          { call with answer := some pdu })
  | _, _, _ => none

def step (s : TcpTransport) : Event → Option TcpTransport
  | .start_connect c =>
    if (s.calls c).place = .absent then
      let s := s.set_call c { kind := .connect }
      if s.closed then some (s.end_call c (.raised transport_is_closed))
      else some (s.ensure_connected c)
    else none
  | .start_send c pdu unit_id timeout_s =>
    if (s.calls c).place = .absent then
      let s := s.set_call c
        { kind := .send_and_receive, pdu := pdu, unit_id := unit_id, timeout_s := timeout_s }
      if s.closed then some (s.end_call c (.raised transport_is_closed))
      else if s.pipeline then some (s.ensure_connected c)
      else some (s.move c .serial_lock)
    else none
  | .start_close c =>
    if (s.calls c).place = .absent then
      some ({ s.set_call c { kind := .close } with closed := true }.teardown (.caller c))
    else none
  | .serial_acquired c =>
    if (s.calls c).place = .serial_lock ∧ s.serial_lock = none then
      some ({ s with serial_lock := some c }.ensure_connected c)
    else none
  | .lock_acquired c =>
    if (s.calls c).place = .connection_lock ∧ s.connection_lock = none then
      some (s.ensure_connected_locked c)
    else none
  | .opened c =>
    if (s.calls c).place = .opening then some (s.ensure_connected_opened c) else none
  | .open_failed c failure =>
    if (s.calls c).place = .opening then
      some (s.end_call c (.raised (s.open_error failure)))
    else none
  | .drained c =>
    if (s.calls c).place = .draining then some (s.move c .waiting) else none
  | .send_failed c message =>
    if (s.calls c).place = .draining then
      some (s.pop_and_end c (.raised (.modbus (.ModbusConnectionError
        s!"send failed: {message}"))))
    else none
  | .timed_out c =>
    if (s.calls c).place = .waiting ∧ (s.calls c).interrupt = none then
      some (s.interrupt c .timeout)
    else none
  | .resumed c =>
    if (s.calls c).place = .waiting then
      (wake (s.calls c)).map (s.pop_and_end c)
    else none
  | .cancelled c => s.cancel_call c
  | .read_started g =>
    if (s.tasks g).place = .created then some (s.read_loop g) else none
  | .frame_read g =>
    match (s.tasks g).place with
    | .reading reader =>
      if (s.tasks g).cancel_requested then none else s.read_loop_frame reader
    | _ => none
  | .read_ended g =>
    match (s.tasks g).place with
    | .reading reader =>
      if !(s.tasks g).cancel_requested && s.read_raises reader then
        some (s.teardown (.reader g))
      else none
    | _ => none
  | .read_cancelled g =>
    match (s.tasks g).place with
    | .reading _ =>
      if (s.tasks g).cancel_requested then
        -- the exception is thrown into the loop, whose `finally` runs uncancelled
        some ((s.set_task g { s.tasks g with cancel_requested := false }).teardown (.reader g))
      else none
    | _ => none
  | .closed_waited a =>
    match s.teardown_at a with
    | some (.wait_closed _) => if s.cancel_pending a then none else some (s.teardown_closed a)
    | _ => none
  | .task_awaited a =>
    match s.teardown_at a with
    | some (.await_task task) =>
      if (s.tasks task).place = .done then some (s.teardown_end a) else none
    | _ => none
  | .teardown_cancelled g =>
    match (s.tasks g).place with
    | .teardown (.wait_closed _) =>
      -- `CancelledError` is no `Exception`: it ends the teardown where it stands
      if (s.tasks g).cancel_requested then some (s.set_task g { place := .done }) else none
    | _ => none
  | .peer_replied c unit_id pdu => peer_reply s c unit_id pdu
  | .peer_sent g bytes =>
    let conn := s.conns g
    some (s.set_conn g { conn with wire := conn.wire ++ bytes })
  | .bytes_arrived g n =>
    let conn := s.conns g
    some (s.set_conn g { conn with
      unread := conn.unread ++ conn.wire.take n, wire := conn.wire.drop n })
  | .connection_lost g => some (s.set_conn g { s.conns g with lost := true })

end pymod.tcp
