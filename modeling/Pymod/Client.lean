-- A write batch of `AsyncClient` over a pipelined `TcpTransport`: the tasks of the chunks, each
-- with the retry loop of `execute` around its request, the transport that they share, and the
-- peer, which applies each frame that it receives once and replies when it likes.
import Pymod.BatchMemory
import Pymod.TcpRequests

namespace pymod.client

open errors codec adu_tcp types planner server Function
open tcp (TcpTransport)

/-! ## The retry policy -/

/-- The default of `retry_on`. -/
def transport_errors : ModbusError → Bool
  | .ModbusTimeoutError _ | .ModbusConnectionError _ => true
  | _ => false

structure RetryPolicy where
  max_attempts : Int := 2
  retry_on : ModbusError → Bool := transport_errors

/-- `except policy.retry_on` -/
def RetryPolicy.retries (policy : RetryPolicy) : PyError → Bool
  | .modbus e => policy.retry_on e
  | _ => false

/-! ## The state -/

/-- What `AsyncClient.write` starts: the chunks of the plan, and what their calls of `execute`
have in common. -/
structure WriteBatch where
  chunks : List WriteChunk
  policy : RetryPolicy
  unit_id : Int
  timeout_s : String

/-- Where the task of a chunk stands: behind a call of `send_and_receive`, or in the sleep before
the next attempt. -/
inductive TaskAt
  | created
  | sending (call : Nat)
  | sleeping
  | done (result : Except PyError WriteChunkResult)

def TaskAt.begun : TaskAt → Bool
  | .created => false
  | _ => true

structure Task where
  attempt : Int := 0
  place : TaskAt := .created

/-- A client and its peer. `owner` has the chunk that a call of the transport belongs to,
`received` the number of frames of a connection that the peer has received, `responses` what the
peer made of the frame of a call, and `arrivals` the chunks whose frames it received. -/
structure Session where
  transport : TcpTransport
  memory : Memory
  tasks : Nat → Task := fun _ => {}
  owner : Nat → Option Nat := fun _ => none
  received : Nat → Nat := fun _ => 0
  responses : Nat → Option (Except PyError Bytes) := fun _ => none
  arrivals : List Nat := []

namespace Session

/-- A client that has not connected yet, and the memory of its peer. -/
def new (host : String) (port : Int) (connect_timeout_s : String) (memory : Memory) : Session :=
  { transport := TcpTransport.new host port true connect_timeout_s, memory }

/-! ## The task of a chunk -/

/-- An `execute` that keeps its request. -/
def keep_request : Bytes → Py (Option Bytes) Bytes := fun req _ => (.error .CancelledError, some req)

/-- An `execute` that ends like that. -/
def end_with (outcome : Except PyError Bytes) : Bytes → Py Unit Bytes := fun _ s => (outcome, s)

/-- The request that the task hands to `execute`, when it gets that far. -/
def request (chunk : WriteChunk) : Option Bytes :=
  (execute_write_chunk chunk keep_request none).2

/-- What the task comes to when `execute` ends like that. -/
def result (chunk : WriteChunk) (outcome : Except PyError Bytes) : Except PyError WriteChunkResult :=
  (execute_write_chunk chunk (end_with outcome) ()).1

variable (batch : WriteBatch) (s : Session)

def end_task (j : Nat) (chunk : WriteChunk) (outcome : Except PyError Bytes) : Session :=
  { s with tasks := update s.tasks j { s.tasks j with place := .done (result chunk outcome) } }

/-- One turn of the loop of `execute`, up to the `await` of `send_and_receive`. -/
def send (j : Nat) (attempt : Int) (c : Nat) (pdu : Bytes) : Option Session :=
  if s.owner c = none then
    (tcp.step s.transport (.start_send c pdu batch.unit_id batch.timeout_s)).map fun transport =>
      { s with
        transport
        owner := update s.owner c (some j)
        tasks := update s.tasks j { attempt, place := .sending c } }
  else
    none

/-- The first step of the task. Without an attempt, the loop of `execute` ends at its `assert`. -/
def begin_task (j c : Nat) (chunk : WriteChunk) : Option Session :=
  match request chunk with
  | none => some (s.end_task j chunk (.error .CancelledError))   -- `execute` is not called
  | some pdu =>
    if batch.policy.max_attempts < 1 then some (s.end_task j chunk (.error (.AssertionError "")))
    else s.send batch j 1 c pdu

/-- The rest of a turn: the loop returns, goes to sleep before its next turn, or raises. -/
def resume_task (j c : Nat) (chunk : WriteChunk) : Option Session :=
  match (s.transport.calls c).place with
  | .returned (some pdu) => some (s.end_task j chunk (.ok pdu))
  | .raised e =>
    if batch.policy.retries e ∧ (s.tasks j).attempt < batch.policy.max_attempts then
      some { s with tasks := update s.tasks j { s.tasks j with place := .sleeping } }
    else
      some (s.end_task j chunk (.error e))
  | _ => none

/-- The next turn, behind the sleep. -/
def send_again (j c : Nat) (chunk : WriteChunk) : Option Session := do
  let pdu ← request chunk
  s.send batch j ((s.tasks j).attempt + 1) c pdu

/-! ## The peer -/

/-- What the peer does with a frame. -/
def apply_frame (peer : Server Memory) (frame : Bytes) (memory : Memory) :
    Except PyError Bytes × Memory :=
  match decode_mbap_frame frame with
  | .error e => (.error e, memory)
  | .ok (_, uid, pdu) => dispatch peer uid pdu memory

/-- The peer receives the next frame of a connection, which is the one of the call. -/
def receive (peer : Server Memory) (c : Nat) : Option Session := do
  let call := s.transport.calls c
  let j ← s.owner c
  let g ← call.conn
  let tid ← call.tid
  let frame ← (encode_mbap_frame tid call.unit_id call.pdu).toOption
  if (s.transport.conns g).sent[s.received g]? = some frame ∧ s.responses c = none then
    let answer := apply_frame peer frame s.memory
    some { s with
      memory := answer.2
      received := update s.received g (s.received g + 1)
      responses := update s.responses c (some answer.1)
      arrivals := s.arrivals ++ [j] }
  else
    none

end Session

/-! ## The steps -/

/-- One step of a task of the batch, of the transport under it, or of the peer. -/
inductive Event
  | begun (j c : Nat)
  | resumed (j : Nat)
  | slept (j c : Nat)
  | transport (e : tcp.Event)
  | received (c : Nat)
  | replied (c : Nat)

/-- The steps of the transport that belong to no chunk and no reply. A `connect` or a `close` goes
by a number of its own. -/
def ambient (s : Session) : tcp.Event → Bool
  | .start_send _ _ _ _ | .peer_replied _ _ _ | .peer_sent _ _ => false
  | .start_connect c | .start_close c => (s.owner c).isNone
  | _ => true

/-- The tasks get their first steps in the order in which `gather` has created them. -/
def step (batch : WriteBatch) (peer : Server Memory) (s : Session) : Event → Option Session
  | .begun j c => do
    let chunk ← batch.chunks[j]?
    if (s.tasks j).place.begun = false ∧ ∀ i < j, (s.tasks i).place.begun = true then
      s.begin_task batch j c chunk
    else
      none
  | .resumed j => do
    let chunk ← batch.chunks[j]?
    match (s.tasks j).place with
    | .sending c => s.resume_task batch j c chunk
    | _ => none
  | .slept j c => do
    let chunk ← batch.chunks[j]?
    match (s.tasks j).place with
    | .sleeping => s.send_again batch j c chunk
    | _ => none
  | .transport e =>
    if ambient s e then (tcp.step s.transport e).map fun transport => { s with transport }
    else none
  | .received c => s.receive peer c
  | .replied c =>
    match s.responses c with
    | some (.ok pdu) =>
      (tcp.step s.transport (.peer_replied c (s.transport.calls c).unit_id pdu)).map fun transport =>
        { s with transport }
    | _ => none

/-! ## The results -/

/-- What `plan_and_execute_writes` returns once all tasks have returned. -/
def results {F : Type} (batch : WriteBatch) (items : List (WriteItem F)) (s : Session) :
    Option (List (WriteResult F)) := do
  let chunk_results ← (List.range batch.chunks.length).mapM fun j =>
    match (s.tasks j).place with
    | .done (.ok cr) => some cr
    | _ => none
  some (chunk_results.foldl apply_error
    (items.map fun item => { item, ok := true, error := none }))

end pymod.client
