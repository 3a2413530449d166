-- Calls of `AsyncClient.execute` over one transport, each with the retry loop of its own, and
-- what such a client needs of the port or connection that the transport holds.
import Pymod.Retry
import Pymod.Lib.Runs
import Mathlib.Logic.Function.Basic

namespace pymod.executions

open errors codec retry Function Runs

/-! ## The calls of `execute` -/

/-- A transport, as far as `execute` sees it: its steps, the start of a `send_and_receive`, and
how that call ended. -/
structure Transport (σ ε : Type) where
  step : σ → ε → Option σ
  send_and_receive : Nat → Bytes → Int → String → ε
  outcome : σ → Nat → Option (Except PyError Bytes)

/-- Where a call of `execute` stands: behind a call of `send_and_receive`, or in the sleep before
the attempt. -/
inductive ExecutionAt
  | sending (call : Nat)
  | sleeping
  | ended (outcome : Except PyError Bytes)

/-- One call of `execute`, with its effective unit id and timeout, and its policy. -/
structure Execution (F : Type) [Timing F] where
  pdu : Bytes
  unit_id : Int
  timeout_s : String
  policy : RetryPolicy F
  attempt : Nat := 1
  place : ExecutionAt

structure Client (F σ : Type) [Timing F] where
  transport : σ
  tasks : Nat → Option (Execution F) := fun _ => none

/-- A step of an `execute`, or any step of the transport under it. -/
inductive Event (F ε : Type) [Timing F]
  | executed (i c : Nat) (pdu : Bytes) (unit_id : Int) (timeout_s : String) (policy : RetryPolicy F)
  | resumed (i : Nat)
  | slept (i c : Nat)
  | cancelled (i : Nat)
  | transport (e : ε)

section

variable {F σ ε : Type} [Timing F] (t : Transport σ ε) (s : Client F σ)

/-- The attempt is over: the loop returns, goes to sleep before its next turn, or raises. -/
def Execution.turn (self : Execution F) (outcome : Except PyError Bytes) : Execution F :=
  match outcome with
  | .ok resp => { self with place := .ended (.ok resp) }
  | .error e =>
    if self.policy.retry_on e ∧ (self.attempt : Int) < self.policy.max_attempts then
      { self with attempt := self.attempt + 1, place := .sleeping }
    else
      { self with place := .ended (.error e) }

/-- The calls of `execute` after the event, when it can happen. -/
def Client.next : Event F ε → Option (Nat → Option (Execution F))
  | .executed i c pdu unit_id timeout_s policy =>
    match s.tasks i with
    | some _ => none
    | none =>
      let place :=
        if policy.max_attempts < 1 then .ended (.error (.AssertionError "")) else .sending c
      some (update s.tasks i (some { pdu, unit_id, timeout_s, policy, place }))
  | .resumed i => do
    let x ← s.tasks i
    match x.place with
    | .sending c =>
      let outcome ← t.outcome s.transport c
      some (update s.tasks i (some (x.turn outcome)))
    | _ => none
  | .slept i c => do
    let x ← s.tasks i
    match x.place, pause x.policy x.attempt with
    | .sleeping, .elapsed => some (update s.tasks i (some { x with place := .sending c }))
    | .sleeping, .raises e =>
      some (update s.tasks i (some { x with place := .ended (.error e) }))
    | _, _ => none
  | .cancelled i => do
    let x ← s.tasks i
    match x.place with
    | .sleeping =>
      some (update s.tasks i (some { x with place := .ended (.error .CancelledError) }))
    | _ => none   -- the call of the transport is cancelled
  | .transport _ => some s.tasks

/-- The step of the transport in the event. -/
def Client.emit : Event F ε → Option ε
  | .executed _ c pdu unit_id timeout_s policy =>
    if policy.max_attempts < 1 then none else some (t.send_and_receive c pdu unit_id timeout_s)
  | .slept i c => do
    let x ← s.tasks i
    match pause x.policy x.attempt with
    | .elapsed => some (t.send_and_receive c x.pdu x.unit_id x.timeout_s)
    | _ => none
  | .transport e => some e
  | .resumed _ | .cancelled _ => none

def step (e : Event F ε) : Option (Client F σ) := do
  let tasks ← s.next t e
  let transport ← run t.step s.transport (s.emit t e).toList
  some { transport, tasks }

/-- What happens at the transport in a run of the client. -/
def transport_events (es : List (Event F ε)) : List ε :=
  emitted (step t) (Client.emit t) s es

variable {t s}

theorem run_transport_events {s' : Client F σ} {es : List (Event F ε)}
    (hrun : run (step t) s es = some s') :
    run t.step s.transport (transport_events t s es) = some s'.transport := by
  apply run_emitted Client.transport _ hrun
  intro u e u' he
  simp only [step, Option.bind_eq_bind, Option.bind_eq_some_iff] at he
  obtain ⟨tasks, _, transport, htransport, hnew⟩ := he
  cases hnew
  exact htransport

end

/-! ## What it needs of a port or a connection -/

/-- A transport with the handles of the ports or connections that it opens, numbered in that
order. `begins` says between two states that an exchange begins on a handle, `fails` that an exchange
fails with `ModbusConnectionError` in an event; `attempts` gives the `send_and_receive` that gets
the lock. -/
structure Line (σ ε : Type) extends Transport σ ε where
  opened : σ → Nat
  held : σ → Option Nat
  begins : σ → σ → Nat → Prop
  fails : σ → ε → σ → Bool
  attempts : σ → ε → Option Nat
  opening : σ → Nat → Prop
  refused : σ → Nat → Prop

namespace Line

variable {σ ε : Type} (line : Line σ ε)

/-- Of each exchange that failed so, how many handles had been opened until then. -/
def failure (s : σ) (e : ε) (s' : σ) : Option Nat :=
  if line.fails s e s' then some (line.opened s') else none

def step_noting : σ × List Nat → ε → Option (σ × List Nat) := noting line.step line.failure

/-- The handle was opened behind all the failures. -/
def Fresh (failures : List Nat) (handle : Nat) : Prop := ∀ n ∈ failures, n ≤ handle

/-- An exchange begins on no handle that was there before a failure. An attempt that gets the lock
finds a fresh one, or opens one, unless the transport is closed. -/
structure Reconnects (s : σ × List Nat) (e : ε) : Prop where
  fresh : ∀ s', line.step s.1 e = some s' → ∀ handle, line.begins s.1 s' handle → Fresh s.2 handle
  reopens : ∀ c ∈ line.attempts s.1 e, ∀ s', line.step s.1 e = some s' →
    (∃ handle ∈ line.held s.1, Fresh s.2 handle) ∨ line.opening s' c ∨ line.refused s' c

/-- The property all along the events. -/
def AlwaysReconnects (s : σ) (es : List ε) : Prop :=
  Guarded line.step_noting line.Reconnects (s, []) es

end Line

end pymod.executions
