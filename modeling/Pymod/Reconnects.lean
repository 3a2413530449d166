-- `AsyncClient.execute` after a drop of the cable or of the gateway: which of the two RTU
-- transports gives the next attempt a new handle.
import Pymod.RtuReconnects
import Pymod.SerialReconnects

namespace pymod.executions

open errors codec adu_rtu retry Runs

/-- A client of a transport that nobody has called yet. -/
def Client.new {σ : Type} (F : Type) [Timing F] (transport : σ) : Client F σ := { transport }

/-- Under calls of `execute` with any policies, and any other calls: a connection of a gateway is
not used again behind a failed exchange, and the next attempt opens another one. A serial port is
not used again exactly when no attempt gets the lock behind a failed exchange before the port is
closed, whether it is a retry or a later call. -/
theorem a_failed_handle_is_dropped_iff {F : Type} [Timing F] :
    (∀ (host : String) (port : Int) (connect_timeout_s : String)
      (es : List (Event F rtu_over_tcp.Event)),
      let line := rtu_over_tcp.line
      let s := rtu_over_tcp.RtuOverTcpTransport.new host port connect_timeout_s
      let events := transport_events line.toTransport (Client.new F s) es
      (∀ s', run (step line.toTransport) (Client.new F s) es = some s' →
        run line.step s events = some s'.transport) ∧
      line.AlwaysReconnects s events) ∧
    ∀ (port : String) (es : List (Event F serial_transport.Event)),
      let line := serial_transport.line
      let s := serial_transport.SerialTransport.new port
      let events := transport_events line.toTransport (Client.new F s) es
      (∀ s', run (step line.toTransport) (Client.new F s) es = some s' →
        run line.step s events = some s'.transport) ∧
      (line.AlwaysReconnects s events ↔
        Guarded line.step_noting serial_transport.NoAttemptAfterFailure (s, []) events) := by
  constructor
  · intro host port connect_timeout_s es line s events
    refine ⟨fun s' hrun => run_transport_events hrun, ?_⟩
    exact rtu_over_tcp.always_reconnects host port connect_timeout_s events
  · intro port es line s events
    refine ⟨fun s' hrun => run_transport_events hrun, ?_⟩
    exact serial_transport.always_reconnects_iff port events

/-! ## A cable that drops -/

/-- The first call opens the port, and its exchange fails. -/
def cable_drops : List serial_transport.Event :=
  [.lock_acquired 0, .job_started 0, .port_opened 0, .resumed 0, .job_started 1, .gap_over 1,
    .written 1, .io_failed 1 (.Exception "SerialException" "device disconnected"), .resumed 0]

/-- The retry has the lock. -/
def written_again : List serial_transport.Event :=
  [.lock_acquired 1, .job_started 2, .gap_over 2, .written 2]

/-- An `execute` with the default policy. -/
def retried_read : List (Event Rat serial_transport.Event) :=
  .executed 0 0 [3, 0, 0, 0, 1] 1 "1.0" {} ::
    cable_drops.map .transport ++ .resumed 0 :: .slept 0 1 :: written_again.map .transport

theorem a_retry_uses_the_failed_port :
    ∃ s, run (step serial_transport.line.toTransport)
        (Client.new Rat (serial_transport.SerialTransport.new "COM3")) retried_read = some s ∧
      serial_transport.outcome s.transport 0 =
        some (.error (.modbus (.ModbusConnectionError "serial I/O error: device disconnected"))) ∧
      s.transport.written = [(0, rtu_frame 1 [3, 0, 0, 0, 1]), (0, rtu_frame 1 [3, 0, 0, 0, 1])] ∧
      ¬ serial_transport.line.AlwaysReconnects (serial_transport.SerialTransport.new "COM3")
        (transport_events serial_transport.line.toTransport
          (Client.new Rat (serial_transport.SerialTransport.new "COM3")) retried_read) := by
  have hrun : (run (step serial_transport.line.toTransport)
      (Client.new Rat (serial_transport.SerialTransport.new "COM3")) retried_read).map
        (fun s => (serial_transport.outcome s.transport 0, s.transport.written)) =
      some (some (.error (.modbus (.ModbusConnectionError "serial I/O error: device disconnected"))),
        [(0, rtu_frame 1 [3, 0, 0, 0, 1]), (0, rtu_frame 1 [3, 0, 0, 0, 1])]) := by decide +kernel
  obtain ⟨s, hs, hends⟩ := Option.map_eq_some_iff.mp hrun
  obtain ⟨houtcome, hwritten⟩ := Prod.mk.inj hends
  refine ⟨s, hs, houtcome, hwritten, ?_⟩
  rw [serial_transport.always_reconnects_iff]
  decide +kernel

end pymod.executions
