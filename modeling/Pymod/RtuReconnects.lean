-- The connections of `RtuOverTcpTransport`: a connection whose exchange failed is torn down under
-- the lock, and the next attempt opens another one.
import Pymod.Executions
import Pymod.RtuOverTcp

namespace pymod.rtu_over_tcp

open RtuOverTcpTransport errors codec adu_rtu Readers Function Runs executions

/-! ## The connections -/

/-- The call has raised `ModbusConnectionError`, or raises it behind `wait_closed`. -/
def connection_failed : CallAt → Bool
  | .wait_closed (some (.modbus (.ModbusConnectionError _)))
  | .raised (.modbus (.ModbusConnectionError _)) => true
  | _ => false

/-- An exception of the connection ends the exchange of a call. -/
def fails (_ : RtuOverTcpTransport) (e : Event) (s' : RtuOverTcpTransport) : Bool :=
  match e with
  | .send_failed c _ | .read_incomplete c | .read_failed c _ => connection_failed (s'.calls c).place
  | _ => false

def attempts (s : RtuOverTcpTransport) : Event → Option Nat
  | .lock_acquired c => if (s.calls c).kind = .send_and_receive then some c else none
  | _ => none

def outcome (s : RtuOverTcpTransport) (c : Nat) : Option (Except PyError Bytes) :=
  match (s.calls c).place with
  | .returned (some pdu) => some (.ok pdu)
  | .raised e => some (.error e)
  | _ => none

/-- An exchange begins when its frame is written. -/
def line : Line RtuOverTcpTransport Event where
  step := step
  send_and_receive := .start_send
  outcome := outcome
  opened := RtuOverTcpTransport.opened
  held := RtuOverTcpTransport.writer
  begins s s' g := (s'.conns g).sent ≠ (s.conns g).sent
  fails := fails
  attempts := attempts
  opening s c := (s.calls c).place = .opening
  refused s c := (s.calls c).place = .raised transport_is_closed

/-! ## What a step does to the connection -/

/-- The transport keeps its connection, and writes frames only there. -/
structure Kept (s s' : RtuOverTcpTransport) : Prop where
  writer : s'.writer = s.writer
  connected : s'.connected = s.connected
  opened : s'.opened = s.opened
  sent : ∀ g, (s'.conns g).sent ≠ (s.conns g).sent → s.writer = some g

/-- The transport has none any more. -/
structure Dropped (s s' : RtuOverTcpTransport) : Prop where
  writer : s'.writer = none
  connected : s'.connected = false
  opened : s'.opened = s.opened
  sent : ∀ g, (s'.conns g).sent ≠ (s.conns g).sent → s.writer = some g

theorem kept_of_conns {s s' : RtuOverTcpTransport} (hwriter : s'.writer = s.writer)
    (hconnected : s'.connected = s.connected) (hopened : s'.opened = s.opened)
    (hconns : s'.conns = s.conns) : Kept s s' :=
  ⟨hwriter, hconnected, hopened, fun g hg => absurd (by rw [hconns]) hg⟩

theorem kept_end_call (s : RtuOverTcpTransport) (c : Nat) (place : CallAt) :
    Kept s (s.end_call c place) := kept_of_conns rfl rfl rfl rfl

theorem kept_move (s : RtuOverTcpTransport) (c : Nat) (place : CallAt) :
    Kept s (s.move c place) := kept_of_conns rfl rfl rfl rfl

theorem Kept.trans {s t u : RtuOverTcpTransport} (h : Kept s t) (h' : Kept t u) : Kept s u := by
  refine ⟨h'.writer.trans h.writer, h'.connected.trans h.connected, h'.opened.trans h.opened, ?_⟩
  intro g hg
  by_cases hgt : (t.conns g).sent = (s.conns g).sent
  · rw [← h.writer]
    exact h'.sent g (hgt ▸ hg)
  · exact h.sent g hgt

theorem Kept.dropped {s t u : RtuOverTcpTransport} (h : Kept s t) (h' : Dropped t u) :
    Dropped s u := by
  refine ⟨h'.writer, h'.connected, h'.opened.trans h.opened, ?_⟩
  intro g hg
  by_cases hgt : (t.conns g).sent = (s.conns g).sent
  · rw [← h.writer]
    exact h'.sent g (hgt ▸ hg)
  · exact h.sent g hgt

theorem kept_set_call (s : RtuOverTcpTransport) (c : Nat) (call : Call) :
    Kept s (s.set_call c call) := kept_of_conns rfl rfl rfl rfl

/-- A connection changes, but for the frames written to it. -/
theorem kept_set_conn (s : RtuOverTcpTransport) {g : Nat} {conn : Conn}
    (hsent : conn.sent = (s.conns g).sent) : Kept s (s.set_conn g conn) := by
  refine ⟨rfl, rfl, rfl, ?_⟩
  intro k hk
  apply absurd _ hk
  by_cases hkg : k = g
  · subst hkg
    simp [RtuOverTcpTransport.set_conn, hsent]
  · simp [RtuOverTcpTransport.set_conn, update_of_ne hkg]

theorem kept_write_request (s : RtuOverTcpTransport) (c : Nat) : Kept s (s.write_request c) := by
  unfold RtuOverTcpTransport.write_request
  split
  · rename_i writer _ hwriter _
    split
    · exact kept_end_call s c _
    · refine ⟨rfl, rfl, rfl, ?_⟩
      intro g hg
      by_cases hgw : g = writer
      · rw [hgw]
        exact hwriter
      · apply absurd _ hg
        simp [RtuOverTcpTransport.write_frame, RtuOverTcpTransport.move,
          RtuOverTcpTransport.set_call, RtuOverTcpTransport.set_conn, update_of_ne hgw]
  · exact kept_end_call s c _

theorem kept_opened_call (s : RtuOverTcpTransport) (c : Nat) : Kept s (s.opened_call c) := by
  unfold RtuOverTcpTransport.opened_call
  split
  · exact kept_write_request s c
  · exact kept_end_call s c _

theorem kept_open_locked (s : RtuOverTcpTransport) (c : Nat) : Kept s (s.open_locked c) := by
  unfold RtuOverTcpTransport.open_locked
  split
  · exact kept_opened_call s c
  · split
    · exact kept_end_call s c _
    · exact kept_move s c _

theorem dropped_teardown_locked (s : RtuOverTcpTransport) (c : Nat) (e : Option PyError) :
    Dropped s (s.teardown_locked c e) := by
  unfold RtuOverTcpTransport.teardown_locked
  split
  · exact ⟨rfl, rfl, rfl, fun g hg => absurd rfl hg⟩
  · cases e <;> exact ⟨rfl, rfl, rfl, fun g hg => absurd rfl hg⟩

theorem kept_check_response (s : RtuOverTcpTransport) (c : Nat) (frame : Bytes) :
    Kept s (s.check_response c frame) := by
  unfold RtuOverTcpTransport.check_response
  split
  · exact kept_end_call s c _
  · split <;> exact kept_end_call s c _

theorem kept_resume_reading (s : RtuOverTcpTransport) (c reader : Nat)
    (r : Reader UInt8 PyError Bytes) : Kept s (s.resume_reading c reader r) := by
  cases r with
  | read_exactly n k => exact kept_move s c _
  | raised e => exact kept_end_call s c _
  | done frame => exact kept_check_response s c frame

theorem kept_take_bytes (s : RtuOverTcpTransport) (c reader n : Nat) :
    Kept s (s.take_bytes c reader n) := by
  apply Kept.trans _ (kept_set_call _ c _)
  apply kept_set_conn
  rfl

theorem kept_cancel_call {s s' : RtuOverTcpTransport} {c : Nat}
    (h : s.cancel_call c = some s') : Kept s s' := by
  unfold RtuOverTcpTransport.cancel_call at h
  split at h <;> cases h <;> exact kept_end_call s c _

theorem kept_answer_call {s s' : RtuOverTcpTransport} {g c : Nat} {answer : Bytes}
    (h : answer_call s g c answer = some s') : Kept s s' := by
  simp only [answer_call, Option.ite_none_right_eq_some] at h
  obtain ⟨_, h⟩ := h
  cases h
  apply Kept.trans _ (kept_set_call _ c _)
  apply kept_set_conn
  rfl

/-- The transport keeps its connection, drops it, or opens the next one. -/
inductive Connects (s s' : RtuOverTcpTransport) : Event → Prop
  | kept (e : Event) (h : Kept s s') (hfails : fails s e s' = false) : Connects s s' e
  | dropped (e : Event) (h : Dropped s s') : Connects s s' e
  | opened (c : Nat) (h : Kept s.install s') : Connects s s' (.opened c)

theorem connects_step {s s' : RtuOverTcpTransport} {e : Event} (he : step s e = some s') :
    Connects s s' e := by
  cases e with
  | start_connect c =>
    simp only [step] at he
    split at he
    · split at he <;> cases he <;> exact .kept _ (kept_of_conns rfl rfl rfl rfl) rfl
    · cases he
  | start_send c pdu unit_id timeout_s =>
    simp only [step] at he
    split at he
    · split at he
      · cases he
        exact .kept _ (kept_of_conns rfl rfl rfl rfl) rfl
      · split at he <;> cases he <;> exact .kept _ (kept_of_conns rfl rfl rfl rfl) rfl
    · cases he
  | start_close c =>
    simp only [step] at he
    split at he <;> cases he
    exact .kept _ (kept_of_conns rfl rfl rfl rfl) rfl
  | lock_acquired c =>
    simp only [step] at he
    split at he <;> cases he
    have hlock : Kept s { s with lock := some c } := kept_of_conns rfl rfl rfl rfl
    unfold RtuOverTcpTransport.locked
    split
    · exact .dropped _ (hlock.dropped (dropped_teardown_locked _ c none))
    · exact .kept _ (hlock.trans (kept_open_locked _ c)) rfl
  | opened c =>
    simp only [step] at he
    split at he <;> cases he
    exact .opened c (kept_opened_call s.install c)
  | open_failed c failure =>
    simp only [step] at he
    split at he <;> cases he
    exact .kept _ (kept_end_call s c _) rfl
  | drained c =>
    simp only [step] at he
    split at he <;> cases he <;> exact .kept _ (kept_of_conns rfl rfl rfl rfl) rfl
  | send_failed c message =>
    simp only [step] at he
    split at he <;> cases he
    exact .dropped _ (dropped_teardown_locked s c _)
  | read c =>
    simp only [step] at he
    split at he
    · simp only [Option.ite_none_right_eq_some] at he
      obtain ⟨_, he⟩ := he
      cases he
      exact .kept _ ((kept_take_bytes s c _ _).trans (kept_resume_reading _ c _ _)) rfl
    · cases he
  | read_incomplete c =>
    simp only [step] at he
    split at he
    · simp only [Option.ite_none_right_eq_some] at he
      obtain ⟨_, he⟩ := he
      cases he
      apply Connects.dropped
      apply Kept.dropped _ (dropped_teardown_locked _ c _)
      apply kept_set_conn
      rfl
    · cases he
  | read_failed c message =>
    simp only [step] at he
    split at he <;> cases he
    exact .dropped _ (dropped_teardown_locked s c _)
  | timed_out c =>
    simp only [step] at he
    split at he <;> cases he
    exact .dropped _ (dropped_teardown_locked s c _)
  | writer_closed c =>
    simp only [step] at he
    split at he
    · rename_i e _
      cases he
      cases e <;> exact .kept _ (kept_end_call s c _) rfl
    · cases he
  | cancelled c => exact .kept _ (kept_cancel_call he) rfl
  | answered g c answer => exact .kept _ (kept_answer_call he) rfl
  | bytes_arrived g n =>
    cases he
    exact .kept _ (kept_set_conn s rfl) rfl
  | peer_closed g =>
    cases he
    exact .kept _ (kept_set_conn s rfl) rfl

/-! ## Runs -/

/-- No connection that the transport still holds was there before a failure. -/
structure Renewed (s : RtuOverTcpTransport × List Nat) : Prop where
  linked : s.1.connected = s.1.writer.isSome
  behind : ∀ n ∈ s.2, n ≤ s.1.opened
  fresh : ∀ g, s.1.writer = some g → Line.Fresh s.2 g

theorem renewed_step {s s' : RtuOverTcpTransport × List Nat} {e : Event} (h : Renewed s)
    (he : line.step_noting s e = some s') : Renewed s' := by
  obtain ⟨hstep, hnotes⟩ := noting_eq_some.mp he
  have hsame : line.fails s.1 e s'.1 = false → s'.2 = s.2 := by
    intro hfails
    simp [hnotes, Line.failure, hfails]
  cases connects_step hstep with
  | kept _ hkept hfails =>
    refine ⟨?_, ?_, ?_⟩
    · rw [hkept.connected, hkept.writer]
      exact h.linked
    · rw [hsame hfails, hkept.opened]
      exact h.behind
    · rw [hsame hfails, hkept.writer]
      exact h.fresh
  | dropped _ hdropped =>
    refine ⟨?_, ?_, ?_⟩
    · rw [hdropped.connected, hdropped.writer]
      rfl
    · intro n hn
      rw [hnotes] at hn
      rcases List.mem_append.mp hn with hnew | hold
      · simp only [Line.failure, Option.mem_toList] at hnew
        split at hnew
        · cases hnew
          exact Nat.le_refl _
        · cases hnew
      · rw [hdropped.opened]
        exact h.behind n hold
    · intro g hg
      rw [hdropped.writer] at hg
      cases hg
  | opened c hkept =>
    refine ⟨?_, ?_, ?_⟩
    · rw [hkept.connected, hkept.writer]
      rfl
    · intro n hn
      rw [hsame rfl] at hn
      rw [hkept.opened]
      exact (h.behind n hn).trans (Nat.le_succ _)
    · intro g hg
      rw [hkept.writer] at hg
      cases hg
      rw [hsame rfl]
      exact h.behind

/-- The connection that a frame is written to is the one that the transport holds, or opens. -/
theorem writes_to {s s' : RtuOverTcpTransport} {e : Event} (he : step s e = some s') {g : Nat}
    (hsent : (s'.conns g).sent ≠ (s.conns g).sent) : s.writer = some g ∨ g = s.opened := by
  cases connects_step he with
  | kept _ hkept => exact Or.inl (hkept.sent g hsent)
  | dropped _ hdropped => exact Or.inl (hdropped.sent g hsent)
  | opened c hkept =>
    have hinstalled : some s.opened = some g := hkept.sent g hsent
    cases hinstalled
    exact Or.inr rfl

/-- A `send_and_receive` that gets the lock without a connection opens one, or is refused. -/
theorem opens_or_refused {s : RtuOverTcpTransport} {c : Nat}
    (hkind : (s.calls c).kind = .send_and_receive) (hconnected : s.connected = false) :
    ((s.locked c).calls c).place = .opening ∨
      ((s.locked c).calls c).place = .raised transport_is_closed := by
  have hlocked : s.locked c = s.open_locked c := by
    simp only [RtuOverTcpTransport.locked, hkind]
  rw [hlocked, RtuOverTcpTransport.open_locked, if_neg (by simp [hconnected])]
  split
  · apply Or.inr
    simp [RtuOverTcpTransport.end_call, RtuOverTcpTransport.move, RtuOverTcpTransport.release,
      RtuOverTcpTransport.set_call]
  · apply Or.inl
    simp [RtuOverTcpTransport.move, RtuOverTcpTransport.set_call]

theorem Renewed.reconnects {s : RtuOverTcpTransport × List Nat} (h : Renewed s) (e : Event) :
    line.Reconnects s e := by
  constructor
  · intro s' he g hg
    rcases writes_to he hg with hheld | rfl
    · exact h.fresh g hheld
    · exact h.behind
  · intro c hc s' he
    cases e with
    | lock_acquired d =>
      obtain ⟨hkind, hd⟩ : (s.1.calls d).kind = .send_and_receive ∧ d = c := by
        simpa [line, attempts] using hc
      subst hd
      cases hconnected : s.1.connected with
      | true =>
        obtain ⟨g, hg⟩ := Option.isSome_iff_exists.mp (h.linked.symm.trans hconnected)
        exact Or.inl ⟨g, hg, h.fresh g hg⟩
      | false =>
        simp only [line, step] at he
        split at he <;> cases he
        exact Or.inr (opens_or_refused hkind hconnected)
    | _ => cases hc

/-- Whatever happens, a connection is not used again once an exchange on it has failed. -/
theorem always_reconnects (host : String) (port : Int) (connect_timeout_s : String)
    (es : List Event) : line.AlwaysReconnects (new host port connect_timeout_s) es := by
  apply guarded_of_invariant (fun _ _ _ => renewed_step) (fun _ e h => h.reconnects e)
  refine ⟨rfl, ?_, ?_⟩
  · rintro n ⟨⟩
  · rintro g ⟨⟩

end pymod.rtu_over_tcp
