-- What the steps of the TCP transport leave of a call: the request that it was started with, and
-- the answer of its peer.
import Pymod.TcpConnections

namespace pymod.tcp

open TcpTransport errors Function codec adu_tcp

/-! ## Calls that are carried on -/

/-- The call keeps its request and its answer, and its frame stays written. -/
structure Carried (x y : Call) : Prop where
  pdu : y.pdu = x.pdu
  unit_id : y.unit_id = x.unit_id
  answer : y.answer = x.answer
  written : x.conn ≠ none → y.conn ≠ none

theorem Carried.unanswered {x y : Call} (h : Carried x y) (hnone : x.answer = none) :
    y.answer = none := h.answer.trans hnone

def Carries (s s' : TcpTransport) : Prop := ∀ c, Carried (s.calls c) (s'.calls c)

theorem Carried.refl (x : Call) : Carried x x := ⟨rfl, rfl, rfl, fun h => h⟩

theorem Carries.refl (s : TcpTransport) : Carries s s := fun c => .refl (s.calls c)

theorem Carries.trans {s s' s'' : TcpTransport} (h : Carries s s') (h' : Carries s' s'') :
    Carries s s'' := fun c =>
  ⟨(h' c).pdu.trans (h c).pdu, (h' c).unit_id.trans (h c).unit_id,
    (h' c).answer.trans (h c).answer, fun hconn => (h' c).written ((h c).written hconn)⟩

theorem carries_of_calls {s s' : TcpTransport} (h : s'.calls = s.calls) : Carries s s' := fun c => by
  rw [h]
  exact .refl (s.calls c)

theorem carries_of_update {s s' : TcpTransport} {c : Nat} {call : Call}
    (hcalls : s'.calls = update s.calls c call) (hcall : Carried (s.calls c) call) :
    Carries s s' := by
  intro d
  rw [hcalls]
  by_cases hd : d = c
  · subst hd
    simpa using hcall
  · rw [update_of_ne hd]
    exact .refl (s.calls d)

theorem move_carries (s : TcpTransport) (c : Nat) (place : CallAt) : Carries s (s.move c place) :=
  carries_of_update rfl ⟨rfl, rfl, rfl, fun h => h⟩

theorem end_call_carries (s : TcpTransport) (c : Nat) (place : CallAt) :
    Carries s (s.end_call c place) :=
  carries_of_update rfl ⟨rfl, rfl, rfl, fun h => h⟩

theorem pop_and_end_carries (s : TcpTransport) (c : Nat) (place : CallAt) :
    Carries s (s.pop_and_end c place) := by
  unfold pop_and_end
  split
  · exact end_call_carries s c place
  · exact (carries_of_calls rfl).trans (end_call_carries _ c place)

theorem register_carries (s : TcpTransport) (c tid next_tid : Nat) :
    Carries s (s.register c tid next_tid) :=
  carries_of_update rfl ⟨rfl, rfl, rfl, fun h => h⟩

theorem write_frame_carries (s : TcpTransport) (c writer : Nat) (frame : Bytes) :
    Carries s (s.write_frame c writer frame) :=
  carries_of_update rfl ⟨rfl, rfl, rfl, fun _ h => by cases h⟩

theorem write_request_carries (s : TcpTransport) (c tid : Nat) :
    Carries s (s.write_request c tid) := by
  unfold write_request
  split
  · exact pop_and_end_carries s c _
  · split
    · exact pop_and_end_carries s c _
    · exact write_frame_carries s c _ _

theorem send_and_receive_unlocked_carries (s : TcpTransport) (c : Nat) :
    Carries s (s.send_and_receive_unlocked c) := by
  unfold send_and_receive_unlocked
  split
  · exact (carries_of_calls rfl).trans (end_call_carries _ c _)
  · exact (register_carries s c _ _).trans (write_request_carries _ c _)

theorem connected_call_carries (s : TcpTransport) (c : Nat) : Carries s (s.connected_call c) := by
  unfold connected_call
  split
  · exact send_and_receive_unlocked_carries s c
  · exact end_call_carries s c _

theorem ensure_connected_carries (s : TcpTransport) (c : Nat) :
    Carries s (s.ensure_connected c) := by
  unfold ensure_connected
  split
  · exact connected_call_carries s c
  · exact move_carries s c _

theorem ensure_connected_locked_carries (s : TcpTransport) (c : Nat) :
    Carries s (s.ensure_connected_locked c) := by
  unfold ensure_connected_locked
  split
  · exact connected_call_carries s c
  · split
    · exact end_call_carries s c _
    · exact (carries_of_calls rfl).trans (move_carries _ c _)

theorem ensure_connected_opened_carries (s : TcpTransport) (c : Nat) :
    Carries s (s.ensure_connected_opened c) :=
  (carries_of_calls rfl).trans (connected_call_carries s.install c)

/-! ## Teardowns and frames -/

theorem suspend_teardown_carries (s : TcpTransport) (a : Agent) (w : TeardownAt) :
    Carries s (s.suspend_teardown a w) := by
  cases a with
  | caller c => exact move_carries s c _
  | reader g => exact carries_of_calls rfl

theorem clear_pending_carries (s : TcpTransport) (a : Agent) : Carries s (s.clear_pending a) := by
  intro c
  simp only [clear_pending, fail_pending]
  split <;> exact ⟨rfl, rfl, rfl, fun h => h⟩

theorem teardown_end_carries (s : TcpTransport) (a : Agent) : Carries s (s.teardown_end a) := by
  cases a with
  | caller c => exact (clear_pending_carries s _).trans (end_call_carries _ c _)
  | reader g => exact (clear_pending_carries s _).trans (carries_of_calls rfl)

theorem teardown_closed_carries (s : TcpTransport) (a : Agent) :
    Carries s (s.teardown_closed a) := by
  unfold teardown_closed
  split
  · exact teardown_end_carries s a
  · split
    · refine Carries.trans ?_ (suspend_teardown_carries (s.cancel_task _) a _)
      exact carries_of_calls rfl
    · exact teardown_end_carries s a

theorem teardown_carries (s : TcpTransport) (a : Agent) : Carries s (s.teardown a) := by
  unfold teardown
  split
  · refine Carries.trans ?_ (suspend_teardown_carries s.disconnect a _)
    exact carries_of_calls rfl
  · refine Carries.trans ?_ (teardown_closed_carries s.disconnect a)
    exact carries_of_calls rfl

theorem interrupt_carries (s : TcpTransport) (c : Nat) (i : Interrupt) :
    Carries s (s.interrupt c i) :=
  carries_of_update rfl ⟨rfl, rfl, rfl, fun h => h⟩

theorem dispatch_frame_carries (s : TcpTransport) (frame : Bytes) (origin : Option Nat) :
    Carries s (s.dispatch_frame frame origin) := by
  unfold dispatch_frame
  split
  · exact .refl s
  · split
    · exact .refl s
    · split
      · exact carries_of_update rfl ⟨rfl, rfl, rfl, fun h => h⟩
      · exact .refl s

theorem read_loop_frame_carries {s s' : TcpTransport} {r : Nat}
    (h : s.read_loop_frame r = some s') : Carries s s' := by
  obtain ⟨frame, behind, -, rfl⟩ := read_loop_frame_spec h
  refine Carries.trans ?_ (dispatch_frame_carries (s.set_conn r _) _ _)
  exact carries_of_calls rfl

theorem cancel_call_carries {s s' : TcpTransport} {c : Nat} (h : s.cancel_call c = some s') :
    Carries s s' := by
  unfold cancel_call at h
  split at h <;> cases h
  · exact end_call_carries s c _
  · exact end_call_carries s c _
  · exact end_call_carries s c _
  · exact pop_and_end_carries s c _
  · exact interrupt_carries s c _
  · exact end_call_carries s c _
  · exact carries_of_calls rfl

/-! ## The steps -/

/-- The call that the event starts. -/
def Event.starts : Event → Option Nat
  | .start_connect c | .start_send c _ _ _ | .start_close c => some c
  | _ => none

/-- The call that the event answers. -/
def Event.answers : Event → Option Nat
  | .peer_replied c _ _ => some c
  | _ => none

/-- A call starts with no answer, and a call of `send_and_receive` with its request. -/
theorem start_carries {s s' : TcpTransport} {e : Event} {c : Nat} (h : step s e = some s')
    (hc : e.starts = some c) : ∃ call : Call, Carries (s.set_call c call) s' ∧
      call.answer = none ∧ ∀ pdu unit_id timeout_s, e = .start_send c pdu unit_id timeout_s →
        call.pdu = pdu ∧ call.unit_id = unit_id := by
  cases e with
  | start_connect d =>
    cases hc
    simp only [step, Option.ite_none_right_eq_some] at h
    obtain ⟨-, h⟩ := h
    refine ⟨{ kind := .connect }, ?_, rfl, fun _ _ _ he => by cases he⟩
    split at h <;> cases h
    · exact end_call_carries _ c _
    · exact ensure_connected_carries _ c
  | start_send d pdu unit_id timeout_s =>
    cases hc
    simp only [step, Option.ite_none_right_eq_some] at h
    obtain ⟨-, h⟩ := h
    let call : Call :=
      { kind := .send_and_receive, pdu := pdu, unit_id := unit_id, timeout_s := timeout_s }
    refine ⟨call, ?_, rfl, fun _ _ _ he => by cases he; exact ⟨rfl, rfl⟩⟩
    split at h
    · cases h
      exact end_call_carries _ c _
    · split at h <;> cases h
      · exact ensure_connected_carries _ c
      · exact move_carries _ c _
  | start_close d =>
    cases hc
    simp only [step, Option.ite_none_right_eq_some] at h
    obtain ⟨-, h⟩ := h
    cases h
    refine ⟨{ kind := .close }, ?_, rfl, fun _ _ _ he => by cases he⟩
    refine Carries.trans ?_ (teardown_carries _ _)
    exact carries_of_calls rfl
  | _ => cases hc

/-- A step carries on the calls that it neither starts nor answers. -/
theorem step_carries {s s' : TcpTransport} {e : Event} (h : step s e = some s') {c : Nat}
    (hstarts : e.starts ≠ some c) (hanswers : e.answers ≠ some c) :
    Carried (s.calls c) (s'.calls c) := by
  have hother : ∀ {d : Nat}, e.starts = some d → Carried (s.calls c) (s'.calls c) := by
    intro d hd
    obtain ⟨call, hcarries, -⟩ := start_carries h hd
    have hcarried := hcarries c
    rw [TcpTransport.set_call] at hcarried
    have hcd : c ≠ d := fun heq => hstarts (by rw [heq]; exact hd)
    simpa only [update_of_ne hcd] using hcarried
  cases e with
  | start_connect d => exact hother rfl
  | start_send d pdu unit_id timeout_s => exact hother rfl
  | start_close d => exact hother rfl
  | serial_acquired d =>
    simp only [step, Option.ite_none_right_eq_some] at h
    obtain ⟨-, h⟩ := h
    cases h
    refine Carries.trans ?_ (ensure_connected_carries _ d) c
    exact carries_of_calls rfl
  | lock_acquired d =>
    simp only [step, Option.ite_none_right_eq_some] at h
    obtain ⟨-, h⟩ := h
    cases h
    exact ensure_connected_locked_carries s d c
  | opened d =>
    simp only [step, Option.ite_none_right_eq_some] at h
    obtain ⟨-, h⟩ := h
    cases h
    exact ensure_connected_opened_carries s d c
  | open_failed d failure =>
    simp only [step, Option.ite_none_right_eq_some] at h
    obtain ⟨-, h⟩ := h
    cases h
    exact end_call_carries s d _ c
  | drained d =>
    simp only [step, Option.ite_none_right_eq_some] at h
    obtain ⟨-, h⟩ := h
    cases h
    exact move_carries s d _ c
  | send_failed d message =>
    simp only [step, Option.ite_none_right_eq_some] at h
    obtain ⟨-, h⟩ := h
    cases h
    exact pop_and_end_carries s d _ c
  | timed_out d =>
    simp only [step, Option.ite_none_right_eq_some] at h
    obtain ⟨-, h⟩ := h
    cases h
    exact interrupt_carries s d _ c
  | resumed d =>
    simp only [step, Option.ite_none_right_eq_some, Option.map_eq_some_iff] at h
    obtain ⟨-, place, -, rfl⟩ := h
    exact pop_and_end_carries s d place c
  | cancelled d => exact cancel_call_carries h c
  | read_started g =>
    simp only [step, Option.ite_none_right_eq_some] at h
    obtain ⟨-, h⟩ := h
    cases h
    unfold TcpTransport.read_loop
    split
    · exact .refl _
    · split <;> exact .refl _
  | frame_read g =>
    simp only [step] at h
    split at h
    · split at h
      · cases h
      · exact read_loop_frame_carries h c
    · cases h
  | read_ended g =>
    simp only [step] at h
    split at h
    · split at h <;> cases h
      exact teardown_carries s _ c
    · cases h
  | read_cancelled g =>
    simp only [step] at h
    split at h
    · split at h <;> cases h
      refine Carries.trans ?_ (teardown_carries _ _) c
      exact carries_of_calls rfl
    · cases h
  | closed_waited a =>
    simp only [step] at h
    split at h
    · split at h <;> cases h
      exact teardown_closed_carries s a c
    · cases h
  | task_awaited a =>
    simp only [step] at h
    split at h
    · split at h <;> cases h
      exact teardown_end_carries s a c
    · cases h
  | teardown_cancelled g =>
    simp only [step] at h
    split at h
    · split at h <;> cases h
      exact .refl _
    · cases h
  | peer_replied d unit_id pdu =>
    obtain ⟨g, tid, frame, -, -, -, -, hcalls, -⟩ := peer_reply_spec h
    rw [hcalls, update_of_ne fun heq => hanswers (by rw [heq]; rfl)]
    exact .refl _
  | peer_sent g bytes =>
    cases h
    exact .refl _
  | bytes_arrived g n =>
    cases h
    exact .refl _
  | connection_lost g =>
    cases h
    exact .refl _

end pymod.tcp
