-- A teardown comes back from its awaits at any time: when a transport that is
-- connected has a read loop that hears the replies, and when it is deaf.
import Pymod.TcpIds

namespace pymod.tcp

open TcpTransport errors Function Runs

/-! ## A transport that is connected hears -/

/-- When the transport is connected, its reader and writer are those of the latest connection,
whose read loop is about to run or reads, and has not been cancelled. -/
def Hears (s : TcpTransport) : Prop :=
  s.connected = true → ∃ g, s.opened = g + 1 ∧ s.reader = some g ∧ s.writer = some g ∧
    ((s.tasks g).place = .created ∨ (s.tasks g).place = .reading g) ∧
    (s.tasks g).cancel_requested = false

/-- The teardown that comes back from `wait_closed`. -/
def Event.waited : Event → Option Agent
  | .closed_waited a => some a
  | _ => none

/-- No teardown comes back from `wait_closed` while the transport is connected and the read task
is that of another loop, which is not done. -/
def NoneDisturbed (s : TcpTransport) (e : Event) : Prop :=
  ∀ a ∈ e.waited, s.connected = true → ∀ t ∈ s.read_task, a ≠ .reader t →
    (s.tasks t).place = .done

instance (s : TcpTransport) (e : Event) : Decidable (NoneDisturbed s e) :=
  inferInstanceAs (Decidable (∀ a ∈ e.waited, _))

theorem Hears.of_link {s s' : TcpTransport} (h : Hears s) (hl : s'.link = s.link) : Hears s' := by
  intro hc
  have hconn : s'.connected = s.connected := congrArg Link.connected hl
  obtain ⟨g, h1, h2, h3, h4, h5⟩ := h (hconn ▸ hc)
  have htask : s'.tasks g = s.tasks g := congrArg (fun l => Link.tasks l g) hl
  refine ⟨g, (congrArg Link.opened hl).trans h1, (congrArg Link.reader hl).trans h2,
    (congrArg Link.writer hl).trans h3, ?_, ?_⟩
  · rw [htask]
    exact h4
  · rw [htask]
    exact h5

theorem hears_of_disconnected {s : TcpTransport} (h : s.connected = false) : Hears s := by
  intro hc
  rw [h] at hc
  cases hc

/-- A task that is not the one that is heard changes. -/
theorem Hears.set_task {s : TcpTransport} (h : Hears s) {k : Nat} {task : ReadTask}
    (hk : ¬ Live (s.tasks k) ∨ (s.tasks k).cancel_requested = true) :
    Hears (s.set_task k task) := by
  intro hc
  obtain ⟨g, h1, h2, h3, h4, h5⟩ := h hc
  have hgk : g ≠ k := by
    rintro rfl
    rcases hk with hk | hk
    · apply hk
      rcases h4 with h4 | h4
      · exact .inl h4
      · exact .inr ⟨g, h4⟩
    · rw [h5] at hk
      cases hk
  refine ⟨g, h1, h2, h3, ?_, ?_⟩
  · simpa [TcpTransport.set_task, update_of_ne hgk] using h4
  · simpa [TcpTransport.set_task, update_of_ne hgk] using h5

theorem Stopping.not_heard {task : ReadTask} (h : Stopping task) :
    ¬ Live task ∨ task.cancel_requested = true := by
  rcases h with hc | ⟨w, hw⟩ | hd
  · exact .inr hc
  · exact .inl (not_live_teardown hw)
  · exact .inl (not_live_done hd)

/-- The agent of a teardown is no read loop that still reads. -/
def Left (s : TcpTransport) (a : Agent) : Prop := ∀ g, a = .reader g → ¬ Live (s.tasks g)

theorem Hears.teardown_end {s : TcpTransport} (h : Hears s) {a : Agent} (ha : Left s a) :
    Hears (s.teardown_end a) := by
  have hclear : Hears (s.clear_pending a) := h
  unfold TcpTransport.teardown_end
  rcases a with c | g
  · exact hclear.of_link rfl
  · exact hclear.set_task (.inl (ha g rfl))

@[simp] theorem connected_teardown_end (s : TcpTransport) (a : Agent) :
    (s.teardown_end a).connected = s.connected := by
  rcases a with c | g <;> rfl

@[simp] theorem connected_suspend (s : TcpTransport) (a : Agent) (w : TeardownAt) :
    (s.suspend_teardown a w).connected = s.connected := by
  rcases a with c | g <;> rfl

@[simp] theorem connected_teardown_closed (s : TcpTransport) (a : Agent) :
    (s.teardown_closed a).connected = s.connected := by
  unfold TcpTransport.teardown_closed
  split
  · simp
  · split
    · simp [TcpTransport.cancel_task, TcpTransport.set_task]
    · simp

@[simp] theorem connected_teardown (s : TcpTransport) (a : Agent) :
    (s.teardown a).connected = false := by
  unfold TcpTransport.teardown
  split <;> simp [disconnect]

theorem left_of_teardown_at {s : TcpTransport} {a : Agent} {w : TeardownAt}
    (h : s.teardown_at a = some w) : Left s a := by
  rintro g rfl hl
  simp only [teardown_at] at h
  split at h
  · rename_i hp
    exact not_live_teardown hp hl
  · cases h

theorem hears_install (s : TcpTransport) : Hears s.install := by
  intro _
  refine ⟨s.opened, rfl, rfl, rfl, ?_, ?_⟩
  · left
    simp [install]
  · simp [install]

/-- The loop that starts is the one of the connection. -/
theorem Hears.starts {s : TcpTransport} (h : Hears s) (ht : Tidy s) {g : Nat}
    (hplace : (s.tasks g).place = .created) : Hears (s.read_loop g) := by
  intro hc
  have hconn : s.connected = true := by
    unfold TcpTransport.read_loop at hc
    split at hc
    · exact hc
    · split at hc <;> exact hc
  obtain ⟨k, h1, h2, h3, h4, h5⟩ := h hconn
  have hkg : k = g := by
    have : s.opened = g + 1 := (ht.linked.live_latest g (.inl hplace)).1
    omega
  subst hkg
  unfold TcpTransport.read_loop
  rw [if_neg (by simp [h5]), h2]
  refine ⟨k, h1, h2, h3, ?_, ?_⟩
  · right
    simp
  · simp

/-- A teardown that comes back from `wait_closed` and disturbs no loop. -/
theorem Hears.waited {s : TcpTransport} (h : Hears s) {a : Agent} {w : Nat}
    (hw : s.teardown_at a = some (.wait_closed w)) (hg : NoneDisturbed s (.closed_waited a)) :
    Hears (s.teardown_closed a) := by
  rcases hconn : s.connected with _ | _
  · exact hears_of_disconnected (by rw [connected_teardown_closed, hconn])
  · -- nothing is cancelled while the transport is connected
    unfold TcpTransport.teardown_closed
    split
    · exact h.teardown_end (left_of_teardown_at hw)
    · rename_i t htask
      rw [if_neg]
      · exact h.teardown_end (left_of_teardown_at hw)
      · rintro ⟨hother, hrun⟩
        exact hrun (hg a rfl hconn t htask hother)

theorem hears_step {s s' : TcpTransport} {e : Event} (h : Tidy s ∧ Hears s)
    (hg : NoneDisturbed s e) (he : step s e = some s') : Tidy s' ∧ Hears s' := by
  obtain ⟨ht, hh⟩ := h
  refine ⟨tidy_step ht he, ?_⟩
  cases link_step he with
  | quiet hq => exact hh.of_link hq.link
  | closes | ends => exact hears_of_disconnected (connected_teardown _ _)
  | opens => exact hh
  | opened => exact (hears_install s).of_link (connected_call_quiet s.install _).link
  | gives_up hplace => exact hh.set_task (ht.awaited _ _ hplace).not_heard
  | starts hplace => exact hh.starts ht hplace
  | waited hw => exact hh.waited hw hg
  | awaited hw => exact hh.teardown_end (left_of_teardown_at hw)
  | stops hw => exact hh.set_task (.inl (not_live_teardown hw))

/-- A step that cancels the read task of a transport that is connected makes it deaf. -/
theorem deaf_step {s s' : TcpTransport} {e : Event} (h : Tidy s ∧ Hears s)
    (hg : ¬ NoneDisturbed s e) (he : step s e = some s') : ¬ Hears s' := by
  cases e with
  | closed_waited a =>
    obtain ⟨hconn, t, htask, hother, hrun⟩ : s.connected = true ∧ ∃ t, s.read_task = some t ∧
        a ≠ .reader t ∧ (s.tasks t).place ≠ .done := by
      simpa [NoneDisturbed, Event.waited] using hg
    simp only [step] at he
    split at he
    · split at he
      · cases he
      · cases he
        unfold TcpTransport.teardown_closed
        rw [htask]
        simp only
        rw [if_pos ⟨hother, hrun⟩]
        intro hh
        obtain ⟨g, h1, -, -, -, h5⟩ := hh (by
          simpa [TcpTransport.cancel_task, TcpTransport.set_task] using hconn)
        have hgt : g = t := by
          have h2 : s.opened = t + 1 := h.1.linked.task_latest t htask
          have h3 : s.opened = g + 1 := by
            rcases a with c | k <;> exact h1
          omega
        subst hgt
        rcases a with c | k
        · simp [suspend_teardown, TcpTransport.cancel_task, TcpTransport.set_task, move,
            set_call] at h5
        · have hgk : g ≠ k := by
            rintro rfl
            exact hother rfl
          simp [suspend_teardown, TcpTransport.cancel_task, TcpTransport.set_task,
            update_of_ne hgk] at h5
    · cases he
  | _ => exact absurd (by rintro a ⟨⟩) hg

/-- A transport hears at every point of a run exactly when in that run no teardown comes back
from `wait_closed` to find it connected with the read task of another loop. -/
theorem a_connected_transport_hears_iff (host : String) (port : Int) (pipeline : Bool)
    (connect_timeout_s : String) {es : List Event} {s : TcpTransport}
    (hrun : run step (new host port pipeline connect_timeout_s) es = some s) :
    Always step Hears (new host port pipeline connect_timeout_s) es ↔
      Guarded step NoneDisturbed (new host port pipeline connect_timeout_s) es := by
  apply always_iff_guarded (fun _ _ _ => hears_step) (fun _ hi => hi.2) (fun _ _ _ => deaf_step)
    _ hrun
  exact ⟨tidy_new host port pipeline connect_timeout_s, hears_of_disconnected rfl⟩

/-- A connection is lost, its teardown ends, and the next call opens another one. -/
def reconnect : List Event :=
  [.start_connect 0, .lock_acquired 0, .opened 0, .read_started 0, .connection_lost 0,
    .read_ended 0, .closed_waited (.reader 0), .start_send 1 [3, 0, 0, 0, 1] 1 "1.0",
    .lock_acquired 1, .opened 1, .read_started 1]

theorem a_reconnected_transport_hears :
    Always step Hears (new "plc" 502 true "3.0") reconnect :=
  (a_connected_transport_hears_iff "plc" 502 true "3.0" rfl).mpr
    (show Guarded step _ _ reconnect by decide +kernel)

/-- The teardown of a lost connection is still waiting for the old writer when a call opens a new
connection. It comes back before the new read loop has started. -/
def overlap : List Event :=
  [.start_connect 0, .lock_acquired 0, .opened 0, .read_started 0, .connection_lost 0,
    .read_ended 0, .start_send 1 [3, 0, 0, 0, 1] 1 "1.0", .lock_acquired 1, .opened 1,
    .closed_waited (.reader 0), .read_started 1]

/-- The new read loop is cancelled before it ever runs: the transport stays connected, a request
is on its way, and nobody will read the reply. -/
theorem a_connected_transport_is_deaf :
    ∃ s, run step (new "plc" 502 true "3.0") overlap = some s ∧ ¬ Hears s ∧
      s.connected = true ∧ (s.tasks 0).place = .teardown (.await_task 1) ∧
      (s.tasks 1).place = .done ∧ (s.conns 1).sent ≠ [] := by
  refine ⟨_, rfl, ?_, rfl, rfl, rfl, by decide⟩
  intro h
  obtain ⟨g, h1, -, -, h4, -⟩ := h rfl
  cases h1
  rcases h4 with h4 | h4 <;> cases h4

end pymod.tcp
