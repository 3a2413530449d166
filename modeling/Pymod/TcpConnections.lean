-- What every step of the TCP transport keeps in order: the fields `_reader`,
-- `_writer`, `_connected` and `_read_task`, and the read loops of all the
-- connections that were opened so far.
import Pymod.TcpTransport
import Pymod.Lib.Runs

namespace pymod.tcp

open TcpTransport errors codec adu_tcp Function

/-! ## The link -/

/-- The part of the transport that connections and teardowns change. -/
structure Link where
  reader : Option Nat
  writer : Option Nat
  read_task : Option Nat
  connected : Bool
  closed : Bool
  opened : Nat
  tasks : Nat → ReadTask

def TcpTransport.link (s : TcpTransport) : Link :=
  ⟨s.reader, s.writer, s.read_task, s.connected, s.closed, s.opened, s.tasks⟩

/-- The loop runs or is about to: it has not reached its teardown. -/
def Live (task : ReadTask) : Prop := task.place = .created ∨ ∃ r, task.place = .reading r

/-- The loop has been cancelled, or it has reached its teardown, or it is done. -/
def Stopping (task : ReadTask) : Prop :=
  task.cancel_requested = true ∨ (∃ w, task.place = .teardown w) ∨ task.place = .done

/-- A read loop that reads belongs to the latest connection, which is then connected, unless
the transport was closed. -/
structure Linked (l : Link) : Prop where
  same : l.reader = l.writer
  writer_latest : ∀ g, l.writer = some g → l.opened = g + 1
  connected_writer : l.connected = l.writer.isSome
  task_latest : ∀ g, l.read_task = some g → l.opened = g + 1
  unopened : ∀ g, l.opened ≤ g → l.tasks g = {}
  live_latest : ∀ g, Live (l.tasks g) → l.opened = g + 1 ∧ (l.connected = true ∨ l.closed = true)
  reading_own : ∀ g r, (l.tasks g).place = .reading r → r = g
  awaits_other : ∀ g t, (l.tasks g).place = .teardown (.await_task t) → l.read_task ≠ some g
  awaited : ∀ g t, (l.tasks g).place = .teardown (.await_task t) → Stopping (l.tasks t)

theorem not_live_default : ¬ Live {} := by
  rintro (h | ⟨r, h⟩) <;> cases h

theorem not_live_teardown {task : ReadTask} {w : TeardownAt} (h : task.place = .teardown w) :
    ¬ Live task := by
  rintro (h' | ⟨r, h'⟩) <;> rw [h] at h' <;> cases h'

theorem not_live_done {task : ReadTask} (h : task.place = .done) : ¬ Live task := by
  rintro (h' | ⟨r, h'⟩) <;> rw [h] at h' <;> cases h'

theorem Linked.opened_of_ne {l : Link} (h : Linked l) {g : Nat} (hg : l.tasks g ≠ {}) :
    g < l.opened := by
  by_contra hle
  exact hg (h.unopened g (by omega))

theorem Linked.opened_of_place {l : Link} (h : Linked l) {g : Nat}
    (hg : (l.tasks g).place ≠ .absent) : g < l.opened := by
  apply h.opened_of_ne
  intro hd
  exact hg (by rw [hd])

/-- The task of a read loop changes, in a way that starts no loop of an earlier connection. -/
def Link.with_task (l : Link) (g : Nat) (task : ReadTask) : Link :=
  { l with tasks := update l.tasks g task }

theorem Linked.with_task {l : Link} (h : Linked l) {g : Nat} {task : ReadTask}
    (hg : g < l.opened) (hlive : Live task → Live (l.tasks g))
    (hread : ∀ r, task.place = .reading r → r = g)
    (hstop : Stopping (l.tasks g) → Stopping task)
    (hother : ∀ t, task.place = .teardown (.await_task t) → l.read_task ≠ some g)
    (hawait : ∀ t, task.place = .teardown (.await_task t) → Stopping (l.tasks t)) :
    Linked (l.with_task g task) := by
  have hstill : ∀ t, Stopping (l.tasks t) → Stopping (update l.tasks g task t) := by
    intro t ht
    by_cases htg : t = g
    · subst htg
      rw [update_self]
      exact hstop ht
    · rw [update_of_ne htg]
      exact ht
  refine ⟨h.same, h.writer_latest, h.connected_writer, h.task_latest, ?_, ?_, ?_, ?_, ?_⟩
  all_goals simp only [Link.with_task]
  · intro k hk
    rw [update_of_ne (by omega)]
    exact h.unopened k hk
  · intro k hk
    by_cases hkg : k = g
    · subst hkg
      rw [update_self] at hk
      exact h.live_latest k (hlive hk)
    · rw [update_of_ne hkg] at hk
      exact h.live_latest k hk
  · intro k r hk
    by_cases hkg : k = g
    · subst hkg
      rw [update_self] at hk
      exact hread r hk
    · rw [update_of_ne hkg] at hk
      exact h.reading_own k r hk
  · intro k t hk
    by_cases hkg : k = g
    · subst hkg
      rw [update_self] at hk
      exact hother t hk
    · rw [update_of_ne hkg] at hk
      exact h.awaits_other k t hk
  · intro k t hk
    apply hstill
    by_cases hkg : k = g
    · subst hkg
      rw [update_self] at hk
      exact hawait t hk
    · rw [update_of_ne hkg] at hk
      exact h.awaited k t hk

/-- A task that stops for good. -/
theorem Linked.stop_task {l : Link} (h : Linked l) {g : Nat} {task : ReadTask}
    (hg : g < l.opened) (hplace : task.place = .done ∨ ∃ w, task.place = .teardown (.wait_closed w)) :
    Linked (l.with_task g task) := by
  apply h.with_task hg
  · intro hl
    rcases hplace with hp | ⟨w, hp⟩
    · exact absurd hl (not_live_done hp)
    · exact absurd hl (not_live_teardown hp)
  · intro r hr
    rcases hplace with hp | ⟨w, hp⟩ <;> rw [hp] at hr <;> cases hr
  · intro _
    rcases hplace with hp | ⟨w, hp⟩
    · exact .inr (.inr hp)
    · exact .inr (.inl ⟨_, hp⟩)
  · intro t ht
    rcases hplace with hp | ⟨w, hp⟩ <;> rw [hp] at ht <;> cases ht
  · intro t ht
    rcases hplace with hp | ⟨w, hp⟩ <;> rw [hp] at ht <;> cases ht

theorem Linked.cancel {l : Link} (h : Linked l) {g : Nat} (hg : g < l.opened) :
    Linked (l.with_task g { l.tasks g with cancel_requested := true }) := by
  apply h.with_task hg
  · exact id
  · exact h.reading_own g
  · intro _
    exact .inl rfl
  · exact h.awaits_other g
  · exact h.awaited g

theorem Linked.forget_task {l : Link} (h : Linked l) : Linked { l with read_task := none } :=
  ⟨h.same, h.writer_latest, h.connected_writer, by simp, h.unopened, h.live_latest,
    h.reading_own, by simp, h.awaited⟩

/-- The connection is given up when no read loop is left, or the transport is closed. -/
theorem Linked.disconnect {l : Link} (h : Linked l)
    (hlive : ∀ g, Live (l.tasks g) → l.closed = true) :
    Linked { l with connected := false, writer := none, reader := none } := by
  refine ⟨rfl, by simp, rfl, h.task_latest, h.unopened, ?_, h.reading_own, h.awaits_other,
    h.awaited⟩
  intro g hg
  exact ⟨(h.live_latest g hg).1, .inr (hlive g hg)⟩

def Link.install (l : Link) : Link :=
  { l with
    reader := some l.opened
    writer := some l.opened
    connected := true
    read_task := some l.opened
    tasks := update l.tasks l.opened { place := .created }
    opened := l.opened + 1 }

/-- A new connection, when no read loop is left. -/
theorem Linked.install {l : Link} (h : Linked l) (hno : ∀ g, ¬ Live (l.tasks g)) :
    Linked l.install := by
  have hold : ∀ g, g ≠ l.opened → l.install.tasks g = l.tasks g := fun g hg => update_of_ne hg _ _
  have hnew : l.install.tasks l.opened = { place := .created } := update_self _ _ _
  have hwas : ∀ g w, (l.install.tasks g).place = .teardown w → g ≠ l.opened := by
    rintro g w hg rfl
    rw [hnew] at hg
    cases hg
  refine ⟨rfl, ?_, rfl, ?_, ?_, ?_, ?_, ?_, ?_⟩
  · intro g hg
    cases hg
    rfl
  · intro g hg
    cases hg
    rfl
  · intro g hg
    have hlt : l.opened + 1 ≤ g := hg
    rw [hold g (by omega)]
    exact h.unopened g (by omega)
  · intro g hg
    by_cases hgo : g = l.opened
    · subst hgo
      exact ⟨rfl, .inl rfl⟩
    · rw [hold g hgo] at hg
      exact absurd hg (hno g)
  · intro g r hg
    by_cases hgo : g = l.opened
    · subst hgo
      rw [hnew] at hg
      cases hg
    · rw [hold g hgo] at hg
      exact h.reading_own g r hg
  · intro g t hg htask
    cases htask
    exact hwas _ _ hg rfl
  · intro g t hg
    have hgo := hwas g _ hg
    rw [hold g hgo] at hg
    have ht := h.awaited g t hg
    have hto : t ≠ l.opened := by
      rintro rfl
      rw [h.unopened l.opened (Nat.le_refl _)] at ht
      rcases ht with ht | ⟨w, ht⟩ | ht <;> cases ht
    rw [hold t hto]
    exact ht

/-! ## Steps that leave the link alone -/

/-- A call that neither opens a connection nor tears one down. -/
def Calm (place : CallAt) : Prop :=
  place ≠ .opening ∧ (∀ w, place ≠ .teardown w) ∧ place ≠ .closed

/-- The link stays, and each call stays where it is or goes to a calm place. -/
structure Quiet (s s' : TcpTransport) : Prop where
  link : s'.link = s.link
  places : ∀ d, (s'.calls d).place = (s.calls d).place ∨ Calm (s'.calls d).place
  lock : ∀ d, s.connection_lock = some d → (s'.calls d).place = .opening →
    s'.connection_lock = some d

theorem Quiet.refl (s : TcpTransport) : Quiet s s := ⟨rfl, fun _ => .inl rfl, fun _ h _ => h⟩

theorem Quiet.trans {s s' s'' : TcpTransport} (h : Quiet s s') (h' : Quiet s' s'') :
    Quiet s s'' := by
  refine ⟨h'.link.trans h.link, ?_, ?_⟩
  · intro d
    rcases h'.places d with hp' | hp'
    · rcases h.places d with hp | hp
      · exact .inl (hp'.trans hp)
      · exact .inr (hp' ▸ hp)
    · exact .inr hp'
  · intro d hlock hplace
    rcases h'.places d with hp' | hp'
    · exact h'.lock d (h.lock d hlock (hp' ▸ hplace)) hplace
    · exact absurd hplace hp'.1

/-- Only calls change, and none is moved but to a calm place. -/
theorem Quiet.of_calls {s s' : TcpTransport} (hlink : s'.link = s.link)
    (hlock : s'.connection_lock = s.connection_lock)
    (hplaces : ∀ d, (s'.calls d).place = (s.calls d).place ∨ Calm (s'.calls d).place) :
    Quiet s s' :=
  ⟨hlink, hplaces, fun _ h _ => hlock.trans h⟩

theorem set_call_quiet (s : TcpTransport) {c : Nat} {call : Call}
    (h : call.place = (s.calls c).place ∨ Calm call.place) : Quiet s (s.set_call c call) := by
  apply Quiet.of_calls
  · rfl
  · rfl
  · intro d
    by_cases hd : d = c
    · subst hd
      simpa [set_call] using h
    · simp [set_call, update_of_ne hd]

theorem set_conn_quiet (s : TcpTransport) (g : Nat) (conn : Conn) : Quiet s (s.set_conn g conn) :=
  ⟨rfl, fun _ => .inl rfl, fun _ h _ => h⟩

/-- The dictionary and the id counter are no part of the link. -/
theorem pending_quiet (s : TcpTransport) (next_tid : Nat) (pending : Pending) :
    Quiet s { s with next_tid := next_tid, pending := pending } :=
  ⟨rfl, fun _ => .inl rfl, fun _ h _ => h⟩

theorem move_quiet (s : TcpTransport) (c : Nat) {place : CallAt} (h : Calm place) :
    Quiet s (s.move c place) :=
  set_call_quiet s (.inr h)

theorem end_call_quiet (s : TcpTransport) (c : Nat) {place : CallAt} (h : Calm place) :
    Quiet s (s.end_call c place) := by
  refine ⟨rfl, (move_quiet s c h).places, ?_⟩
  intro d hlock hplace
  have hdc : d ≠ c := by
    rintro rfl
    simp only [end_call, move, set_call, update_self] at hplace
    exact h.1 hplace
  simp only [end_call, hlock]
  rw [if_neg (by simpa using hdc)]

theorem calm_raised (e : PyError) : Calm (.raised e) := ⟨by simp, by simp, by simp⟩
theorem calm_returned (r : Option Bytes) : Calm (.returned r) := ⟨by simp, by simp, by simp⟩

theorem pop_and_end_quiet (s : TcpTransport) (c : Nat) {place : CallAt} (h : Calm place) :
    Quiet s (s.pop_and_end c place) := by
  unfold pop_and_end
  split
  · exact end_call_quiet s c h
  · exact (pending_quiet s _ _).trans (end_call_quiet _ c h)

theorem register_quiet (s : TcpTransport) (c tid next_tid : Nat) :
    Quiet s (s.register c tid next_tid) := by
  apply Quiet.of_calls
  · rfl
  · rfl
  · intro d
    by_cases hd : d = c
    · subst hd
      simp [register]
    · simp [register, update_of_ne hd]

theorem write_request_quiet (s : TcpTransport) (c tid : Nat) :
    Quiet s (s.write_request c tid) := by
  unfold write_request
  split
  · exact pop_and_end_quiet s c (calm_raised _)
  · split
    · exact pop_and_end_quiet s c (calm_raised _)
    · apply (set_conn_quiet _ _ _).trans
      exact set_call_quiet _ (.inr ⟨by simp, by simp, by simp⟩)

theorem send_and_receive_unlocked_quiet (s : TcpTransport) (c : Nat) :
    Quiet s (s.send_and_receive_unlocked c) := by
  unfold send_and_receive_unlocked
  split
  · exact (pending_quiet s _ _).trans (end_call_quiet _ c (calm_raised _))
  · exact (register_quiet s c _ _).trans (write_request_quiet _ c _)

theorem connected_call_quiet (s : TcpTransport) (c : Nat) : Quiet s (s.connected_call c) := by
  unfold connected_call
  split
  · exact send_and_receive_unlocked_quiet s c
  · exact end_call_quiet s c (calm_returned _)

theorem ensure_connected_quiet (s : TcpTransport) (c : Nat) : Quiet s (s.ensure_connected c) := by
  unfold ensure_connected
  split
  · exact connected_call_quiet s c
  · exact move_quiet s c ⟨by simp, by simp, by simp⟩

theorem dispatch_frame_quiet (s : TcpTransport) (frame : Bytes) (origin : Option Nat) :
    Quiet s (s.dispatch_frame frame origin) := by
  unfold dispatch_frame
  split
  · exact .refl s
  · split
    · exact .refl s
    · split
      · exact set_call_quiet s (.inl rfl)
      · exact .refl s

theorem interrupt_quiet (s : TcpTransport) (c : Nat) (i : Interrupt) : Quiet s (s.interrupt c i) :=
  set_call_quiet s (.inl rfl)

theorem read_loop_frame_spec {s s' : TcpTransport} {r : Nat} (h : s.read_loop_frame r = some s') :
    ∃ frame behind, read_frame (s.conns r).unread = .ok (some (frame, behind)) ∧
      s' = (s.set_conn r { s.conns r with
        unread := behind, replies := (s.conns r).replies.tail }).dispatch_frame frame
          (s.conns r).replies.head? := by
  unfold read_loop_frame at h
  simp only at h
  split at h
  · rename_i frame behind hr
    cases h
    exact ⟨frame, behind, hr, rfl⟩
  · cases h

theorem read_loop_frame_quiet {s s' : TcpTransport} {r : Nat}
    (h : s.read_loop_frame r = some s') : Quiet s s' := by
  obtain ⟨frame, behind, -, rfl⟩ := read_loop_frame_spec h
  exact (set_conn_quiet _ _ _).trans (dispatch_frame_quiet _ _ _)

theorem peer_reply_spec {s s' : TcpTransport} {c : Nat} {unit_id : Int} {pdu : Bytes}
    (h : peer_reply s c unit_id pdu = some s') :
    ∃ g tid frame, (s.calls c).conn = some g ∧ (s.calls c).tid = some tid ∧
      (s.calls c).answer = none ∧ encode_mbap_frame (tid : Int) unit_id pdu = .ok frame ∧
      s'.calls = update s.calls c { s.calls c with answer := some pdu } ∧
      s'.conns = update s.conns g { s.conns g with
        wire := (s.conns g).wire ++ frame, replies := (s.conns g).replies ++ [c] } := by
  unfold peer_reply at h
  simp only at h
  split at h
  · rename_i g tid hg htid hnone
    split at h
    · cases h
    · rename_i frame hframe
      cases h
      exact ⟨g, tid, frame, hg, htid, hnone, hframe, rfl, rfl⟩
  · cases h

theorem peer_reply_quiet {s s' : TcpTransport} {c : Nat} {unit_id : Int} {pdu : Bytes}
    (h : peer_reply s c unit_id pdu = some s') : Quiet s s' := by
  unfold peer_reply at h
  simp only at h
  split at h
  · split at h
    · cases h
    · cases h
      apply (set_conn_quiet _ _ _).trans
      exact set_call_quiet _ (.inl rfl)
  · cases h

theorem wake_calm {call : Call} {place : CallAt} (h : wake call = some place) : Calm place := by
  unfold wake at h
  split at h <;> cases h
  all_goals first | exact calm_raised _ | exact calm_returned _

/-- A cancelled call leaves the link alone, unless it is a `close` that awaits the read task:
then that task is cancelled once more. -/
theorem cancel_call_cases {s s' : TcpTransport} {c : Nat} (h : s.cancel_call c = some s') :
    Quiet s s' ∨ ∃ t, (s.calls c).place = .teardown (.await_task t) ∧ s' = s.cancel_task t := by
  unfold cancel_call at h
  split at h <;> cases h
  · exact .inl (end_call_quiet s c (calm_raised _))
  · exact .inl (end_call_quiet s c (calm_raised _))
  · exact .inl (end_call_quiet s c (calm_raised _))
  · exact .inl (pop_and_end_quiet s c (calm_raised _))
  · exact .inl (interrupt_quiet s c _)
  · exact .inl (end_call_quiet s c (calm_raised _))
  · exact .inr ⟨_, ‹_›, rfl⟩

/-- The events that can change the link. -/
def Event.touches_link : Event → Bool
  | .start_close _ | .lock_acquired _ | .opened _ | .cancelled _ | .read_started _ | .read_ended _
  | .read_cancelled _ | .closed_waited _ | .task_awaited _ | .teardown_cancelled _ => true
  | _ => false

theorem quiet_step {s s' : TcpTransport} {e : Event} (h : step s e = some s')
    (he : e.touches_link = false) : Quiet s s' := by
  have hstart : ∀ c call, (s.calls c).place = .absent → call.place = .absent →
      Quiet s (s.set_call c call) := fun c call h1 h2 => set_call_quiet s (.inl (h2.trans h1.symm))
  cases e with
  | start_close c | lock_acquired c | opened c | cancelled c | read_started g | read_ended g
  | read_cancelled g | closed_waited a | task_awaited a | teardown_cancelled g => cases he
  | start_connect c =>
    simp only [step, Option.ite_none_right_eq_some] at h
    obtain ⟨habs, h⟩ := h
    apply (hstart c { kind := .connect } habs rfl).trans
    split at h <;> cases h
    · exact end_call_quiet _ c (calm_raised _)
    · exact ensure_connected_quiet _ c
  | start_send c pdu unit_id timeout_s =>
    simp only [step, Option.ite_none_right_eq_some] at h
    obtain ⟨habs, h⟩ := h
    apply (hstart c { kind := .send_and_receive, pdu := pdu, unit_id := unit_id,
                      timeout_s := timeout_s } habs rfl).trans
    split at h
    · cases h
      exact end_call_quiet _ c (calm_raised _)
    · split at h <;> cases h
      · exact ensure_connected_quiet _ c
      · exact move_quiet _ c ⟨by simp, by simp, by simp⟩
  | serial_acquired c =>
    simp only [step, Option.ite_none_right_eq_some] at h
    obtain ⟨-, h⟩ := h
    cases h
    refine Quiet.trans ?_ (ensure_connected_quiet _ c)
    exact ⟨rfl, fun _ => .inl rfl, fun _ h _ => h⟩
  | open_failed c failure =>
    simp only [step, Option.ite_none_right_eq_some] at h
    obtain ⟨-, h⟩ := h
    cases h
    exact end_call_quiet s c (calm_raised _)
  | drained c =>
    simp only [step, Option.ite_none_right_eq_some] at h
    obtain ⟨-, h⟩ := h
    cases h
    exact move_quiet s c ⟨by simp, by simp, by simp⟩
  | send_failed c message =>
    simp only [step, Option.ite_none_right_eq_some] at h
    obtain ⟨-, h⟩ := h
    cases h
    exact pop_and_end_quiet s c (calm_raised _)
  | timed_out c =>
    simp only [step, Option.ite_none_right_eq_some] at h
    obtain ⟨-, h⟩ := h
    cases h
    exact interrupt_quiet s c _
  | resumed c =>
    simp only [step, Option.ite_none_right_eq_some, Option.map_eq_some_iff] at h
    obtain ⟨-, place, hw, rfl⟩ := h
    exact pop_and_end_quiet s c (wake_calm hw)
  | frame_read g =>
    simp only [step] at h
    split at h
    · split at h
      · cases h
      · exact read_loop_frame_quiet h
    · cases h
  | peer_replied c unit_id pdu => exact peer_reply_quiet h
  | peer_sent g bytes => cases h; exact set_conn_quiet s g _
  | bytes_arrived g n => cases h; exact set_conn_quiet s g _
  | connection_lost g => cases h; exact set_conn_quiet s g _

/-! ## The invariant of every run -/

/-- The link is in order; a call that opens a connection holds the lock and no read loop is
left; a task that is awaited has been told to stop. -/
structure Tidy (s : TcpTransport) : Prop where
  linked : Linked s.link
  opening : ∀ c, (s.calls c).place = .opening →
    s.connection_lock = some c ∧ s.connected = false ∧ ∀ g, ¬ Live (s.tasks g)
  awaited : ∀ c t, (s.calls c).place = .teardown (.await_task t) → Stopping (s.tasks t)

theorem Tidy.quiet {s s' : TcpTransport} (h : Tidy s) (hq : Quiet s s') : Tidy s' := by
  have hconn : s'.connected = s.connected := congrArg Link.connected hq.link
  have htasks : s'.tasks = s.tasks := congrArg Link.tasks hq.link
  refine ⟨hq.link ▸ h.linked, ?_, ?_⟩
  · intro c hc
    rcases hq.places c with hp | hp
    · obtain ⟨hl, hd, hno⟩ := h.opening c (hp ▸ hc)
      exact ⟨hq.lock c hl hc, hconn.trans hd, htasks ▸ hno⟩
    · exact absurd hc hp.1
  · intro c t hc
    rcases hq.places c with hp | hp
    · exact htasks ▸ h.awaited c t (hp ▸ hc)
    · exact absurd hc (hp.2.1 (.await_task t))

/-- A change of one task that `Linked` allows. -/
theorem Tidy.set_task {s : TcpTransport} (h : Tidy s) {g : Nat} {task : ReadTask}
    (hl : Linked (s.link.with_task g task)) (hlive : Live task → Live (s.tasks g))
    (hstop : Stopping (s.tasks g) → Stopping task) : Tidy (s.set_task g task) := by
  refine ⟨hl, ?_, ?_⟩
  · intro c hc
    obtain ⟨hlock, hd, hno⟩ := h.opening c hc
    refine ⟨hlock, hd, ?_⟩
    intro k hk
    by_cases hkg : k = g
    · subst hkg
      simp only [TcpTransport.set_task, update_self] at hk
      exact hno k (hlive hk)
    · simp only [TcpTransport.set_task, update_of_ne hkg] at hk
      exact hno k hk
  · intro c t hc
    have ht := h.awaited c t hc
    by_cases htg : t = g
    · subst htg
      simp only [TcpTransport.set_task, update_self]
      exact hstop ht
    · simp only [TcpTransport.set_task, update_of_ne htg]
      exact ht

theorem Tidy.stop_task {s : TcpTransport} (h : Tidy s) {g : Nat} {task : ReadTask}
    (hg : g < s.opened)
    (hplace : task.place = .done ∨ ∃ w, task.place = .teardown (.wait_closed w)) :
    Tidy (s.set_task g task) := by
  apply h.set_task (h.linked.stop_task hg hplace)
  · intro hl
    rcases hplace with hp | ⟨w, hp⟩
    · exact absurd hl (not_live_done hp)
    · exact absurd hl (not_live_teardown hp)
  · intro _
    rcases hplace with hp | ⟨w, hp⟩
    · exact .inr (.inr hp)
    · exact .inr (.inl ⟨_, hp⟩)

theorem Tidy.cancel_task {s : TcpTransport} (h : Tidy s) {g : Nat} (hg : g < s.opened) :
    Tidy (s.cancel_task g) :=
  h.set_task (h.linked.cancel hg) id fun _ => .inl rfl

theorem Tidy.opened_of_stopping {s : TcpTransport} (h : Tidy s) {g : Nat}
    (hg : Stopping (s.tasks g)) : g < s.opened := by
  apply h.linked.opened_of_ne
  intro hd
  have hd' : s.tasks g = {} := hd
  rw [hd'] at hg
  rcases hg with hc | ⟨w, hw⟩ | hp
  · cases hc
  · cases hw
  · cases hp

/-- A call goes where it neither opens a connection nor awaits a task. -/
theorem Tidy.moved {s : TcpTransport} (h : Tidy s) (c : Nat) {place : CallAt}
    (hopen : place ≠ .opening) (hawait : ∀ t, place ≠ .teardown (.await_task t)) :
    Tidy (s.move c place) := by
  refine ⟨h.linked, ?_, ?_⟩
  · intro d hd
    have hdc : d ≠ c := by
      rintro rfl
      simp only [move, set_call, update_self] at hd
      exact hopen hd
    simp only [move, set_call, update_of_ne hdc] at hd
    exact h.opening d hd
  · intro d t hd
    have hdc : d ≠ c := by
      rintro rfl
      simp only [move, set_call, update_self] at hd
      exact hawait t hd
    simp only [move, set_call, update_of_ne hdc] at hd
    exact h.awaited d t hd

/-- A `close` comes to its end. -/
theorem Tidy.end_close {s : TcpTransport} (h : Tidy s) (c : Nat) : Tidy (s.end_call c .closed) := by
  have hm : Tidy (s.move c .closed) := h.moved c (by simp) (by simp)
  refine ⟨hm.linked, ?_, hm.awaited⟩
  intro d hd
  obtain ⟨hlock, hoff, hno⟩ := hm.opening d hd
  refine ⟨?_, hoff, hno⟩
  have hdc : d ≠ c := by
    rintro rfl
    simp [end_call, move, set_call] at hd
  have hlock' : s.connection_lock = some d := hlock
  simp only [end_call, hlock']
  rw [if_neg (by simpa using hdc)]

/-! ## Teardowns keep it -/

/-- The agent is a call, or the read loop of a connection that was opened. -/
def Known (s : TcpTransport) (a : Agent) : Prop := ∀ g, a = .reader g → g < s.opened

theorem Tidy.teardown_end {s : TcpTransport} (h : Tidy s) {a : Agent} (ha : Known s a) :
    Tidy (s.teardown_end a) := by
  have hplace : ∀ c, (s.fail_pending a c).place = (s.calls c).place := by
    intro c
    unfold fail_pending
    simp only
    split <;> rfl
  have hclear : Tidy (s.clear_pending a) := by
    refine ⟨h.linked.forget_task, ?_, ?_⟩
    · intro c hc
      exact h.opening c ((hplace c).symm.trans hc)
    · intro c t hc
      exact h.awaited c t ((hplace c).symm.trans hc)
  unfold TcpTransport.teardown_end
  rcases a with c | g
  · exact hclear.end_close c
  · exact hclear.stop_task (ha g rfl) (.inl rfl)

theorem Tidy.teardown_closed {s : TcpTransport} (h : Tidy s) {a : Agent} (ha : Known s a) :
    Tidy (s.teardown_closed a) := by
  unfold TcpTransport.teardown_closed
  split
  · exact h.teardown_end ha
  · rename_i task htask
    split
    · rename_i hother
      have hlt : task < s.opened := by
        have := h.linked.task_latest task htask
        have : s.opened = task + 1 := this
        omega
      have hc := h.cancel_task hlt
      have hstop : Stopping ((s.cancel_task task).tasks task) := by
        left
        simp [TcpTransport.cancel_task, TcpTransport.set_task]
      rcases a with c | g
      · -- a `close` is moved to the awaited task
        refine ⟨hc.linked, ?_, ?_⟩
        · intro d hd
          have hdc : d ≠ c := by
            rintro rfl
            simp [suspend_teardown, move, set_call] at hd
          simp only [suspend_teardown, move, set_call, update_of_ne hdc] at hd
          exact hc.opening d hd
        · intro d t hd
          by_cases hdc : d = c
          · subst hdc
            simp only [suspend_teardown, move, set_call, update_self, CallAt.teardown.injEq,
              TeardownAt.await_task.injEq] at hd
            exact hd ▸ hstop
          · simp only [suspend_teardown, move, set_call, update_of_ne hdc] at hd
            exact hc.awaited d t hd
      · have hg : g < (s.cancel_task task).opened := ha g rfl
        have hself : s.read_task ≠ some g := by
          rw [htask]
          intro he
          cases he
          exact hother.1 rfl
        apply hc.set_task
        · apply hc.linked.with_task hg
          · exact fun hl => absurd hl (not_live_teardown rfl)
          · intro r hr
            cases hr
          · exact fun _ => .inr (.inl ⟨_, rfl⟩)
          · exact fun _ _ => hself
          · intro t ht
            cases ht
            exact hstop
        · exact fun hl => absurd hl (not_live_teardown rfl)
        · exact fun _ => .inr (.inl ⟨_, rfl⟩)
    · exact h.teardown_end ha

/-- The first step of a teardown, when no read loop is left or the transport is closed. -/
theorem Tidy.teardown {s : TcpTransport} (h : Tidy s) {a : Agent} (ha : Known s a)
    (hlive : ∀ g, Live (s.tasks g) → s.closed = true) : Tidy (s.teardown a) := by
  have hd : Tidy s.disconnect := by
    refine ⟨h.linked.disconnect hlive, ?_, h.awaited⟩
    intro d hd
    obtain ⟨hl, -, hno⟩ := h.opening d hd
    exact ⟨hl, rfl, hno⟩
  unfold TcpTransport.teardown
  split
  · rename_i w hw
    rcases a with c | g
    · exact hd.moved c (by simp) (by simp)
    · exact hd.stop_task (ha g rfl) (.inr ⟨w, rfl⟩)
  · exact hd.teardown_closed ha

@[simp] theorem set_task_set_task (s : TcpTransport) (g : Nat) (task task' : ReadTask) :
    (s.set_task g task).set_task g task' = s.set_task g task' := by
  simp [TcpTransport.set_task]

@[simp] theorem tasks_set_task (s : TcpTransport) (g : Nat) (task : ReadTask) :
    (s.set_task g task).tasks g = task := by
  simp [TcpTransport.set_task]

/-- A read loop that tears the connection down has left its reads. -/
theorem teardown_left (s : TcpTransport) (g : Nat) (task task' : ReadTask)
    (h : task.cancel_requested = task'.cancel_requested) :
    (s.set_task g task).teardown (.reader g) = (s.set_task g task').teardown (.reader g) := by
  have hend : ∀ (s : TcpTransport) (task task' : ReadTask),
      task.cancel_requested = task'.cancel_requested →
      (s.set_task g task).teardown_end (.reader g) =
        (s.set_task g task').teardown_end (.reader g) := by
    intro s task task' h
    have hclear : ∀ task, (s.set_task g task).clear_pending (.reader g) =
        (s.clear_pending (.reader g)).set_task g task := fun _ => rfl
    simp only [TcpTransport.teardown_end, hclear, set_task_set_task, tasks_set_task, h]
  have hdis : ∀ task, (s.set_task g task).disconnect = s.disconnect.set_task g task := fun _ => rfl
  have hwriter : ∀ task, (s.set_task g task).writer = s.writer := fun _ => rfl
  unfold TcpTransport.teardown
  simp only [hdis, hwriter]
  generalize s.disconnect = d
  split
  · simp [suspend_teardown, h]
  · unfold TcpTransport.teardown_closed
    have htask : ∀ task, (d.set_task g task).read_task = d.read_task := fun _ => rfl
    simp only [htask]
    split
    · exact hend d task task' h
    · rename_i t ht
      by_cases htg : t = g
      · subst htg
        simp only [ne_eq, not_true_eq_false, false_and, if_false]
        exact hend d task task' h
      · have hother : ∀ task, (d.set_task g task).tasks t = d.tasks t := fun task =>
          update_of_ne htg _ _
        have hcancel : ∀ task, (d.set_task g task).cancel_task t =
            (d.cancel_task t).set_task g task := fun task => by
          simp [TcpTransport.cancel_task, TcpTransport.set_task, update_of_ne htg,
            update_comm htg]
        simp only [hother, hcancel]
        split
        · simp [suspend_teardown, h]
        · exact hend d task task' h

/-- The end of the reads of a loop, for whatever reason, is the start of its teardown. -/
theorem read_loop_ends {s s' : TcpTransport} {e : Event} {g : Nat}
    (he : e = .read_ended g ∨ e = .read_cancelled g) (h : step s e = some s') :
    (∃ r, (s.tasks g).place = .reading r) ∧
      s' = (s.set_task g { place := .done }).teardown (.reader g) := by
  rcases he with rfl | rfl
  · simp only [step] at h
    split at h
    · rename_i r hr
      simp only [Option.ite_none_right_eq_some, Bool.and_eq_true, Bool.not_eq_true'] at h
      obtain ⟨⟨hcancel, -⟩, h⟩ := h
      cases h
      refine ⟨⟨r, hr⟩, ?_⟩
      rw [← teardown_left s g (s.tasks g) _ hcancel]
      simp [TcpTransport.set_task]
    · cases h
  · simp only [step] at h
    split at h
    · rename_i r hr
      simp only [Option.ite_none_right_eq_some] at h
      obtain ⟨-, h⟩ := h
      cases h
      exact ⟨⟨r, hr⟩, teardown_left s g _ _ rfl⟩
    · cases h

/-- What a step does to the connection: nothing; or a `close()` starts its teardown, a call opens a
connection or has it, a call gives up the teardown that it waits in, a read loop starts or ends, or
a teardown goes on behind an await. -/
inductive LinkStep (s : TcpTransport) : Event → TcpTransport → Prop
  | quiet {e : Event} {s' : TcpTransport} (h : Quiet s s') : LinkStep s e s'
  | closes {c : Nat} (habs : (s.calls c).place = .absent) :
      LinkStep s (.start_close c)
        ({ s.set_call c { kind := .close } with closed := true }.teardown (.caller c))
  | opens {c : Nat} (hlock : s.connection_lock = none) (hconn : ¬ s.connected = true)
      (hclosed : ¬ s.closed = true) :
      LinkStep s (.lock_acquired c) ({ s with connection_lock := some c }.move c .opening)
  | opened {c : Nat} (hplace : (s.calls c).place = .opening) :
      LinkStep s (.opened c) (s.ensure_connected_opened c)
  | gives_up {c task : Nat} (hplace : (s.calls c).place = .teardown (.await_task task)) :
      LinkStep s (.cancelled c) (s.cancel_task task)
  | starts {g : Nat} (hplace : (s.tasks g).place = .created) :
      LinkStep s (.read_started g) (s.read_loop g)
  | ends {e : Event} {g : Nat} (hreading : ∃ r, (s.tasks g).place = .reading r) :
      LinkStep s e ((s.set_task g { place := .done }).teardown (.reader g))
  | waited {a : Agent} {w : Nat} (hw : s.teardown_at a = some (.wait_closed w)) :
      LinkStep s (.closed_waited a) (s.teardown_closed a)
  | awaited {a : Agent} {task : Nat} (hw : s.teardown_at a = some (.await_task task))
      (hdone : (s.tasks task).place = .done) : LinkStep s (.task_awaited a) (s.teardown_end a)
  | stops {g : Nat} {w : Nat} (hw : (s.tasks g).place = .teardown (.wait_closed w)) :
      LinkStep s (.teardown_cancelled g) (s.set_task g { place := .done })

theorem link_step {s s' : TcpTransport} {e : Event} (he : step s e = some s') : LinkStep s e s' := by
  rcases hq : e.touches_link with _ | _
  · exact .quiet (quiet_step he hq)
  cases e with
  | start_connect c | start_send c pdu unit_id timeout_s | serial_acquired c | open_failed c failure
  | drained c | send_failed c message | timed_out c | resumed c | frame_read g
  | peer_replied c unit_id pdu | peer_sent g bytes | bytes_arrived g n | connection_lost g => cases hq
  | start_close c =>
    simp only [step, Option.ite_none_right_eq_some] at he
    obtain ⟨habs, he⟩ := he
    cases he
    exact .closes habs
  | lock_acquired c =>
    simp only [step, Option.ite_none_right_eq_some] at he
    obtain ⟨⟨_, hlock⟩, he⟩ := he
    cases he
    unfold ensure_connected_locked
    split
    · exact .quiet (connected_call_quiet s c)
    · split
      · exact .quiet (end_call_quiet s c (calm_raised _))
      · exact .opens hlock ‹_› ‹_›
  | opened c =>
    simp only [step, Option.ite_none_right_eq_some] at he
    obtain ⟨hplace, he⟩ := he
    cases he
    exact .opened hplace
  | cancelled c =>
    rcases cancel_call_cases he with hqu | ⟨task, hplace, rfl⟩
    · exact .quiet hqu
    · exact .gives_up hplace
  | read_started g =>
    simp only [step, Option.ite_none_right_eq_some] at he
    obtain ⟨hplace, he⟩ := he
    cases he
    exact .starts hplace
  | read_ended g =>
    obtain ⟨hreading, rfl⟩ := read_loop_ends (.inl rfl) he
    exact .ends hreading
  | read_cancelled g =>
    obtain ⟨hreading, rfl⟩ := read_loop_ends (.inr rfl) he
    exact .ends hreading
  | closed_waited a =>
    simp only [step] at he
    split at he
    · split at he <;> cases he
      exact .waited ‹_›
    · cases he
  | task_awaited a =>
    simp only [step] at he
    split at he
    · split at he <;> cases he
      exact .awaited ‹_› ‹_›
    · cases he
  | teardown_cancelled g =>
    simp only [step] at he
    split at he
    · split at he <;> cases he
      exact .stops ‹_›
    · cases he

/-! ## Every step keeps it -/

theorem live_unique {s : TcpTransport} (h : Tidy s) {g k : Nat} (hg : Live (s.tasks g))
    (hk : Live (s.tasks k)) : k = g := by
  have h1 : s.opened = g + 1 := (h.linked.live_latest g hg).1
  have h2 : s.opened = k + 1 := (h.linked.live_latest k hk).1
  omega

/-- A call that is connected goes on to its request or ends. -/
theorem connected_call_calm (s : TcpTransport) (c : Nat) :
    Calm ((s.connected_call c).calls c).place := by
  have hend : ∀ (s : TcpTransport) (place : CallAt),
      ((s.end_call c place).calls c).place = place := fun s place => by
    simp [end_call, move, set_call]
  have hpop : ∀ (s : TcpTransport) (place : CallAt),
      ((s.pop_and_end c place).calls c).place = place := fun s place => by
    unfold pop_and_end
    split <;> exact hend _ _
  unfold connected_call
  split
  · unfold send_and_receive_unlocked
    split
    · rw [hend]
      exact calm_raised _
    · unfold write_request
      split
      · rw [hpop]
        exact calm_raised _
      · split
        · rw [hpop]
          exact calm_raised _
        · simp only [write_frame, set_call, update_self]
          exact ⟨by simp, by simp, by simp⟩
  · rw [hend]
    exact calm_returned _

theorem Tidy.ensure_connected_opened {s : TcpTransport} (h : Tidy s) {c : Nat}
    (hc : (s.calls c).place = .opening) : Tidy (s.ensure_connected_opened c) := by
  obtain ⟨hlock, -, hno⟩ := h.opening c hc
  unfold TcpTransport.ensure_connected_opened
  have hq := connected_call_quiet s.install c
  have hplace : ∀ d, Calm ((s.install.connected_call c).calls d).place ∨
      ((s.install.connected_call c).calls d).place = (s.calls d).place :=
    fun d => (hq.places d).symm
  refine ⟨?_, ?_, ?_⟩
  · rw [hq.link]
    exact h.linked.install hno
  · intro d hd
    exfalso
    rcases hplace d with hp | hp
    · exact hp.1 hd
    · -- only the call that held the lock was opening, and it has gone on
      obtain ⟨hlock', -, -⟩ := h.opening d (hp ▸ hd)
      rw [hlock] at hlock'
      cases hlock'
      exact (connected_call_calm s.install c).1 hd
  · intro d t hd
    have htasks : (s.install.connected_call c).tasks =
        update s.tasks s.opened { place := .created } :=
      congrArg Link.tasks hq.link
    rcases hplace d with hp | hp
    · exact absurd hd (hp.2.1 (.await_task t))
    · have ht := h.awaited d t (hp ▸ hd)
      have hlt := h.opened_of_stopping ht
      rw [htasks, update_of_ne (by omega)]
      exact ht

theorem Tidy.read_loop {s : TcpTransport} (h : Tidy s) {g : Nat}
    (hg : (s.tasks g).place = .created) : Tidy (s.read_loop g) := by
  have hlive : Live (s.tasks g) := .inl hg
  have hlt : g < s.opened := h.linked.opened_of_place (by
    change (s.tasks g).place ≠ .absent
    rw [hg]
    simp)
  unfold TcpTransport.read_loop
  split
  · exact h.stop_task hlt (.inl rfl)
  · rename_i hcancel
    split
    · exact h.stop_task hlt (.inl rfl)
    · rename_i r hr
      have hrg : r = g := by
        have h1 : s.opened = g + 1 := (h.linked.live_latest g hlive).1
        have h2 : s.opened = r + 1 := h.linked.writer_latest r (h.linked.same ▸ hr)
        omega
      have hstop : ¬ Stopping (s.tasks g) := by
        rintro (hs | ⟨w, hs⟩ | hs)
        · exact hcancel hs
        · rw [hg] at hs
          cases hs
        · rw [hg] at hs
          cases hs
      apply h.set_task
      · apply h.linked.with_task hlt
        · exact fun _ => hlive
        · intro r' hr'
          cases hr'
          exact hrg
        · exact fun hs => absurd hs hstop
        · intro t ht
          cases ht
        · intro t ht
          cases ht
      · exact fun _ => hlive
      · exact fun hs => absurd hs hstop

theorem known_of_teardown_at {s : TcpTransport} (h : Tidy s) {a : Agent} {w : TeardownAt}
    (ha : s.teardown_at a = some w) : Known s a := by
  rintro g rfl
  apply h.linked.opened_of_place
  intro habs
  have habs' : (s.tasks g).place = .absent := habs
  simp [teardown_at, habs'] at ha

/-- The reads of a loop are over. -/
theorem Tidy.ends {s : TcpTransport} (h : Tidy s) {g : Nat}
    (hreading : ∃ r, (s.tasks g).place = .reading r) :
    Tidy ((s.set_task g { place := .done }).teardown (.reader g)) := by
  obtain ⟨r, hr⟩ := hreading
  have hlt : g < s.opened := h.linked.opened_of_place (by
    change (s.tasks g).place ≠ .absent
    rw [hr]
    simp)
  apply (h.stop_task hlt (.inl rfl)).teardown
  · rintro k ⟨⟩
    exact hlt
  · intro k hk
    exfalso
    by_cases hkg : k = g
    · subst hkg
      simp only [TcpTransport.set_task, update_self] at hk
      exact not_live_done rfl hk
    · simp only [TcpTransport.set_task, update_of_ne hkg] at hk
      exact hkg (live_unique h (.inr ⟨r, hr⟩) hk)

/-- A call opens a connection when no read loop is left. -/
theorem Tidy.opens {s : TcpTransport} (h : Tidy s) (hlock : s.connection_lock = none)
    (hconn : ¬ s.connected = true) (hclosed : ¬ s.closed = true) (c : Nat) :
    Tidy ({ s with connection_lock := some c }.move c .opening) := by
  have hno : ∀ g, ¬ Live (s.tasks g) := by
    intro g hg
    rcases (h.linked.live_latest g hg).2 with hc | hc
    · exact hconn hc
    · exact hclosed hc
  refine ⟨h.linked, ?_, ?_⟩
  · intro d hd
    by_cases hdc : d = c
    · subst hdc
      exact ⟨rfl, Bool.eq_false_iff.mpr hconn, hno⟩
    · simp only [move, set_call, update_of_ne hdc] at hd
      obtain ⟨hl, -, -⟩ := h.opening d hd
      rw [hlock] at hl
      cases hl
  · intro d t hd
    have hdc : d ≠ c := by
      rintro rfl
      simp [move, set_call] at hd
    simp only [move, set_call, update_of_ne hdc] at hd
    exact h.awaited d t hd

/-- A `close()` sets the flag and tears the connection down. -/
theorem Tidy.closes {s : TcpTransport} (h : Tidy s) {c : Nat}
    (habs : (s.calls c).place = .absent) :
    Tidy ({ s.set_call c { kind := .close } with closed := true }.teardown (.caller c)) := by
  have h1 : Tidy (s.set_call c { kind := .close }) :=
    h.quiet (set_call_quiet s (.inl habs.symm))
  have h2 : Tidy { s.set_call c { kind := .close } with closed := true } := by
    refine ⟨⟨h1.linked.same, h1.linked.writer_latest, h1.linked.connected_writer,
      h1.linked.task_latest, h1.linked.unopened, ?_, h1.linked.reading_own,
      h1.linked.awaits_other, h1.linked.awaited⟩, h1.opening, h1.awaited⟩
    exact fun g hg => ⟨(h1.linked.live_latest g hg).1, .inr rfl⟩
  apply h2.teardown
  · rintro g ⟨⟩
  · exact fun _ _ => rfl

theorem tidy_step {s s' : TcpTransport} {e : Event} (h : Tidy s) (he : step s e = some s') :
    Tidy s' := by
  cases link_step he with
  | quiet hq => exact h.quiet hq
  | closes habs => exact h.closes habs
  | opens hlock hconn hclosed => exact h.opens hlock hconn hclosed _
  | opened hplace => exact h.ensure_connected_opened hplace
  | gives_up hplace => exact h.cancel_task (h.opened_of_stopping (h.awaited _ _ hplace))
  | starts hplace => exact h.read_loop hplace
  | ends hreading => exact h.ends hreading
  | waited hw => exact h.teardown_closed (known_of_teardown_at h hw)
  | awaited hw => exact h.teardown_end (known_of_teardown_at h hw)
  | stops hw =>
    rename_i g w
    have hlt : g < s.opened := h.linked.opened_of_place (by
      change (s.tasks g).place ≠ .absent
      rw [hw]
      simp)
    exact h.stop_task hlt (.inl rfl)

theorem tidy_new (host : String) (port : Int) (pipeline : Bool) (connect_timeout_s : String) :
    Tidy (new host port pipeline connect_timeout_s) := by
  refine ⟨⟨rfl, ?_, rfl, ?_, fun _ _ => rfl, ?_, ?_, ?_, ?_⟩, ?_, ?_⟩
  · rintro g ⟨⟩
  · rintro g ⟨⟩
  · intro g hg
    exact absurd hg not_live_default
  · rintro g r ⟨⟩
  · rintro g t ⟨⟩
  · rintro g t ⟨⟩
  · rintro c ⟨⟩
  · rintro c t ⟨⟩

end pymod.tcp
