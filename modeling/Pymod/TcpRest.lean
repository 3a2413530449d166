-- No call of the TCP transport hangs. When nothing comes from outside any more, the transport comes
-- to rest after finitely many steps, and by then every call has ended.
import Pymod.MbapStream
import Pymod.TcpIds
import Mathlib.Algebra.Order.BigOperators.Group.Finset

namespace pymod.tcp

open TcpTransport errors codec adu_tcp Function Runs

/-! ## What a step of a call touches -/

/-- The call stays where it is. -/
def Standing (s s' : TcpTransport) (c : Nat) : Prop :=
  (s'.calls c).place = (s.calls c).place ∧ (s'.calls c).interrupt = (s.calls c).interrupt ∧
    (s'.calls c).kind = (s.calls c).kind

theorem Standing.refl (s : TcpTransport) (c : Nat) : Standing s s c := ⟨rfl, rfl, rfl⟩

theorem Standing.trans {s s' s'' : TcpTransport} {c : Nat} (h : Standing s s' c)
    (h' : Standing s' s'' c) : Standing s s'' c :=
  ⟨h'.1.trans h.1, h'.2.1.trans h.2.1, h'.2.2.trans h.2.2⟩

/-- A call takes a step: the other calls stay where they are, and so do the read loops; and no
lock is given to another call. -/
structure Own (c : Nat) (s s' : TcpTransport) : Prop where
  others : ∀ d, d ≠ c → Standing s s' d
  tasks : ∀ g, (s'.tasks g).place = (s.tasks g).place
  unread : ∀ g, (s'.conns g).unread = (s.conns g).unread
  opened : s'.opened = s.opened
  pipeline : s'.pipeline = s.pipeline
  connection : ∀ d, d ≠ c → s'.connection_lock = some d → s.connection_lock = some d
  serial : ∀ d, d ≠ c → (s'.serial_lock = some d ↔ s.serial_lock = some d)

theorem Own.refl (c : Nat) (s : TcpTransport) : Own c s s :=
  ⟨fun _ _ => ⟨rfl, rfl, rfl⟩, fun _ => rfl, fun _ => rfl, rfl, rfl, fun _ _ h => h,
    fun _ _ => Iff.rfl⟩

theorem Own.trans {c : Nat} {s s' s'' : TcpTransport} (h : Own c s s') (h' : Own c s' s'') :
    Own c s s'' where
  others := fun d hd => (h.others d hd).trans (h'.others d hd)
  tasks := fun g => (h'.tasks g).trans (h.tasks g)
  unread := fun g => (h'.unread g).trans (h.unread g)
  opened := h'.opened.trans h.opened
  pipeline := h'.pipeline.trans h.pipeline
  connection := fun d hd hlock => h.connection d hd (h'.connection d hd hlock)
  serial := fun d hd => (h'.serial d hd).trans (h.serial d hd)

theorem own_set_call (s : TcpTransport) (c : Nat) (call : Call) : Own c s (s.set_call c call) where
  others := fun d hd => by simp [Standing, set_call, update_of_ne hd]
  tasks := fun _ => rfl
  unread := fun _ => rfl
  opened := rfl
  pipeline := rfl
  connection := fun _ _ h => h
  serial := fun _ _ => Iff.rfl

/-- The dictionary and the id counter are nobody's. -/
theorem own_pending (s : TcpTransport) (c next_tid : Nat) (pending : Pending) :
    Own c s { s with next_tid := next_tid, pending := pending } :=
  ⟨fun _ _ => ⟨rfl, rfl, rfl⟩, fun _ => rfl, fun _ => rfl, rfl, rfl, fun _ _ h => h,
    fun _ _ => Iff.rfl⟩

theorem own_locks (s : TcpTransport) (c : Nat) {connection_lock serial_lock : Option Nat}
    (hconnection : ∀ d, d ≠ c → connection_lock = some d → s.connection_lock = some d)
    (hserial : ∀ d, d ≠ c → (serial_lock = some d ↔ s.serial_lock = some d)) :
    Own c s { s with connection_lock := connection_lock, serial_lock := serial_lock } :=
  ⟨fun _ _ => ⟨rfl, rfl, rfl⟩, fun _ => rfl, fun _ => rfl, rfl, rfl, hconnection, hserial⟩

theorem own_end_call (s : TcpTransport) (c : Nat) (place : CallAt) :
    Own c s (s.end_call c place) := by
  refine (own_set_call s c _).trans (own_locks _ c ?_ ?_)
  · intro d _ hlock
    split at hlock
    · cases hlock
    · exact hlock
  · intro d hd
    split
    · rename_i hlock
      change s.serial_lock = some c at hlock
      simp [set_call, hlock, hd.symm]
    · rfl

theorem own_pop_and_end (s : TcpTransport) (c : Nat) (place : CallAt) :
    Own c s (s.pop_and_end c place) := by
  unfold pop_and_end
  split
  · exact own_end_call s c place
  · exact (own_pending s c _ _).trans (own_end_call _ c place)

theorem own_register (s : TcpTransport) (c tid next_tid : Nat) :
    Own c s (s.register c tid next_tid) where
  others := fun d hd => by simp [Standing, register, update_of_ne hd]
  tasks := fun _ => rfl
  unread := fun _ => rfl
  opened := rfl
  pipeline := rfl
  connection := fun _ _ h => h
  serial := fun _ _ => Iff.rfl

theorem own_write_frame (s : TcpTransport) (c writer : Nat) (frame : Bytes) :
    Own c s (s.write_frame c writer frame) := by
  refine Own.trans ?_ (own_set_call _ c _)
  refine ⟨fun _ _ => ⟨rfl, rfl, rfl⟩, fun _ => rfl, ?_, rfl, rfl, fun _ _ h => h,
    fun _ _ => Iff.rfl⟩
  intro g
  by_cases hg : g = writer
  · subst hg
    simp [set_conn]
  · simp [set_conn, update_of_ne hg]

theorem own_write_request (s : TcpTransport) (c tid : Nat) : Own c s (s.write_request c tid) := by
  unfold write_request
  split
  · exact own_pop_and_end s c _
  · split
    · exact own_pop_and_end s c _
    · exact own_write_frame s c _ _

theorem own_connected_call (s : TcpTransport) (c : Nat) : Own c s (s.connected_call c) := by
  unfold connected_call
  split
  · unfold send_and_receive_unlocked
    split
    · exact (own_pending s c _ _).trans (own_end_call _ c _)
    · exact (own_register s c _ _).trans (own_write_request _ c _)
  · exact own_end_call s c _

theorem own_ensure_connected (s : TcpTransport) (c : Nat) : Own c s (s.ensure_connected c) := by
  unfold ensure_connected
  split
  · exact own_connected_call s c
  · exact own_set_call s c _

theorem own_ensure_connected_locked (s : TcpTransport) (c : Nat) :
    Own c s (s.ensure_connected_locked c) := by
  unfold ensure_connected_locked
  split
  · exact own_connected_call s c
  · split
    · exact own_end_call s c _
    · refine Own.trans (own_locks s c ?_ fun _ _ => Iff.rfl) (own_set_call _ c _)
      rintro d hd ⟨⟩
      exact absurd rfl hd

theorem own_interrupt (s : TcpTransport) (c : Nat) (i : Interrupt) : Own c s (s.interrupt c i) :=
  own_set_call s c _

/-! ## Where the call gets -/

/-- The call has ended, and holds no lock. -/
def Over (s : TcpTransport) (c : Nat) : Prop :=
  Finished (s.calls c).place ∧ s.connection_lock ≠ some c ∧ s.serial_lock ≠ some c

theorem over_end_call (s : TcpTransport) (c : Nat) {place : CallAt} (h : Finished place) :
    Over (s.end_call c place) c := by
  refine ⟨?_, ?_, ?_⟩
  · simpa [end_call, move, set_call] using h
  · unfold end_call
    simp only
    split
    · simp
    · assumption
  · unfold end_call
    simp only
    split
    · simp
    · assumption

theorem over_pop_and_end (s : TcpTransport) (c : Nat) {place : CallAt} (h : Finished place) :
    Over (s.pop_and_end c place) c := by
  unfold pop_and_end
  split
  · exact over_end_call s c h
  · exact over_end_call _ c h

@[simp] theorem place_move (s : TcpTransport) (c : Nat) (place : CallAt) :
    ((s.move c place).calls c).place = place := by
  simp [move, set_call]

@[simp] theorem kind_move (s : TcpTransport) (c : Nat) (place : CallAt) :
    ((s.move c place).calls c).kind = (s.calls c).kind := by
  simp [move, set_call]

/-- The call is a request, and its frame is written, under the locks that it held. -/
structure Written (s s' : TcpTransport) (c : Nat) : Prop where
  place : (s'.calls c).place = .draining
  connection : s'.connection_lock = s.connection_lock
  serial : s'.serial_lock = s.serial_lock
  kind : (s'.calls c).kind = (s.calls c).kind
  sends : (s.calls c).kind = .send_and_receive

theorem connected_call_gets (s : TcpTransport) (c : Nat) :
    Over (s.connected_call c) c ∨ Written s (s.connected_call c) c := by
  unfold connected_call
  split
  · rename_i hsends
    unfold send_and_receive_unlocked
    split
    · exact Or.inl (over_end_call _ c trivial)
    · unfold write_request
      split
      · exact Or.inl (over_pop_and_end _ c trivial)
      · split
        · exact Or.inl (over_pop_and_end _ c trivial)
        · exact Or.inr ⟨by simp [write_frame, set_call], rfl, rfl,
            by simp [write_frame, set_call, set_conn, register], hsends⟩
  · exact Or.inl (over_end_call s c trivial)

/-- A call that wants a connection: it has ended, or waits for the lock, or its frame is written. -/
theorem ensure_connected_gets (s : TcpTransport) (c : Nat) :
    Over (s.ensure_connected c) c ∨ Written s (s.ensure_connected c) c ∨
      s.ensure_connected c = s.move c .connection_lock := by
  unfold ensure_connected
  split
  · exact (connected_call_gets s c).imp id Or.inl
  · exact Or.inr (Or.inr rfl)

/-! ## What a step of a read loop touches -/

/-- Nobody moves. -/
structure Still (s s' : TcpTransport) : Prop where
  calls : ∀ c, Standing s s' c
  tasks : ∀ g, (s'.tasks g).place = (s.tasks g).place
  unread : ∀ g, (s'.conns g).unread = (s.conns g).unread
  opened : s'.opened = s.opened
  pipeline : s'.pipeline = s.pipeline
  connection : s'.connection_lock = s.connection_lock
  serial : s'.serial_lock = s.serial_lock

theorem Still.refl (s : TcpTransport) : Still s s :=
  ⟨fun _ => ⟨rfl, rfl, rfl⟩, fun _ => rfl, fun _ => rfl, rfl, rfl, rfl, rfl⟩

theorem Still.trans {s s' s'' : TcpTransport} (h : Still s s') (h' : Still s' s'') : Still s s'' :=
  ⟨fun c => (h.calls c).trans (h'.calls c), fun g => (h'.tasks g).trans (h.tasks g),
    fun g => (h'.unread g).trans (h.unread g), h'.opened.trans h.opened,
    h'.pipeline.trans h.pipeline, h'.connection.trans h.connection, h'.serial.trans h.serial⟩

theorem Still.own {s s' : TcpTransport} (h : Still s s') (c : Nat) : Own c s s' :=
  ⟨fun d _ => h.calls d, h.tasks, h.unread, h.opened, h.pipeline,
    fun _ _ hlock => h.connection ▸ hlock, fun _ _ => by rw [h.serial]⟩

theorem still_disconnect (s : TcpTransport) : Still s s.disconnect :=
  ⟨fun _ => ⟨rfl, rfl, rfl⟩, fun _ => rfl, fun _ => rfl, rfl, rfl, rfl, rfl⟩

theorem still_set_flag (s : TcpTransport) (g : Nat) (cancel_requested : Bool) :
    Still s (s.set_task g { s.tasks g with cancel_requested := cancel_requested }) := by
  refine ⟨fun _ => ⟨rfl, rfl, rfl⟩, ?_, fun _ => rfl, rfl, rfl, rfl, rfl⟩
  intro k
  by_cases hk : k = g
  · subst hk
    simp [set_task]
  · simp [set_task, update_of_ne hk]

theorem still_cancel_task (s : TcpTransport) (g : Nat) : Still s (s.cancel_task g) :=
  still_set_flag s g true

theorem still_clear_pending (s : TcpTransport) (a : Agent) : Still s (s.clear_pending a) := by
  refine ⟨?_, fun _ => rfl, fun _ => rfl, rfl, rfl, rfl, rfl⟩
  intro c
  unfold Standing clear_pending fail_pending
  simp only
  split <;> exact ⟨rfl, rfl, rfl⟩

/-- A read loop takes a step: no call moves, and no other loop. A loop that awaits another one
awaits one of a later connection. -/
structure Turns (g : Nat) (s s' : TcpTransport) : Prop where
  calls : ∀ c, Standing s s' c
  others : ∀ k, k ≠ g → (s'.tasks k).place = (s.tasks k).place
  unread : ∀ k, (s'.conns k).unread = (s.conns k).unread
  opened : s'.opened = s.opened
  pipeline : s'.pipeline = s.pipeline
  connection : s'.connection_lock = s.connection_lock
  serial : s'.serial_lock = s.serial_lock
  begun : (s'.tasks g).place ≠ .absent
  later : ∀ t, (s'.tasks g).place = .teardown (.await_task t) → g < t

theorem Still.turns {s s' : TcpTransport} (h : Still s s') (g : Nat) {task : ReadTask}
    (hbegun : task.place ≠ .absent) (hlater : ∀ t, task.place = .teardown (.await_task t) → g < t) :
    Turns g s (s'.set_task g task) where
  calls := h.calls
  others := fun k hk => by
    simp only [set_task, update_of_ne hk]
    exact h.tasks k
  unread := h.unread
  opened := h.opened
  pipeline := h.pipeline
  connection := h.connection
  serial := h.serial
  begun := by simpa [set_task] using hbegun
  later := by simpa [set_task] using hlater

theorem teardown_end_turns {s s₀ : TcpTransport} (h : Still s₀ s) (g : Nat) :
    Turns g s₀ (s.teardown_end (.reader g)) ∧
      ((s.teardown_end (.reader g)).tasks g).place = .done := by
  have hclear := h.trans (still_clear_pending s (.reader g))
  refine ⟨hclear.turns g (by simp) ?_, by simp [teardown_end, set_task]⟩
  rintro t ⟨⟩

/-- Behind `wait_closed`, the read loop comes to the loop of a later connection, or to its end. -/
theorem teardown_closed_turns {s s₀ : TcpTransport} (h : Still s₀ s) {g : Nat} (hg : g < s.opened)
    (hlatest : ∀ t, s.read_task = some t → s.opened = t + 1) :
    Turns g s₀ (s.teardown_closed (.reader g)) ∧
      (((s.teardown_closed (.reader g)).tasks g).place = .done ∨
        ∃ t, ((s.teardown_closed (.reader g)).tasks g).place = .teardown (.await_task t)) := by
  obtain ⟨hend, hdone⟩ := teardown_end_turns h g
  unfold teardown_closed
  cases htask : s.read_task with
  | none => exact ⟨hend, Or.inl hdone⟩
  | some task =>
    simp only
    split
    · rename_i hother
      have hlt := hlatest task htask
      have hne : g ≠ task := fun heq => hother.1 (congrArg Agent.reader heq)
      refine ⟨(h.trans (still_cancel_task s task)).turns g (by simp) ?_, Or.inr ⟨task, ?_⟩⟩
      · rintro t ⟨⟩
        omega
      · simp [suspend_teardown, set_task]
    · exact ⟨hend, Or.inl hdone⟩

theorem teardown_turns {s s₀ : TcpTransport} (h : Still s₀ s) {g : Nat} (hg : g < s.opened)
    (hlatest : ∀ t, s.read_task = some t → s.opened = t + 1) :
    Turns g s₀ (s.teardown (.reader g)) ∧
      (((s.teardown (.reader g)).tasks g).place = .done ∨
        ∃ w, ((s.teardown (.reader g)).tasks g).place = .teardown w) := by
  have hdis := h.trans (still_disconnect s)
  unfold teardown
  split
  · rename_i writer _
    refine ⟨hdis.turns g (by simp) ?_, Or.inr ⟨.wait_closed writer, ?_⟩⟩
    · rintro t ⟨⟩
    · simp [suspend_teardown, set_task]
  · obtain ⟨hturns, hdone | ⟨t, ht⟩⟩ := teardown_closed_turns hdis hg hlatest
    · exact ⟨hturns, Or.inl hdone⟩
    · exact ⟨hturns, Or.inr ⟨_, ht⟩⟩

/-! ## A teardown that a call runs -/

theorem over_teardown_end (s : TcpTransport) (c : Nat) : Over (s.teardown_end (.caller c)) c :=
  over_end_call _ c trivial

theorem own_teardown_end (s : TcpTransport) (c : Nat) : Own c s (s.teardown_end (.caller c)) :=
  ((still_clear_pending s (.caller c)).own c).trans (own_end_call _ c _)

/-- The call is suspended in its teardown, under the locks that it held. -/
def Suspended (s s' : TcpTransport) (c : Nat) (w : TeardownAt) : Prop :=
  (s'.calls c).place = .teardown w ∧ s'.connection_lock = s.connection_lock ∧
    s'.serial_lock = s.serial_lock

theorem teardown_closed_gets (s : TcpTransport) (c : Nat) :
    Own c s (s.teardown_closed (.caller c)) ∧
      (Over (s.teardown_closed (.caller c)) c ∨
        ∃ t, Suspended s (s.teardown_closed (.caller c)) c (.await_task t)) := by
  have hend := And.intro (own_teardown_end s c) (over_teardown_end s c)
  unfold teardown_closed
  split
  · exact ⟨hend.1, Or.inl hend.2⟩
  · rename_i task _
    split
    · refine ⟨((still_cancel_task s task).own c).trans (own_set_call _ c _), Or.inr ⟨task, ?_, rfl, rfl⟩⟩
      simp [suspend_teardown]
    · exact ⟨hend.1, Or.inl hend.2⟩

theorem teardown_gets (s : TcpTransport) (c : Nat) :
    Own c s (s.teardown (.caller c)) ∧
      (Over (s.teardown (.caller c)) c ∨ ∃ w, Suspended s (s.teardown (.caller c)) c w) := by
  have hdis := (still_disconnect s).own c
  unfold teardown
  split
  · rename_i writer _
    refine ⟨hdis.trans (own_set_call _ c _), Or.inr ⟨.wait_closed writer, ?_, rfl, rfl⟩⟩
    simp [suspend_teardown]
  · obtain ⟨hown, hover | ⟨t, ht⟩⟩ := teardown_closed_gets s.disconnect c
    · exact ⟨hdis.trans hown, Or.inl hover⟩
    · exact ⟨hdis.trans hown, Or.inr ⟨_, ht⟩⟩

/-! ## Who holds the locks, and who waits for whom -/

/-- A call that sends, or is about to: it holds the serial lock where there is one. -/
def Sending : CallAt → Prop
  | .connection_lock | .opening | .draining | .waiting => True
  | _ => False

/-- Without pipelining, a request needs the serial lock. -/
def Entitled (s : TcpTransport) (c : Nat) : Prop :=
  s.pipeline = false → (s.calls c).kind = .send_and_receive → s.serial_lock = some c

theorem Entitled.of_eq {s s' : TcpTransport} {c : Nat} (h : Entitled s c)
    (hpipeline : s'.pipeline = s.pipeline) (hkind : (s'.calls c).kind = (s.calls c).kind)
    (hlock : s.serial_lock = some c → s'.serial_lock = some c) : Entitled s' c := by
  unfold Entitled at h ⊢
  rw [hpipeline, hkind]
  exact fun hp hk => hlock (h hp hk)

/-- A call that is sending has the lock that it needs, and only requests are sent. -/
structure Alone (s : TcpTransport) (c : Nat) : Prop where
  entitled : Sending (s.calls c).place → Entitled s c
  sends : Open (s.calls c).place → (s.calls c).kind = .send_and_receive

theorem sending_of_open {place : CallAt} (h : Open place) : Sending place := by
  cases place <;> first | exact h.elim | trivial

theorem Over.alone {s : TcpTransport} {c : Nat} (h : Over s c) : Alone s c := by
  have hsending : ¬ Sending (s.calls c).place := by
    have hfinished := h.1
    intro hsending
    cases hplace : (s.calls c).place <;> rw [hplace] at hfinished hsending <;>
      first | exact hfinished.elim | exact hsending.elim
  exact ⟨fun h => absurd h hsending, fun h => absurd (sending_of_open h) hsending⟩

theorem Written.alone {s s' : TcpTransport} {c : Nat} (h : Written s s' c)
    (hpipeline : s'.pipeline = s.pipeline) (hentitled : Entitled s c) : Alone s' c :=
  ⟨fun _ => hentitled.of_eq hpipeline h.kind fun hlock => h.serial.trans hlock,
    fun _ => h.kind.trans h.sends⟩

/-- A call that waits for a connection. -/
theorem Entitled.alone_of_move {s : TcpTransport} {c : Nat} (h : Entitled s c) {place : CallAt}
    (hplace : ¬ Open place) : Alone (s.move c place) c := by
  refine ⟨fun _ => h.of_eq rfl (kind_move s c place) id, fun hopen => ?_⟩
  rw [place_move] at hopen
  exact absurd hopen hplace

/-- A lock is held by a call that goes on by itself, and a loop awaits only later ones. -/
structure Manned (s : TcpTransport) : Prop where
  connection : ∀ c, s.connection_lock = some c → (s.calls c).place = .opening
  serial : ∀ c, s.serial_lock = some c → Sending (s.calls c).place
  alone : ∀ c, Alone s c
  begun : ∀ g, g < s.opened → (s.tasks g).place ≠ .absent
  later : ∀ g t, (s.tasks g).place = .teardown (.await_task t) → g < t

theorem Standing.alone {s s' : TcpTransport} {c : Nat} (h : Standing s s' c)
    (hpipeline : s'.pipeline = s.pipeline) (hlock : s.serial_lock = some c → s'.serial_lock = some c)
    (halone : Alone s c) : Alone s' c := by
  refine ⟨fun hsending => ?_, fun hopen => ?_⟩
  · rw [h.1] at hsending
    exact (halone.entitled hsending).of_eq hpipeline h.2.2 hlock
  · rw [h.1] at hopen
    exact h.2.2.trans (halone.sends hopen)

theorem Manned.own {s s' : TcpTransport} (h : Manned s) {c : Nat} (hown : Own c s s')
    (hconnection : s'.connection_lock = some c → (s'.calls c).place = .opening)
    (hserial : s'.serial_lock = some c → Sending (s'.calls c).place) (halone : Alone s' c) :
    Manned s' where
  connection := by
    intro d hd
    by_cases hdc : d = c
    · subst hdc
      exact hconnection hd
    · rw [(hown.others d hdc).1]
      exact h.connection d (hown.connection d hdc hd)
  serial := by
    intro d hd
    by_cases hdc : d = c
    · subst hdc
      exact hserial hd
    · rw [(hown.others d hdc).1]
      exact h.serial d ((hown.serial d hdc).mp hd)
  alone := by
    intro d
    by_cases hdc : d = c
    · subst hdc
      exact halone
    · exact (hown.others d hdc).alone hown.pipeline (hown.serial d hdc).mpr (h.alone d)
  begun := by
    intro g hg
    rw [hown.tasks g]
    exact h.begun g (hown.opened ▸ hg)
  later := by
    intro g t ht
    rw [hown.tasks g] at ht
    exact h.later g t ht

theorem Manned.turns {s s' : TcpTransport} (h : Manned s) {g : Nat} (hturns : Turns g s s') :
    Manned s' where
  connection := by
    intro c hc
    rw [hturns.connection] at hc
    rw [(hturns.calls c).1]
    exact h.connection c hc
  serial := by
    intro c hc
    rw [hturns.serial] at hc
    rw [(hturns.calls c).1]
    exact h.serial c hc
  alone := fun c =>
    (hturns.calls c).alone hturns.pipeline (fun hlock => hturns.serial.trans hlock) (h.alone c)
  begun := by
    intro k hlt
    by_cases hk : k = g
    · subst hk
      exact hturns.begun
    · rw [hturns.others k hk]
      exact h.begun k (hturns.opened ▸ hlt)
  later := by
    intro k t ht
    by_cases hk : k = g
    · subst hk
      exact hturns.later t ht
    · rw [hturns.others k hk] at ht
      exact h.later k t ht

/-! ## What is left to do -/

/-- The steps that a call has before it, and those of the read loop that it may open. -/
def rank (call : Call) : Nat :=
  match call.place with
  | .serial_lock => 10
  | .connection_lock => 9
  | .opening => 8
  | .draining => 3
  | .waiting => if call.interrupt = none then 2 else 1
  | .teardown (.wait_closed _) => 2
  | .teardown (.await_task _) => 1
  | .absent | .returned _ | .raised _ | .closed => 0

/-- The steps that a read loop has before it. -/
def task_rank : TaskAt → Nat
  | .created => 4
  | .reading _ => 3
  | .teardown (.wait_closed _) => 2
  | .teardown (.await_task _) => 1
  | .absent | .done => 0

/-- What a connection keeps its read loop busy with. -/
def busy (s : TcpTransport) (g : Nat) : Nat :=
  task_rank (s.tasks g).place + (s.conns g).unread.length

theorem Standing.rank_eq {s s' : TcpTransport} {c : Nat} (h : Standing s s' c) :
    rank (s'.calls c) = rank (s.calls c) := by
  unfold rank
  rw [h.1, h.2.1]

theorem rank_of_finished {call : Call} (h : Finished call.place) : rank call = 0 := by
  unfold rank
  cases hplace : call.place with
  | returned | raised | closed => rfl
  | _ => simp [hplace, Finished] at h

theorem Over.rank_eq {s : TcpTransport} {c : Nat} (h : Over s c) : rank (s.calls c) = 0 :=
  rank_of_finished h.1

/-- Nothing from outside: the transport goes on, a timer ends, or an `await` on the network ends,
with or without an error. -/
def Event.Internal : Event → Prop
  | .start_connect _ | .start_send _ _ _ _ | .start_close _ | .cancelled _ | .peer_replied _ _ _
  | .peer_sent _ _ | .bytes_arrived _ _ | .connection_lost _ => False
  | _ => True

/-- The step of an event: of one call, which may open a connection, of one read loop, or of the
bytes alone. From inside, each of them takes a step off what is left to do. -/
inductive Acts (e : Event) (s s' : TcpTransport) : Prop
  | call (c : Nat) (hown : Own c s s')
      (hconnection : s'.connection_lock = some c → (s'.calls c).place = .opening)
      (hserial : s'.serial_lock = some c → Sending (s'.calls c).place)
      (halone : Alone s' c)
      (hless : e.Internal → rank (s'.calls c) < rank (s.calls c))
  | opening (c : Nat) (hown : Own c s.install s')
      (hconnection : s'.connection_lock = none)
      (hserial : s'.serial_lock = some c → Sending (s'.calls c).place)
      (halone : Alone s' c)
      (hless : rank (s'.calls c) + 5 ≤ rank (s.calls c))
  | loop (g : Nat) (hg : g < s.opened) (hturns : Turns g s s')
      (hless : task_rank (s'.tasks g).place < task_rank (s.tasks g).place)
  | bytes (hcalls : ∀ c, Standing s s' c) (htasks : s'.tasks = s.tasks)
      (hopened : s'.opened = s.opened) (hpipeline : s'.pipeline = s.pipeline)
      (hconnection : s'.connection_lock = s.connection_lock)
      (hserial : s'.serial_lock = s.serial_lock)
      (hless : e.Internal → ∃ g, g < s.opened ∧
        (s'.conns g).unread.length < (s.conns g).unread.length ∧
        ∀ k, k ≠ g → s'.conns k = s.conns k)

/-- A call that holds no lock. -/
theorem Manned.free {s : TcpTransport} (h : Manned s) {c : Nat} (hplace : ¬ Sending (s.calls c).place) :
    s.connection_lock ≠ some c ∧ s.serial_lock ≠ some c := by
  constructor
  · intro hc
    rw [h.connection c hc] at hplace
    exact hplace trivial
  · exact fun hc => hplace (h.serial c hc)

/-- What a call gets to that wants a connection. -/
theorem ensure_connected_acts {s₀ s : TcpTransport} {e : Event} {c : Nat} (hown : Own c s₀ s)
    (hfree : s.connection_lock ≠ some c) (hentitled : Entitled s c)
    (hless : e.Internal → 9 < rank (s₀.calls c)) : Acts e s₀ (s.ensure_connected c) := by
  have hown' := hown.trans (own_ensure_connected s c)
  have hpipeline := (own_ensure_connected s c).pipeline
  rcases ensure_connected_gets s c with h | h | h
  · refine .call c hown' (fun hc => absurd hc h.2.1) (fun hc => absurd hc h.2.2) h.alone ?_
    intro hi
    have := hless hi
    rw [h.rank_eq]
    omega
  · refine .call c hown' ?_ ?_ (h.alone hpipeline hentitled) ?_
    · intro hc
      rw [h.connection] at hc
      exact absurd hc hfree
    · intro _
      rw [h.place]
      trivial
    · intro hi
      have := hless hi
      unfold rank at this ⊢
      rw [h.place]
      simp only
      omega
  · rw [h] at hown' ⊢
    refine .call c hown' (fun hc => absurd hc hfree) ?_ (hentitled.alone_of_move id) ?_
    · intro _
      rw [place_move]
      trivial
    · intro hi
      have := hless hi
      unfold rank at this ⊢
      rw [place_move]
      simp only
      omega

theorem ends_acts {s s' : TcpTransport} {e : Event} {c : Nat} (hown : Own c s s') (h : Over s' c)
    (hless : e.Internal → 0 < rank (s.calls c)) : Acts e s s' := by
  refine .call c hown (fun hc => absurd hc h.2.1) (fun hc => absurd hc h.2.2) h.alone ?_
  intro hi
  rw [h.rank_eq]
  exact hless hi

/-- What a call gets to that holds the lock for connections, or finds the connection there. -/
theorem connected_call_acts {s₀ s : TcpTransport} {e : Event} {c : Nat} (hown : Own c s₀ s)
    (hfree : s.connection_lock ≠ some c) (hentitled : Entitled s c)
    (hless : e.Internal → 3 < rank (s₀.calls c)) : Acts e s₀ (s.connected_call c) := by
  have hown' := hown.trans (own_connected_call s c)
  have hpipeline := (own_connected_call s c).pipeline
  rcases connected_call_gets s c with h | h
  · exact ends_acts hown' h fun hi => by
      have := hless hi
      omega
  · refine .call c hown' ?_ ?_ (h.alone hpipeline hentitled) ?_
    · intro hc
      rw [h.connection] at hc
      exact absurd hc hfree
    · intro _
      rw [h.place]
      trivial
    · intro hi
      have := hless hi
      unfold rank at this ⊢
      rw [h.place]
      simp only
      omega

/-- A call that stays suspended, holding no lock but the serial one. -/
theorem stays_acts {s s' : TcpTransport} {e : Event} {c : Nat} (hm : Manned s) (hown : Own c s s')
    (hconnection : s'.connection_lock = s.connection_lock)
    (hserial : s'.serial_lock = s.serial_lock) (hopening : (s.calls c).place ≠ .opening)
    (hsending : Sending (s.calls c).place ↔ Sending (s'.calls c).place)
    (hopen : Open (s'.calls c).place → Open (s.calls c).place)
    (hkind : Sending (s.calls c).place → (s'.calls c).kind = (s.calls c).kind)
    (hless : e.Internal → rank (s'.calls c) < rank (s.calls c)) : Acts e s s' := by
  refine .call c hown ?_ ?_ ?_ hless
  · intro hc
    rw [hconnection] at hc
    exact absurd (hm.connection c hc) hopening
  · intro hc
    rw [hserial] at hc
    exact hsending.mp (hm.serial c hc)
  · refine ⟨fun hs => ?_, fun ho => ?_⟩
    · have hs' := hsending.mpr hs
      exact ((hm.alone c).entitled hs').of_eq hown.pipeline (hkind hs')
        fun hlock => hserial.trans hlock
    · exact (hkind (sending_of_open (hopen ho))).trans ((hm.alone c).sends (hopen ho))

theorem start_connect_acts {s : TcpTransport} {c : Nat} (hm : Manned s)
    (hplace : (s.calls c).place = .absent) {s' : TcpTransport}
    (h : step s (.start_connect c) = some s') : Acts (.start_connect c) s s' := by
  have hfree := hm.free (by rw [hplace]; exact id)
  have hown := own_set_call s c { kind := .connect }
  simp only [step, hplace, if_true] at h
  split at h
  · cases h
    exact ends_acts (hown.trans (own_end_call _ c _)) (over_end_call _ c trivial) fun hi => hi.elim
  · cases h
    refine ensure_connected_acts hown hfree.1 ?_ fun hi => hi.elim
    intro _ hkind
    simp [set_call] at hkind

theorem start_send_acts {s : TcpTransport} {c : Nat} {pdu : Bytes} {unit_id : Int}
    {timeout_s : String} (hm : Manned s) (hplace : (s.calls c).place = .absent) {s' : TcpTransport}
    (h : step s (.start_send c pdu unit_id timeout_s) = some s') :
    Acts (.start_send c pdu unit_id timeout_s) s s' := by
  have hsending : ¬ Sending (s.calls c).place := by
    rw [hplace]
    exact id
  have hown := own_set_call s c
    { kind := .send_and_receive, pdu := pdu, unit_id := unit_id, timeout_s := timeout_s }
  simp only [step, hplace, if_true] at h
  split at h
  · cases h
    exact ends_acts (hown.trans (own_end_call _ c _)) (over_end_call _ c trivial) fun hi => hi.elim
  · split at h
    · rename_i hpipeline
      cases h
      refine ensure_connected_acts hown (hm.free hsending).1 ?_ fun hi => hi.elim
      intro hp _
      rw [hown.pipeline] at hp
      simp [set_call, hp] at hpipeline
    · cases h
      refine stays_acts hm (hown.trans (own_set_call _ c _)) rfl rfl ?_ ?_ ?_
        (fun hs => absurd hs hsending) fun hi => hi.elim
      · rw [hplace]
        simp
      · rw [place_move]
        exact iff_of_false hsending id
      · rw [place_move]
        exact False.elim

theorem start_close_acts {s : TcpTransport} {c : Nat} (hm : Manned s)
    (hplace : (s.calls c).place = .absent) {s' : TcpTransport}
    (h : step s (.start_close c) = some s') : Acts (.start_close c) s s' := by
  have hsending : ¬ Sending (s.calls c).place := by
    rw [hplace]
    exact id
  simp only [step, hplace, if_true] at h
  cases h
  obtain ⟨hown, hgets⟩ := teardown_gets { s.set_call c { kind := .close } with closed := true } c
  have hstart : Own c s { s.set_call c { kind := .close } with closed := true } :=
    (own_set_call s c { kind := .close }).trans
      ⟨fun _ _ => ⟨rfl, rfl, rfl⟩, fun _ => rfl, fun _ => rfl, rfl, rfl, fun _ _ h => h,
        fun _ _ => Iff.rfl⟩
  rcases hgets with hover | ⟨w, hw, hconnection, hserial⟩
  · exact ends_acts (hstart.trans hown) hover fun hi => hi.elim
  · refine stays_acts hm (hstart.trans hown) hconnection hserial ?_ ?_ ?_
      (fun hs => absurd hs hsending) fun hi => hi.elim
    · rw [hplace]
      simp
    · rw [hw]
      exact iff_of_false hsending id
    · rw [hw]
      exact False.elim

theorem lock_acquired_acts {s : TcpTransport} {c : Nat} (hm : Manned s)
    (hplace : (s.calls c).place = .connection_lock) (hlock : s.connection_lock = none) :
    Acts (.lock_acquired c) s (s.ensure_connected_locked c) := by
  have hrank : rank (s.calls c) = 9 := by
    unfold rank
    rw [hplace]
  have hentitled : Entitled s c := (hm.alone c).entitled (by rw [hplace]; trivial)
  have hown := own_ensure_connected_locked s c
  unfold ensure_connected_locked at hown ⊢
  split
  · refine connected_call_acts (.refl c s) ?_ hentitled fun _ => by omega
    rw [hlock]
    simp
  · split
    · exact ends_acts (own_end_call s c _) (over_end_call s c trivial) fun _ => by omega
    · rename_i hclosed hoff
      rw [if_neg hclosed, if_neg hoff] at hown
      have halone : Entitled { s with connection_lock := some c } c := hentitled
      refine .call c hown ?_ ?_ (halone.alone_of_move id) ?_
      · exact fun _ => place_move _ c _
      · intro _
        rw [place_move]
        trivial
      · intro _
        rw [hrank]
        unfold rank
        rw [place_move]
        simp

theorem opened_acts {s : TcpTransport} {c : Nat} (hm : Manned s) (hplace : (s.calls c).place = .opening) :
    Acts (.opened c) s (s.ensure_connected_opened c) := by
  have hrank : rank (s.calls c) = 8 := by
    unfold rank
    rw [hplace]
  have hown := own_connected_call s.install c
  unfold ensure_connected_opened
  rcases connected_call_gets s.install c with h | h
  · refine .opening c hown ?_ (fun hc => absurd hc h.2.2) h.alone ?_
    · cases hlock : (s.install.connected_call c).connection_lock with
      | none => rfl
      | some d =>
        by_cases hd : d = c
        · subst hd
          exact absurd hlock h.2.1
        · cases hown.connection d hd hlock
    · rw [h.rank_eq]
      omega
  · have hentitled : Entitled s c := (hm.alone c).entitled (by rw [hplace]; trivial)
    refine .opening c hown h.connection ?_ (h.alone hown.pipeline hentitled) ?_
    · intro _
      rw [h.place]
      trivial
    · rw [hrank]
      unfold rank
      rw [h.place]

theorem cancelled_acts {s s' : TcpTransport} {c : Nat} (hm : Manned s)
    (h : s.cancel_call c = some s') : Acts (.cancelled c) s s' := by
  have hover : ∀ place, Finished place → Acts (.cancelled c) s (s.end_call c place) :=
    fun place hp => ends_acts (own_end_call s c place) (over_end_call s c hp) fun hi => hi.elim
  unfold cancel_call at h
  split at h
  · cases h
    exact hover _ trivial
  · cases h
    exact hover _ trivial
  · cases h
    exact hover _ trivial
  · cases h
    exact ends_acts (own_pop_and_end s c _) (over_pop_and_end s c trivial) fun hi => hi.elim
  · rename_i hplace
    cases h
    refine stays_acts hm (own_interrupt s c _) rfl rfl ?_ ?_ ?_
      (fun _ => by simp [interrupt, set_call]) fun hi => hi.elim
    · rw [hplace]
      simp
    · simp [interrupt, set_call]
    · simp [interrupt, set_call]
  · cases h
    exact hover _ trivial
  · rename_i task hplace
    cases h
    refine stays_acts hm ((still_cancel_task s task).own c) rfl rfl ?_ Iff.rfl id (fun _ => rfl)
      fun hi => hi.elim
    rw [hplace]
    simp
  all_goals cases h

/-- A waiting call ends when it wakes. -/
theorem finished_of_wake {call : Call} {place : CallAt} (h : wake call = some place) :
    Finished place := by
  unfold wake at h
  split at h <;> cases h <;> trivial

/-- The future of a call gets a result; where the call is, and the bytes, stay. -/
theorem dispatch_frame_stays (s : TcpTransport) (frame : Bytes) (origin : Option Nat) :
    Still s (s.dispatch_frame frame origin) ∧ (s.dispatch_frame frame origin).conns = s.conns ∧
      (s.dispatch_frame frame origin).tasks = s.tasks := by
  have hself := Still.refl s
  unfold dispatch_frame
  split
  · exact ⟨hself, rfl, rfl⟩
  · split
    · exact ⟨hself, rfl, rfl⟩
    · rename_i c _
      split
      · refine ⟨⟨?_, fun _ => rfl, fun _ => rfl, rfl, rfl, rfl, rfl⟩, rfl, rfl⟩
        intro d
        by_cases hd : d = c
        · subst hd
          simp [Standing, set_call]
        · simp [Standing, set_call, update_of_ne hd]
      · exact ⟨hself, rfl, rfl⟩

/-- The loop takes a frame off the bytes that arrived. -/
theorem frame_read_acts {s s' : TcpTransport} {g : Nat} (htidy : Tidy s)
    (h : step s (.frame_read g) = some s') : Acts (.frame_read g) s s' := by
  simp only [step] at h
  split at h
  · rename_i reader hplace
    obtain rfl := htidy.linked.reading_own g reader hplace
    have hg : reader < s.opened := htidy.linked.opened_of_place (g := reader) (by
      change (s.tasks reader).place ≠ .absent
      rw [hplace]
      simp)
    split at h
    · cases h
    · obtain ⟨frame, behind, hread, rfl⟩ := read_loop_frame_spec h
      obtain ⟨hstill, hconns, htasks⟩ := dispatch_frame_stays (s.set_conn reader
        { s.conns reader with unread := behind, replies := (s.conns reader).replies.tail }) frame
        (s.conns reader).replies.head?
      refine .bytes hstill.calls htasks hstill.opened hstill.pipeline hstill.connection
        hstill.serial fun _ => ⟨reader, hg, ?_, ?_⟩
      · obtain ⟨f, rfl⟩ := frame_of_read_frame hread
        have hlen := congrArg List.length (read_frame_takes hread)
        have hhead : 6 ≤ f.bytes.length := by
          simp only [Frame.bytes, Frame.header, List.length_append, Digits.length_toBytes]
          omega
        rw [List.length_append] at hlen
        rw [hconns]
        simp only [set_conn, update_self]
        omega
      · intro k hk
        rw [hconns]
        simp only [set_conn, update_of_ne hk]
  · cases h

theorem place_of_teardown_at {s : TcpTransport} {c : Nat} {w : TeardownAt}
    (h : s.teardown_at (.caller c) = some w) : (s.calls c).place = .teardown w := by
  simp only [teardown_at] at h
  cases hplace : (s.calls c).place with
  | teardown w' =>
    simp only [hplace, Option.some.injEq] at h
    rw [h]
  | _ => simp [hplace] at h

theorem task_of_teardown_at {s : TcpTransport} {g : Nat} {w : TeardownAt}
    (h : s.teardown_at (.reader g) = some w) : (s.tasks g).place = .teardown w := by
  simp only [teardown_at] at h
  cases hplace : (s.tasks g).place with
  | teardown w' =>
    simp only [hplace, Option.some.injEq] at h
    rw [h]
  | _ => simp [hplace] at h

theorem peer_reply_acts {s s' : TcpTransport} {c : Nat} {unit_id : Int} {pdu : Bytes}
    (h : peer_reply s c unit_id pdu = some s') : Acts (.peer_replied c unit_id pdu) s s' := by
  unfold peer_reply at h
  simp only at h
  split at h
  · split at h
    · cases h
    · cases h
      refine .bytes (fun d => ?_) rfl rfl rfl rfl rfl fun hi => hi.elim
      by_cases hd : d = c
      · subst hd
        simp [Standing, set_call, set_conn]
      · simp [Standing, set_call, set_conn, update_of_ne hd]
  · cases h

/-- The first step of a read loop. -/
theorem read_loop_turns (s : TcpTransport) (g : Nat) :
    Turns g s (s.read_loop g) ∧ task_rank ((s.read_loop g).tasks g).place < 4 := by
  have hself := Still.refl s
  unfold read_loop
  split
  · exact ⟨hself.turns g (by simp) (by simp), by simp [set_task, task_rank]⟩
  · split
    · exact ⟨hself.turns g (by simp) (by simp), by simp [set_task, task_rank]⟩
    · exact ⟨hself.turns g (by simp) (by simp), by simp [set_task, task_rank]⟩

/-- A loop that comes into its teardown, or through it, has less left to do than one that reads. -/
theorem task_rank_of_teardown {place : TaskAt}
    (h : place = .done ∨ ∃ w, place = .teardown w) : task_rank place < 3 := by
  rcases h with rfl | ⟨w, rfl⟩
  · simp [task_rank]
  · cases w with
    | wait_closed writer => simp [task_rank]
    | await_task task => simp [task_rank]

theorem acts_step {s s' : TcpTransport} {e : Event} (htidy : Tidy s) (hm : Manned s)
    (h : step s e = some s') : Acts e s s' := by
  have hlatest : ∀ t, s.read_task = some t → s.opened = t + 1 := htidy.linked.task_latest
  have hopened : ∀ {g}, (s.tasks g).place ≠ .absent → g < s.opened := fun hne =>
    htidy.linked.opened_of_place hne
  have hself := Still.refl s
  cases e with
  | start_connect c =>
    have hplace : (s.calls c).place = .absent := by
      by_contra hne
      simp [step, hne] at h
    exact start_connect_acts hm hplace h
  | start_send c pdu unit_id timeout_s =>
    have hplace : (s.calls c).place = .absent := by
      by_contra hne
      simp [step, hne] at h
    exact start_send_acts hm hplace h
  | start_close c =>
    have hplace : (s.calls c).place = .absent := by
      by_contra hne
      simp [step, hne] at h
    exact start_close_acts hm hplace h
  | serial_acquired c =>
    simp only [step, Option.ite_none_right_eq_some] at h
    obtain ⟨⟨hplace, hlock⟩, h⟩ := h
    cases h
    refine ensure_connected_acts (own_locks s c (fun _ _ h => h) ?_) ?_ (fun _ _ => rfl) ?_
    · intro d hd
      simp [hlock, hd.symm]
    · exact (hm.free (by rw [hplace]; exact id)).1
    · intro _
      simp [rank, hplace]
  | lock_acquired c =>
    simp only [step, Option.ite_none_right_eq_some] at h
    obtain ⟨⟨hplace, hlock⟩, h⟩ := h
    cases h
    exact lock_acquired_acts hm hplace hlock
  | opened c =>
    simp only [step, Option.ite_none_right_eq_some] at h
    obtain ⟨hplace, h⟩ := h
    cases h
    exact opened_acts hm hplace
  | open_failed c failure =>
    simp only [step, Option.ite_none_right_eq_some] at h
    obtain ⟨hplace, h⟩ := h
    cases h
    exact ends_acts (own_end_call s c _) (over_end_call s c trivial) fun _ => by simp [rank, hplace]
  | drained c =>
    simp only [step, Option.ite_none_right_eq_some] at h
    obtain ⟨hplace, h⟩ := h
    cases h
    refine stays_acts hm (own_set_call s c _) rfl rfl (by rw [hplace]; simp) ?_ ?_
      (fun _ => kind_move s c _) fun _ => ?_
    · rw [place_move, hplace]
      exact Iff.rfl
    · rw [place_move, hplace]
      exact id
    · simp only [rank, place_move, hplace]
      split <;> omega
  | send_failed c message =>
    simp only [step, Option.ite_none_right_eq_some] at h
    obtain ⟨hplace, h⟩ := h
    cases h
    exact ends_acts (own_pop_and_end s c _) (over_pop_and_end s c trivial) fun _ => by
      simp [rank, hplace]
  | timed_out c =>
    simp only [step, Option.ite_none_right_eq_some] at h
    obtain ⟨⟨hplace, hnone⟩, h⟩ := h
    cases h
    refine stays_acts hm (own_interrupt s c _) rfl rfl (by rw [hplace]; simp) ?_ ?_
      (fun _ => by simp [interrupt, set_call]) fun _ => ?_
    · simp [interrupt, set_call]
    · simp [interrupt, set_call]
    · simp [rank, interrupt, set_call, hplace, hnone]
  | resumed c =>
    simp only [step, Option.ite_none_right_eq_some, Option.map_eq_some_iff] at h
    obtain ⟨hplace, place, hwake, rfl⟩ := h
    exact ends_acts (own_pop_and_end s c _) (over_pop_and_end s c (finished_of_wake hwake)) fun _ => by
      simp only [rank, hplace]
      split <;> omega
  | cancelled c => exact cancelled_acts hm h
  | read_started g =>
    simp only [step, Option.ite_none_right_eq_some] at h
    obtain ⟨hplace, h⟩ := h
    cases h
    obtain ⟨hturns, hless⟩ := read_loop_turns s g
    refine .loop g (hopened (by rw [hplace]; simp)) hturns ?_
    rw [hplace]
    exact hless
  | frame_read g => exact frame_read_acts htidy h
  | read_ended g =>
    simp only [step] at h
    split at h
    · rename_i reader hplace
      have hg := hopened (g := g) (by rw [hplace]; simp)
      split at h
      · cases h
        obtain ⟨hturns, hat⟩ := teardown_turns hself hg hlatest
        refine .loop g hg hturns ?_
        rw [hplace]
        exact task_rank_of_teardown hat
      · cases h
    · cases h
  | read_cancelled g =>
    simp only [step] at h
    split at h
    · rename_i reader hplace
      have hg := hopened (g := g) (by rw [hplace]; simp)
      split at h
      · cases h
        obtain ⟨hturns, hat⟩ := teardown_turns (still_set_flag s g false) hg hlatest
        refine .loop g hg hturns ?_
        have hreading : task_rank (s.tasks g).place = 3 := by rw [hplace]; simp [task_rank]
        exact (task_rank_of_teardown hat).trans_eq hreading.symm
      · cases h
    · cases h
  | closed_waited a =>
    simp only [step] at h
    split at h
    · rename_i writer hat
      split at h
      · cases h
      · cases h
        cases a with
        | caller c =>
          have hplace := place_of_teardown_at hat
          obtain ⟨hown, hover | ⟨t, ht, hconnection, hserial⟩⟩ := teardown_closed_gets s c
          · exact ends_acts hown hover fun _ => by simp [rank, hplace]
          · refine stays_acts hm hown hconnection hserial (by rw [hplace]; simp) ?_ ?_ ?_
              fun _ => ?_
            · rw [hplace, ht]
              exact Iff.rfl
            · rw [ht]
              exact False.elim
            · rw [hplace]
              exact False.elim
            · simp [rank, hplace, ht]
        | reader g =>
          have hplace := task_of_teardown_at hat
          have hg := hopened (g := g) (by rw [hplace]; simp)
          obtain ⟨hturns, hto⟩ := teardown_closed_turns hself hg hlatest
          refine .loop g hg hturns ?_
          rw [hplace]
          rcases hto with hto | ⟨t, hto⟩
          · simp [hto, task_rank]
          · simp [hto, task_rank]
    · cases h
  | task_awaited a =>
    simp only [step] at h
    split at h
    · rename_i task hat
      split at h
      · cases h
        cases a with
        | caller c =>
          have hplace := place_of_teardown_at hat
          exact ends_acts (own_teardown_end s c) (over_teardown_end s c) fun _ => by
            simp [rank, hplace]
        | reader g =>
          have hplace := task_of_teardown_at hat
          obtain ⟨hturns, hdone⟩ := teardown_end_turns hself g
          refine .loop g (hopened (by rw [hplace]; simp)) hturns ?_
          rw [hplace, hdone]
          simp [task_rank]
      · cases h
    · cases h
  | teardown_cancelled g =>
    simp only [step] at h
    split at h
    · rename_i writer hplace
      split at h
      · cases h
        refine .loop g (hopened (by rw [hplace]; simp)) (hself.turns g (by simp) (by simp)) ?_
        rw [hplace]
        simp [set_task, task_rank]
      · cases h
    · cases h
  | peer_replied c unit_id pdu =>
    exact peer_reply_acts h
  | peer_sent g bytes =>
    cases h
    exact .bytes (Standing.refl s) rfl rfl rfl rfl rfl fun hi => hi.elim
  | bytes_arrived g n =>
    cases h
    exact .bytes (Standing.refl s) rfl rfl rfl rfl rfl fun hi => hi.elim
  | connection_lost g =>
    cases h
    exact .bytes (Standing.refl s) rfl rfl rfl rfl rfl fun hi => hi.elim

/-! ## What is left to do gets less -/

theorem manned_step {s s' : TcpTransport} {e : Event} (htidy : Tidy s) (hm : Manned s)
    (h : step s e = some s') : Manned s' := by
  cases acts_step htidy hm h with
  | call c hown hconnection hserial halone hless => exact hm.own hown hconnection hserial halone
  | opening c hown hconnection hserial halone hless =>
    have hinstalled : Manned s.install := by
      refine ⟨by rintro c ⟨⟩, hm.serial, fun c => ⟨(hm.alone c).entitled, (hm.alone c).sends⟩, ?_, ?_⟩
      · intro g hlt
        by_cases hg : g = s.opened
        · subst hg
          simp [install]
        · simp only [install, update_of_ne hg] at hlt ⊢
          exact hm.begun g (by omega)
      · intro g t ht
        by_cases hg : g = s.opened
        · subst hg
          simp [install] at ht
        · simp only [install, update_of_ne hg] at ht
          exact hm.later g t ht
    refine hinstalled.own hown ?_ hserial halone
    intro hc
    rw [hconnection] at hc
    cases hc
  | loop g hg hturns hless => exact hm.turns hturns
  | bytes hcalls htasks hopened hpipeline hconnection hserial hless =>
    refine ⟨?_, ?_, ?_, ?_, ?_⟩
    · intro c hc
      rw [(hcalls c).1]
      exact hm.connection c (hconnection ▸ hc)
    · intro c hc
      rw [(hcalls c).1]
      exact hm.serial c (hserial ▸ hc)
    · intro c
      exact (hcalls c).alone hpipeline (fun hlock => hserial.trans hlock) (hm.alone c)
    · intro g hg
      rw [htasks]
      exact hm.begun g (hopened ▸ hg)
    · intro g t ht
      rw [htasks] at ht
      exact hm.later g t ht

/-- The calls from `n` on have not begun. -/
def Unbegun (n : Nat) (s : TcpTransport) : Prop := ∀ c, n ≤ c → (s.calls c).place = .absent

/-- Whatever happens, only finitely many calls have begun. -/
theorem unbegun_step {s s' : TcpTransport} {e : Event} (htidy : Tidy s) (hm : Manned s) {n : Nat}
    (hn : Unbegun n s) (h : step s e = some s') : ∃ m, Unbegun m s' := by
  have hone : ∀ {s₀ : TcpTransport} {c : Nat}, Own c s₀ s' → s₀.calls = s.calls →
      ∃ m, Unbegun m s' := by
    intro s₀ c hown hcalls
    refine ⟨max n (c + 1), fun d hd => ?_⟩
    rw [(hown.others d (by omega)).1, hcalls]
    exact hn d (by omega)
  have hnone : (∀ c, Standing s s' c) → ∃ m, Unbegun m s' := by
    intro hcalls
    refine ⟨n, fun d hd => ?_⟩
    rw [(hcalls d).1]
    exact hn d hd
  cases acts_step htidy hm h with
  | call c hown hconnection hserial halone hless => exact hone hown rfl
  | opening c hown hconnection hserial halone hless => exact hone hown rfl
  | loop g hg hturns hless => exact hnone hturns.calls
  | bytes hcalls htasks hopened hpipeline hconnection hserial hless => exact hnone hcalls

/-- What is in order in every state that the transport comes to. -/
structure Ordered (s : TcpTransport) : Prop where
  tidy : Tidy s
  manned : Manned s
  unbegun : ∃ n, Unbegun n s

theorem ordered_step {s s' : TcpTransport} {e : Event} (h : Ordered s) (he : step s e = some s') :
    Ordered s' := by
  obtain ⟨n, hn⟩ := h.unbegun
  exact ⟨tidy_step h.tidy he, manned_step h.tidy h.manned he, unbegun_step h.tidy h.manned hn he⟩

theorem ordered_new (host : String) (port : Int) (pipeline : Bool) (connect_timeout_s : String) :
    Ordered (new host port pipeline connect_timeout_s) := by
  refine ⟨tidy_new host port pipeline connect_timeout_s, ⟨?_, ?_, ?_, ?_, ?_⟩, 0, fun _ _ => rfl⟩
  · rintro c ⟨⟩
  · rintro c ⟨⟩
  · exact fun c => ⟨fun h => h.elim, fun h => h.elim⟩
  · intro g hg
    exact absurd hg (Nat.not_lt_zero g)
  · rintro g t ⟨⟩

/-- What the first `n` calls and the first `m` read loops have left to do. -/
def load (n m : Nat) (s : TcpTransport) : Nat :=
  ∑ c ∈ Finset.range n, rank (s.calls c) + ∑ g ∈ Finset.range m, busy s g

/-- The calls with something left to do are among the first `n`, and all the loops that they may
still open are among the first `m`. -/
structure Bounded (n m : Nat) (s : TcpTransport) : Prop where
  idle : ∀ c, n ≤ c → rank (s.calls c) = 0
  loops : s.opened + ∑ c ∈ Finset.range n, rank (s.calls c) ≤ m

theorem bounded_of_unbegun {n : Nat} {s : TcpTransport} (h : Unbegun n s) :
    Bounded n (s.opened + ∑ c ∈ Finset.range n, rank (s.calls c)) s := by
  refine ⟨fun c hc => ?_, le_refl _⟩
  unfold rank
  rw [h c hc]

/-- A step of one call. -/
theorem Own.ranks {s s' : TcpTransport} {c : Nat} (h : Own c s s') :
    ∀ d, d ≠ c → rank (s'.calls d) = rank (s.calls d) :=
  fun d hd => (h.others d hd).rank_eq

theorem Own.busy_eq {s s' : TcpTransport} {c : Nat} (h : Own c s s') (g : Nat) :
    busy s' g = busy s g := by
  unfold busy
  rw [h.tasks g, h.unread g]

theorem Bounded.among {n m : Nat} {s : TcpTransport} (h : Bounded n m s) {c : Nat}
    (hc : 0 < rank (s.calls c)) : c < n := by
  by_contra hle
  have := h.idle c (by omega)
  omega

/-- A step of the transport itself leaves less to do. -/
theorem load_step {n m : Nat} {s s' : TcpTransport} {e : Event} (ho : Ordered s)
    (hb : Bounded n m s) (hi : e.Internal) (h : step s e = some s') :
    Bounded n m s' ∧ load n m s' < load n m s := by
  have hloops := hb.loops
  cases acts_step ho.tidy ho.manned h with
  | call c hown hconnection hserial halone hless =>
    have hlt := hless hi
    have hc := hb.among (c := c) (by omega)
    have hsum := sum_change hc hown.ranks
    have hbusy : ∑ g ∈ Finset.range m, busy s' g = ∑ g ∈ Finset.range m, busy s g :=
      Finset.sum_congr rfl fun g _ => hown.busy_eq g
    refine ⟨⟨fun d hd => ?_, ?_⟩, ?_⟩
    · rw [hown.ranks d (by omega)]
      exact hb.idle d hd
    · rw [hown.opened]
      omega
    · unfold load
      omega
  | opening c hown hconnection hserial halone hless =>
    have hc := hb.among (c := c) (by omega)
    have hsum := sum_change hc (f := fun d => rank (s.calls d)) hown.ranks
    have hopened : s'.opened = s.opened + 1 := hown.opened
    have hnext : s.opened < m := by
      have hle := Finset.single_le_sum (f := fun d => rank (s.calls d)) (fun d _ => Nat.zero_le _)
        (Finset.mem_range.mpr hc)
      omega
    have hone := sum_change (f := busy s) (g := busy s') hnext fun k hk => by
      rw [hown.busy_eq k]
      simp [busy, install, update_of_ne hk]
    have hnew : busy s' s.opened ≤ busy s s.opened + 4 := by
      rw [hown.busy_eq]
      simp only [busy, install, update_self, task_rank]
      omega
    refine ⟨⟨fun d hd => ?_, ?_⟩, ?_⟩
    · rw [hown.ranks d (by omega)]
      exact hb.idle d hd
    · rw [hopened]
      omega
    · unfold load
      omega
  | loop g hg hturns hless =>
    have hranks := Finset.sum_congr rfl fun c (_ : c ∈ Finset.range n) => (hturns.calls c).rank_eq
    have hone := sum_change (n := m) (c := g) (f := busy s) (g := busy s') (by omega) fun k hk => by
      simp [busy, hturns.others k hk, hturns.unread k]
    have hself : busy s' g < busy s g := by
      simp only [busy, hturns.unread g]
      omega
    refine ⟨⟨fun d hd => ?_, ?_⟩, ?_⟩
    · rw [(hturns.calls d).rank_eq]
      exact hb.idle d hd
    · rw [hturns.opened]
      omega
    · unfold load
      omega
  | bytes hcalls htasks hopened hpipeline hconnection hserial hless =>
    obtain ⟨g, hg, hshorter, hrest⟩ := hless hi
    have hranks := Finset.sum_congr rfl fun c (_ : c ∈ Finset.range n) => (hcalls c).rank_eq
    have hone := sum_change (n := m) (c := g) (f := busy s) (g := busy s') (by omega) fun k hk => by
      simp [busy, htasks, hrest k hk]
    have hself : busy s' g < busy s g := by
      simp only [busy, htasks]
      omega
    refine ⟨⟨fun d hd => ?_, ?_⟩, ?_⟩
    · rw [(hcalls d).rank_eq]
      exact hb.idle d hd
    · rw [hopened]
      omega
    · unfold load
      omega

/-! ## At rest -/

/-- The transport can do nothing more by itself. -/
def AtRest (s : TcpTransport) : Prop := Runs.AtRest step Event.Internal s

/-- A read loop that has been told to stop is done, unless the transport can do something. -/
theorem AtRest.stopped {s : TcpTransport} (hrest : AtRest s) (ho : Ordered s) {g : Nat}
    (hstop : Stopping (s.tasks g)) : (s.tasks g).place = .done := by
  -- a loop awaits only later ones: the induction is on the connections behind it
  induction hk : s.opened - g using Nat.strong_induction_on generalizing g with
  | _ k ih =>
    have hg : g < s.opened := ho.tidy.linked.opened_of_ne (g := g) (by
      intro hd
      change s.tasks g = {} at hd
      rw [hd] at hstop
      rcases hstop with h | ⟨w, h⟩ | h <;> cases h)
    cases hplace : (s.tasks g).place with
    | done => rfl
    | absent => exact absurd hplace (ho.manned.begun g hg)
    | created =>
      have := hrest (.read_started g) trivial
      simp [step, hplace] at this
    | reading reader =>
      have hflag : (s.tasks g).cancel_requested = true := by
        rcases hstop with h | ⟨w, h⟩ | h
        · exact h
        · rw [hplace] at h
          cases h
        · rw [hplace] at h
          cases h
      have := hrest (.read_cancelled g) trivial
      simp [step, hplace, hflag] at this
    | teardown w =>
      cases w with
      | wait_closed writer =>
        cases hflag : (s.tasks g).cancel_requested with
        | true =>
          have := hrest (.teardown_cancelled g) trivial
          simp [step, hplace, hflag] at this
        | false =>
          have := hrest (.closed_waited (.reader g)) trivial
          simp [step, teardown_at, cancel_pending, hplace, hflag] at this
      | await_task t =>
        have hlater := ho.manned.later g t hplace
        have hdone := ih (s.opened - t) (by omega) (ho.tidy.linked.awaited g t hplace) rfl
        have := hrest (.task_awaited (.reader g)) trivial
        simp [step, teardown_at, hplace, hdone] at this

theorem AtRest.not_opening {s : TcpTransport} (hrest : AtRest s) (c : Nat) :
    (s.calls c).place ≠ .opening := by
  intro hplace
  have := hrest (.opened c) trivial
  simp [step, hplace] at this

theorem AtRest.connection_free {s : TcpTransport} (hrest : AtRest s) (ho : Ordered s) :
    s.connection_lock = none := by
  cases hlock : s.connection_lock with
  | none => rfl
  | some c => exact absurd (ho.manned.connection c hlock) (hrest.not_opening c)

/-- No call is left that sends. -/
theorem AtRest.not_sending {s : TcpTransport} (hrest : AtRest s) (ho : Ordered s) (c : Nat) :
    ¬ Sending (s.calls c).place := by
  cases hplace : (s.calls c).place with
  | connection_lock =>
    have := hrest (.lock_acquired c) trivial
    simp [step, hplace, hrest.connection_free ho] at this
  | opening => exact absurd hplace (hrest.not_opening c)
  | draining =>
    have := hrest (.drained c) trivial
    simp [step, hplace] at this
  | waiting =>
    cases hinterrupt : (s.calls c).interrupt with
    | none =>
      have := hrest (.timed_out c) trivial
      simp [step, hplace, hinterrupt] at this
    | some i =>
      have := hrest (.resumed c) trivial
      cases i <;> simp [step, wake, hplace, hinterrupt] at this
  | _ => exact id

theorem AtRest.serial_free {s : TcpTransport} (hrest : AtRest s) (ho : Ordered s) :
    s.serial_lock = none := by
  cases hlock : s.serial_lock with
  | none => rfl
  | some c => exact absurd (ho.manned.serial c hlock) (hrest.not_sending ho c)

theorem AtRest.finished {s : TcpTransport} (hrest : AtRest s) (ho : Ordered s) {c : Nat}
    (hbegun : (s.calls c).place ≠ .absent) : Finished (s.calls c).place := by
  have hsending := hrest.not_sending ho c
  cases hplace : (s.calls c).place with
  | absent => exact absurd hplace hbegun
  | serial_lock =>
    have := hrest (.serial_acquired c) trivial
    simp [step, hplace, hrest.serial_free ho] at this
  | connection_lock | opening | draining | waiting =>
    rw [hplace] at hsending
    exact absurd trivial hsending
  | teardown w =>
    cases w with
    | wait_closed writer =>
      have := hrest (.closed_waited (.caller c)) trivial
      simp [step, teardown_at, cancel_pending, hplace] at this
    | await_task t =>
      have hdone := hrest.stopped ho (ho.tidy.awaited c t hplace)
      have := hrest (.task_awaited (.caller c)) trivial
      simp [step, teardown_at, hplace, hdone] at this
  | returned | raised | closed => trivial

/-- A read loop is left that reads, or none. -/
theorem AtRest.loops {s : TcpTransport} (hrest : AtRest s) (ho : Ordered s) (g : Nat) :
    (s.tasks g).place = .absent ∨ (s.tasks g).place = .done ∨
      (s.tasks g).place = .reading g ∧ (s.tasks g).cancel_requested = false := by
  cases hplace : (s.tasks g).place with
  | absent => exact Or.inl rfl
  | done => exact Or.inr (Or.inl rfl)
  | created =>
    have := hrest (.read_started g) trivial
    simp [step, hplace] at this
  | teardown w =>
    have hdone := hrest.stopped ho (Or.inr (Or.inl ⟨w, hplace⟩))
    rw [hplace] at hdone
    cases hdone
  | reading reader =>
    obtain rfl := ho.tidy.linked.reading_own g reader hplace
    refine Or.inr (Or.inr ⟨rfl, ?_⟩)
    by_contra hflag
    have hdone := hrest.stopped ho (Or.inl (by simpa using hflag))
    rw [hplace] at hdone
    cases hdone

/-- Without a request in flight no id is pending. -/
theorem pending_empty {s : TcpTransport} (ha : Accounts s) (h : ∀ d, ¬ Open (s.calls d).place) :
    s.pending = ∅ := by
  apply AList.ext
  apply List.eq_nil_iff_forall_not_mem.mpr
  rintro ⟨t, c⟩ hmem
  exact h c (ha.registered t c (AList.mem_lookup_iff.mpr hmem)).2.1

/-- Nothing is left over: no call hangs, no lock is held, no future waits for an answer, and a
read loop that is not done reads its own connection. -/
structure Settled (s : TcpTransport) : Prop where
  calls : ∀ c, (s.calls c).place = .absent ∨ Finished (s.calls c).place
  connection_lock : s.connection_lock = none
  serial_lock : s.serial_lock = none
  pending : s.pending = ∅
  loops : ∀ g, (s.tasks g).place = .absent ∨ (s.tasks g).place = .done ∨
    (s.tasks g).place = .reading g ∧ (s.tasks g).cancel_requested = false

theorem AtRest.settled {s : TcpTransport} (hrest : AtRest s) (ho : Ordered s) (ha : Accounts s) :
    Settled s := by
  have hcalls : ∀ c, (s.calls c).place = .absent ∨ Finished (s.calls c).place :=
    fun c => (em _).imp id fun hbegun => hrest.finished ho hbegun
  refine ⟨hcalls, hrest.connection_free ho, hrest.serial_free ho, ?_, hrest.loops ho⟩
  apply pending_empty ha
  intro c hopen
  rcases hcalls c with h | h
  · rw [h] at hopen
    exact hopen
  · exact not_finished_of_open hopen h

/-- No call hangs: whatever has happened to a transport, and however its coroutines are scheduled
from there on, it comes to rest as soon as nothing comes from outside any more, and then every
call has ended. -/
theorem every_call_ends (host : String) (port : Int) (pipeline : Bool) (connect_timeout_s : String)
    {es : List Event} {s : TcpTransport}
    (hrun : run step (new host port pipeline connect_timeout_s) es = some s) :
    ComesToRest step Event.Internal Settled s := by
  have ho := invariant_run (g := fun _ _ => True) (fun s e s' ho _ he => ordered_step ho he)
    (ordered_new host port pipeline connect_timeout_s) (guarded_of_forall (fun _ _ _ => trivial) _) hrun
  obtain ⟨n, hn⟩ := ho.unbegun
  have hstart := And.intro (And.intro ho (accounts_run host port pipeline connect_timeout_s hrun))
    (bounded_of_unbegun hn)
  have hstep : ∀ {m : Nat} (s : TcpTransport) (e : Event) (s' : TcpTransport),
      (Ordered s ∧ Accounts s) ∧ Bounded n m s → e.Internal → step s e = some s' →
        ((Ordered s' ∧ Accounts s') ∧ Bounded n m s') ∧ load n m s' < load n m s := by
    intro m s e s' ⟨⟨ho, ha⟩, hb⟩ hi he
    obtain ⟨hb', hless⟩ := load_step ho hb hi he
    exact ⟨⟨⟨ordered_step ho he, accounts_step ho.tidy ha he⟩, hb'⟩, hless⟩
  refine comes_to_rest hstep ?_ hstart
  intro t ⟨⟨ho, ha⟩, _⟩ hrest
  exact AtRest.settled hrest ho ha

/-- A request is in flight and the transport is being closed. -/
theorem a_closing_transport_comes_to_rest :
    ∃ s, run step (new "plc" 502 true "3.0") [.start_send 0 [3, 0, 0, 0, 1] 1 "1.0",
        .lock_acquired 0, .opened 0, .read_started 0, .drained 0, .start_close 1] = some s ∧
      (s.calls 0).place = .waiting ∧ (s.calls 1).place = .teardown (.wait_closed 0) ∧
      ComesToRest step Event.Internal Settled s := by
  have hrun : run step (new "plc" 502 true "3.0") [.start_send 0 [3, 0, 0, 0, 1] 1 "1.0",
      .lock_acquired 0, .opened 0, .read_started 0, .drained 0, .start_close 1] = some _ := rfl
  exact ⟨_, hrun, by decide, by decide, every_call_ends "plc" 502 true "3.0" hrun⟩

end pymod.tcp
