-- What a step of the TCP transport can do to its calls, the dictionary of pending
-- ids and the bytes of its connections: a step is a chain of small effects, with
-- at most one jump among them, the opening of a connection or the end of a
-- teardown.
import Pymod.TcpConnections
import Mathlib.Logic.Relation

namespace pymod.tcp

open TcpTransport errors Function

/-! ## Effects -/

/-- A call that has no transaction id yet. -/
def Idle : CallAt → Prop
  | .absent | .serial_lock | .connection_lock | .opening => True
  | _ => False

/-- A call whose future may be in `_pending`. -/
def Open : CallAt → Prop
  | .draining | .waiting => True
  | _ => False

/-- Neither calls nor pending ids nor bytes change, and no connection is opened. -/
structure Silent (s s' : TcpTransport) : Prop where
  calls : s'.calls = s.calls
  pending : s'.pending = s.pending
  conns : s'.conns = s.conns
  next_tid : s'.next_tid = s.next_tid
  probed : s'.probed = s.probed
  allocated : s'.allocated = s.allocated
  opened : s'.opened = s.opened
  connected : s'.connected = true → s.connected = true

/-- From one place without a pending future to another one. -/
structure Moves (place place' : CallAt) : Prop where
  closed : ¬ Open place
  closed' : ¬ Open place'
  idle : Idle place' → Idle place
  absent : place' ≠ .absent
  returned : ∀ pdu, place' ≠ .returned (some pdu)

inductive Effect : TcpTransport → TcpTransport → Prop
  | silent {s s'} (h : Silent s s') : Effect s s'
  | start {s} (c : Nat) (kind : Kind) (pdu : codec.Bytes) (unit_id : Int) (timeout_s : String)
      (h : (s.calls c).place = .absent) :
      Effect s (s.set_call c
        { kind := kind, pdu := pdu, unit_id := unit_id, timeout_s := timeout_s })
  | move {s} (c : Nat) {place : CallAt} (h : Moves (s.calls c).place place) :
      Effect s (s.move c place)
  | send {s} (c : Nat) (idle : Idle (s.calls c).place) (connected : s.connected = true)
      (latest : ∀ g, s.writer = some g → s.opened = g + 1) :
      Effect s (s.send_and_receive_unlocked c)
  | drain {s} (c : Nat) (h : (s.calls c).place = .draining) : Effect s (s.move c .waiting)
  | interrupt {s} (c : Nat) (i : Interrupt) (h : (s.calls c).place = .waiting) :
      Effect s (s.interrupt c i)
  | pop {s} (c : Nat) {place : CallAt} (h : Open (s.calls c).place) (h' : ¬ Open place)
      (hidle : ¬ Idle place)
      (hret : ∀ pdu, place = .returned (some pdu) → ∃ o, (s.calls c).future = .result pdu o) :
      Effect s (s.pop_and_end c place)
  | answer {s s'} (c : Nat) (unit_id : Int) (pdu : codec.Bytes)
      (h : peer_reply s c unit_id pdu = some s') : Effect s s'
  | arrive {s} (g n : Nat) : Effect s (s.set_conn g { s.conns g with
      unread := (s.conns g).unread ++ (s.conns g).wire.take n, wire := (s.conns g).wire.drop n })
  | lose {s} (g : Nat) : Effect s (s.set_conn g { s.conns g with lost := true })

def Effects : TcpTransport → TcpTransport → Prop := Relation.ReflTransGen Effect

theorem Effect.once {s s' : TcpTransport} (h : Effect s s') : Effects s s' :=
  Relation.ReflTransGen.single h

/-- Who runs the teardown that the event is a step of. -/
def Event.agent : Event → Option Agent
  | .start_close c => some (.caller c)
  | .read_ended g | .read_cancelled g => some (.reader g)
  | .closed_waited a | .task_awaited a => some a
  | _ => none

/-- What a step does beyond its effects: nothing, or it opens a connection, or it ends a
teardown. -/
inductive Jump : Event → TcpTransport → TcpTransport → Prop
  | stay (e : Event) (s : TcpTransport) : Jump e s s
  | install (c : Nat) (s : TcpTransport) : Jump (.opened c) s s.install
  | clear {e : Event} (a : Agent) (s : TcpTransport) (h : e.agent = some a) :
      Jump e s (s.clear_pending a)

/-- Effects, a jump, and effects. -/
def Through (e : Event) (s s' : TcpTransport) : Prop :=
  ∃ s₁ s₂, Effects s s₁ ∧ Jump e s₁ s₂ ∧ Effects s₂ s'

theorem Effects.through {e : Event} {s s' : TcpTransport} (h : Effects s s') : Through e s s' :=
  ⟨s', s', h, .stay e s', .refl⟩

theorem Through.before {e : Event} {s s' s'' : TcpTransport} (h : Effects s s')
    (h' : Through e s' s'') : Through e s s'' := by
  obtain ⟨s₁, s₂, h1, hj, h2⟩ := h'
  exact ⟨s₁, s₂, Relation.ReflTransGen.trans h h1, hj, h2⟩

/-- What effects and the jump of the event preserve, the step preserves. -/
theorem Through.preserves {e : Event} {s s' : TcpTransport} {p : TcpTransport → Prop}
    (h : Through e s s') (heff : ∀ s s', p s → Effect s s' → p s')
    (hjump : ∀ s₁ s₂, Effects s s₁ → p s₁ → Jump e s₁ s₂ → p s₂) (hs : p s) : p s' := by
  have hall : ∀ {s s' : TcpTransport}, Effects s s' → p s → p s' := by
    intro s s' h hs
    induction h with
    | refl => exact hs
    | tail _ he ih => exact heff _ _ ih he
  obtain ⟨s₁, s₂, h1, hj, h2⟩ := h
  exact hall h2 (hjump s₁ s₂ h1 (hall h1 hs) hj)

/-! ## The functions of the transport as effects -/

theorem set_task_effects (s : TcpTransport) (g : Nat) (task : ReadTask) :
    Effects s (s.set_task g task) := by
  apply Effect.once
  exact .silent ⟨rfl, rfl, rfl, rfl, rfl, rfl, rfl, id⟩

/-- The locks and the closed flag change. -/
theorem locks_effects (s : TcpTransport) (closed : Bool) (connection_lock serial_lock : Option Nat) :
    Effects s { s with
      closed := closed, connection_lock := connection_lock, serial_lock := serial_lock } := by
  apply Effect.once
  exact .silent ⟨rfl, rfl, rfl, rfl, rfl, rfl, rfl, id⟩

theorem disconnect_effects (s : TcpTransport) : Effects s s.disconnect := by
  apply Effect.once
  refine .silent ⟨rfl, rfl, rfl, rfl, rfl, rfl, rfl, ?_⟩
  intro h
  cases h

theorem end_call_effects (s : TcpTransport) (c : Nat) {place : CallAt}
    (h : Moves (s.calls c).place place) : Effects s (s.end_call c place) := by
  apply (Effect.move c h).once.trans
  exact locks_effects (s.move c place) _ _ _

theorem moves_raised {place : CallAt} (h : ¬ Open place) (e : PyError) : Moves place (.raised e) :=
  ⟨h, id, fun hi => hi.elim, by simp, by simp⟩

theorem moves_returned {place : CallAt} (h : ¬ Open place) : Moves place (.returned none) :=
  ⟨h, id, fun hi => hi.elim, by simp, by simp⟩

theorem moves_closed {place : CallAt} (h : ¬ Open place) : Moves place .closed :=
  ⟨h, id, fun hi => hi.elim, by simp, by simp⟩

theorem moves_teardown {place : CallAt} (h : ¬ Open place) (w : TeardownAt) :
    Moves place (.teardown w) :=
  ⟨h, id, fun hi => hi.elim, by simp, by simp⟩

theorem not_open_of_idle {place : CallAt} (h : Idle place) : ¬ Open place := by
  cases place <;> first | exact id | cases h

theorem connected_call_effects (s : TcpTransport) {c : Nat} (hidle : Idle (s.calls c).place)
    (hconn : s.connected = true) (hlatest : ∀ g, s.writer = some g → s.opened = g + 1) :
    Effects s (s.connected_call c) := by
  unfold connected_call
  split
  · exact (Effect.send c hidle hconn hlatest).once
  · exact end_call_effects s c (moves_returned (not_open_of_idle hidle))

theorem ensure_connected_effects (s : TcpTransport) {c : Nat} (hidle : Idle (s.calls c).place)
    (hlatest : ∀ g, s.writer = some g → s.opened = g + 1) :
    Effects s (s.ensure_connected c) := by
  unfold ensure_connected
  split
  · exact connected_call_effects s hidle ‹_› hlatest
  · apply Effect.once
    exact .move c ⟨not_open_of_idle hidle, id, fun _ => hidle, by simp, by simp⟩

/-- The call that runs a teardown is in no place with a pending future. -/
def Aside (s : TcpTransport) (a : Agent) : Prop := ∀ c, a = .caller c → ¬ Open (s.calls c).place

theorem suspend_teardown_effects (s : TcpTransport) {a : Agent} (w : TeardownAt) (h : Aside s a) :
    Effects s (s.suspend_teardown a w) := by
  unfold suspend_teardown
  rcases a with c | g
  · exact (Effect.move c (moves_teardown (h c rfl) w)).once
  · exact set_task_effects s g _

theorem teardown_end_through (s : TcpTransport) {e : Event} {a : Agent} (he : e.agent = some a)
    (h : Aside s a) : Through e s (s.teardown_end a) := by
  refine ⟨s, s.clear_pending a, .refl, .clear a s he, ?_⟩
  unfold TcpTransport.teardown_end
  rcases a with c | g
  · apply end_call_effects
    apply moves_closed
    have hplace : ((s.clear_pending (.caller c)).calls c).place = (s.calls c).place := by
      simp only [clear_pending, fail_pending]
      split <;> rfl
    rw [hplace]
    exact h c rfl
  · exact set_task_effects _ g _

theorem teardown_closed_through (s : TcpTransport) {e : Event} {a : Agent}
    (he : e.agent = some a) (h : Aside s a) : Through e s (s.teardown_closed a) := by
  unfold TcpTransport.teardown_closed
  split
  · exact teardown_end_through s he h
  · split
    · apply Effects.through
      apply (set_task_effects s _ _).trans
      exact suspend_teardown_effects (s.cancel_task _) _ h
    · exact teardown_end_through s he h

theorem teardown_through (s : TcpTransport) {e : Event} {a : Agent} (he : e.agent = some a)
    (h : Aside s a) : Through e s (s.teardown a) := by
  have hdis := disconnect_effects s
  unfold TcpTransport.teardown
  split
  · exact Through.before hdis (suspend_teardown_effects s.disconnect _ h).through
  · exact (teardown_closed_through s.disconnect he h).before hdis

theorem cancel_call_effects {s s' : TcpTransport} {c : Nat} (h : s.cancel_call c = some s') :
    Effects s s' := by
  unfold cancel_call at h
  split at h <;> cases h
  · exact end_call_effects s c (moves_raised (by simp [Open, *]) _)
  · exact end_call_effects s c (moves_raised (by simp [Open, *]) _)
  · exact end_call_effects s c (moves_raised (by simp [Open, *]) _)
  · exact (Effect.pop c (by simp [Open, *]) id id (by simp)).once
  · exact (Effect.interrupt c _ ‹_›).once
  · exact end_call_effects s c (moves_raised (by simp [Open, *]) _)
  · exact set_task_effects s _ _

/-! ## Every step as effects and a jump -/

/-- The steps that are left out: a read loop takes a frame, and a peer sends bytes that are no
answer. -/
def Event.reads : Event → Bool
  | .frame_read _ | .peer_sent _ _ => true
  | _ => false

theorem aside_of_teardown_at {s : TcpTransport} {a : Agent} {w : TeardownAt}
    (h : s.teardown_at a = some w) : Aside s a := by
  rintro c rfl hopen
  simp only [teardown_at] at h
  split at h
  · rename_i hp
    rw [hp] at hopen
    exact hopen
  · cases h

/-- A place that a waiting call wakes up to. -/
theorem wake_ends {call : Call} {place : CallAt} (h : wake call = some place) :
    ¬ Open place ∧ ¬ Idle place ∧
      ∀ pdu, place = .returned (some pdu) → ∃ o, call.future = .result pdu o := by
  unfold wake at h
  split at h <;> cases h
  · exact ⟨id, id, by simp⟩
  · exact ⟨id, id, by simp⟩
  · refine ⟨id, id, ?_⟩
    intro pdu' hp
    cases hp
    exact ⟨_, ‹_›⟩
  · exact ⟨id, id, by simp⟩
  · exact ⟨id, id, by simp⟩

theorem step_through {s s' : TcpTransport} {e : Event} (h : Tidy s) (he : step s e = some s')
    (hne : e.reads = false) : Through e s s' := by
  have hlatest : ∀ g, s.writer = some g → s.opened = g + 1 := h.linked.writer_latest
  cases e with
  | frame_read g | peer_sent g bytes => cases hne
  | start_connect c =>
    simp only [step, Option.ite_none_right_eq_some] at he
    obtain ⟨habs, he⟩ := he
    apply Effects.through
    apply (Effect.start c .connect [] 0 "" habs).once.trans
    split at he <;> cases he
    · apply end_call_effects
      exact moves_raised (by simp [set_call, Open]) _
    · apply ensure_connected_effects
      · simp [set_call, Idle]
      · exact hlatest
  | start_send c pdu unit_id timeout_s =>
    simp only [step, Option.ite_none_right_eq_some] at he
    obtain ⟨habs, he⟩ := he
    apply Effects.through
    apply (Effect.start c .send_and_receive pdu unit_id timeout_s habs).once.trans
    split at he
    · cases he
      apply end_call_effects
      exact moves_raised (by simp [set_call, Open]) _
    · split at he <;> cases he
      · apply ensure_connected_effects
        · simp [set_call, Idle]
        · exact hlatest
      · apply Effect.once
        exact .move c ⟨by simp [set_call, Open], id, fun _ => by simp [set_call, Idle], by simp,
          by simp⟩
  | start_close c =>
    simp only [step, Option.ite_none_right_eq_some] at he
    obtain ⟨habs, he⟩ := he
    cases he
    apply Through.before (Effect.start c .close [] 0 "" habs).once
    apply Through.before (locks_effects (s.set_call c { kind := .close }) true _ _)
    apply teardown_through _ rfl
    rintro d ⟨⟩
    simp [set_call, Open]
  | serial_acquired c =>
    simp only [step, Option.ite_none_right_eq_some] at he
    obtain ⟨⟨hplace, -⟩, he⟩ := he
    cases he
    apply Effects.through
    apply (locks_effects s _ _ (some c)).trans
    apply ensure_connected_effects
    · simp [hplace, Idle]
    · exact hlatest
  | lock_acquired c =>
    simp only [step, Option.ite_none_right_eq_some] at he
    obtain ⟨⟨hplace, -⟩, he⟩ := he
    cases he
    apply Effects.through
    have hidle : Idle (s.calls c).place := by simp [hplace, Idle]
    unfold ensure_connected_locked
    split
    · exact connected_call_effects s hidle ‹_› hlatest
    · split
      · exact end_call_effects s c (moves_raised (not_open_of_idle hidle) _)
      · apply (locks_effects s _ (some c) _).trans
        apply Effect.once
        exact .move c ⟨not_open_of_idle hidle, id, fun _ => hidle, by simp, by simp⟩
  | opened c =>
    simp only [step, Option.ite_none_right_eq_some] at he
    obtain ⟨hplace, he⟩ := he
    cases he
    refine ⟨s, s.install, .refl, .install c s, ?_⟩
    apply connected_call_effects s.install
    · simp [install, hplace, Idle]
    · rfl
    · rintro g ⟨⟩
      rfl
  | open_failed c failure =>
    simp only [step, Option.ite_none_right_eq_some] at he
    obtain ⟨hplace, he⟩ := he
    cases he
    exact (end_call_effects s c (moves_raised (by simp [hplace, Open]) _)).through
  | drained c =>
    simp only [step, Option.ite_none_right_eq_some] at he
    obtain ⟨hplace, he⟩ := he
    cases he
    exact (Effect.drain c hplace).once.through
  | send_failed c message =>
    simp only [step, Option.ite_none_right_eq_some] at he
    obtain ⟨hplace, he⟩ := he
    cases he
    exact (Effect.pop c (by simp [hplace, Open]) id id (by simp)).once.through
  | timed_out c =>
    simp only [step, Option.ite_none_right_eq_some] at he
    obtain ⟨⟨hplace, -⟩, he⟩ := he
    cases he
    exact (Effect.interrupt c _ hplace).once.through
  | resumed c =>
    simp only [step, Option.ite_none_right_eq_some, Option.map_eq_some_iff] at he
    obtain ⟨hplace, place, hw, rfl⟩ := he
    obtain ⟨hopen, hidle, hret⟩ := wake_ends hw
    exact (Effect.pop c (by simp [hplace, Open]) hopen hidle hret).once.through
  | cancelled c => exact (cancel_call_effects he).through
  | read_started g =>
    simp only [step, Option.ite_none_right_eq_some] at he
    obtain ⟨-, he⟩ := he
    cases he
    apply Effects.through
    unfold TcpTransport.read_loop
    split
    · exact set_task_effects s g _
    · split <;> exact set_task_effects s g _
  | read_ended g =>
    obtain ⟨-, rfl⟩ := read_loop_ends (.inl rfl) he
    apply Through.before (set_task_effects s g _)
    exact teardown_through _ rfl (by rintro c ⟨⟩)
  | read_cancelled g =>
    obtain ⟨-, rfl⟩ := read_loop_ends (.inr rfl) he
    apply Through.before (set_task_effects s g _)
    exact teardown_through _ rfl (by rintro c ⟨⟩)
  | closed_waited a =>
    simp only [step] at he
    split at he
    · rename_i w hw
      split at he
      · cases he
      · cases he
        exact teardown_closed_through s rfl (aside_of_teardown_at hw)
    · cases he
  | task_awaited a =>
    simp only [step] at he
    split at he
    · rename_i t ht
      split at he
      · cases he
        exact teardown_end_through s rfl (aside_of_teardown_at ht)
      · cases he
    · cases he
  | teardown_cancelled g =>
    simp only [step] at he
    split at he
    · split at he
      · cases he
        exact (set_task_effects s g _).through
      · cases he
    · cases he
  | peer_replied c unit_id pdu => exact (Effect.answer c unit_id pdu he).once.through
  | bytes_arrived g n =>
    cases he
    exact (Effect.arrive g n).once.through
  | connection_lost g =>
    cases he
    exact (Effect.lose g).once.through

end pymod.tcp
