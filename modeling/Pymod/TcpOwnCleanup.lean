-- The cleanup of a lost connection: which calls it fails and which read loop it cancels, by what
-- it finds when it comes back from its first `await`.
import Pymod.TcpTeardown

namespace pymod.tcp

open TcpTransport errors Function Runs

/-! ## What a cleanup may touch -/

/-- The read loop of a connection fails only calls whose frames went to that connection, cancels
no other read loop, and closes no other writer. A cleanup that cancels a loop awaits it. -/
structure OwnCleanup (s : TcpTransport) : Prop where
  failed : ∀ c e g, (s.calls c).future = .exception e (.reader g) → (s.calls c).conn = some g
  spared : ∀ g t, (s.tasks g).place ≠ .teardown (.await_task t)
  closed : ∀ g w, (s.tasks g).place = .teardown (.wait_closed w) → w = g

def Event.is_close : Event → Bool
  | .start_close _ => true
  | _ => false

/-- The read loop whose teardown comes back from `wait_closed`. -/
def Event.loop_waited : Event → Option Nat
  | .closed_waited (.reader g) => some g
  | _ => none

/-- The teardown of a read loop that comes back from `wait_closed` finds the read task of no other
loop, unless that is done, and no call of another connection that is still pending. -/
def FindsItsOwn (s : TcpTransport) (e : Event) : Prop :=
  ∀ g ∈ e.loop_waited, (∀ t ∈ s.read_task, t ≠ g → (s.tasks t).place = .done) ∧
    ∀ c ∈ s.pending.values, (s.calls c).future = .pending → (s.calls c).conn = some g

theorem loop_waited_eq {e : Event} {g : Nat} (h : e.loop_waited = some g) :
    e = .closed_waited (.reader g) := by
  cases e with
  | closed_waited a =>
    rcases a with c | k
    · cases h
    · cases h
      rfl
  | _ => cases h

instance (s : TcpTransport) (e : Event) : Decidable (FindsItsOwn s e) :=
  inferInstanceAs (Decidable (∀ g ∈ e.loop_waited, _))

/-! ## The calls that fail -/

/-- No read loop has failed another call, and the calls that one has failed stay with their
connections. -/
def FailsNone (s s' : TcpTransport) : Prop :=
  ∀ c e g, (s'.calls c).future = .exception e (.reader g) →
    (s.calls c).future = .exception e (.reader g) ∧ (s'.calls c).conn = (s.calls c).conn

theorem FailsNone.of_calls {s s' : TcpTransport} (h : s'.calls = s.calls) : FailsNone s s' := by
  intro c e g hc
  rw [h] at hc ⊢
  exact ⟨hc, rfl⟩

theorem FailsNone.trans {s s' s'' : TcpTransport} (h : FailsNone s s') (h' : FailsNone s' s'') :
    FailsNone s s'' := by
  intro c e g hc
  obtain ⟨hbefore, hconn'⟩ := h' c e g hc
  obtain ⟨hfirst, hconn⟩ := h c e g hbefore
  exact ⟨hfirst, hconn'.trans hconn⟩

/-- One call changes. -/
theorem FailsNone.set_call {s : TcpTransport} {c : Nat} {call : Call}
    (h : ∀ e g, call.future = .exception e (.reader g) →
      (s.calls c).future = .exception e (.reader g) ∧ call.conn = (s.calls c).conn) :
    FailsNone s (s.set_call c call) := by
  intro d e g hd
  by_cases hdc : d = c
  · subst hdc
    simp only [TcpTransport.set_call, update_self] at hd ⊢
    exact h e g hd
  · simp only [TcpTransport.set_call, update_of_ne hdc] at hd ⊢
    exact ⟨hd, trivial⟩

theorem fails_none_move (s : TcpTransport) (c : Nat) (place : CallAt) :
    FailsNone s (s.move c place) := by
  apply FailsNone.set_call
  intro e g he
  exact ⟨he, rfl⟩

theorem fails_none_pop (s : TcpTransport) (c : Nat) (place : CallAt) :
    FailsNone s (s.pop_and_end c place) := by
  have hmove := fails_none_move s c place
  unfold TcpTransport.pop_and_end
  split
  · exact hmove
  · exact hmove

theorem fails_none_send (s : TcpTransport) (c : Nat) :
    FailsNone s (s.send_and_receive_unlocked c) := by
  unfold send_and_receive_unlocked
  split
  · exact fails_none_move s c _
  · rename_i tid next' _
    -- the call that is registered has a new future
    have hregister : FailsNone s (s.register c tid next') := by
      intro d e g hd
      by_cases hdc : d = c
      · subst hdc
        simp [register] at hd
      · simp only [register, update_of_ne hdc] at hd ⊢
        exact ⟨hd, trivial⟩
    have hpop : ∀ e, FailsNone s ((s.register c tid next').pop_and_end c (.raised e)) := fun e =>
      hregister.trans (fails_none_pop _ c _)
    unfold TcpTransport.write_request
    split
    · exact hpop _
    · split
      · exact hpop _
      · intro d e g hd
        by_cases hdc : d = c
        · subst hdc
          simp [write_frame, TcpTransport.set_call, set_conn, register] at hd
        · simp only [write_frame, TcpTransport.set_call, set_conn, register,
            update_of_ne hdc] at hd ⊢
          exact ⟨hd, trivial⟩

theorem FailsNone.effect {s s' : TcpTransport} (he : Effect s s') : FailsNone s s' := by
  cases he with
  | silent hs => exact .of_calls hs.calls
  | start c kind pdu unit_id timeout_s habs =>
    apply FailsNone.set_call
    rintro e g ⟨⟩
  | move c hm => exact fails_none_move s c _
  | send c _ _ _ => exact fails_none_send s c
  | drain c hplace => exact fails_none_move s c _
  | interrupt c i hplace =>
    apply FailsNone.set_call
    intro e g he
    simp only at he
    split at he
    · cases he
    · exact ⟨he, rfl⟩
  | pop c _ _ _ _ => exact fails_none_pop s c _
  | answer c unit_id pdu hreply =>
    obtain ⟨g, tid, frame, -, -, -, -, hcalls, -⟩ := peer_reply_spec hreply
    have hset : FailsNone s (s.set_call c { s.calls c with answer := some pdu }) := by
      apply FailsNone.set_call
      intro e g he
      exact ⟨he, rfl⟩
    intro d e g hd
    rw [hcalls] at hd ⊢
    exact hset d e g hd
  | arrive g n => exact .of_calls rfl
  | lose g => exact .of_calls rfl

theorem FailsNone.effects {s s' : TcpTransport} (he : Effects s s') : FailsNone s s' := by
  induction he with
  | refl => exact .of_calls rfl
  | tail _ he ih => exact ih.trans (.effect he)

theorem FailsNone.dispatch (s : TcpTransport) (frame : codec.Bytes) (origin : Option Nat) :
    FailsNone s (s.dispatch_frame frame origin) := by
  unfold dispatch_frame
  split
  · exact .of_calls rfl
  · split
    · exact .of_calls rfl
    · split
      · apply FailsNone.set_call
        rintro e g ⟨⟩
      · exact .of_calls rfl

theorem through_effects {e : Event} {s s' : TcpTransport} (h : Through e s s')
    (ha : e.agent = none) (ho : ∀ c, e ≠ .opened c) : Effects s s' := by
  obtain ⟨s₁, s₂, h1, hj, h2⟩ := h
  cases hj with
  | stay => exact h1.trans h2
  | install c => exact absurd rfl (ho c)
  | clear a _ hagent =>
    rw [ha] at hagent
    cases hagent

theorem Quiet.callers {s s' : TcpTransport} (hq : Quiet s s')
    (h : ∀ c w, (s.calls c).place ≠ .teardown w) (c : Nat) (w : TeardownAt) :
    (s'.calls c).place ≠ .teardown w := by
  rcases hq.places c with hp | hp
  · rw [hp]
    exact h c w
  · exact hp.2.1 w

theorem place_of_caller {s : TcpTransport} {c : Nat} {w : TeardownAt}
    (h : s.teardown_at (.caller c) = some w) : (s.calls c).place = .teardown w := by
  simp only [teardown_at] at h
  split at h
  · cases h
    assumption
  · cases h

theorem place_of_reader {s : TcpTransport} {g : Nat} {w : TeardownAt}
    (h : s.teardown_at (.reader g) = some w) : (s.tasks g).place = .teardown w := by
  simp only [teardown_at] at h
  split at h
  · cases h
    assumption
  · cases h

/-! ## The invariant -/

/-- Nobody has closed the transport, no read loop was cancelled, and each cleanup has kept to its
own connection so far. -/
structure Kept (s : TcpTransport) : Prop where
  tidy : Tidy s
  accounts : Accounts s
  unclosed : s.closed = false
  callers : ∀ c w, (s.calls c).place ≠ .teardown w
  uncancelled : ∀ g, (s.tasks g).cancel_requested = false
  torn : ∀ g w, (s.tasks g).place = .teardown w → w = .wait_closed g
  failed : ∀ c e g, (s.calls c).future = .exception e (.reader g) → (s.calls c).conn = some g

theorem Kept.own_cleanup {s : TcpTransport} (h : Kept s) : OwnCleanup s := by
  refine ⟨h.failed, ?_, ?_⟩
  · intro g t hp
    cases h.torn g _ hp
  · intro g w hp
    cases h.torn g _ hp
    rfl

theorem FailsNone.failed {s s' : TcpTransport} (h : FailsNone s s')
    (hs : ∀ c e g, (s.calls c).future = .exception e (.reader g) → (s.calls c).conn = some g)
    (c : Nat) (e : PyError) (g : Nat) (hc : (s'.calls c).future = .exception e (.reader g)) :
    (s'.calls c).conn = some g := by
  obtain ⟨hbefore, hconn⟩ := h c e g hc
  rw [hconn]
  exact hs c e g hbefore

/-- A step that leaves the link alone. -/
theorem Kept.of_link {s s' : TcpTransport} (h : Kept s) (hl : s'.link = s.link) (htidy : Tidy s')
    (haccounts : Accounts s') (hcallers : ∀ c w, (s'.calls c).place ≠ .teardown w)
    (hfails : FailsNone s s') : Kept s' := by
  have hclosed : s'.closed = s.closed := congrArg Link.closed hl
  have htasks : s'.tasks = s.tasks := congrArg Link.tasks hl
  refine ⟨htidy, haccounts, hclosed.trans h.unclosed, hcallers, ?_, ?_, hfails.failed h.failed⟩
  · rw [htasks]
    exact h.uncancelled
  · rw [htasks]
    exact h.torn

/-- The task of one read loop changes. -/
theorem Kept.of_task {s s' : TcpTransport} (h : Kept s) {g : Nat} {task : ReadTask}
    (htasks : s'.tasks = update s.tasks g task) (htidy : Tidy s') (haccounts : Accounts s')
    (hclosed : s'.closed = s.closed) (hcallers : ∀ c w, (s'.calls c).place ≠ .teardown w)
    (huncancelled : task.cancel_requested = false)
    (htorn : ∀ w, task.place = .teardown w → w = .wait_closed g)
    (hfailed : ∀ c e k, (s'.calls c).future = .exception e (.reader k) →
      (s'.calls c).conn = some k) : Kept s' := by
  refine ⟨htidy, haccounts, hclosed.trans h.unclosed, hcallers, ?_, ?_, hfailed⟩
  · intro k
    rw [htasks]
    by_cases hk : k = g
    · subst hk
      rw [update_self]
      exact huncancelled
    · rw [update_of_ne hk]
      exact h.uncancelled k
  · intro k w hw
    rw [htasks] at hw
    by_cases hk : k = g
    · subst hk
      rw [update_self] at hw
      exact htorn w hw
    · rw [update_of_ne hk] at hw
      exact h.torn k w hw

/-! ## The steps that change a read loop -/

/-- A connection is opened. Its call goes on, and the others stay where they are. -/
theorem opened_effects {s : TcpTransport} {c : Nat} (hplace : (s.calls c).place = .opening) :
    Effects s.install (s.ensure_connected_opened c) := by
  apply connected_call_effects s.install
  · simp [install, hplace, Idle]
  · rfl
  · rintro g ⟨⟩
    rfl

theorem Kept.opened {s : TcpTransport} (h : Kept s) {c : Nat}
    (hplace : (s.calls c).place = .opening) (htidy : Tidy (s.ensure_connected_opened c))
    (haccounts : Accounts (s.ensure_connected_opened c)) : Kept (s.ensure_connected_opened c) := by
  have hq := connected_call_quiet s.install c
  have hfails : FailsNone s (s.ensure_connected_opened c) := by
    have hinstall : FailsNone s s.install := .of_calls rfl
    exact hinstall.trans (.effects (opened_effects hplace))
  apply h.of_task (congrArg Link.tasks hq.link) htidy haccounts (congrArg Link.closed hq.link)
    (hq.callers h.callers) rfl
  · rintro w ⟨⟩
  · exact hfails.failed h.failed

/-- The read loop of a connection that starts finds the reader. -/
theorem Kept.read_loop_eq {s : TcpTransport} (h : Kept s) {g : Nat}
    (hplace : (s.tasks g).place = .created) :
    s.connected = true ∧ ∃ r, s.read_loop g = s.set_task g { place := .reading r } := by
  have hconn : s.connected = true := by
    rcases (h.tidy.linked.live_latest g (.inl hplace)).2 with hc | hc
    · exact hc
    · exact absurd (h.unclosed.symm.trans hc) (by simp)
  obtain ⟨r, hr⟩ : ∃ r, s.reader = some r := by
    have h1 := h.tidy.linked.connected_writer
    have h2 : s.reader = s.writer := h.tidy.linked.same
    rw [h2]
    exact Option.isSome_iff_exists.mp (h1.symm.trans hconn)
  refine ⟨hconn, r, ?_⟩
  unfold TcpTransport.read_loop
  rw [if_neg (by simp [h.uncancelled g]), hr]

theorem Kept.read_loop {s : TcpTransport} (h : Kept s) {g : Nat}
    (hplace : (s.tasks g).place = .created) (htidy : Tidy (s.read_loop g))
    (haccounts : Accounts (s.read_loop g)) : Kept (s.read_loop g) := by
  obtain ⟨-, r, heq⟩ := h.read_loop_eq hplace
  rw [heq] at htidy haccounts ⊢
  apply h.of_task rfl htidy haccounts rfl h.callers rfl
  · rintro w ⟨⟩
  · exact h.failed

/-- The read loop of a connection that leaves its reads closes its own writer. -/
theorem Kept.read_loop_ends_eq {s : TcpTransport} (h : Kept s) {g : Nat}
    (hg : ∃ r, (s.tasks g).place = .reading r) :
    s.opened = g + 1 ∧ s.connected = true ∧
      (s.set_task g { place := .done }).teardown (.reader g) =
        s.disconnect.set_task g { place := .teardown (.wait_closed g) } := by
  obtain ⟨r, hr⟩ := hg
  obtain ⟨hlatest, hor⟩ := h.tidy.linked.live_latest g (.inr ⟨r, hr⟩)
  have hconn : s.connected = true := by
    rcases hor with hc | hc
    · exact hc
    · exact absurd (h.unclosed.symm.trans hc) (by simp)
  obtain ⟨w, hw⟩ : ∃ w, s.writer = some w := by
    have := h.tidy.linked.connected_writer
    exact Option.isSome_iff_exists.mp (this.symm.trans hconn)
  have hwg : w = g := by
    have h1 : s.opened = w + 1 := h.tidy.linked.writer_latest w hw
    have h2 : s.opened = g + 1 := hlatest
    omega
  subst hwg
  refine ⟨hlatest, hconn, ?_⟩
  unfold TcpTransport.teardown
  rw [show (s.set_task w { place := .done }).writer = some w from hw]
  simp only [suspend_teardown]
  simp [disconnect, TcpTransport.set_task]

theorem Kept.read_loop_ends {s : TcpTransport} (h : Kept s) {g : Nat}
    (hg : ∃ r, (s.tasks g).place = .reading r)
    (htidy : Tidy ((s.set_task g { place := .done }).teardown (.reader g)))
    (haccounts : Accounts ((s.set_task g { place := .done }).teardown (.reader g))) :
    Kept ((s.set_task g { place := .done }).teardown (.reader g)) := by
  obtain ⟨-, -, heq⟩ := h.read_loop_ends_eq hg
  rw [heq] at htidy haccounts ⊢
  apply h.of_task rfl htidy haccounts rfl h.callers rfl
  · rintro w ⟨⟩
    rfl
  · exact h.failed

/-! ## The end of a teardown -/

theorem place_teardown_end (s : TcpTransport) (g c : Nat) :
    ((s.teardown_end (.reader g)).calls c).place = (s.calls c).place ∧
      ((s.teardown_end (.reader g)).calls c).conn = (s.calls c).conn := by
  simp only [TcpTransport.teardown_end, TcpTransport.set_task, clear_pending, fail_pending]
  split <;> exact ⟨rfl, rfl⟩

/-- The calls that a teardown fails are those that are pending. -/
theorem future_teardown_end {s : TcpTransport} {g c k : Nat} {e : PyError}
    (h : ((s.teardown_end (.reader g)).calls c).future = .exception e (.reader k)) :
    (s.calls c).future = .exception e (.reader k) ∨
      k = g ∧ c ∈ s.pending.values ∧ (s.calls c).future = .pending := by
  simp only [TcpTransport.teardown_end, TcpTransport.set_task, clear_pending, fail_pending] at h
  split at h
  · rename_i hpend
    cases h
    exact .inr ⟨rfl, hpend⟩
  · exact .inl h

theorem future_of_teardown_end {s : TcpTransport} (g : Nat) {c : Nat}
    (hc : c ∈ s.pending.values) (hpending : (s.calls c).future = .pending) :
    ∃ e, ((s.teardown_end (.reader g)).calls c).future = .exception e (.reader g) := by
  simp only [TcpTransport.teardown_end, TcpTransport.set_task, clear_pending, fail_pending]
  rw [if_pos ⟨hc, hpending⟩]
  exact ⟨_, rfl⟩

theorem Kept.teardown_end {s : TcpTransport} (h : Kept s) {g : Nat}
    (hown : ∀ c ∈ s.pending.values, (s.calls c).future = .pending → (s.calls c).conn = some g)
    (htidy : Tidy (s.teardown_end (.reader g)))
    (haccounts : Accounts (s.teardown_end (.reader g))) : Kept (s.teardown_end (.reader g)) := by
  have htasks : (s.teardown_end (.reader g)).tasks =
      update s.tasks g { s.tasks g with place := .done } := rfl
  apply h.of_task htasks htidy haccounts rfl
  · intro c w
    rw [(place_teardown_end s g c).1]
    exact h.callers c w
  · exact h.uncancelled g
  · rintro w ⟨⟩
  · intro c e k hc
    rw [(place_teardown_end s g c).2]
    rcases future_teardown_end hc with hbefore | ⟨rfl, hmem, hpending⟩
    · exact h.failed c e k hbefore
    · exact hown c hmem hpending

/-- A teardown that finds no loop to cancel runs to its end. -/
theorem teardown_closed_eq {s : TcpTransport} {g : Nat}
    (h : ∀ t ∈ s.read_task, t ≠ g → (s.tasks t).place = .done) :
    s.teardown_closed (.reader g) = s.teardown_end (.reader g) := by
  unfold TcpTransport.teardown_closed
  split
  · rfl
  · rename_i t htask
    rw [if_neg]
    rintro ⟨hother, hrun⟩
    exact hrun (h t htask fun htg => hother (by rw [htg]))

/-! ## A step -/

/-- The teardown that comes back from `wait_closed` is that of a read loop. -/
theorem Kept.waiting_loop {s s' : TcpTransport} (h : Kept s) {a : Agent}
    (he : step s (.closed_waited a) = some s') :
    ∃ g, a = .reader g ∧ (s.tasks g).place = .teardown (.wait_closed g) ∧
      s' = s.teardown_closed (.reader g) := by
  simp only [step] at he
  split at he
  · rename_i w hw
    split at he
    · cases he
    · cases he
      rcases a with c | g
      · exact absurd (place_of_caller hw) (h.callers c _)
      · have hplace := place_of_reader hw
        cases h.torn g _ hplace
        exact ⟨_, rfl, hplace, rfl⟩
  · cases he

/-- No teardown waits for a task that it has cancelled. -/
theorem Kept.no_task_awaited {s s' : TcpTransport} (h : Kept s) {a : Agent} :
    step s (.task_awaited a) ≠ some s' := by
  intro he
  simp only [step] at he
  split at he
  · rename_i t ht
    rcases a with c | g
    · exact absurd (place_of_caller ht) (h.callers c _)
    · cases h.torn g _ (place_of_reader ht)
  · cases he

theorem kept_step {s s' : TcpTransport} {e : Event} (h : Kept s) (hopen : e.is_close = false)
    (hown : FindsItsOwn s e) (he : step s e = some s') : Kept s' := by
  have htidy := tidy_step h.tidy he
  have haccounts := accounts_step h.tidy h.accounts he
  have hquiet : Quiet s s' → Effects s s' → Kept s' := fun hq heff =>
    h.of_link hq.link htidy haccounts (hq.callers h.callers) (.effects heff)
  cases e with
  | start_connect c | start_send c pdu unit_id timeout_s | serial_acquired c | open_failed c failure
  | drained c | send_failed c message | timed_out c | resumed c
  | peer_replied c unit_id pdu | bytes_arrived g n | connection_lost g =>
    apply hquiet (quiet_step he rfl)
    exact through_effects (step_through h.tidy he rfl) rfl (by rintro c ⟨⟩)
  | frame_read g =>
    have hq := quiet_step he rfl
    simp only [step] at he
    split at he
    · split at he
      · cases he
      · obtain ⟨frame, behind, -, rfl⟩ := read_loop_frame_spec he
        apply h.of_link hq.link htidy haccounts (hq.callers h.callers)
        exact .dispatch (s.set_conn _ _) frame _
    · cases he
  | peer_sent g bytes =>
    cases he
    exact h.of_link rfl htidy haccounts h.callers (.of_calls rfl)
  | start_close c => cases hopen
  | lock_acquired c =>
    have heff := through_effects (step_through h.tidy he rfl) rfl (by rintro c ⟨⟩)
    simp only [step, Option.ite_none_right_eq_some] at he
    obtain ⟨-, he⟩ := he
    cases he
    unfold ensure_connected_locked at hquiet htidy haccounts heff ⊢
    split at hquiet
    · rename_i hconn
      rw [if_pos hconn] at heff ⊢
      exact hquiet (connected_call_quiet s c) heff
    · rename_i hconn
      rw [if_neg hconn] at htidy haccounts heff ⊢
      rw [if_neg (by simp [h.unclosed])] at htidy haccounts heff ⊢
      refine h.of_link rfl htidy haccounts ?_ (.effects heff)
      intro d w
      by_cases hd : d = c
      · subst hd
        simp [TcpTransport.move, TcpTransport.set_call]
      · simp only [TcpTransport.move, TcpTransport.set_call, update_of_ne hd]
        exact h.callers d w
  | opened c =>
    simp only [step, Option.ite_none_right_eq_some] at he
    obtain ⟨hplace, he⟩ := he
    cases he
    exact h.opened hplace htidy haccounts
  | cancelled c =>
    rcases cancel_call_cases he with hqu | ⟨t, hplace, -⟩
    · exact hquiet hqu (cancel_call_effects he)
    · exact absurd hplace (h.callers c _)
  | read_started g =>
    simp only [step, Option.ite_none_right_eq_some] at he
    obtain ⟨hplace, he⟩ := he
    cases he
    exact h.read_loop hplace htidy haccounts
  | read_ended g =>
    obtain ⟨hr, rfl⟩ := read_loop_ends (.inl rfl) he
    exact h.read_loop_ends hr htidy haccounts
  | read_cancelled g =>
    obtain ⟨hr, rfl⟩ := read_loop_ends (.inr rfl) he
    exact h.read_loop_ends hr htidy haccounts
  | closed_waited a =>
    obtain ⟨g, rfl, -, rfl⟩ := h.waiting_loop he
    obtain ⟨htasks, hcalls⟩ := hown g rfl
    rw [teardown_closed_eq htasks] at htidy haccounts ⊢
    exact h.teardown_end hcalls htidy haccounts
  | task_awaited a => exact absurd he h.no_task_awaited
  | teardown_cancelled g =>
    simp only [step, h.uncancelled g] at he
    split at he <;> cases he

/-- A teardown that finds a loop of another connection, or a call of one, touches it at once. -/
theorem kept_break {s s' : TcpTransport} {e : Event} (h : Kept s) (hown : ¬ FindsItsOwn s e)
    (he : step s e = some s') : ¬ OwnCleanup s' := by
  unfold FindsItsOwn at hown
  push Not at hown
  obtain ⟨g, hg, hfinds⟩ := hown
  obtain rfl : e = .closed_waited (.reader g) := loop_waited_eq hg
  obtain ⟨k, heq, hplace, rfl⟩ := h.waiting_loop he
  cases heq
  intro hcleanup
  by_cases htasks : ∀ t ∈ s.read_task, t ≠ g → (s.tasks t).place = .done
  · obtain ⟨c, hc, hpending, hconn⟩ := hfinds htasks
    rw [teardown_closed_eq htasks] at hcleanup
    obtain ⟨e, hfuture⟩ := future_of_teardown_end g hc hpending
    have hsame := hcleanup.failed c e g hfuture
    rw [(place_teardown_end s g c).2] at hsame
    exact hconn hsame
  · push Not at htasks
    obtain ⟨t, htask, hother, hrun⟩ := htasks
    have hcancel : s.teardown_closed (.reader g) =
        (s.cancel_task t).suspend_teardown (.reader g) (.await_task t) := by
      unfold TcpTransport.teardown_closed
      rw [show s.read_task = some t from htask]
      simp only
      rw [if_pos ⟨fun heq => hother (Agent.reader.inj heq).symm, hrun⟩]
    rw [hcancel] at hcleanup
    apply hcleanup.spared g t
    simp [suspend_teardown]

theorem kept_new (host : String) (port : Int) (pipeline : Bool) (connect_timeout_s : String) :
    Kept (new host port pipeline connect_timeout_s) := by
  refine ⟨tidy_new host port pipeline connect_timeout_s,
    accounts_new host port pipeline connect_timeout_s, rfl, ?_, fun _ => rfl, ?_, ?_⟩
  · rintro c w ⟨⟩
  · rintro g w ⟨⟩
  · rintro c e g ⟨⟩

end pymod.tcp
