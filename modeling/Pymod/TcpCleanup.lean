-- The cleanup of a lost connection, when no connection is opened while an earlier one is still
-- torn down: then it finds only what is its own.
import Pymod.TcpOwnCleanup

namespace pymod.tcp

open TcpTransport errors Function Runs

/-! ## The guard -/

def TearingDown : TaskAt → Prop
  | .teardown _ => True
  | _ => False

instance (place : TaskAt) : Decidable (TearingDown place) :=
  match place with
  | .teardown _ => isTrue trivial
  | .absent | .created | .reading _ | .done => isFalse id

def Event.is_opened : Event → Bool
  | .opened _ => true
  | _ => false

/-- A connection is opened when no earlier one is still torn down. -/
def OpensAlone (s : TcpTransport) (e : Event) : Prop :=
  e.is_opened = true → ∀ g < s.opened, ¬ TearingDown (s.tasks g).place

instance (s : TcpTransport) (e : Event) : Decidable (OpensAlone s e) :=
  inferInstanceAs (Decidable (e.is_opened = true → _))

/-! ## The calls -/

/-- Pending calls wait for the latest connection. -/
def Owned (s : TcpTransport) : Prop :=
  ∀ t c, s.pending.lookup t = some c → ∃ g, (s.calls c).conn = some g ∧ s.opened = g + 1

theorem Owned.of {s s' : TcpTransport} (h : Owned s) (hopened : s'.opened = s.opened)
    (hpend : ∀ t c, s'.pending.lookup t = some c →
      s.pending.lookup t = some c ∧ (s'.calls c).conn = (s.calls c).conn) : Owned s' := by
  intro t c hc
  obtain ⟨hold, hconn⟩ := hpend t c hc
  rw [hconn, hopened]
  exact h t c hold

/-- One call changes, and keeps its connection. -/
theorem Owned.set_call {s : TcpTransport} (h : Owned s) {c : Nat} {call : Call}
    (hconn : call.conn = (s.calls c).conn) : Owned (s.set_call c call) := by
  refine h.of rfl fun t d hd => ⟨hd, ?_⟩
  by_cases hdc : d = c
  · subst hdc
    simpa [TcpTransport.set_call] using hconn
  · simp [TcpTransport.set_call, update_of_ne hdc]

theorem Owned.pop_and_end {s : TcpTransport} (h : Owned s) (c : Nat) (place : CallAt) :
    Owned (s.pop_and_end c place) := by
  have hmove : Owned (s.move c place) := h.set_call rfl
  unfold TcpTransport.pop_and_end
  split
  · exact hmove
  · exact hmove.of rfl fun _ _ hc => ⟨(lookup_of_erase hc).2, rfl⟩

theorem Owned.send {s : TcpTransport} (h : Owned s) (ha : Accounts s) {c : Nat}
    (hidle : Idle (s.calls c).place) (hlatest : ∀ g, s.writer = some g → s.opened = g + 1) :
    Owned (s.send_and_receive_unlocked c) := by
  have hnot := ha.not_registered (not_open_of_idle hidle)
  unfold send_and_receive_unlocked
  split
  · exact (show Owned (s.move c (.raised (.modbus (.ModbusError
      "transaction id space exhausted")))) from h.set_call rfl)
  · rename_i tid next' _
    have hother : ∀ t d, (s.pending.insert tid c).lookup t = some d → t ≠ tid →
        d ≠ c ∧ s.pending.lookup t = some d := by
      intro t d hd ht
      rw [AList.lookup_insert_ne ht] at hd
      exact ⟨fun he => hnot t (he ▸ hd), hd⟩
    have hpop : ∀ e, Owned ((s.register c tid next').pop_and_end c (.raised e)) := by
      intro e
      have htid : ((s.register c tid next').calls c).tid = some tid := by simp [register]
      unfold TcpTransport.pop_and_end
      rw [htid]
      refine h.of rfl fun t d hd => ?_
      obtain ⟨hne, hd⟩ := lookup_of_erase hd
      obtain ⟨hdc, hd⟩ := hother t d hd hne
      refine ⟨hd, ?_⟩
      simp [end_call, TcpTransport.move, TcpTransport.set_call, register, update_of_ne hdc]
    unfold TcpTransport.write_request
    split
    · exact hpop _
    · rename_i w hw
      split
      · exact hpop _
      · intro t d hd
        by_cases ht : t = tid
        · subst ht
          change (s.pending.insert t c).lookup t = some d at hd
          rw [AList.lookup_insert] at hd
          cases hd
          refine ⟨w, ?_, hlatest w hw⟩
          simp [write_frame, TcpTransport.set_call]
        · obtain ⟨hdc, hd⟩ := hother t d hd ht
          simp only [write_frame, TcpTransport.set_call, set_conn, register, update_of_ne hdc]
          exact h t d hd

theorem Owned.effect {s s' : TcpTransport} (h : Owned s) (ha : Accounts s) (he : Effect s s') :
    Owned s' := by
  cases he with
  | silent hs =>
    refine h.of hs.opened ?_
    rw [hs.pending, hs.calls]
    exact fun _ _ hc => ⟨hc, rfl⟩
  | start c kind pdu unit_id timeout_s habs =>
    exact h.set_call (ha.idle c (by simp [habs, Idle])).2.1.symm
  | move c hm => exact h.set_call rfl
  | send c idle _ latest => exact h.send ha idle latest
  | drain c hplace => exact h.set_call rfl
  | interrupt c i hplace => exact h.set_call rfl
  | pop c _ _ _ _ => exact h.pop_and_end c _
  | answer c unit_id pdu hreply =>
    unfold peer_reply at hreply
    simp only at hreply
    split at hreply
    · split at hreply
      · cases hreply
      · cases hreply
        exact (show Owned (s.set_conn _ _) from h).set_call rfl
    · cases hreply
  | arrive g n => exact h
  | lose g => exact h

theorem Owned.effects {s s' : TcpTransport} (h : Owned s) (ha : Accounts s) (he : Effects s s') :
    Owned s' ∧ Accounts s' := by
  induction he with
  | refl => exact ⟨h, ha⟩
  | tail _ he ih => exact ⟨ih.1.effect ih.2 he, ih.2.effect he⟩

theorem Owned.dispatch {s : TcpTransport} (h : Owned s) (frame : codec.Bytes)
    (origin : Option Nat) : Owned (s.dispatch_frame frame origin) := by
  unfold dispatch_frame
  split
  · exact h
  · split
    · exact h
    · split
      · exact h.set_call rfl
      · exact h

@[simp] theorem pending_dispatch (s : TcpTransport) (frame : codec.Bytes) (origin : Option Nat) :
    (s.dispatch_frame frame origin).pending = s.pending := by
  unfold dispatch_frame
  split
  · rfl
  · split
    · rfl
    · split <;> rfl

/-- Nothing is pending, and no connection is there to send on. -/
structure Quenched (s : TcpTransport) : Prop where
  connected : s.connected = false
  pending : ∀ t, s.pending.lookup t = none

theorem Quenched.effect {s s' : TcpTransport} (h : Quenched s) (he : Effect s s') :
    Quenched s' := by
  cases he with
  | silent hs =>
    constructor
    · rcases hc : s'.connected with _ | _
      · rfl
      · exact (hs.connected hc).symm.trans h.connected
    · rw [hs.pending]
      exact h.pending
  | start c kind pdu unit_id timeout_s habs => exact ⟨h.connected, h.pending⟩
  | move c hm => exact ⟨h.connected, h.pending⟩
  | send c _ hconn _ =>
    rw [h.connected] at hconn
    cases hconn
  | drain c hplace => exact ⟨h.connected, h.pending⟩
  | interrupt c i hplace => exact ⟨h.connected, h.pending⟩
  | pop c _ _ _ _ =>
    unfold TcpTransport.pop_and_end
    split
    · exact ⟨h.connected, h.pending⟩
    · refine ⟨h.connected, fun t => ?_⟩
      rename_i tid _
      change (s.pending.erase tid).lookup t = none
      rcases hl : (s.pending.erase tid).lookup t with _ | d
      · rfl
      · have hold := (lookup_of_erase hl).2
        rw [h.pending t] at hold
        cases hold
  | answer c unit_id pdu hreply =>
    unfold peer_reply at hreply
    simp only at hreply
    split at hreply
    · split at hreply
      · cases hreply
      · cases hreply
        exact ⟨h.connected, h.pending⟩
    · cases hreply
  | arrive g n => exact ⟨h.connected, h.pending⟩
  | lose g => exact ⟨h.connected, h.pending⟩

theorem Quenched.effects {s s' : TcpTransport} (h : Quenched s) (he : Effects s s') :
    Quenched s' := by
  induction he with
  | refl => exact h
  | tail _ he ih => exact ih.effect he

/-! ## The invariant -/

/-- At most one connection is torn down, the latest one, and while nothing is connected and
nothing is torn down, nothing is pending. -/
structure Clean (s : TcpTransport) : Prop where
  kept : Kept s
  torn : ∀ g, TearingDown (s.tasks g).place → s.opened = g + 1 ∧ s.connected = false
  owned : Owned s
  emptied : s.connected = false → (∀ g, ¬ TearingDown (s.tasks g).place) →
    ∀ t, s.pending.lookup t = none

theorem tearing_down_of {place : TaskAt} {w : TeardownAt} (h : place = .teardown w) :
    TearingDown place := by
  rw [h]
  trivial

/-- A step that leaves the link alone. -/
theorem Clean.of_link {s s' : TcpTransport} (h : Clean s) (hl : s'.link = s.link)
    (hkept : Kept s') (howned : Owned s') (hquenched : Quenched s → Quenched s') : Clean s' := by
  have hconn : s'.connected = s.connected := congrArg Link.connected hl
  have hopened : s'.opened = s.opened := congrArg Link.opened hl
  have htasks : s'.tasks = s.tasks := congrArg Link.tasks hl
  refine ⟨hkept, ?_, howned, ?_⟩
  · rw [htasks, hopened, hconn]
    exact h.torn
  · rw [htasks, hconn]
    intro hc ht
    exact (hquenched ⟨hc, h.emptied hc ht⟩).pending

/-- A connection is opened when none is torn down. -/
theorem Clean.opened {s : TcpTransport} (h : Clean s) {c : Nat}
    (hplace : (s.calls c).place = .opening)
    (halone : ∀ g < s.opened, ¬ TearingDown (s.tasks g).place)
    (hkept : Kept (s.ensure_connected_opened c)) : Clean (s.ensure_connected_opened c) := by
  have hno : ∀ g, ¬ TearingDown (s.tasks g).place := by
    intro g hg
    apply halone g _ hg
    apply h.kept.tidy.linked.opened_of_place
    intro habs
    have habs' : (s.tasks g).place = .absent := habs
    rw [habs'] at hg
    exact hg
  have hempty := h.emptied (h.kept.tidy.opening c hplace).2.1 hno
  have howned : Owned s.install := by
    intro t d hd
    rw [show s.install.pending.lookup t = none from hempty t] at hd
    cases hd
  have hq := connected_call_quiet s.install c
  have htasks : (s.ensure_connected_opened c).tasks =
      update s.tasks s.opened { place := .created } := congrArg Link.tasks hq.link
  refine ⟨hkept, ?_, ?_, ?_⟩
  · intro g hg
    exfalso
    rw [htasks] at hg
    by_cases hgo : g = s.opened
    · subst hgo
      simp [TearingDown] at hg
    · rw [update_of_ne hgo] at hg
      exact hno g hg
  · exact (howned.effects (h.kept.accounts.congr rfl rfl rfl rfl) (opened_effects hplace)).1
  · intro hc
    have hconn : (s.ensure_connected_opened c).connected = true := congrArg Link.connected hq.link
    rw [hconn] at hc
    cases hc

/-- The read loop of the latest connection starts. -/
theorem Clean.read_loop {s : TcpTransport} (h : Clean s) {g : Nat}
    (hplace : (s.tasks g).place = .created) (hkept : Kept (s.read_loop g)) :
    Clean (s.read_loop g) := by
  obtain ⟨hconn, r, heq⟩ := h.kept.read_loop_eq hplace
  rw [heq] at hkept ⊢
  refine ⟨hkept, ?_, h.owned, ?_⟩
  · intro k hk
    by_cases hkg : k = g
    · subst hkg
      rw [tasks_set_task] at hk
      cases hk
    · rw [show (s.set_task g { place := .reading r }).tasks k = s.tasks k from
        update_of_ne hkg _ _] at hk
      exact h.torn k hk
  · intro hc
    exact absurd (hconn.symm.trans hc) (by simp)

/-- The read loop of the latest connection leaves its reads. -/
theorem Clean.read_loop_ends {s : TcpTransport} (h : Clean s) {g : Nat}
    (hg : ∃ r, (s.tasks g).place = .reading r)
    (hkept : Kept ((s.set_task g { place := .done }).teardown (.reader g))) :
    Clean ((s.set_task g { place := .done }).teardown (.reader g)) := by
  obtain ⟨hlatest, hconn, heq⟩ := h.kept.read_loop_ends_eq hg
  rw [heq] at hkept ⊢
  refine ⟨hkept, ?_, h.owned, ?_⟩
  · intro k hk
    by_cases hkg : k = g
    · subst hkg
      exact ⟨hlatest, rfl⟩
    · rw [show (s.disconnect.set_task g { place := .teardown (.wait_closed g) }).tasks k =
        s.tasks k from update_of_ne hkg _ _] at hk
      have hdown := (h.torn k hk).2
      rw [hconn] at hdown
      cases hdown
  · intro _ hno
    apply absurd trivial
    simpa [TearingDown] using hno g

/-- The teardown of the latest connection runs to its end. -/
theorem Clean.teardown_end {s : TcpTransport} (h : Clean s) {g : Nat}
    (hkept : Kept (s.teardown_end (.reader g))) : Clean (s.teardown_end (.reader g)) := by
  have hempty : ∀ t, (s.teardown_end (.reader g)).pending.lookup t = none := fun t => rfl
  refine ⟨hkept, ?_, ?_, fun _ _ => hempty⟩
  · intro k hk
    by_cases hkg : k = g
    · subst hkg
      rw [show ((s.teardown_end (.reader k)).tasks k).place = .done by
        simp [TcpTransport.teardown_end]] at hk
      cases hk
    · rw [show (s.teardown_end (.reader g)).tasks k = s.tasks k from update_of_ne hkg _ _] at hk
      exact h.torn k hk
  · intro t c hc
    rw [hempty t] at hc
    cases hc

/-- What a cleanup finds is its own: it is that of the latest connection. -/
theorem Clean.finds_its_own {s s' : TcpTransport} (h : Clean s) {e : Event}
    (he : step s e = some s') : FindsItsOwn s e := by
  intro g hg
  obtain rfl : e = .closed_waited (.reader g) := loop_waited_eq hg
  obtain ⟨k, heq, hplace, -⟩ := h.kept.waiting_loop he
  cases heq
  have hlatest := (h.torn g (tearing_down_of hplace)).1
  constructor
  · intro t htask hother
    have htask_latest : s.opened = t + 1 := h.kept.tidy.linked.task_latest t htask
    omega
  · intro c hc _
    obtain ⟨t, ht⟩ := mem_values.mp hc
    obtain ⟨k, hk, hopened⟩ := h.owned t c ht
    have hkg : k = g := by omega
    rw [← hkg]
    exact hk

theorem clean_step {s s' : TcpTransport} {e : Event} (h : Clean s) (hopen : e.is_close = false)
    (halone : OpensAlone s e) (he : step s e = some s') : Clean s' := by
  have hkept := kept_step h.kept hopen (h.finds_its_own he) he
  have hquiet : Quiet s s' → Effects s s' → Clean s' := fun hq heff =>
    h.of_link hq.link hkept (h.owned.effects h.kept.accounts heff).1 fun hquench =>
      hquench.effects heff
  cases e with
  | start_connect c | start_send c pdu unit_id timeout_s | serial_acquired c | open_failed c failure
  | drained c | send_failed c message | timed_out c | resumed c
  | peer_replied c unit_id pdu | bytes_arrived g n | connection_lost g =>
    apply hquiet (quiet_step he rfl)
    exact through_effects (step_through h.kept.tidy he rfl) rfl (by rintro c ⟨⟩)
  | frame_read g =>
    have hq := quiet_step he rfl
    simp only [step] at he
    split at he
    · split at he
      · cases he
      · obtain ⟨frame, behind, -, rfl⟩ := read_loop_frame_spec he
        apply h.of_link hq.link hkept
        · apply Owned.dispatch
          exact h.owned
        · intro hquench
          refine ⟨(congrArg Link.connected hq.link).trans hquench.connected, ?_⟩
          rw [pending_dispatch]
          exact hquench.pending
    · cases he
  | peer_sent g bytes =>
    cases he
    exact h.of_link rfl hkept h.owned fun hquench => ⟨hquench.connected, hquench.pending⟩
  | start_close c => cases hopen
  | lock_acquired c =>
    have heff := through_effects (step_through h.kept.tidy he rfl) rfl (by rintro c ⟨⟩)
    simp only [step, Option.ite_none_right_eq_some] at he
    obtain ⟨-, he⟩ := he
    cases he
    refine h.of_link ?_ hkept (h.owned.effects h.kept.accounts heff).1
      fun hquench => hquench.effects heff
    unfold ensure_connected_locked
    split
    · exact (connected_call_quiet s c).link
    · rw [if_neg (by simp [h.kept.unclosed])]
      rfl
  | opened c =>
    simp only [step, Option.ite_none_right_eq_some] at he
    obtain ⟨hplace, he⟩ := he
    cases he
    exact h.opened hplace (halone rfl) hkept
  | cancelled c =>
    rcases cancel_call_cases he with hqu | ⟨t, hplace, -⟩
    · exact hquiet hqu (cancel_call_effects he)
    · exact absurd hplace (h.kept.callers c _)
  | read_started g =>
    simp only [step, Option.ite_none_right_eq_some] at he
    obtain ⟨hplace, he⟩ := he
    cases he
    exact h.read_loop hplace hkept
  | read_ended g =>
    obtain ⟨hr, rfl⟩ := read_loop_ends (.inl rfl) he
    exact h.read_loop_ends hr hkept
  | read_cancelled g =>
    obtain ⟨hr, rfl⟩ := read_loop_ends (.inr rfl) he
    exact h.read_loop_ends hr hkept
  | closed_waited a =>
    obtain ⟨g, rfl, -, rfl⟩ := h.kept.waiting_loop he
    obtain ⟨htasks, -⟩ := h.finds_its_own he g rfl
    rw [teardown_closed_eq htasks] at hkept ⊢
    exact h.teardown_end hkept
  | task_awaited a => exact absurd he h.kept.no_task_awaited
  | teardown_cancelled g =>
    simp only [step, h.kept.uncancelled g] at he
    split at he <;> cases he

theorem clean_new (host : String) (port : Int) (pipeline : Bool) (connect_timeout_s : String) :
    Clean (new host port pipeline connect_timeout_s) := by
  refine ⟨kept_new host port pipeline connect_timeout_s, ?_, ?_, fun _ _ _ => rfl⟩
  · rintro g ⟨⟩
  · rintro t c ⟨⟩

/-! ## The law -/

/-- In a run without `close()`, the cleanups of lost connections touch only their own connections
all along exactly when each finds only what is its own, and they do when no connection is opened
while an earlier one is still torn down. -/
theorem a_cleanup_touches_its_own_connection (host : String) (port : Int) (pipeline : Bool)
    (connect_timeout_s : String) {es : List Event} (hopen : ∀ e ∈ es, e.is_close = false) :
    (Guarded step OpensAlone (new host port pipeline connect_timeout_s) es →
      Always step OwnCleanup (new host port pipeline connect_timeout_s) es) ∧
    ∀ s, run step (new host port pipeline connect_timeout_s) es = some s →
      (Always step OwnCleanup (new host port pipeline connect_timeout_s) es ↔
        Guarded step FindsItsOwn (new host port pipeline connect_timeout_s) es) := by
  constructor
  · intro halone
    exact always_of_guarded_of (fun _ _ _ => clean_step) (fun _ h => h.kept.own_cleanup)
      (clean_new host port pipeline connect_timeout_s) hopen halone
  · intro s hrun
    exact always_iff_guarded_of (fun _ _ _ => kept_step) (fun _ h => h.own_cleanup)
      (fun _ _ _ h _ => kept_break h) (kept_new host port pipeline connect_timeout_s) hopen hrun

/-- The teardown of a lost connection outlasts the next one, and finds nothing when it comes
back. -/
def outlasting : List Event :=
  [.start_connect 0, .lock_acquired 0, .opened 0, .read_started 0, .connection_lost 0,
    .read_ended 0, .start_send 1 [3, 0, 0, 0, 1] 1 "1.0", .lock_acquired 1, .opened 1,
    .read_started 1, .connection_lost 1, .read_ended 1, .closed_waited (.reader 1),
    .closed_waited (.reader 0)]

theorem a_reconnected_transport_cleans_up_its_own :
    Always step OwnCleanup (new "plc" 502 true "3.0") reconnect ∧
      Always step OwnCleanup (new "plc" 502 true "3.0") outlasting :=
  ⟨(a_cleanup_touches_its_own_connection "plc" 502 true "3.0" (by decide)).1
      (show Guarded step _ _ reconnect by decide +kernel),
    ((a_cleanup_touches_its_own_connection "plc" 502 true "3.0" (by decide)).2 _ rfl).mpr
      (show Guarded step _ _ outlasting by decide +kernel)⟩

/-- The teardown of the first connection cancels the read loop of the second one, and fails the
call that waits there. -/
theorem a_late_cleanup_fails_a_call_of_the_next_connection :
    ∃ es s e, (∀ e ∈ es, Event.is_close e = false) ∧
      run step (new "plc" 502 true "3.0") es = some s ∧
      (s.calls 1).place = .raised e ∧ (s.calls 1).future = .exception e (.reader 0) ∧
      (s.calls 1).conn = some 1 ∧ (s.conns 1).lost = false ∧ ¬ OwnCleanup s := by
  refine ⟨overlap ++ [.task_awaited (.reader 0), .drained 1, .resumed 1], _, _, by decide, rfl,
    rfl, rfl, rfl, rfl, ?_⟩
  intro h
  cases h.failed 1 _ 0 rfl

end pymod.tcp
