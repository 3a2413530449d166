-- What a call of `close()` that has returned leaves behind, when no connection is
-- opened behind its back: nothing is connected, no read loop runs, and no frame
-- is written any more.
import Pymod.TcpCleanup

namespace pymod.tcp

open TcpTransport errors Function Runs

/-! ## The guard -/

instance (task : ReadTask) : Decidable (Live task) :=
  match h : task.place with
  | .created => isTrue (.inl h)
  | .reading r => isTrue (.inr ⟨r, h⟩)
  | .absent | .teardown _ | .done => isFalse (by rintro (h' | ⟨r, h'⟩) <;> rw [h] at h' <;> cases h')

/-- The teardown of a read loop comes back from the task that it has cancelled. -/
def Event.loop_awaited : Event → Bool
  | .task_awaited (.reader _) => true
  | _ => false

/-- No connection is opened once `close()` was called, and no read loop forgets the read task
while another one runs. -/
def NothingReopened (s : TcpTransport) (e : Event) : Prop :=
  (e.is_opened = true → s.closed = false) ∧
    (e.loop_awaited = true → ∀ g < s.opened, ¬ Live (s.tasks g))

instance (s : TcpTransport) (e : Event) : Decidable (NothingReopened s e) :=
  inferInstanceAs (Decidable (_ ∧ _))

/-! ## The invariant -/

/-- The read task is that of the loop that runs, and a transport that was closed is not connected.
A `close()` waits for the read task or for none, and leaves none behind. -/
structure Shut (s : TcpTransport) : Prop where
  owner : ∀ g, Live (s.tasks g) → s.read_task = some g
  off : s.closed = true → s.connected = false
  waiting : ∀ c w, (s.calls c).place = .teardown w → s.closed = true
  closers : ∀ c t, (s.calls c).place = .teardown (.await_task t) →
    s.read_task = none ∨ s.read_task = some t
  returned : ∀ c, (s.calls c).place = .closed → s.closed = true ∧ s.read_task = none

/-- The link stays, and no call goes to a teardown or ends one. -/
theorem Shut.of_places {s s' : TcpTransport} (h : Shut s) (hl : s'.link = s.link)
    (hplaces : ∀ d, (s'.calls d).place = (s.calls d).place ∨
      (∀ w, (s'.calls d).place ≠ .teardown w) ∧ (s'.calls d).place ≠ .closed) : Shut s' := by
  have htasks : s'.tasks = s.tasks := congrArg Link.tasks hl
  have htask : s'.read_task = s.read_task := congrArg Link.read_task hl
  have hclosed : s'.closed = s.closed := congrArg Link.closed hl
  have hconn : s'.connected = s.connected := congrArg Link.connected hl
  refine ⟨?_, ?_, ?_, ?_, ?_⟩
  · rw [htasks, htask]
    exact h.owner
  · rw [hclosed, hconn]
    exact h.off
  · intro c w hc
    rw [hclosed]
    rcases hplaces c with hp | hp
    · exact h.waiting c w (hp ▸ hc)
    · exact absurd hc (hp.1 w)
  · intro c t hc
    rw [htask]
    rcases hplaces c with hp | hp
    · exact h.closers c t (hp ▸ hc)
    · exact absurd hc (hp.1 _)
  · intro c hc
    rw [hclosed, htask]
    rcases hplaces c with hp | hp
    · exact h.returned c (hp ▸ hc)
    · exact absurd hc hp.2

theorem Shut.quiet {s s' : TcpTransport} (h : Shut s) (hq : Quiet s s') : Shut s' := by
  apply h.of_places hq.link
  intro d
  rcases hq.places d with hp | hp
  · exact .inl hp
  · exact .inr hp.2

/-- The task of a read loop changes, and starts no loop. -/
theorem Shut.set_task {s : TcpTransport} (h : Shut s) {g : Nat} {task : ReadTask}
    (hlive : Live task → Live (s.tasks g)) : Shut (s.set_task g task) := by
  refine ⟨?_, h.off, h.waiting, h.closers, h.returned⟩
  intro k hk
  apply h.owner k
  by_cases hkg : k = g
  · subst hkg
    rw [tasks_set_task] at hk
    exact hlive hk
  · simpa [TcpTransport.set_task, update_of_ne hkg] using hk

/-- A call of `close()` goes to the next point of its teardown. -/
theorem Shut.moved {s : TcpTransport} (h : Shut s) (c : Nat) {place : CallAt}
    (hclosed : s.closed = true)
    (hawait : ∀ t, place = .teardown (.await_task t) → s.read_task = some t)
    (hreturned : place = .closed → s.read_task = none) : Shut (s.move c place) := by
  have hself : ((s.move c place).calls c).place = place := by
    change (update s.calls c { s.calls c with place := place } c).place = place
    rw [update_self]
  have hother : ∀ d, d ≠ c → (s.move c place).calls d = s.calls d := fun d hd =>
    update_of_ne hd _ _
  refine ⟨h.owner, h.off, fun _ _ _ => hclosed, ?_, ?_⟩
  · intro d t hd
    by_cases hdc : d = c
    · subst hdc
      exact .inr (hawait t (hself.symm.trans hd))
    · rw [hother d hdc] at hd
      exact h.closers d t hd
  · intro d hd
    by_cases hdc : d = c
    · subst hdc
      exact ⟨hclosed, hreturned (hself.symm.trans hd)⟩
    · rw [hother d hdc] at hd
      exact h.returned d hd

/-- A read task that has left its loop is the last one. -/
theorem Shut.no_loop {s : TcpTransport} (h : Shut s)
    (htask : ∀ t, s.read_task = some t → ¬ Live (s.tasks t)) (g : Nat) : ¬ Live (s.tasks g) :=
  fun hg => htask g (h.owner g hg) hg

/-- A call that tears down is a `close()`. -/
def Closing (s : TcpTransport) (a : Agent) : Prop := ∀ c, a = .caller c → s.closed = true

theorem Shut.teardown_end {s : TcpTransport} (h : Shut s) {a : Agent} (ha : Closing s a)
    (hno : ∀ g, ¬ Live (s.tasks g)) : Shut (s.teardown_end a) := by
  have hplace : ∀ c, (s.fail_pending a c).place = (s.calls c).place := by
    intro c
    unfold fail_pending
    simp only
    split <;> rfl
  have hclear : Shut (s.clear_pending a) := by
    refine ⟨fun g hg => absurd hg (hno g), h.off, ?_, fun _ _ _ => .inl rfl, ?_⟩
    · intro c w hc
      exact h.waiting c w ((hplace c).symm.trans hc)
    · intro c hc
      exact ⟨(h.returned c ((hplace c).symm.trans hc)).1, rfl⟩
  unfold TcpTransport.teardown_end
  rcases a with c | g
  · have hm : Shut ((s.clear_pending (.caller c)).move c .closed) :=
      hclear.moved c (ha c rfl) (by rintro t ⟨⟩) (fun _ => rfl)
    exact ⟨hm.owner, hm.off, hm.waiting, hm.closers, hm.returned⟩
  · apply hclear.set_task
    exact fun hl => absurd hl (not_live_done rfl)

theorem Shut.teardown_closed {s : TcpTransport} (h : Shut s) {a : Agent} (ha : Closing s a)
    (hleft : Left s a) : Shut (s.teardown_closed a) := by
  unfold TcpTransport.teardown_closed
  split
  · rename_i hnone
    apply h.teardown_end ha
    apply h.no_loop
    rw [hnone]
    rintro t ⟨⟩
  · rename_i task htask
    split
    · have hc : Shut (s.cancel_task task) := h.set_task id
      unfold suspend_teardown
      rcases a with c | g
      · apply hc.moved c (ha c rfl)
        · intro t ht
          cases ht
          exact htask
        · rintro ⟨⟩
      · apply hc.set_task
        exact fun hl => absurd hl (not_live_teardown rfl)
    · rename_i hself
      apply h.teardown_end ha
      apply h.no_loop
      intro t ht hl
      rw [htask] at ht
      cases ht
      -- the read task is the one that tears down, or it is done
      by_cases hag : a = .reader task
      · exact hleft task hag hl
      · apply not_live_done _ hl
        by_contra hrun
        exact hself ⟨hag, hrun⟩

theorem Shut.teardown {s : TcpTransport} (hd : Shut s.disconnect) {a : Agent} (ha : Closing s a)
    (hleft : Left s a) : Shut (s.teardown a) := by
  unfold TcpTransport.teardown
  split
  · unfold suspend_teardown
    rcases a with c | g
    · apply hd.moved c (ha c rfl)
      · rintro t ⟨⟩
      · rintro ⟨⟩
    · apply hd.set_task
      exact fun hl => absurd hl (not_live_teardown rfl)
  · exact hd.teardown_closed ha hleft

theorem Shut.closing {s : TcpTransport} (h : Shut s) {a : Agent} {w : TeardownAt}
    (ha : s.teardown_at a = some w) : Closing s a := by
  rintro c rfl
  exact h.waiting c w (place_of_caller ha)

/-- A connection is opened on a transport that is not closed. -/
theorem Shut.install {s : TcpTransport} (h : Shut s) (hclosed : s.closed = false)
    (hno : ∀ g, ¬ Live (s.tasks g)) : Shut s.install := by
  have hnot : ∀ {p : Prop}, s.closed = true → p := by
    intro p hc
    rw [hclosed] at hc
    cases hc
  refine ⟨?_, hnot, h.waiting, ?_, ?_⟩
  · intro g hg
    by_cases hgo : g = s.opened
    · rw [hgo]
      rfl
    · have hold : s.install.tasks g = s.tasks g := update_of_ne hgo _ _
      rw [hold] at hg
      exact absurd hg (hno g)
  · intro c t hc
    exact hnot (h.waiting c _ hc)
  · intro c hc
    exact hnot (h.returned c hc).1

/-- The reads of a loop are over. -/
theorem Shut.ends {s : TcpTransport} (h : Shut s) (g : Nat) :
    Shut ((s.set_task g { place := .done }).teardown (.reader g)) := by
  have h1 : Shut (s.set_task g { place := .done }) :=
    h.set_task fun hl => absurd hl (not_live_done rfl)
  apply Shut.teardown (s := s.set_task g { place := .done })
  · exact ⟨h1.owner, fun _ => rfl, h1.waiting, h1.closers, h1.returned⟩
  · rintro c ⟨⟩
  · rintro k ⟨⟩
    rw [tasks_set_task]
    exact not_live_done rfl

/-- A `close()` sets the flag and tears the connection down. -/
theorem Shut.closes {s : TcpTransport} (h : Shut s) {c : Nat}
    (habs : (s.calls c).place = .absent) :
    Shut ({ s.set_call c { kind := .close } with closed := true }.teardown (.caller c)) := by
  have h1 : Shut (s.set_call c { kind := .close }) := h.quiet (set_call_quiet s (.inl habs.symm))
  apply Shut.teardown
  · exact ⟨h1.owner, fun _ => rfl, fun _ _ _ => rfl, h1.closers,
      fun d hd => ⟨rfl, (h1.returned d hd).2⟩⟩
  · exact fun _ _ => rfl
  · rintro g ⟨⟩

theorem Shut.opens {s : TcpTransport} (h : Shut s) (c : Nat) :
    Shut ({ s with connection_lock := some c }.move c .opening) := by
  refine h.of_places rfl ?_
  intro d
  by_cases hd : d = c
  · subst hd
    right
    simp [TcpTransport.move, set_call]
  · left
    simp [TcpTransport.move, set_call, update_of_ne hd]

theorem Shut.starts {s : TcpTransport} (h : Shut s) {g : Nat}
    (hplace : (s.tasks g).place = .created) : Shut (s.read_loop g) := by
  unfold TcpTransport.read_loop
  split
  · exact h.set_task fun _ => .inl hplace
  · split <;> exact h.set_task fun _ => .inl hplace

theorem shut_step {s s' : TcpTransport} {e : Event} (h : Tidy s ∧ Shut s)
    (hg : NothingReopened s e) (he : step s e = some s') : Tidy s' ∧ Shut s' := by
  obtain ⟨ht, hs⟩ := h
  refine ⟨tidy_step ht he, ?_⟩
  cases link_step he with
  | quiet hq => exact hs.quiet hq
  | closes habs => exact hs.closes habs
  | opens => exact hs.opens _
  | opened hplace =>
    have hno := (ht.opening _ hplace).2.2
    exact (hs.install (hg.1 rfl) hno).quiet (connected_call_quiet s.install _)
  | gives_up => exact hs.set_task id
  | starts hplace => exact hs.starts hplace
  | ends => exact hs.ends _
  | waited hw => exact hs.teardown_closed (hs.closing hw) (left_of_teardown_at hw)
  | awaited hw hdone =>
    rename_i a t
    apply hs.teardown_end (hs.closing hw)
    rcases a with c | g
    · apply hs.no_loop
      intro k hk
      rcases hs.closers c t (place_of_caller hw) with hnone | hsome
      · rw [hnone] at hk
        cases hk
      · rw [hsome] at hk
        cases hk
        exact not_live_done hdone
    · intro k hk
      refine hg.2 rfl k (ht.linked.opened_of_ne ?_) hk
      intro hd
      have hd' : s.tasks k = {} := hd
      rw [hd'] at hk
      exact not_live_default hk
  | stops =>
    apply hs.set_task
    exact fun hl => absurd hl (not_live_done rfl)

theorem shut_new (host : String) (port : Int) (pipeline : Bool) (connect_timeout_s : String) :
    Shut (new host port pipeline connect_timeout_s) := by
  refine ⟨?_, ?_, ?_, ?_, ?_⟩
  · intro g hg
    exact absurd hg not_live_default
  · rintro ⟨⟩
  · rintro c w ⟨⟩
  · rintro c t ⟨⟩
  · rintro c ⟨⟩

/-! ## After a close has returned -/

/-- The transport is closed and has no read task. -/
def Off (s : TcpTransport) : Prop := s.closed = true ∧ s.read_task = none

theorem Off.of_link {s s' : TcpTransport} (h : Off s) (hl : s'.link = s.link) : Off s' :=
  ⟨(congrArg Link.closed hl).trans h.1, (congrArg Link.read_task hl).trans h.2⟩

theorem Off.teardown_end {s : TcpTransport} (h : Off s) (a : Agent) : Off (s.teardown_end a) := by
  rcases a with c | g
  · exact ⟨h.1, rfl⟩
  · exact ⟨h.1, rfl⟩

theorem Off.teardown_closed {s : TcpTransport} (h : Off s) (a : Agent) :
    Off (s.teardown_closed a) := by
  unfold TcpTransport.teardown_closed
  rw [h.2]
  exact h.teardown_end a

theorem Off.teardown {s : TcpTransport} (h : Off s) (a : Agent) : Off (s.teardown a) := by
  unfold TcpTransport.teardown
  split
  · rcases a with c | g
    · exact h
    · exact h
  · exact Off.teardown_closed (s := s.disconnect) h a

theorem off_step {s s' : TcpTransport} {e : Event} (h : Off s) (hg : NothingReopened s e)
    (he : step s e = some s') : Off s' := by
  cases link_step he with
  | quiet hq => exact h.of_link hq.link
  | closes =>
    exact Off.teardown (s := { s.set_call _ { kind := .close } with closed := true }) ⟨rfl, h.2⟩ _
  | opens | gives_up | stops => exact h
  | opened =>
    have hclosed := hg.1 rfl
    rw [h.1] at hclosed
    cases hclosed
  | starts =>
    unfold TcpTransport.read_loop
    split
    · exact h
    · split <;> exact h
  | ends => exact Off.teardown (s := s.set_task _ _) h _
  | waited => exact h.teardown_closed _
  | awaited => exact h.teardown_end _

/-- No frame is written on a transport that is not connected. -/
structure Unwritten (sent : Nat → List codec.Bytes) (s : TcpTransport) : Prop where
  connected : s.connected = false
  sent : ∀ g, (s.conns g).sent = sent g

theorem Unwritten.set_conn {sent : Nat → List codec.Bytes} {s : TcpTransport}
    (h : Unwritten sent s) {g : Nat} {conn : Conn} (hsent : conn.sent = (s.conns g).sent) :
    Unwritten sent (s.set_conn g conn) := by
  refine ⟨h.connected, fun k => ?_⟩
  rw [← h.sent k]
  by_cases hk : k = g
  · subst hk
    simpa [TcpTransport.set_conn] using hsent
  · simp [TcpTransport.set_conn, update_of_ne hk]

theorem Unwritten.of_conns {sent : Nat → List codec.Bytes} {s s' : TcpTransport}
    (h : Unwritten sent s) (hconn : s'.connected = s.connected) (hconns : s'.conns = s.conns) :
    Unwritten sent s' :=
  ⟨hconn.trans h.connected, fun g => hconns ▸ h.sent g⟩

theorem Unwritten.effect {sent : Nat → List codec.Bytes} {s s' : TcpTransport}
    (h : Unwritten sent s) (he : Effect s s') : Unwritten sent s' := by
  cases he with
  | silent hs =>
    apply h.of_conns _ hs.conns
    rcases hc : s'.connected with _ | _
    · exact h.connected.symm
    · exact (hs.connected hc).symm
  | start c kind pdu unit_id timeout_s habs => exact h.of_conns rfl rfl
  | move c hm => exact h.of_conns rfl rfl
  | send c _ hconn _ =>
    rw [h.connected] at hconn
    cases hconn
  | drain c hplace => exact h.of_conns rfl rfl
  | interrupt c i hplace => exact h.of_conns rfl rfl
  | pop c _ _ _ _ =>
    unfold TcpTransport.pop_and_end
    split <;> exact h.of_conns rfl rfl
  | answer c unit_id pdu hreply =>
    obtain ⟨g, tid, frame, -, -, -, -, -, hconns⟩ := peer_reply_spec hreply
    have hconn : s'.connected = s.connected := congrArg Link.connected (peer_reply_quiet hreply).link
    have hset : Unwritten sent (s.set_conn g { s.conns g with
        wire := (s.conns g).wire ++ frame, replies := (s.conns g).replies ++ [c] }) :=
      h.set_conn rfl
    exact hset.of_conns hconn hconns
  | arrive g n => exact h.set_conn rfl
  | lose g => exact h.set_conn rfl

theorem Unwritten.dispatch {sent : Nat → List codec.Bytes} {s : TcpTransport}
    (h : Unwritten sent s) (frame : codec.Bytes) (origin : Option Nat) :
    Unwritten sent (s.dispatch_frame frame origin) := by
  unfold dispatch_frame
  split
  · exact h
  · split
    · exact h
    · split
      · exact h.of_conns rfl rfl
      · exact h

theorem unwritten_step {sent : Nat → List codec.Bytes} {s s' : TcpTransport} {e : Event}
    (ht : Tidy s) (ho : Off s) (hg : NothingReopened s e)
    (h : Unwritten sent s) (he : step s e = some s') : Unwritten sent s' := by
  rcases hr : e.reads with _ | _
  · apply (step_through ht he hr).preserves (p := Unwritten sent) _ _ h
    · exact fun _ _ h he => h.effect he
    · intro s₁ s₂ _ h hj
      cases hj with
      | stay => exact h
      | install c =>
        have hclosed := hg.1 rfl
        rw [ho.1] at hclosed
        cases hclosed
      | clear a _ _ => exact h.of_conns rfl rfl
  · cases e with
    | frame_read g =>
      simp only [step] at he
      split at he
      · split at he
        · cases he
        · obtain ⟨frame, behind, -, rfl⟩ := read_loop_frame_spec he
          apply Unwritten.dispatch
          exact h.set_conn rfl
      · cases he
    | peer_sent g bytes =>
      cases he
      exact h.set_conn rfl
    | _ => cases hr

/-! ## The law -/

/-- Nothing is connected, no read loop runs, and each connection has the frames that it had. A loop
that has left its reads does not run any more: it may be in its own teardown when `close()` has
returned, where it neither reads nor writes. -/
structure Silenced (s t : TcpTransport) : Prop where
  connected : t.connected = false
  loops : ∀ g, ¬ Live (t.tasks g)
  sent : ∀ g, (t.conns g).sent = (s.conns g).sent

theorem Shut.silent {s : TcpTransport} (h : Shut s) (ho : Off s) : Silenced s s := by
  refine ⟨h.off ho.1, ?_, fun _ => rfl⟩
  apply h.no_loop
  rw [ho.2]
  rintro t ⟨⟩

/-- In every run that reopens nothing, a transport whose `close()` has returned stays silent. -/
theorem a_closed_transport_stays_silent (host : String) (port : Int) (pipeline : Bool)
    (connect_timeout_s : String) (es fs : List Event) {s t : TcpTransport} {c : Nat}
    (hg : Guarded step NothingReopened (new host port pipeline connect_timeout_s) (es ++ fs))
    (hes : run step (new host port pipeline connect_timeout_s) es = some s)
    (hclosed : (s.calls c).place = .closed) (hfs : run step s fs = some t) : Silenced s t := by
  obtain ⟨hges, hgfs⟩ := guarded_append hg hes
  have hstart : Tidy s ∧ Shut s :=
    invariant_run (fun _ _ _ => shut_step) ⟨tidy_new host port pipeline connect_timeout_s,
      shut_new host port pipeline connect_timeout_s⟩ hges hes
  have hoff : Off s := hstart.2.returned c hclosed
  let sent : Nat → List codec.Bytes := fun g => (s.conns g).sent
  have hend : (Tidy t ∧ Shut t) ∧ Off t ∧ Unwritten sent t := by
    refine invariant_run (i := fun s => (Tidy s ∧ Shut s) ∧ Off s ∧ Unwritten sent s) ?_ ?_ hgfs hfs
    · rintro s e s' ⟨h, ho, hu⟩ hg he
      exact ⟨shut_step h hg he, off_step ho hg he, unwritten_step h.1 ho hg hu he⟩
    · exact ⟨hstart, hoff, (hstart.2.silent hoff).connected, fun _ => rfl⟩
  obtain ⟨⟨-, hshut⟩, hofft, hu⟩ := hend
  exact ⟨hu.connected, (hshut.silent hofft).loops, hu.sent⟩

/-- A connection is opened and closed again. -/
def closing : List Event :=
  [.start_connect 0, .lock_acquired 0, .opened 0, .read_started 0, .start_close 1,
    .closed_waited (.caller 1), .read_cancelled 0, .task_awaited (.caller 1)]

theorem a_transport_that_closed_stays_silent :
    ∃ s t, run step (new "plc" 502 true "3.0") closing = some s ∧
      run step s [.start_send 2 [3, 0, 0, 0, 1] 1 "1.0", .connection_lost 0] = some t ∧
      Silenced s t :=
  ⟨_, _, rfl, rfl, a_closed_transport_stays_silent "plc" 502 true "3.0" closing
    [.start_send 2 [3, 0, 0, 0, 1] 1 "1.0", .connection_lost 0]
    (show Guarded step _ _ _ by decide +kernel) rfl (c := 1) rfl rfl⟩

/-- A connection attempt that was under way when `close()` was called comes to its end after
`close()` has returned: the transport is connected, its read loop runs, and a frame is written. -/
theorem a_closed_transport_is_connected :
    ∃ s t, run step (new "plc" 502 true "3.0")
        [.start_send 0 [3, 0, 0, 0, 1] 1 "1.0", .lock_acquired 0, .start_close 1] = some s ∧
      (s.calls 1).place = .closed ∧ run step s [.opened 0, .read_started 0] = some t ∧
      t.connected = true ∧ Live (t.tasks 0) ∧ (t.conns 0).sent ≠ (s.conns 0).sent := by
  refine ⟨_, _, rfl, rfl, rfl, rfl, .inr ⟨0, rfl⟩, ?_⟩
  decide

end pymod.tcp
