-- No call of the RTU-over-TCP transport hangs. A call that waits for the lock gets it when
-- the call before it has ended, and every call that holds it ends by itself.
import Pymod.RtuOverTcp
import Pymod.Lib.Runs

namespace pymod.rtu_over_tcp

open RtuOverTcpTransport errors codec adu_rtu Function Runs Readers

/-! ## What a call has left to do -/

/-- The call is between the lock and its end. -/
def Inside : CallAt → Prop
  | .opening | .draining | .reading _ _ | .wait_closed _ => True
  | _ => False

/-- The call has returned or raised. -/
def Ended : CallAt → Prop
  | .returned _ | .raised _ => True
  | _ => False

/-- The steps that a call has before it. -/
noncomputable def rank : CallAt → Nat
  | .lock => 8
  | .opening => 7
  | .draining => 6
  | .reading _ r => reads r + 2
  | .wait_closed _ => 1
  | .absent | .returned _ | .raised _ => 0

theorem rank_of_ended {place : CallAt} (h : Ended place) : rank place = 0 := by
  cases place <;> first | exact h.elim | rfl

/-! ## One call takes a step -/

/-- The lock belongs to a call that goes on by itself, and a response is read to an end. -/
structure Fit (s : RtuOverTcpTransport) (c : Nat) : Prop where
  inside : s.lock = some c → Inside (s.calls c).place
  bounded : ∀ reader r, (s.calls c).place = .reading reader r → Bounded r

/-- The call comes to a place with at most `n` steps before it; the others stay where they are, and
do not get the lock. -/
structure Reaches (c n : Nat) (s s' : RtuOverTcpTransport) : Prop where
  others : ∀ d, d ≠ c → (s'.calls d).place = (s.calls d).place
  lock : ∀ d, d ≠ c → s'.lock = some d → s.lock = some d
  fit : Fit s' c
  rank_le : rank (s'.calls c).place ≤ n

theorem Reaches.after {c n : Nat} {s s' s'' : RtuOverTcpTransport} (h : Reaches c n s' s'')
    (hcalls : ∀ d, d ≠ c → (s'.calls d).place = (s.calls d).place)
    (hlock : ∀ d, d ≠ c → s'.lock = some d → s.lock = some d) : Reaches c n s s'' :=
  ⟨fun d hd => (h.others d hd).trans (hcalls d hd), fun d hd hl => hlock d hd (h.lock d hd hl), h.fit,
    h.rank_le⟩

theorem Reaches.mono {c n m : Nat} {s s' : RtuOverTcpTransport} (h : Reaches c n s s')
    (hnm : n ≤ m) : Reaches c m s s' :=
  ⟨h.others, h.lock, h.fit, h.rank_le.trans hnm⟩

theorem place_move (s : RtuOverTcpTransport) (c : Nat) (place : CallAt) :
    ((s.move c place).calls c).place = place := by
  simp [RtuOverTcpTransport.move, set_call]

theorem place_move_of_ne (s : RtuOverTcpTransport) {c d : Nat} (place : CallAt) (h : d ≠ c) :
    ((s.move c place).calls d).place = (s.calls d).place := by
  simp [RtuOverTcpTransport.move, set_call, update_of_ne h]

theorem reaches_move (s : RtuOverTcpTransport) (c : Nat) (place : CallAt) (hinside : Inside place)
    (hbounded : ∀ reader r, place = .reading reader r → Bounded r) :
    Reaches c (rank place) s (s.move c place) := by
  refine ⟨fun d hd => place_move_of_ne s place hd, fun d _ hl => hl, ⟨fun _ => ?_, ?_⟩, ?_⟩
  · rw [place_move]
    exact hinside
  · rw [place_move]
    exact hbounded
  · rw [place_move]

theorem reaches_end_call (s : RtuOverTcpTransport) (c : Nat) {n : Nat} {place : CallAt}
    (h : Ended place) : Reaches c n s (s.end_call c place) := by
  have hplace : ((s.end_call c place).calls c).place = place := place_move s c place
  have hlock : (s.end_call c place).lock = if s.lock = some c then none else s.lock := rfl
  refine ⟨fun d hd => place_move_of_ne s place hd, ?_, ⟨?_, ?_⟩, ?_⟩
  · intro d _ hl
    rw [hlock] at hl
    split at hl
    · cases hl
    · exact hl
  · intro hl
    rw [hlock] at hl
    split at hl
    · cases hl
    · contradiction
  · intro reader r hr
    rw [hplace] at hr
    rw [hr] at h
    exact h.elim
  · rw [hplace, rank_of_ended h]
    exact Nat.zero_le n

theorem reaches_torn_down (s : RtuOverTcpTransport) (c : Nat) {n : Nat} (e : Option PyError) :
    Reaches c n s (s.torn_down c e) := by
  cases e with
  | none => exact reaches_end_call s c trivial
  | some e => exact reaches_end_call s c trivial

theorem reaches_teardown_locked (s : RtuOverTcpTransport) (c : Nat) (e : Option PyError) :
    Reaches c 1 s (s.teardown_locked c e) := by
  unfold RtuOverTcpTransport.teardown_locked
  split
  · have hmove := reaches_move s.disconnect c (.wait_closed e) trivial (by simp)
    exact hmove.after (fun _ _ => rfl) fun _ _ hl => hl
  · exact (reaches_torn_down s.disconnect c e).after (fun _ _ => rfl) fun _ _ hl => hl

theorem reaches_write_request (s : RtuOverTcpTransport) (c : Nat) :
    Reaches c 6 s (s.write_request c) := by
  unfold RtuOverTcpTransport.write_request
  split
  · rename_i writer _ _ _
    split
    · exact reaches_end_call s c trivial
    · exact (reaches_move _ c .draining trivial (by simp)).after (fun _ _ => rfl)
        fun _ _ hl => hl
  · exact reaches_end_call s c trivial

theorem reaches_opened_call (s : RtuOverTcpTransport) (c : Nat) :
    Reaches c 6 s (s.opened_call c) := by
  unfold RtuOverTcpTransport.opened_call
  split
  · exact reaches_write_request s c
  · exact reaches_end_call s c trivial

theorem reaches_open_locked (s : RtuOverTcpTransport) (c : Nat) :
    Reaches c 7 s (s.open_locked c) := by
  unfold RtuOverTcpTransport.open_locked
  split
  · exact (reaches_opened_call s c).mono (by omega)
  · split
    · exact reaches_end_call s c trivial
    · exact reaches_move s c .opening trivial (by simp)

theorem reaches_locked (s : RtuOverTcpTransport) (c : Nat) : Reaches c 7 s (s.locked c) := by
  unfold RtuOverTcpTransport.locked
  split
  · exact (reaches_teardown_locked s c none).mono (by omega)
  · exact reaches_open_locked s c

theorem reaches_check_response (s : RtuOverTcpTransport) (c : Nat) {n : Nat} (frame : Bytes) :
    Reaches c n s (s.check_response c frame) := by
  unfold RtuOverTcpTransport.check_response
  split
  · exact reaches_end_call s c trivial
  · split
    · exact reaches_end_call s c trivial
    · exact reaches_end_call s c trivial

theorem reaches_resume_reading (s : RtuOverTcpTransport) (c reader : Nat)
    {r : Reader UInt8 PyError Bytes} (h : Bounded r) :
    Reaches c (reads r + 2) s (s.resume_reading c reader r) := by
  cases r with
  | done frame => exact reaches_check_response s c frame
  | raised e => exact reaches_end_call s c trivial
  | read_exactly n k =>
    apply reaches_move s c (.reading reader (.read_exactly n k)) trivial
    rintro _ _ ⟨⟩
    exact h

/-! ## Every step -/

/-- Nothing from outside: the transport goes on, a timer ends, or an `await` on the network ends,
with or without an error. -/
def Event.Internal : Event → Prop
  | .start_connect _ | .start_send _ _ _ _ | .start_close _ | .cancelled _ | .answered _ _ _
  | .bytes_arrived _ _ | .peer_closed _ => False
  | _ => True

/-- A step is that of one call, or nobody moves; from inside, the call has less to do behind it. -/
inductive Acts (e : Event) (s s' : RtuOverTcpTransport) : Prop
  | call (c n : Nat) (h : Reaches c n s s') (hless : e.Internal → n < rank (s.calls c).place)
  | still (hcalls : ∀ c, (s'.calls c).place = (s.calls c).place) (hlock : s'.lock = s.lock)
      (houter : ¬ e.Internal)

/-- The lock and the places of the calls are in order. -/
def Manned (s : RtuOverTcpTransport) : Prop := ∀ c, Fit s c

theorem Manned.call {s s' : RtuOverTcpTransport} (h : Manned s) {c n : Nat}
    (hr : Reaches c n s s') : Manned s' := by
  intro d
  by_cases hd : d = c
  · subst hd
    exact hr.fit
  · refine ⟨fun hlock => ?_, ?_⟩
    · rw [hr.others d hd]
      exact (h d).inside (hr.lock d hd hlock)
    · rw [hr.others d hd]
      exact (h d).bounded

/-- A call that has just begun and does not hold the lock. -/
theorem reaches_begun {s : RtuOverTcpTransport} {c n : Nat} (hm : Manned s) (call : Call)
    (hplace : ¬ Inside (s.calls c).place) (closed : Bool) (hn : 8 ≤ n) :
    Reaches c n s ({ s.set_call c call with closed := closed }.move c .lock) := by
  have hmoved : (({ s.set_call c call with closed := closed }.move c .lock).calls c).place = .lock :=
    place_move _ c .lock
  refine ⟨fun d hd => ?_, fun d _ hl => hl, ⟨fun hlock => ?_, ?_⟩, ?_⟩
  · rw [place_move_of_ne _ _ hd]
    simp [set_call, update_of_ne hd]
  · exact absurd ((hm c).inside hlock) hplace
  · rw [hmoved]
    rintro _ _ ⟨⟩
  · rw [hmoved]
    exact hn

theorem reaches_refused (s : RtuOverTcpTransport) {c n : Nat} (call : Call) (e : PyError) :
    Reaches c n s ((s.set_call c call).end_call c (.raised e)) := by
  have hended : Ended (.raised e) := trivial
  refine (reaches_end_call (s.set_call c call) c hended).after ?_ fun _ _ hl => hl
  intro d hd
  simp [set_call, update_of_ne hd]

theorem acts_step {s s' : RtuOverTcpTransport} {e : Event} (hm : Manned s)
    (h : step s e = some s') : Acts e s s' := by
  cases e with
  | start_connect c =>
    simp only [step] at h
    split at h
    · rename_i hplace
      split at h <;> cases h
      · exact .call c 8 (reaches_refused s _ _) False.elim
      · exact .call c 8 (reaches_begun hm _ (by rw [hplace]; exact id) s.closed le_rfl) False.elim
    · cases h
  | start_send c pdu unit_id timeout_s =>
    simp only [step] at h
    split at h
    · rename_i hplace
      split at h
      · cases h
        exact .call c 8 (reaches_refused s _ _) False.elim
      · split at h <;> cases h
        · exact .call c 8 (reaches_refused s _ _) False.elim
        · exact .call c 8 (reaches_begun hm _ (by rw [hplace]; exact id) s.closed le_rfl) False.elim
    · cases h
  | start_close c =>
    simp only [step] at h
    split at h
    · rename_i hplace
      cases h
      exact .call c 8 (reaches_begun hm _ (by rw [hplace]; exact id) true le_rfl) False.elim
    · cases h
  | lock_acquired c =>
    simp only [step] at h
    split at h
    · rename_i hplace hlock
      cases h
      refine .call c 7 ((reaches_locked _ c).after (fun _ _ => rfl) ?_) fun _ => ?_
      · rintro d hd ⟨⟩
        exact absurd rfl hd
      · simp [hplace, rank]
    · cases h
  | opened c =>
    simp only [step] at h
    split at h
    · rename_i hplace
      cases h
      refine .call c 6 ((reaches_opened_call _ c).after (fun _ _ => rfl) fun _ _ hl => hl) fun _ => ?_
      simp [hplace, rank]
    · cases h
  | open_failed c failure =>
    simp only [step] at h
    split at h
    · rename_i hplace
      cases h
      refine .call c 0 (reaches_end_call s c trivial) fun _ => ?_
      simp [hplace, rank]
    · cases h
  | drained c =>
    simp only [step] at h
    split at h
    · rename_i reader hplace _
      cases h
      have hreads := reads_le within_read_rtu_response
      refine .call c _ (reaches_move s c _ trivial ?_) fun _ => ?_
      · rintro _ _ ⟨⟩
        exact ⟨3, within_read_rtu_response⟩
      · rw [hplace]
        simp only [rank]
        omega
    · rename_i hplace _
      cases h
      refine .call c 0 (reaches_end_call s c trivial) fun _ => ?_
      simp [hplace, rank]
    · cases h
  | send_failed c message =>
    simp only [step] at h
    split at h
    · rename_i hplace
      cases h
      refine .call c 1 (reaches_teardown_locked s c _) fun _ => ?_
      simp [hplace, rank]
    · cases h
  | read c =>
    simp only [step] at h
    split at h
    · rename_i reader n k hplace
      split at h
      · cases h
        obtain ⟨hbounded, hless⟩ := reads_lt ((hm c).bounded reader _ hplace)
          (bytes ((s.conns reader).unread.take n))
        refine .call c _ ((reaches_resume_reading _ c reader hbounded).after ?_ fun _ _ hl => hl)
          fun _ => ?_
        · intro d hd
          simp [take_bytes, set_call, set_conn, update_of_ne hd]
        · rw [hplace]
          simp only [rank]
          omega
      · cases h
    · cases h
  | read_incomplete c =>
    simp only [step] at h
    split at h
    · rename_i reader n k hplace
      split at h
      · cases h
        refine .call c 1 ((reaches_teardown_locked _ c _).after (fun _ _ => rfl) fun _ _ hl => hl)
          fun _ => ?_
        simp [hplace, rank]
      · cases h
    · cases h
  | read_failed c message =>
    simp only [step] at h
    split at h
    · rename_i reader r hplace
      cases h
      refine .call c 1 (reaches_teardown_locked s c _) fun _ => ?_
      simp [hplace, rank]
    · cases h
  | timed_out c =>
    simp only [step] at h
    split at h
    · rename_i reader r hplace
      cases h
      refine .call c 1 (reaches_teardown_locked s c _) fun _ => ?_
      simp [hplace, rank]
    · cases h
  | writer_closed c =>
    simp only [step] at h
    split at h
    · rename_i e hplace
      cases h
      refine .call c 0 (reaches_torn_down s c e) fun _ => ?_
      simp [hplace, rank]
    · cases h
  | cancelled c =>
    simp only [step, cancel_call] at h
    split at h
    all_goals cases h
    all_goals exact .call c 0 (reaches_end_call s c trivial) False.elim
  | answered g c answer =>
    simp only [step, answer_call] at h
    split at h
    · cases h
      refine .still (fun d => ?_) rfl id
      by_cases hd : d = c
      · subst hd
        simp [set_call, set_conn]
      · simp [set_call, set_conn, update_of_ne hd]
    · cases h
  | bytes_arrived g n =>
    cases h
    exact .still (fun _ => rfl) rfl id
  | peer_closed g =>
    cases h
    exact .still (fun _ => rfl) rfl id

/-! ## Every run -/

theorem manned_step {s s' : RtuOverTcpTransport} {e : Event} (hm : Manned s)
    (h : step s e = some s') : Manned s' := by
  cases acts_step hm h with
  | call c n hr hless => exact hm.call hr
  | still hcalls hlock houter =>
    intro c
    refine ⟨fun hl => ?_, ?_⟩
    · rw [hcalls c]
      exact (hm c).inside (hlock ▸ hl)
    · rw [hcalls c]
      exact (hm c).bounded

/-- Only finitely many calls have begun. -/
def Begun (n : Nat) (s : RtuOverTcpTransport) : Prop := ∀ c, n ≤ c → (s.calls c).place = .absent

theorem begun_step {s s' : RtuOverTcpTransport} {e : Event} (hm : Manned s) {n : Nat}
    (hn : Begun n s) (h : step s e = some s') : ∃ m, Begun m s' := by
  cases acts_step hm h with
  | call c k hr hless =>
    refine ⟨max n (c + 1), fun d hd => ?_⟩
    rw [hr.others d (by omega)]
    exact hn d (by omega)
  | still hcalls hlock houter =>
    refine ⟨n, fun d hd => ?_⟩
    rw [hcalls d]
    exact hn d hd

/-- What the first `n` calls have left to do. -/
noncomputable def load (n : Nat) (s : RtuOverTcpTransport) : Nat :=
  ∑ c ∈ Finset.range n, rank (s.calls c).place

/-- Behind the first `n` calls nothing is left to do. -/
def Idle (n : Nat) (s : RtuOverTcpTransport) : Prop := ∀ c, n ≤ c → rank (s.calls c).place = 0

theorem load_step {s s' : RtuOverTcpTransport} {e : Event} (hm : Manned s) {n : Nat} (hi : Idle n s)
    (hin : e.Internal) (h : step s e = some s') : Idle n s' ∧ load n s' < load n s := by
  cases acts_step hm h with
  | call c k hr hless =>
    have hlt := hless hin
    have hle := hr.rank_le
    have hc : c < n := by
      by_contra hnot
      have := hi c (by omega)
      omega
    have hsum := sum_change (f := fun d => rank (s.calls d).place) hc
      fun d hd => congrArg rank (hr.others d hd)
    refine ⟨fun d hd => ?_, ?_⟩
    · rw [hr.others d (by omega)]
      exact hi d hd
    · unfold load
      omega
  | still hcalls hlock houter => exact absurd hin houter

/-! ## At rest -/

/-- Every call has ended, and the lock is free. -/
structure Settled (s : RtuOverTcpTransport) : Prop where
  calls : ∀ c, (s.calls c).place = .absent ∨ Ended (s.calls c).place
  lock : s.lock = none

theorem not_inside {s : RtuOverTcpTransport} (hrest : AtRest step Event.Internal s) (c : Nat) :
    ¬ Inside (s.calls c).place := by
  cases hplace : (s.calls c).place with
  | opening =>
    have := hrest (.opened c) trivial
    simp [step, hplace] at this
  | draining =>
    have := hrest (.drained c) trivial
    cases hreader : s.reader <;> simp [step, hplace, hreader] at this
  | reading reader r =>
    have := hrest (.timed_out c) trivial
    simp [step, hplace] at this
  | wait_closed e =>
    have := hrest (.writer_closed c) trivial
    simp [step, hplace] at this
  | _ => exact id

theorem settled {s : RtuOverTcpTransport} (hm : Manned s) (hrest : AtRest step Event.Internal s) :
    Settled s := by
  have hlock : s.lock = none := by
    cases hl : s.lock with
    | none => rfl
    | some c => exact absurd ((hm c).inside hl) (not_inside hrest c)
  refine ⟨fun c => ?_, hlock⟩
  have hinside := not_inside hrest c
  cases hplace : (s.calls c).place with
  | absent => exact Or.inl rfl
  | lock =>
    have := hrest (.lock_acquired c) trivial
    simp [step, hplace, hlock] at this
  | opening | draining | reading | wait_closed =>
    rw [hplace] at hinside
    exact absurd trivial hinside
  | returned | raised => exact Or.inr trivial

/-- No call hangs: whatever has happened, the transport comes to rest by itself, and then every call
has ended and the lock is free. -/
theorem every_exchange_ends (host : String) (port : Int) (connect_timeout_s : String)
    {es : List Event} {s : RtuOverTcpTransport}
    (hrun : run step (new host port connect_timeout_s) es = some s) :
    ComesToRest step Event.Internal Settled s := by
  have hnew : Manned (new host port connect_timeout_s) ∧
      ∃ n, Begun n (new host port connect_timeout_s) := by
    refine ⟨fun c => ⟨?_, ?_⟩, 0, fun _ _ => rfl⟩
    · rintro ⟨⟩
    · rintro reader r ⟨⟩
  have hstep : ∀ s e s', (Manned s ∧ ∃ n, Begun n s) → True → step s e = some s' →
      Manned s' ∧ ∃ n, Begun n s' := by
    intro s e s' ⟨hm, n, hn⟩ _ he
    exact ⟨manned_step hm he, begun_step hm hn he⟩
  obtain ⟨hm, n, hn⟩ := invariant_run hstep hnew (guarded_of_forall (fun _ _ _ => trivial) _) hrun
  have hidle : Idle n s := fun c hc => by simp [hn c hc, rank]
  have hload : ∀ (s : RtuOverTcpTransport) (e : Event) (s' : RtuOverTcpTransport),
      Manned s ∧ Idle n s → e.Internal → step s e = some s' →
        (Manned s' ∧ Idle n s') ∧ load n s' < load n s := by
    intro s e s' ⟨hm, hi⟩ hin he
    obtain ⟨hi', hless⟩ := load_step hm hi hin he
    exact ⟨⟨manned_step hm he, hi'⟩, hless⟩
  exact comes_to_rest hload (fun t ht hrest => settled ht.1 hrest) ⟨hm, hidle⟩

/-- One request waits for its answer, another one for the lock, and the gateway is silent. -/
theorem a_silent_gateway_holds_nobody_up :
    ∃ s, run step (new "gw" 502 "3.0") [.start_send 0 [3, 0, 0, 0, 1] 1 "1.0",
        .start_send 1 [3, 0, 5, 0, 1] 2 "1.0", .lock_acquired 0, .opened 0, .drained 0] = some s ∧
      s.lock = some 0 ∧ ¬ Ended (s.calls 1).place ∧ ComesToRest step Event.Internal Settled s := by
  have hrun : run step (new "gw" 502 "3.0") [.start_send 0 [3, 0, 0, 0, 1] 1 "1.0",
      .start_send 1 [3, 0, 5, 0, 1] 2 "1.0", .lock_acquired 0, .opened 0, .drained 0] = some _ := rfl
  exact ⟨_, hrun, rfl, id, every_exchange_ends "gw" 502 "3.0" hrun⟩

end pymod.rtu_over_tcp
