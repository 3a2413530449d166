-- No call of the serial transport hangs: the threads of the executor come to their ends by
-- themselves, and the calls behind them, whatever was cancelled meanwhile.
import Pymod.SerialReconnects
import Mathlib.Algebra.Order.BigOperators.Group.Finset

namespace pymod.serial_transport

open SerialTransport errors codec adu_rtu Function Runs Readers

/-! ## What is left to do -/

def Ended : CallAt → Prop
  | .returned _ | .raised _ => True
  | _ => False

/-- The steps that a job has before it. -/
noncomputable def job_rank : JobAt → Nat
  | .queued => 8
  | .exchanging .gap => 7
  | .exchanging .writing => 6
  | .exchanging (.reading r) => reads r + 1
  | .busy => 1
  | .absent | .finished _ | .cancelled => 0

/-- The steps that a call has before it, with those of the jobs that it has yet to submit. -/
def rank (s : SerialTransport) (c : Nat) : Nat :=
  match (s.calls c).place with
  | .lock => 19
  | .waiting j => if (s.jobs j).job = .open_port then 10 else 1
  | .absent | .returned _ | .raised _ => 0

theorem rank_of_ended {s : SerialTransport} {c : Nat} (h : Ended (s.calls c).place) :
    rank s c = 0 := by
  unfold rank
  cases hplace : (s.calls c).place <;> first | rfl | (rw [hplace] at h; exact h.elim)

/-! ## The jobs -/

/-- Somebody can still wait for the job. -/
def Alive : JobAt → Prop
  | .absent | .cancelled => False
  | _ => True

/-- A job is at a place that its kind can come to. -/
def JobFits (t : Ticket) : Prop :=
  match t.place with
  | .exchanging (.reading r) => t.job.exchanges ∧ Bounded r
  | .exchanging _ => t.job.exchanges
  | .busy => ¬ t.job.exchanges
  | .finished (.ok (.handle _)) => t.job = .open_port
  | .finished (.ok (.response _)) => t.job.exchanges
  | .finished (.ok .closed) => t.job.closes
  | _ => True

/-- The thread of a job takes it further. -/
structure Further (s : SerialTransport) (j : Nat) (place : JobAt) : Prop where
  fits : JobFits { job := (s.jobs j).job, place := place }
  alive : Alive place
  less : job_rank place < job_rank (s.jobs j).place

theorem further_finished_error {s : SerialTransport} {j : Nat} {e : PyError}
    (h : 0 < job_rank (s.jobs j).place) : Further s j (.finished (.error e)) :=
  ⟨trivial, trivial, h⟩

theorem further_read {s : SerialTransport} {j n : Nat} {k : Bytes → Reader UInt8 PyError Bytes}
    (hfit : JobFits (s.jobs j)) (hplace : (s.jobs j).place = .exchanging (.reading (.read_exactly n k)))
    (data : Bytes) : ∃ place, s.read j n k data = s.set_job j place ∧ Further s j place := by
  have hpos : 0 < job_rank (s.jobs j).place := by simp [hplace, job_rank]
  simp only [JobFits, hplace] at hfit
  obtain ⟨hbounded, hless⟩ := reads_lt hfit.2 data
  unfold SerialTransport.read
  split
  · exact ⟨_, rfl, further_finished_error hpos⟩
  · unfold SerialTransport.resume_reading
    cases hr : k data with
    | read_exactly m k' =>
      rw [hr] at hbounded hless
      refine ⟨_, rfl, ⟨⟨hfit.1, hbounded⟩, trivial, ?_⟩⟩
      simp only [hplace, job_rank]
      omega
    | raised e => exact ⟨_, rfl, further_finished_error hpos⟩
    | done frame => exact ⟨_, rfl, ⟨hfit.1, trivial, hpos⟩⟩

theorem thread_step {s s' : SerialTransport} {e : Event} {j : Nat} (hthread : e.thread = some j)
    (hfit : JobFits (s.jobs j)) (he : step s e = some s') :
    ∃ place written handles, s' = { s.set_job j place with written, handles } ∧ Further s j place := by
  cases e with
  | job_started i =>
    cases hthread
    simp only [step] at he
    split at he
    · rename_i hplace hjob
      cases he
      exact ⟨_, _, _, rfl, by rw [hjob]; trivial, trivial, by simp [hplace, job_rank]⟩
    · rename_i hplace hnot
      cases he
      refine ⟨_, _, _, rfl, ?_, trivial, by simp [hplace, job_rank]⟩
      intro hx
      cases hjob : (s.jobs j).job with
      | exchange ser frame timeout_s => exact hnot ser frame timeout_s hjob
      | _ => rw [hjob] at hx; exact hx
    · cases he
  | gap_over i =>
    cases hthread
    simp only [step] at he
    split at he
    · rename_i hplace
      cases he
      simp only [JobFits, hplace] at hfit
      exact ⟨_, _, _, rfl, hfit, trivial, by simp [hplace, job_rank]⟩
    · cases he
  | written i =>
    cases hthread
    simp only [step] at he
    split at he
    · rename_i ser frame timeout_s hplace hjob
      cases he
      have hless := reads_le within_read_rtu_response
      refine ⟨_, _, _, rfl, ⟨?_, 3, within_read_rtu_response⟩, trivial, ?_⟩
      · rw [hjob]
        trivial
      · simp only [hplace, job_rank]
        omega
    · cases he
  | write_failed i e | deadline_reached i | io_failed i e | port_failed i e =>
    cases hthread
    simp only [step] at he
    split at he
    · cases he
      exact ⟨_, _, _, rfl, further_finished_error (by simp_all [job_rank])⟩
    · cases he
  | read i data =>
    cases hthread
    simp only [step] at he
    split at he
    · rename_i n k hplace
      simp only [Option.ite_none_right_eq_some] at he
      obtain ⟨_, he⟩ := he
      obtain ⟨place, hread, hfurther⟩ := further_read hfit hplace data
      cases he
      exact ⟨place, _, _, hread, hfurther⟩
    · cases he
  | port_opened i =>
    cases hthread
    simp only [step] at he
    split at he
    · rename_i hplace hjob
      cases he
      exact ⟨_, _, _, rfl, hjob, trivial, by simp [hplace, job_rank]⟩
    · cases he
  | port_closed i =>
    cases hthread
    simp only [step] at he
    split at he
    · rename_i ser hplace hjob
      cases he
      refine ⟨_, _, _, rfl, ?_, trivial, by simp [hplace, job_rank]⟩
      rw [hjob]
      trivial
    · cases he
  | _ => cases hthread

/-! ## One call takes a step -/

/-- The other calls stay where they are, and do not get the lock. -/
structure Others (c : Nat) (s s' : SerialTransport) : Prop where
  places : ∀ d, d ≠ c → (s'.calls d).place = (s.calls d).place
  lock : ∀ d, d ≠ c → s'.lock = some d → s.lock = some d

/-- The call comes to its end, or it submits a job and waits for it. -/
inductive Goes (p : Job → Prop) (c : Nat) (s s' : SerialTransport) : Prop
  | ended (ho : Others c s s') (hend : Ended (s'.calls c).place) (hlock : s'.lock ≠ some c)
      (hjobs : s'.jobs = s.jobs) (hsubmitted : s'.submitted = s.submitted)
  | submits (job : Job) (hp : p job) (ho : Others c s s')
      (hplace : (s'.calls c).place = .waiting s.submitted)
      (hjobs : s'.jobs = update s.jobs s.submitted { job := job, place := .queued })
      (hsubmitted : s'.submitted = s.submitted + 1)

theorem Goes.after {p q : Job → Prop} {c : Nat} {s s' s'' : SerialTransport} (h : Goes p c s' s'')
    (hpq : ∀ job, p job → q job) (hplaces : ∀ d, d ≠ c → (s'.calls d).place = (s.calls d).place)
    (hlock : ∀ d, d ≠ c → s'.lock = some d → s.lock = some d) (hjobs : s'.jobs = s.jobs)
    (hsubmitted : s'.submitted = s.submitted) : Goes q c s s'' := by
  have hall : Others c s' s'' → Others c s s'' := fun ho =>
    ⟨fun d hd => (ho.places d hd).trans (hplaces d hd), fun d hd hl => hlock d hd (ho.lock d hd hl)⟩
  cases h with
  | ended ho hend hfree hj hs => exact .ended (hall ho) hend hfree (hj.trans hjobs) (hs.trans hsubmitted)
  | submits job hp ho hplace hj hs =>
    rw [hsubmitted] at hplace hs
    rw [hsubmitted, hjobs] at hj
    exact .submits job (hpq job hp) (hall ho) hplace hj hs

theorem Goes.mono {p q : Job → Prop} {c : Nat} {s s' : SerialTransport} (h : Goes p c s s')
    (hpq : ∀ job, p job → q job) : Goes q c s s' :=
  h.after hpq (fun _ _ => rfl) (fun _ _ hl => hl) rfl rfl

theorem goes_end_call {p : Job → Prop} (s : SerialTransport) (c : Nat) {place : CallAt}
    (h : Ended place) : Goes p c s (s.end_call c place) := by
  have hlock : (s.end_call c place).lock = if s.lock = some c then none else s.lock := rfl
  refine .ended ⟨fun d hd => ?_, fun d _ hl => ?_⟩ ?_ ?_ rfl rfl
  · exact congrArg Call.place (calls_set_call_of_ne s _ hd)
  · rw [hlock] at hl
    split at hl
    · cases hl
    · exact hl
  · change Ended ((s.set_call c _).calls c).place
    rw [calls_set_call]
    exact h
  · rw [hlock]
    split
    · simp
    · assumption

theorem goes_run_in_executor {p : Job → Prop} (s : SerialTransport) (c : Nat) {job : Job}
    (hp : p job) : Goes p c s (s.run_in_executor c job) := by
  refine .submits job hp ⟨fun d hd => ?_, fun d _ hl => hl⟩ ?_ rfl rfl
  · exact congrArg Call.place (calls_set_call_of_ne (s.submit job) _ hd)
  · change (((s.submit job).set_call c _).calls c).place = _
    rw [calls_set_call]

theorem goes_exchange (s : SerialTransport) (c : Nat) :
    Goes Job.exchanges c s (s.exchange c) := by
  unfold SerialTransport.exchange
  split
  · exact goes_end_call s c trivial
  · split
    · exact goes_end_call s c trivial
    · exact goes_run_in_executor s c trivial

theorem goes_opened_call (s : SerialTransport) (c : Nat) :
    Goes Job.exchanges c s (s.opened_call c) := by
  unfold SerialTransport.opened_call
  split
  · exact goes_exchange s c
  · exact goes_end_call s c trivial

theorem goes_locked (s : SerialTransport) (c : Nat) : Goes (fun _ => True) c s (s.locked c) := by
  unfold SerialTransport.locked
  split
  · unfold SerialTransport.close_locked
    split
    · rename_i ser _
      have hclose : Goes (fun _ => True) c s.disconnect
          (s.disconnect.run_in_executor c (.close_port ser)) := goes_run_in_executor _ c trivial
      exact hclose.after (fun _ h => h) (fun _ _ => rfl) (fun _ _ hl => hl) rfl rfl
    · have hend : Goes (fun _ => True) c s.disconnect (s.disconnect.end_call c (.returned none)) :=
        goes_end_call _ c trivial
      exact hend.after (fun _ h => h) (fun _ _ => rfl) (fun _ _ hl => hl) rfl rfl
  · unfold SerialTransport.open_locked
    split
    · exact (goes_opened_call s c).mono fun _ _ => trivial
    · split
      · exact goes_end_call s c trivial
      · exact goes_run_in_executor s c trivial

theorem goes_check_response {p : Job → Prop} (s : SerialTransport) (c : Nat) (frame : Bytes) :
    Goes p c s (s.check_response c frame) := by
  unfold SerialTransport.check_response
  split
  · exact goes_end_call s c trivial
  · split
    · exact goes_end_call s c trivial
    · exact goes_end_call s c trivial

/-- A call whose job has ended ends too, unless the job was the opening of a port. -/
theorem goes_resume {s s' : SerialTransport} {c : Nat} {job : Job} {result : Except PyError Result}
    (h : s.resume c job result = some s') :
    Goes (fun next => job = .open_port ∧ next.exchanges) c s s' := by
  unfold SerialTransport.resume at h
  split at h
  · cases h
    exact (goes_opened_call _ c).after (fun _ hx => ⟨rfl, hx⟩) (fun _ _ => rfl) (fun _ _ hl => hl) rfl
      rfl
  · cases h
    exact goes_end_call s c trivial
  · cases h
    exact goes_check_response s c _
  · cases h
    exact goes_end_call s c trivial
  · cases h
    exact goes_end_call s c trivial
  · cases h

/-! ## What holds in every run -/

/-- The lock is held by a call that waits for a job; the job was not cancelled; and every job is where
its kind can be. -/
structure Manned (s : SerialTransport) : Prop where
  waits : ∀ c, s.lock = some c → ∃ j, (s.calls c).place = .waiting j
  awaited : ∀ c j, (s.calls c).place = .waiting j → Alive (s.jobs j).place
  fits : ∀ j, JobFits (s.jobs j)
  unsubmitted : ∀ j, s.submitted ≤ j → (s.jobs j).place = .absent

theorem Manned.goes {s s' : SerialTransport} (hm : Manned s) {p : Job → Prop} {c : Nat}
    (h : Goes p c s s') : Manned s' := by
  cases h with
  | ended ho hend hlock hjobs hsubmitted =>
    refine ⟨fun d hd => ?_, fun d j hd => ?_, fun j => ?_, ?_⟩
    · have hdc : d ≠ c := by
        rintro rfl
        exact hlock hd
      rw [ho.places d hdc]
      exact hm.waits d (ho.lock d hdc hd)
    · have hdc : d ≠ c := by
        rintro rfl
        rw [hd] at hend
        exact hend
      rw [ho.places d hdc] at hd
      rw [hjobs]
      exact hm.awaited d j hd
    · rw [hjobs]
      exact hm.fits j
    · rw [hjobs, hsubmitted]
      exact hm.unsubmitted
  | submits job hp ho hplace hjobs hsubmitted =>
    refine ⟨fun d hd => ?_, fun d j hd => ?_, fun j => ?_, fun j hj => ?_⟩
    · by_cases hdc : d = c
      · subst hdc
        exact ⟨_, hplace⟩
      · rw [ho.places d hdc]
        exact hm.waits d (ho.lock d hdc hd)
    · rw [hjobs]
      by_cases hj : j = s.submitted
      · subst hj
        rw [update_self]
        trivial
      · rw [update_of_ne hj]
        have hdc : d ≠ c := by
          rintro rfl
          rw [hplace] at hd
          cases hd
          exact hj rfl
        rw [ho.places d hdc] at hd
        exact hm.awaited d j hd
    · rw [hjobs]
      by_cases hj : j = s.submitted
      · subst hj
        rw [update_self]
        trivial
      · rw [update_of_ne hj]
        exact hm.fits j
    · rw [hsubmitted] at hj
      rw [hjobs, update_of_ne (by omega)]
      exact hm.unsubmitted j (by omega)

/-! ## Every step -/

/-- Nothing from outside: the transport goes on, or a thread does; what the port does to the thread
ends in some way. -/
def Event.Internal : Event → Prop
  | .start_connect _ | .start_send _ _ _ _ | .start_close _ | .cancelled _ => False
  | _ => True

inductive Acts (s s' : SerialTransport) : Event → Prop
  | locked {c : Nat} (hplace : (s.calls c).place = .lock) (h : Goes (fun _ => True) c s s') :
      Acts s s' (.lock_acquired c)
  | resumed {c j : Nat} (hplace : (s.calls c).place = .waiting j)
      (h : Goes (fun next => (s.jobs j).job = .open_port ∧ next.exchanges) c s s') :
      Acts s s' (.resumed c)
  | thread {e : Event} {j : Nat} {place : JobAt} {written : List (Nat × Bytes)} {handles : Nat}
      (hs : s' = { s.set_job j place with written, handles }) (h : Further s j place) : Acts s s' e
  | begun {e : Event} {c : Nat} (houter : ¬ e.Internal) (habs : (s.calls c).place = .absent)
      (hothers : ∀ d, d ≠ c → (s'.calls d).place = (s.calls d).place)
      (hplace : (s'.calls c).place = .lock) (hlock : s'.lock = s.lock) (hjobs : s'.jobs = s.jobs)
      (hsubmitted : s'.submitted = s.submitted) : Acts s s' e
  | ended {e : Event} {c : Nat} (houter : ¬ e.Internal) (h : Goes (fun _ => False) c s s') :
      Acts s s' e
  | left {c j : Nat} (hc : (s.calls c).place = .waiting j)
      (h : s' = (s.cancel_job j).end_call c (.raised .CancelledError)) : Acts s s' (.cancelled c)

theorem acts_refused {s : SerialTransport} {e : Event} (houter : ¬ e.Internal) (c : Nat) (call : Call)
    (error : PyError) : Acts s ((s.set_call c call).end_call c (.raised error)) e := by
  have hend : Goes (fun _ => False) c (s.set_call c call)
      ((s.set_call c call).end_call c (.raised error)) := goes_end_call _ c trivial
  exact .ended houter (hend.after (fun _ h => h) (fun d hd => by rw [calls_set_call_of_ne s _ hd])
    (fun _ _ hl => hl) rfl rfl)

theorem acts_begun {s : SerialTransport} {e : Event} (houter : ¬ e.Internal) {c : Nat}
    (habs : (s.calls c).place = .absent) (call : Call) (closed : Bool) :
    Acts s (({ s with closed }.set_call c call).move c .lock) e := by
  refine .begun houter habs (fun d hd => ?_) ?_ rfl rfl rfl
  · exact (congrArg Call.place (calls_set_call_of_ne ({ s with closed }.set_call c call) _ hd)).trans
      (congrArg Call.place (calls_set_call_of_ne { s with closed } _ hd))
  · change ((SerialTransport.set_call _ c _).calls c).place = _
    rw [calls_set_call]

theorem acts_step {s s' : SerialTransport} {e : Event} (hm : Manned s) (he : step s e = some s') :
    Acts s s' e := by
  cases hthread : e.thread with
  | some j =>
    obtain ⟨place, written, handles, hs, hfurther⟩ := thread_step hthread (hm.fits j) he
    exact .thread hs hfurther
  | none =>
    cases e with
    | start_connect c =>
      simp only [step, Option.ite_none_right_eq_some] at he
      obtain ⟨habs, he⟩ := he
      split at he <;> cases he
      · exact acts_refused id c _ _
      · exact acts_begun id habs _ s.closed
    | start_send c pdu unit_id timeout_s =>
      simp only [step, Option.ite_none_right_eq_some] at he
      obtain ⟨habs, he⟩ := he
      split at he
      · cases he
        exact acts_refused id c _ _
      · split at he <;> cases he
        · exact acts_refused id c _ _
        · exact acts_begun id habs _ s.closed
    | start_close c =>
      simp only [step, Option.ite_none_right_eq_some] at he
      obtain ⟨habs, he⟩ := he
      cases he
      exact acts_begun id habs _ true
    | lock_acquired c =>
      simp only [step, Option.ite_none_right_eq_some] at he
      obtain ⟨⟨hplace, hfree⟩, he⟩ := he
      cases he
      refine .locked hplace ((goes_locked { s with lock := some c } c).after (fun _ h => h)
        (fun _ _ => rfl) ?_ rfl rfl)
      rintro d hd ⟨⟩
      exact absurd rfl hd
    | resumed c =>
      simp only [step] at he
      split at he
      · split at he
        · exact .resumed ‹_› (goes_resume he)
        · cases he
      · cases he
    | cancelled c =>
      simp only [step, cancel_call] at he
      split at he
      · cases he
        exact .ended id (goes_end_call s c trivial)
      · cases he
        exact .left ‹_› rfl
      · cases he
      · cases he
      · cases he
    | _ => cases hthread

theorem jobs_set_job (s : SerialTransport) (i j : Nat) (place : JobAt) :
    (s.set_job j place).jobs i = if i = j then { s.jobs j with place := place } else s.jobs i := by
  by_cases hi : i = j
  · subst hi
    simp [SerialTransport.set_job]
  · simp [SerialTransport.set_job, hi]

theorem Manned.further {s : SerialTransport} (hm : Manned s) {j : Nat} {place : JobAt}
    (h : Further s j place) {written : List (Nat × Bytes)} {handles : Nat} :
    Manned { s.set_job j place with written, handles } := by
  refine ⟨hm.waits, fun c i hc => ?_, fun i => ?_, fun i hi => ?_⟩
  · change Alive ((s.set_job j place).jobs i).place
    rw [jobs_set_job]
    split
    · exact h.alive
    · exact hm.awaited c i hc
  · change JobFits ((s.set_job j place).jobs i)
    rw [jobs_set_job]
    split
    · exact h.fits
    · exact hm.fits i
  · change ((s.set_job j place).jobs i).place = _
    have habs := hm.unsubmitted i hi
    have hij : i ≠ j := by
      rintro rfl
      have := h.less
      simp [habs, job_rank] at this
    rw [jobs_set_job, if_neg hij]
    exact habs

theorem manned_step {s s' : SerialTransport} {e : Event} (hm : Manned s) (hone : OnePort s)
    (he : step s e = some s') : Manned s' := by
  cases acts_step hm he with
  | locked hplace h => exact hm.goes h
  | resumed hplace h => exact hm.goes h
  | thread hs h =>
    rw [hs]
    exact hm.further h
  | @begun _ c houter habs hothers hplace hlock hjobs hsubmitted =>
    refine ⟨fun d hd => ?_, fun d j hd => ?_, fun j => ?_, ?_⟩
    · rw [hlock] at hd
      obtain ⟨j, hj⟩ := hm.waits d hd
      have hdc : d ≠ c := by
        rintro rfl
        rw [habs] at hj
        cases hj
      exact ⟨j, (hothers d hdc).trans hj⟩
    · have hdc : d ≠ c := by
        rintro rfl
        rw [hplace] at hd
        cases hd
      rw [hothers d hdc] at hd
      rw [hjobs]
      exact hm.awaited d j hd
    · rw [hjobs]
      exact hm.fits j
    · rw [hjobs, hsubmitted]
      exact hm.unsubmitted
  | ended houter h => exact hm.goes h
  | @left c j hc h =>
    subst h
    have hlock := (hone.holder c j hc).1
    have hfree : ((s.cancel_job j).end_call c (.raised .CancelledError)).lock = none := by
      unfold SerialTransport.cancel_job
      split <;> simp [SerialTransport.end_call, SerialTransport.release, SerialTransport.move,
        SerialTransport.set_call, SerialTransport.set_job, hlock]
    have hone' := onePort_step hone he
    refine ⟨fun d hd => ?_, fun d i hd => ?_, fun i => ?_, fun i hi => ?_⟩
    · rw [hfree] at hd
      cases hd
    · have := (hone'.holder d i hd).1
      rw [hfree] at this
      cases this
    · change JobFits ((s.cancel_job j).jobs i)
      unfold SerialTransport.cancel_job
      split
      · rw [jobs_set_job]
        split
        · trivial
        · exact hm.fits i
      · exact hm.fits i
    · change (s.cancel_job j).submitted ≤ i at hi
      rw [submitted_cancel_job] at hi
      have hlt := (hone.holder c j hc).2
      change ((s.cancel_job j).jobs i).place = _
      have habs := hm.unsubmitted i hi
      unfold SerialTransport.cancel_job
      split
      · rw [jobs_set_job, if_neg (by omega)]
        exact habs
      · exact habs

/-! ## What is left to do gets less -/

/-- Only finitely many calls have begun. -/
def Begun (n : Nat) (s : SerialTransport) : Prop := ∀ c, n ≤ c → (s.calls c).place = .absent

theorem begun_step {s s' : SerialTransport} {e : Event} (hm : Manned s) {n : Nat} (hn : Begun n s)
    (he : step s e = some s') : ∃ m, Begun m s' := by
  have hone : ∀ {c : Nat}, (∀ d, d ≠ c → (s'.calls d).place = (s.calls d).place) →
      ∃ m, Begun m s' := by
    intro c hothers
    refine ⟨max n (c + 1), fun d hd => ?_⟩
    rw [hothers d (by omega)]
    exact hn d (by omega)
  have hgoes : ∀ {p : Job → Prop} {c : Nat}, Goes p c s s' → ∃ m, Begun m s' := by
    intro p c h
    cases h with
    | ended ho => exact hone ho.places
    | submits job hp ho => exact hone ho.places
  cases acts_step hm he with
  | locked hplace h => exact hgoes h
  | resumed hplace h => exact hgoes h
  | thread hs h =>
    subst hs
    exact ⟨n, hn⟩
  | begun houter habs hothers => exact hone hothers
  | ended houter h => exact hgoes h
  | @left c j hc h =>
    subst h
    apply hone
    intro d hd
    exact (congrArg Call.place (calls_set_call_of_ne (s.cancel_job j) _ hd)).trans
      (congrArg (fun calls => (calls d).place) (calls_cancel_job s j))

/-- What is in order in every state that the transport comes to. -/
structure Ordered (s : SerialTransport) : Prop where
  manned : Manned s
  one : OnePort s

theorem ordered_step {s s' : SerialTransport} {e : Event} (ho : Ordered s) (he : step s e = some s') :
    Ordered s' :=
  ⟨manned_step ho.manned ho.one he, onePort_step ho.one he⟩

/-- What the first `n` calls and the first `m` jobs have left to do. -/
noncomputable def load (n m : Nat) (s : SerialTransport) : Nat :=
  ∑ c ∈ Finset.range n, rank s c + ∑ j ∈ Finset.range m, job_rank (s.jobs j).place

/-- The calls with something left to do are among the first `n`, and the jobs that they may still
submit among the first `m`. -/
structure Roomy (n m : Nat) (s : SerialTransport) : Prop where
  idle : ∀ c, n ≤ c → rank s c = 0
  room : s.submitted + ∑ c ∈ Finset.range n, rank s c ≤ m

theorem rank_eq {s s' : SerialTransport} {c : Nat} (hplace : (s'.calls c).place = (s.calls c).place)
    (hjob : ∀ j, (s.calls c).place = .waiting j → (s'.jobs j).job = (s.jobs j).job) :
    rank s' c = rank s c := by
  unfold rank
  rw [hplace]
  cases hp : (s.calls c).place with
  | waiting j => simp only [hjob j hp]
  | _ => rfl

/-- A call that goes on has so much less to do behind it that there is room for the job that it may
submit. -/
theorem load_goes {n m : Nat} {s s' : SerialTransport} (ho : Ordered s) (hw : Roomy n m s)
    {p : Job → Prop} {c : Nat} (h : Goes p c s s') (hpos : 0 < rank s c)
    (hsubmit : ∀ job, p job → (if job = .open_port then 10 else 1) + 9 ≤ rank s c) :
    Roomy n m s' ∧ load n m s' < load n m s := by
  have hroom := hw.room
  have hc : c < n := by
    by_contra hle
    have := hw.idle c (by omega)
    omega
  cases h with
  | ended hothers hend hlock hjobs hsubmitted =>
    have hranks : ∀ d, d ≠ c → rank s' d = rank s d := fun d hd =>
      rank_eq (hothers.places d hd) fun j _ => by rw [hjobs]
    have hsum := sum_change hc hranks
    have hzero := rank_of_ended hend
    refine ⟨⟨fun d hd => ?_, ?_⟩, ?_⟩
    · rw [hranks d (by omega)]
      exact hw.idle d hd
    · rw [hsubmitted]
      omega
    · unfold load
      rw [hjobs]
      omega
  | submits job hp hothers hplace hjobs hsubmitted =>
    have hranks : ∀ d, d ≠ c → rank s' d = rank s d := by
      intro d hd
      refine rank_eq (hothers.places d hd) fun j hj => ?_
      have := (ho.one.holder d j hj).2
      rw [hjobs, update_of_ne (by omega)]
    have hsum := sum_change hc hranks
    have hnew : rank s' c = if job = .open_port then 10 else 1 := by
      simp [rank, hplace, hjobs]
    have hfits := hsubmit job hp
    rw [← hnew] at hfits
    have hle := Finset.single_le_sum (f := fun d => rank s d) (fun d _ => Nat.zero_le _)
      (Finset.mem_range.mpr hc)
    have hjob := sum_change (n := m) (c := s.submitted) (f := fun j => job_rank (s.jobs j).place)
      (g := fun j => job_rank (s'.jobs j).place) (by omega) fun j hj => by rw [hjobs, update_of_ne hj]
    have hqueued : job_rank (s'.jobs s.submitted).place = 8 := by simp [hjobs, job_rank]
    refine ⟨⟨fun d hd => ?_, ?_⟩, ?_⟩
    · rw [hranks d (by omega)]
      exact hw.idle d hd
    · rw [hsubmitted]
      omega
    · unfold load
      omega

theorem load_step {n m : Nat} {s s' : SerialTransport} {e : Event} (ho : Ordered s)
    (hw : Roomy n m s) (hi : e.Internal) (he : step s e = some s') :
    Roomy n m s' ∧ load n m s' < load n m s := by
  cases acts_step ho.manned he with
  | @locked c hplace h =>
    have hrank : rank s c = 19 := by simp [rank, hplace]
    refine load_goes ho hw h (by omega) fun job _ => ?_
    split <;> omega
  | @resumed c j hplace h =>
    have hrank : rank s c = if (s.jobs j).job = .open_port then 10 else 1 := by simp [rank, hplace]
    refine load_goes ho hw h ?_ fun job hp => ?_
    · split at hrank <;> omega
    · rw [if_pos hp.1] at hrank
      rw [if_neg]
      · omega
      · rintro rfl
        exact hp.2
  | @thread _ j place written handles hs h =>
    have hranks : ∀ c, rank s' c = rank s c := by
      intro c
      subst hs
      refine rank_eq rfl fun i _ => ?_
      change ((s.set_job j place).jobs i).job = _
      rw [jobs_set_job]
      split
      · rename_i hij
        rw [hij]
      · rfl
    have hjobs : s'.jobs = (s.set_job j place).jobs := by rw [hs]
    have hlt := h.less
    have hroom := hw.room
    have hj : j < m := by
      by_contra hle
      have habs := ho.manned.unsubmitted j (by omega)
      simp [habs, job_rank] at hlt
    have hjob := sum_change (f := fun i => job_rank (s.jobs i).place)
      (g := fun i => job_rank (s'.jobs i).place) hj fun i hij => by
        rw [hjobs, jobs_set_job, if_neg hij]
    have hself : job_rank (s'.jobs j).place = job_rank place := by rw [hjobs, jobs_set_job, if_pos rfl]
    have hsum : ∑ c ∈ Finset.range n, rank s' c = ∑ c ∈ Finset.range n, rank s c :=
      Finset.sum_congr rfl fun c _ => hranks c
    have hsubmitted : s'.submitted = s.submitted := by
      subst hs
      rfl
    refine ⟨⟨fun c hc => ?_, ?_⟩, ?_⟩
    · rw [hranks c]
      exact hw.idle c hc
    · rw [hsubmitted, hsum]
      exact hroom
    · unfold load
      omega
  | begun houter => exact absurd hi houter
  | ended houter => exact absurd hi houter
  | left => exact hi.elim

/-! ## At rest -/

/-- Every call has ended, the lock is free, and no thread is at work, nor is a job left for one. -/
structure Settled (s : SerialTransport) : Prop where
  calls : ∀ c, (s.calls c).place = .absent ∨ Ended (s.calls c).place
  lock : s.lock = none
  jobs : ∀ j, ¬ Active (s.jobs j).place

theorem not_active {s : SerialTransport} (ho : Ordered s) (hrest : AtRest step Event.Internal s)
    (j : Nat) : ¬ Active (s.jobs j).place := by
  have hfits := ho.manned.fits j
  cases hplace : (s.jobs j).place with
  | queued =>
    have := hrest (.job_started j) trivial
    cases hjob : (s.jobs j).job <;> simp [step, hplace, hjob] at this
  | exchanging at_ =>
    cases at_ with
    | gap =>
      have := hrest (.gap_over j) trivial
      simp [step, hplace] at this
    | writing =>
      have := hrest (.written j) trivial
      simp only [JobFits, hplace] at hfits
      cases hjob : (s.jobs j).job with
      | exchange ser frame timeout_s => simp [step, hplace, hjob] at this
      | _ => rw [hjob] at hfits; exact hfits.elim
    | reading r =>
      have := hrest (.deadline_reached j) trivial
      simp [step, hplace] at this
  | busy =>
    have := hrest (.port_failed j .CancelledError) trivial
    simp [step, hplace] at this
  | _ => exact id

/-- A job that has ended lets its call go on. -/
theorem resume_isSome (s : SerialTransport) (c : Nat) {job : Job} {result : Except PyError Result}
    (h : JobFits { job := job, place := .finished result }) : s.resume c job result ≠ none := by
  cases result with
  | error e => cases job <;> simp [SerialTransport.resume]
  | ok r =>
    cases r with
    | handle ser =>
      simp only [JobFits] at h
      subst h
      simp [SerialTransport.resume]
    | response frame => cases job <;> first | exact h.elim | simp [SerialTransport.resume]
    | closed => cases job <;> first | exact h.elim | simp [SerialTransport.resume]

theorem settled {s : SerialTransport} (ho : Ordered s) (hrest : AtRest step Event.Internal s) :
    Settled s := by
  have hwaiting : ∀ c j, (s.calls c).place ≠ .waiting j := by
    intro c j hc
    have halive := ho.manned.awaited c j hc
    have hnot := not_active ho hrest j
    cases hplace : (s.jobs j).place with
    | finished result =>
      have hfits : JobFits { job := (s.jobs j).job, place := .finished result } := by
        rw [← hplace]
        exact ho.manned.fits j
      have hsome := resume_isSome s c hfits
      have := hrest (.resumed c) trivial
      simp only [step, hc, hplace] at this
      exact hsome this
    | absent | cancelled =>
      rw [hplace] at halive
      exact halive
    | queued | exchanging | busy =>
      rw [hplace] at hnot
      exact hnot trivial
  have hlock : s.lock = none := by
    cases hl : s.lock with
    | none => rfl
    | some c =>
      obtain ⟨j, hj⟩ := ho.manned.waits c hl
      exact absurd hj (hwaiting c j)
  refine ⟨fun c => ?_, hlock, not_active ho hrest⟩
  cases hplace : (s.calls c).place with
  | absent => exact Or.inl rfl
  | lock =>
    have := hrest (.lock_acquired c) trivial
    simp [step, hplace, hlock] at this
  | waiting j => exact absurd hplace (hwaiting c j)
  | returned | raised => exact Or.inr trivial

/-- No call hangs: whatever has happened, and whichever jobs were left by calls that were cancelled,
the transport and its threads come to rest by themselves, and then every call has ended. -/
theorem every_transaction_ends (port : String) {es : List Event} {s : SerialTransport}
    (hrun : run step (new port) es = some s) : ComesToRest step Event.Internal Settled s := by
  have hnew : Ordered (new port) ∧ ∃ n, Begun n (new port) := by
    refine ⟨⟨⟨?_, ?_, fun _ => trivial, fun _ _ => rfl⟩, onePort_new port⟩, 0, fun _ _ => rfl⟩
    · rintro c ⟨⟩
    · rintro c j ⟨⟩
  have hstep : ∀ s e s', (Ordered s ∧ ∃ n, Begun n s) → True → step s e = some s' →
      Ordered s' ∧ ∃ n, Begun n s' := by
    intro s e s' ⟨ho, n, hn⟩ _ he
    exact ⟨ordered_step ho he, begun_step ho.manned hn he⟩
  obtain ⟨ho, n, hn⟩ := invariant_run hstep hnew (guarded_of_forall (fun _ _ _ => trivial) _) hrun
  have hroomy : Roomy n (s.submitted + ∑ c ∈ Finset.range n, rank s c) s :=
    ⟨fun c hc => by simp [rank, hn c hc], le_refl _⟩
  have hload : ∀ {m : Nat} (s : SerialTransport) (e : Event) (s' : SerialTransport),
      Ordered s ∧ Roomy n m s → e.Internal → step s e = some s' →
        (Ordered s' ∧ Roomy n m s') ∧ load n m s' < load n m s := by
    intro m s e s' ⟨ho, hr⟩ hi he
    obtain ⟨hr', hless⟩ := load_step ho hr hi he
    exact ⟨⟨ordered_step ho he, hr'⟩, hless⟩
  exact comes_to_rest hload (fun t ht hrest => settled ht.1 hrest) ⟨ho, hroomy⟩

/-- A call is cancelled while a thread exchanges for it, and another one gets the port meanwhile. -/
theorem an_abandoned_exchange_comes_to_rest :
    ∃ s, run step (new "/dev/ttyUSB0") [.start_send 0 [3, 0, 0, 0, 1] 1 "1.0",
        .start_send 1 [3, 0, 5, 0, 1] 2 "1.0", .lock_acquired 0, .job_started 0, .port_opened 0,
        .resumed 0, .job_started 1, .cancelled 0, .lock_acquired 1] = some s ∧
      Active (s.jobs 1).place ∧ (s.calls 1).place = .waiting 2 ∧
      ComesToRest step Event.Internal Settled s := by
  have hrun : run step (new "/dev/ttyUSB0") [.start_send 0 [3, 0, 0, 0, 1] 1 "1.0",
      .start_send 1 [3, 0, 5, 0, 1] 2 "1.0", .lock_acquired 0, .job_started 0, .port_opened 0,
      .resumed 0, .job_started 1, .cancelled 0, .lock_acquired 1] = some _ := rfl
  exact ⟨_, hrun, trivial, by decide, every_transaction_ends "/dev/ttyUSB0" hrun⟩

end pymod.serial_transport
