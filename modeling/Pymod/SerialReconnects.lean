-- The port of `SerialTransport`: there is only one for as long as the transport is not closed, so
-- an attempt behind a failure finds the port that failed.
import Pymod.Executions
import Pymod.SerialBus

namespace pymod.serial_transport

open SerialTransport errors codec adu_rtu Readers Function Runs executions

/-! ## The ports -/

/-- The job has raised `ModbusConnectionError`. -/
def connection_failed : JobAt → Bool
  | .finished (.error (.modbus (.ModbusConnectionError _))) => true
  | _ => false

/-- An exception of the port ends the exchange of a job. -/
def fails (_ : SerialTransport) (e : Event) (s' : SerialTransport) : Bool :=
  match e with
  | .write_failed j _ | .io_failed j _ => connection_failed (s'.jobs j).place
  | _ => false

def attempts (s : SerialTransport) : Event → Option Nat
  | .lock_acquired c =>
    if (s.calls c).place = .lock ∧ s.lock = none ∧ (s.calls c).kind = .send_and_receive then some c
    else none
  | _ => none

def outcome (s : SerialTransport) (c : Nat) : Option (Except PyError Bytes) :=
  match (s.calls c).place with
  | .returned (some pdu) => some (.ok pdu)
  | .raised e => some (.error e)
  | _ => none

/-- A job is handed to the executor between the two states. -/
def Submits (s s' : SerialTransport) (job : Job) : Prop :=
  s'.submitted = s.submitted + 1 ∧ (s'.jobs s.submitted).job = job

/-- An exchange begins when its job is handed to the executor. -/
def line : Line SerialTransport Event where
  step := step
  send_and_receive := .start_send
  outcome := outcome
  opened := SerialTransport.handles
  held := SerialTransport.serial
  begins s s' ser := ∃ frame timeout_s, Submits s s' (.exchange ser frame timeout_s)
  fails := fails
  attempts := attempts
  opening s c := ∃ j, (s.calls c).place = .waiting j ∧ (s.jobs j).job = .open_port
  refused s c := (s.calls c).place = .raised transport_is_closed

/-! ## The condition -/

/-- When an exchange has failed, no attempt gets the lock while the port is open. -/
def NoAttemptAfterFailure (s : SerialTransport × List Nat) (e : Event) : Prop :=
  ∀ c ∈ attempts s.1 e, s.2 ≠ [] → s.1.connected = false

instance (s : SerialTransport × List Nat) (e : Event) : Decidable (NoAttemptAfterFailure s e) :=
  inferInstanceAs (Decidable (∀ c ∈ attempts s.1 e, _))

/-! ## One port at most -/

/-- What the transport holds: behind an exchange the port is open, or the transport is closed. -/
structure Stock (s : SerialTransport) : Prop where
  unsubmitted : ∀ j, s.submitted ≤ j → ¬ (s.jobs j).job.exchanges
  linked : s.connected = s.serial.isSome
  opened : ∀ ser, s.serial = some ser → ser < s.handles
  results : ∀ j ser, (s.jobs j).place = .finished (.ok (.handle ser)) → ser < s.handles
  exchanging : ∀ j, Exchanging (s.jobs j).place → (s.jobs j).job.exchanges
  once : ∀ j, (s.jobs j).job.exchanges → s.connected = true ∨ s.closed = true
  flagged : ∀ c, (s.calls c).kind = .close → s.closed = true

/-- While a port is being opened for a call, there was no exchange yet. -/
structure OnePort (s : SerialTransport) : Prop where
  stock : Stock s
  holder : ∀ c j, (s.calls c).place = .waiting j → s.lock = some c ∧ j < s.submitted
  opening : ∀ c j, (s.calls c).place = .waiting j → (s.jobs j).job = .open_port →
    ∀ i, ¬ (s.jobs i).job.exchanges

/-- The holder of the lock waits for nothing, and neither do the others. -/
structure Sole (s : SerialTransport) (c : Nat) : Prop where
  stock : Stock s
  lock : s.lock = some c
  others : ∀ d j, d ≠ c → (s.calls d).place ≠ .waiting j

theorem Stock.set_call {s : SerialTransport} (h : Stock s) {c : Nat} {call : Call}
    (hkind : call.kind = .close → s.closed = true) : Stock (s.set_call c call) := by
  refine ⟨h.unsubmitted, h.linked, h.opened, h.results, h.exchanging, h.once, ?_⟩
  intro d hd
  by_cases hdc : d = c
  · subst hdc
    rw [calls_set_call] at hd
    exact hkind hd
  · rw [calls_set_call_of_ne s _ hdc] at hd
    exact h.flagged d hd

theorem Sole.end_call {s : SerialTransport} {c : Nat} (h : Sole s c) {place : CallAt}
    (hplace : ∀ j, place ≠ .waiting j) : OnePort (s.end_call c place) := by
  have hno : ∀ d j, ((s.end_call c place).calls d).place ≠ .waiting j := by
    intro d j
    change ((s.set_call c _).calls d).place ≠ _
    by_cases hdc : d = c
    · subst hdc
      rw [calls_set_call]
      exact hplace j
    · rw [calls_set_call_of_ne s _ hdc]
      exact h.others d j hdc
  have hstock : Stock (s.move c place) := h.stock.set_call (h.stock.flagged c)
  refine ⟨⟨hstock.unsubmitted, hstock.linked, hstock.opened, hstock.results, hstock.exchanging,
    hstock.once, hstock.flagged⟩, ?_, ?_⟩
  · intro d j hd
    exact absurd hd (hno d j)
  · intro d j hd
    exact absurd hd (hno d j)

theorem Stock.submit {s : SerialTransport} (h : Stock s) {job : Job}
    (hjob : job.exchanges → s.connected = true) : Stock (s.submit job) := by
  have hnew : (s.submit job).jobs s.submitted = { job := job, place := .queued } :=
    update_self _ _ _
  have hold : ∀ j, j ≠ s.submitted → (s.submit job).jobs j = s.jobs j := fun j hj =>
    update_of_ne hj _ _
  refine ⟨?_, h.linked, h.opened, ?_, ?_, ?_, h.flagged⟩
  · intro j hj
    have hlt : s.submitted < j := hj
    rw [hold j (by omega)]
    exact h.unsubmitted j (by omega)
  · intro j ser hj
    by_cases hjs : j = s.submitted
    · rw [hjs, hnew] at hj
      cases hj
    · rw [hold j hjs] at hj
      exact h.results j ser hj
  · intro j hj
    by_cases hjs : j = s.submitted
    · rw [hjs, hnew] at hj
      exact hj.elim
    · rw [hold j hjs] at hj ⊢
      exact h.exchanging j hj
  · intro j hj
    by_cases hjs : j = s.submitted
    · rw [hjs, hnew] at hj
      exact Or.inl (hjob hj)
    · rw [hold j hjs] at hj
      exact h.once j hj

theorem Sole.run_in_executor {s : SerialTransport} {c : Nat} (h : Sole s c) {job : Job}
    (hexchange : job.exchanges → s.connected = true)
    (hopen : job = .open_port → ∀ i, ¬ (s.jobs i).job.exchanges) :
    OnePort (s.run_in_executor c job) := by
  have hnew : (s.run_in_executor c job).jobs s.submitted = { job := job, place := .queued } :=
    update_self _ _ _
  have hplace : ∀ d j, ((s.run_in_executor c job).calls d).place = .waiting j →
      d = c ∧ j = s.submitted := by
    intro d j hd
    change (((s.submit job).set_call c _).calls d).place = _ at hd
    by_cases hdc : d = c
    · subst hdc
      rw [calls_set_call] at hd
      cases hd
      exact ⟨rfl, rfl⟩
    · rw [calls_set_call_of_ne _ _ hdc] at hd
      exact absurd hd (h.others d j hdc)
  refine ⟨(h.stock.submit hexchange).set_call (h.stock.flagged c), ?_, ?_⟩
  · intro d j hd
    obtain ⟨rfl, rfl⟩ := hplace d j hd
    exact ⟨h.lock, Nat.lt_succ_self _⟩
  · intro d j hd hjob i hi
    obtain ⟨rfl, rfl⟩ := hplace d j hd
    rw [hnew] at hjob
    by_cases his : i = s.submitted
    · rw [his, hnew] at hi
      change job.exchanges at hi
      rw [show job = .open_port from hjob] at hi
      exact hi
    · have hsame : (s.run_in_executor d job).jobs i = s.jobs i := update_of_ne his _ _
      rw [hsame] at hi
      exact hopen hjob i hi

/-! ## The functions of the transport -/

theorem Sole.exchange {s : SerialTransport} {c : Nat} (h : Sole s c)
    (hconnected : s.connected = true) : OnePort (s.exchange c) := by
  unfold SerialTransport.exchange
  split
  · exact h.end_call (by rintro j ⟨⟩)
  · split
    · exact h.end_call (by rintro j ⟨⟩)
    · exact h.run_in_executor (fun _ => hconnected) (by rintro ⟨⟩)

theorem Sole.opened_call {s : SerialTransport} {c : Nat} (h : Sole s c)
    (hconnected : s.connected = true) : OnePort (s.opened_call c) := by
  unfold SerialTransport.opened_call
  split
  · exact h.exchange hconnected
  · exact h.end_call (by rintro j ⟨⟩)

theorem Sole.open_locked {s : SerialTransport} {c : Nat} (h : Sole s c) :
    OnePort (s.open_locked c) := by
  unfold SerialTransport.open_locked
  split
  · exact h.opened_call ‹_›
  · rename_i hconnected
    split
    · exact h.end_call (by rintro j ⟨⟩)
    · rename_i hclosed
      apply h.run_in_executor
      · exact fun hx => hx.elim
      · intro _ i hi
        exact (h.stock.once i hi).elim hconnected hclosed

theorem Sole.disconnect {s : SerialTransport} {c : Nat} (h : Sole s c)
    (hclosed : s.closed = true) : Sole s.disconnect c :=
  ⟨⟨h.stock.unsubmitted, rfl, by rintro ser ⟨⟩, h.stock.results, h.stock.exchanging,
    fun _ _ => Or.inr hclosed, h.stock.flagged⟩, h.lock, h.others⟩

theorem Sole.close_locked {s : SerialTransport} {c : Nat} (h : Sole s c)
    (hclosed : s.closed = true) : OnePort (s.close_locked c) := by
  unfold SerialTransport.close_locked
  split
  · exact (h.disconnect hclosed).run_in_executor (fun hx => hx.elim) (by rintro ⟨⟩)
  · exact (h.disconnect hclosed).end_call (by rintro j ⟨⟩)

theorem Sole.locked {s : SerialTransport} {c : Nat} (h : Sole s c) : OnePort (s.locked c) := by
  unfold SerialTransport.locked
  split
  · rename_i hkind
    exact h.close_locked (h.stock.flagged c hkind)
  · exact h.open_locked

theorem Sole.check_response {s : SerialTransport} {c : Nat} (h : Sole s c) (frame : Bytes) :
    OnePort (s.check_response c frame) := by
  unfold SerialTransport.check_response
  split
  · exact h.end_call (by rintro j ⟨⟩)
  · split <;> exact h.end_call (by rintro j ⟨⟩)

theorem Sole.install {s : SerialTransport} {c ser : Nat} (h : Sole s c) (hser : ser < s.handles) :
    Sole (s.install ser) c := by
  refine ⟨⟨h.stock.unsubmitted, rfl, ?_, h.stock.results, h.stock.exchanging,
    fun _ _ => Or.inl rfl, h.stock.flagged⟩, h.lock, h.others⟩
  rintro ser' ⟨⟩
  exact hser

/-- The call that waits is the holder of the lock. -/
theorem OnePort.sole {s : SerialTransport} (h : OnePort s) {c j : Nat}
    (hc : (s.calls c).place = .waiting j) : Sole s c := by
  have hlock := (h.holder c j hc).1
  refine ⟨h.stock, hlock, ?_⟩
  intro d i hd hi
  have hlock' := (h.holder d i hi).1
  rw [hlock] at hlock'
  cases hlock'
  exact hd rfl

theorem OnePort.resume {s s' : SerialTransport} (h : OnePort s) {c j : Nat}
    (hc : (s.calls c).place = .waiting j) {result : Except PyError Result}
    (hj : (s.jobs j).place = .finished result)
    (he : s.resume c (s.jobs j).job result = some s') : OnePort s' := by
  have hsole : Sole s c := h.sole hc
  cases hjob : (s.jobs j).job with
  | open_port =>
    rw [hjob] at he
    rcases result with e | ⟨ser⟩ | _ | _
    · cases he
      exact hsole.end_call (by rintro i ⟨⟩)
    · cases he
      exact (hsole.install (h.stock.results j ser hj)).opened_call rfl
    · cases he
    · cases he
  | exchange ser frame timeout_s =>
    rw [hjob] at he
    rcases result with e | _ | ⟨frame⟩ | _
    · cases he
      exact hsole.end_call (by rintro i ⟨⟩)
    · cases he
    · cases he
      exact hsole.check_response frame
    · cases he
  | close_port ser =>
    rw [hjob] at he
    cases he
    exact hsole.end_call (by rintro i ⟨⟩)

/-! ## Steps of the others -/

/-- A call that waits for no job goes on without the lock. -/
theorem OnePort.outside {s : SerialTransport} (h : OnePort s) {c : Nat} {call : Call}
    (hnew : ∀ j, call.place ≠ .waiting j) (hkind : call.kind = .close → s.closed = true) :
    OnePort (s.set_call c call) := by
  have hplace : ∀ d j, ((s.set_call c call).calls d).place = .waiting j →
      (s.calls d).place = .waiting j := by
    intro d j hd
    by_cases hdc : d = c
    · subst hdc
      rw [calls_set_call] at hd
      exact absurd hd (hnew j)
    · rw [calls_set_call_of_ne s _ hdc] at hd
      exact hd
  exact ⟨h.stock.set_call hkind, fun d j hd => h.holder d j (hplace d j hd),
    fun d j hd => h.opening d j (hplace d j hd)⟩

theorem OnePort.start_call {s : SerialTransport} (h : OnePort s) {c : Nat} {call : Call}
    (_ : (s.calls c).place = .absent) (hplace : call.place = .absent)
    (hkind : call.kind = .close → s.closed = true) : OnePort (s.set_call c call) := by
  apply h.outside _ hkind
  rw [hplace]
  rintro j ⟨⟩

theorem OnePort.end_outside {s : SerialTransport} (h : OnePort s) {c : Nat} {place : CallAt}
    (hold : ∀ j, (s.calls c).place ≠ .waiting j) (hnew : ∀ j, place ≠ .waiting j) :
    OnePort (s.end_call c place) := by
  have hmove : OnePort (s.move c place) := h.outside hnew (h.stock.flagged c)
  refine ⟨⟨hmove.stock.unsubmitted, hmove.stock.linked, hmove.stock.opened, hmove.stock.results,
    hmove.stock.exchanging, hmove.stock.once, hmove.stock.flagged⟩, ?_, hmove.opening⟩
  intro d j hd
  obtain ⟨hlock, hlt⟩ := hmove.holder d j hd
  refine ⟨?_, hlt⟩
  have hdc : d ≠ c := by
    rintro rfl
    change ((s.set_call d _).calls d).place = _ at hd
    rw [calls_set_call] at hd
    exact hnew j hd
  simp only [SerialTransport.end_call, SerialTransport.release, hlock]
  rw [if_neg (by simpa using hdc)]

/-- A job comes to another place; the handle of a port that it has opened is a new one. -/
theorem OnePort.set_job {s : SerialTransport} (h : OnePort s) {j : Nat} {place : JobAt}
    {written : List (Nat × Bytes)} {handles : Nat} (hhandles : s.handles ≤ handles)
    (hresult : ∀ ser, place = .finished (.ok (.handle ser)) → ser < handles)
    (hexchanging : Exchanging place → Exchanging (s.jobs j).place ∨ (s.jobs j).job.exchanges) :
    OnePort { s.set_job j place with written, handles } := by
  have hjob : ∀ i, ((s.set_job j place).jobs i).job = (s.jobs i).job := by
    intro i
    by_cases hij : i = j
    · subst hij
      simp [SerialTransport.set_job]
    · simp [SerialTransport.set_job, update_of_ne hij]
  refine ⟨⟨?_, h.stock.linked, ?_, ?_, ?_, ?_, h.stock.flagged⟩, h.holder, ?_⟩
  · intro i hi
    rw [hjob]
    exact h.stock.unsubmitted i hi
  · intro ser hser
    exact (h.stock.opened ser hser).trans_le hhandles
  · intro i ser hi
    by_cases hij : i = j
    · subst hij
      apply hresult
      simpa [SerialTransport.set_job] using hi
    · have hold : (s.jobs i).place = .finished (.ok (.handle ser)) := by
        simpa [SerialTransport.set_job, update_of_ne hij] using hi
      exact (h.stock.results i ser hold).trans_le hhandles
  · intro i hi
    rw [hjob]
    by_cases hij : i = j
    · subst hij
      have hplace : Exchanging place := by simpa [SerialTransport.set_job] using hi
      exact (hexchanging hplace).elim (h.stock.exchanging i) id
    · apply h.stock.exchanging i
      simpa [SerialTransport.set_job, update_of_ne hij] using hi
  · intro i hi
    rw [hjob] at hi
    exact h.stock.once i hi
  · intro d i hd hi k hk
    rw [hjob] at hi hk
    exact h.opening d i hd hi k hk

theorem OnePort.cancel_job {s : SerialTransport} (h : OnePort s) (j : Nat) :
    OnePort (s.cancel_job j) := by
  unfold SerialTransport.cancel_job
  split
  · exact h.set_job (Nat.le_refl _) (by rintro ser ⟨⟩) (fun hx => hx.elim)
  · exact h

theorem submitted_cancel_job (s : SerialTransport) (j : Nat) :
    (s.cancel_job j).submitted = s.submitted := by
  unfold SerialTransport.cancel_job
  split <;> rfl

theorem calls_cancel_job (s : SerialTransport) (j : Nat) : (s.cancel_job j).calls = s.calls := by
  unfold SerialTransport.cancel_job
  split <;> rfl

/-- Whoever gets the lock is the only one that goes on. -/
theorem OnePort.lock_acquired {s : SerialTransport} (h : OnePort s) (hfree : s.lock = none)
    (c : Nat) : Sole { s with lock := some c } c := by
  refine ⟨⟨h.stock.unsubmitted, h.stock.linked, h.stock.opened, h.stock.results,
    h.stock.exchanging, h.stock.once, h.stock.flagged⟩, rfl, ?_⟩
  intro d j _ hd
  have hlock := (h.holder d j hd).1
  rw [hfree] at hlock
  cases hlock

theorem OnePort.set_closed {s : SerialTransport} (h : OnePort s) {closed : Bool}
    (hclosed : s.closed = true → closed = true) : OnePort { s with closed } :=
  ⟨⟨h.stock.unsubmitted, h.stock.linked, h.stock.opened, h.stock.results, h.stock.exchanging,
    fun j hj => (h.stock.once j hj).imp_right hclosed, fun c hc => hclosed (h.stock.flagged c hc)⟩,
    h.holder, h.opening⟩

theorem onePort_step {s s' : SerialTransport} {e : Event} (h : OnePort s)
    (he : step s e = some s') : OnePort s' := by
  cases step_cases he with
  | refused habs hplace hkind =>
    have hs := h.start_call habs hplace fun hk => absurd hk hkind
    exact hs.end_outside (by simp [hplace]) (by rintro j ⟨⟩)
  | begun habs hplace hclosed hkind =>
    have hs := (h.set_closed hclosed).start_call habs hplace hkind
    exact hs.outside (by rintro j ⟨⟩) (hs.stock.flagged _)
  | locked hplace hlock => exact (h.lock_acquired hlock _).locked
  | resumed hc hj hresume => exact h.resume hc hj hresume
  | gave_up hc =>
    apply h.end_outside
    · rw [hc]
      rintro j ⟨⟩
    · rintro j ⟨⟩
  | left_job hc =>
    have hwaits := hc
    rw [← calls_cancel_job s _] at hwaits
    exact ((h.cancel_job _).sole hwaits).end_call (by rintro i ⟨⟩)
  | thread ha => exact h.set_job ha.opened ha.handle ha.exchanging

theorem onePort_new (port : String) : OnePort (new port) := by
  refine ⟨⟨?_, rfl, ?_, ?_, ?_, ?_, ?_⟩, ?_, ?_⟩
  · rintro j _ ⟨⟩
  · rintro ser ⟨⟩
  · rintro j ser ⟨⟩
  · rintro j ⟨⟩
  · rintro j ⟨⟩
  · rintro c ⟨⟩
  · rintro c j ⟨⟩
  · rintro c j ⟨⟩

/-! ## What a step does to the port -/

/-- The transport keeps its port and its jobs, and an exchange that begins is on that port. -/
structure Uses (s s' : SerialTransport) : Prop where
  serial : s'.serial = s.serial
  jobs : ∀ j < s.submitted, (s'.jobs j).job = (s.jobs j).job
  begins : ∀ ser frame timeout_s, Submits s s' (.exchange ser frame timeout_s) →
    s.serial = some ser

theorem uses_of_jobs {s s' : SerialTransport} (hserial : s'.serial = s.serial)
    (hjobs : s'.jobs = s.jobs) (hsubmitted : s'.submitted = s.submitted) : Uses s s' := by
  refine ⟨hserial, fun j _ => by rw [hjobs], ?_⟩
  rintro ser frame timeout_s ⟨hmore, _⟩
  omega

theorem uses_run_in_executor {s t : SerialTransport} (hserial : t.serial = s.serial)
    (hjobs : t.jobs = s.jobs) (hsubmitted : t.submitted = s.submitted) (c : Nat) {job : Job}
    (hjob : ∀ ser frame timeout_s, job = .exchange ser frame timeout_s → s.serial = some ser) :
    Uses s (t.run_in_executor c job) := by
  refine ⟨hserial, ?_, ?_⟩
  · intro j hj
    have hold : (t.run_in_executor c job).jobs j = t.jobs j := update_of_ne (by omega) _ _
    rw [hold, hjobs]
  · rintro ser frame timeout_s ⟨_, hnew⟩
    have hself : (t.run_in_executor c job).jobs t.submitted = { job := job, place := .queued } :=
      update_self _ _ _
    rw [← hsubmitted, hself] at hnew
    exact hjob ser frame timeout_s hnew

theorem uses_opened_call {s t : SerialTransport} (hserial : t.serial = s.serial)
    (hjobs : t.jobs = s.jobs) (hsubmitted : t.submitted = s.submitted) (c : Nat) :
    Uses s (t.opened_call c) := by
  unfold SerialTransport.opened_call
  split
  · unfold SerialTransport.exchange
    split
    · exact uses_of_jobs hserial hjobs hsubmitted
    · rename_i ser hser
      split
      · exact uses_of_jobs hserial hjobs hsubmitted
      · apply uses_run_in_executor hserial hjobs hsubmitted
        rintro ser' frame timeout_s ⟨⟩
        rw [← hserial]
        exact hser
  · exact uses_of_jobs hserial hjobs hsubmitted

theorem uses_open_locked {s t : SerialTransport} (hserial : t.serial = s.serial)
    (hjobs : t.jobs = s.jobs) (hsubmitted : t.submitted = s.submitted) (c : Nat) :
    Uses s (t.open_locked c) := by
  unfold SerialTransport.open_locked
  split
  · exact uses_opened_call hserial hjobs hsubmitted c
  · split
    · exact uses_of_jobs hserial hjobs hsubmitted
    · exact uses_run_in_executor hserial hjobs hsubmitted c (by rintro ser frame timeout_s ⟨⟩)

/-- The transport keeps its port, closes it, or has opened one for a call that waits for it. -/
inductive Ports (s s' : SerialTransport) : Prop
  | kept (h : Uses s s')
  | closed (h : Uses s.disconnect s')
  | opened (c j ser : Nat) (hc : (s.calls c).place = .waiting j) (hj : (s.jobs j).job = .open_port)
    (h : Uses (s.install ser) s')

theorem ports_locked (s : SerialTransport) (c : Nat) : Ports s (s.locked c) := by
  unfold SerialTransport.locked
  split
  · apply Ports.closed
    unfold SerialTransport.close_locked
    split
    · exact uses_run_in_executor rfl rfl rfl c (by rintro ser frame timeout_s ⟨⟩)
    · exact uses_of_jobs rfl rfl rfl
  · exact .kept (uses_open_locked rfl rfl rfl c)

theorem ports_resume {s s' : SerialTransport} {c j : Nat} (hc : (s.calls c).place = .waiting j)
    {result : Except PyError Result} (he : s.resume c (s.jobs j).job result = some s') :
    Ports s s' := by
  cases hjob : (s.jobs j).job with
  | open_port =>
    rw [hjob] at he
    rcases result with e | ⟨ser⟩ | _ | _
    · cases he
      exact .kept (uses_of_jobs rfl rfl rfl)
    · cases he
      exact .opened c j ser hc hjob (uses_opened_call rfl rfl rfl c)
    · cases he
    · cases he
  | exchange ser frame timeout_s =>
    rw [hjob] at he
    rcases result with e | _ | ⟨frame⟩ | _
    · cases he
      exact .kept (uses_of_jobs rfl rfl rfl)
    · cases he
    · cases he
      apply Ports.kept
      unfold SerialTransport.check_response
      split
      · exact uses_of_jobs rfl rfl rfl
      · split <;> exact uses_of_jobs rfl rfl rfl
    · cases he
  | close_port ser =>
    rw [hjob] at he
    cases he
    exact .kept (uses_of_jobs rfl rfl rfl)

/-- The jobs by themselves stay, wherever one of them comes to. -/
theorem uses_set_job {s s' : SerialTransport} {j : Nat} {place : JobAt}
    (hserial : s'.serial = s.serial) (hjobs : s'.jobs = (s.set_job j place).jobs)
    (hsubmitted : s'.submitted = s.submitted) : Uses s s' := by
  refine ⟨hserial, ?_, ?_⟩
  · intro i _
    rw [hjobs]
    by_cases hij : i = j
    · subst hij
      simp [SerialTransport.set_job]
    · simp [SerialTransport.set_job, update_of_ne hij]
  · rintro ser frame timeout_s ⟨hmore, _⟩
    omega

theorem uses_cancel_job (s : SerialTransport) (j : Nat) : Uses s (s.cancel_job j) := by
  unfold SerialTransport.cancel_job
  split
  · exact uses_set_job rfl rfl rfl
  · exact uses_of_jobs rfl rfl rfl

theorem ports_step {s s' : SerialTransport} {e : Event} (he : step s e = some s') : Ports s s' := by
  cases step_cases he with
  | refused | begun | gave_up => exact .kept (uses_of_jobs rfl rfl rfl)
  | locked =>
    rename_i c _ _
    cases ports_locked { s with lock := some c } c with
    | kept h => exact .kept ⟨h.serial, h.jobs, h.begins⟩
    | closed h => exact .closed ⟨h.serial, h.jobs, h.begins⟩
    | opened d j ser hd hj h => exact .opened d j ser hd hj ⟨h.serial, h.jobs, h.begins⟩
  | resumed hc hj hresume => exact ports_resume hc hresume
  | left_job hc =>
    rename_i j
    have huses := uses_cancel_job s j
    exact .kept ⟨huses.serial, huses.jobs, huses.begins⟩
  | thread ha => exact .kept (uses_set_job rfl rfl rfl)

/-! ## Failures -/

/-- The failures are those of the one port. -/
structure Behind (s : SerialTransport × List Nat) : Prop where
  port : OnePort s.1
  exchanged : s.2 ≠ [] → ∃ j, (s.1.jobs j).job.exchanges
  behind : ∀ ser, s.1.serial = some ser → ∀ n ∈ s.2, ser < n

/-- Only the exchange of a job fails. -/
theorem exchanges_of_fails {s s' : SerialTransport} {e : Event} (h : OnePort s)
    (he : step s e = some s') (hfails : fails s e s' = true) :
    s'.serial = s.serial ∧ s'.handles = s.handles ∧ ∃ j, (s.jobs j).job.exchanges := by
  cases e with
  | write_failed j e =>
    simp only [step] at he
    split at he
    · rename_i hjob
      cases he
      refine ⟨rfl, rfl, j, ?_⟩
      rw [hjob]
      trivial
    · cases he
  | io_failed j e =>
    simp only [step] at he
    split at he
    · rename_i hplace
      cases he
      refine ⟨rfl, rfl, j, h.stock.exchanging j ?_⟩
      rw [hplace]
      trivial
    · cases he
  | _ => cases hfails

/-- The exchange jobs of the past stay. -/
theorem exchanged_step {s s' : SerialTransport} {e : Event} (h : OnePort s)
    (he : step s e = some s') (hex : ∃ j, (s.jobs j).job.exchanges) :
    ∃ j, (s'.jobs j).job.exchanges := by
  obtain ⟨j, hj⟩ := hex
  have hlt : j < s.submitted := by
    by_contra hnot
    exact h.stock.unsubmitted j (by omega) hj
  have hjobs : (s'.jobs j).job = (s.jobs j).job := by
    cases ports_step he with
    | kept h => exact h.jobs j hlt
    | closed h => exact h.jobs j hlt
    | opened _ _ _ _ _ h => exact h.jobs j hlt
  exact ⟨j, by rw [hjobs]; exact hj⟩

/-- No port is opened behind a failure. -/
theorem Behind.no_failure {s : SerialTransport × List Nat} (h : Behind s) {c j : Nat}
    (hc : (s.1.calls c).place = .waiting j) (hj : (s.1.jobs j).job = .open_port) : s.2 = [] := by
  by_contra hfailed
  obtain ⟨i, hi⟩ := h.exchanged hfailed
  exact h.port.opening c j hc hj i hi

theorem behind_step {s s' : SerialTransport × List Nat} {e : Event} (h : Behind s)
    (he : line.step_noting s e = some s') : Behind s' := by
  obtain ⟨hstep, hnotes⟩ := noting_eq_some.mp he
  refine ⟨onePort_step h.port hstep, ?_, ?_⟩
  · intro hfailed
    apply exchanged_step h.port hstep
    by_cases hold : s.2 = []
    · cases hfails : fails s.1 e s'.1 with
      | true => exact (exchanges_of_fails h.port hstep hfails).2.2
      | false =>
        apply absurd _ hfailed
        simp [hnotes, hold, Line.failure, line, hfails]
    · exact h.exchanged hold
  · intro ser hser n hn
    rw [hnotes] at hn
    rcases List.mem_append.mp hn with hnew | hold
    · simp only [Line.failure, Option.mem_toList] at hnew
      split at hnew
      · rename_i hfails
        cases hnew
        obtain ⟨hserial, hhandles, _⟩ := exchanges_of_fails h.port hstep hfails
        change ser < s'.1.handles
        rw [hhandles]
        rw [hserial] at hser
        exact h.port.stock.opened ser hser
      · cases hnew
    · cases ports_step hstep with
      | kept huses =>
        rw [huses.serial] at hser
        exact h.behind ser hser n hold
      | closed huses =>
        rw [huses.serial] at hser
        cases hser
      | opened c j _ hc hj _ =>
        rw [h.no_failure hc hj] at hold
        cases hold

theorem behind_new (port : String) : Behind (new port, []) := by
  refine ⟨onePort_new port, fun h => absurd rfl h, ?_⟩
  rintro ser ⟨⟩

/-! ## Attempts -/

theorem locked_of_send {s : SerialTransport} {c : Nat}
    (hkind : (s.calls c).kind = .send_and_receive) : s.locked c = s.open_locked c := by
  simp only [SerialTransport.locked, hkind]

theorem step_of_attempt {s : SerialTransport} {e : Event} {c : Nat} (h : attempts s e = some c) :
    (s.calls c).kind = .send_and_receive ∧
      step s e = some ({ s with lock := some c }.open_locked c) := by
  cases e with
  | lock_acquired d =>
    simp only [attempts, Option.ite_none_right_eq_some] at h
    obtain ⟨⟨hplace, hlock, hkind⟩, h⟩ := h
    cases h
    refine ⟨hkind, ?_⟩
    have hlocked : { s with lock := some c }.locked c = { s with lock := some c }.open_locked c :=
      locked_of_send hkind
    rw [← hlocked]
    exact if_pos ⟨hplace, hlock⟩
  | _ => cases h

/-- A `connect` or a `close` that gets the lock begins no exchange. -/
theorem begins_by_send {s : SerialTransport} {c ser : Nat} {frame : Bytes} {timeout_s : String}
    (h : Submits s (s.locked c) (.exchange ser frame timeout_s)) :
    (s.calls c).kind = .send_and_receive := by
  have hnew : ∀ (t : SerialTransport) (job : Job), t.submitted = s.submitted →
      Submits s (t.run_in_executor c job) (.exchange ser frame timeout_s) →
      job = .exchange ser frame timeout_s := by
    rintro t job hsubmitted ⟨_, hjob⟩
    have hself : (t.run_in_executor c job).jobs t.submitted = { job := job, place := .queued } :=
      update_self _ _ _
    rw [← hsubmitted, hself] at hjob
    exact hjob
  have hsame : ∀ t : SerialTransport, t.submitted = s.submitted →
      ¬ Submits s t (.exchange ser frame timeout_s) := by
    rintro t hsubmitted ⟨hmore, _⟩
    omega
  cases hkind : (s.calls c).kind with
  | send_and_receive => rfl
  | close =>
    simp only [SerialTransport.locked, hkind, SerialTransport.close_locked] at h
    split at h
    · cases hnew _ _ rfl h
    · exact absurd h (hsame _ rfl)
  | connect =>
    simp only [SerialTransport.locked, hkind, SerialTransport.open_locked,
      SerialTransport.opened_call] at h
    split at h
    · exact absurd h (hsame _ rfl)
    · split at h
      · exact absurd h (hsame _ rfl)
      · cases hnew _ _ rfl h

theorem submitted_resume_exchange {s s' : SerialTransport} {c ser : Nat} {frame : Bytes}
    {timeout_s : String} {result : Except PyError Result}
    (he : s.resume c (.exchange ser frame timeout_s) result = some s') :
    s'.submitted = s.submitted := by
  rcases result with e | _ | ⟨frame⟩ | _
  · cases he
    rfl
  · cases he
  · cases he
    unfold SerialTransport.check_response
    split
    · rfl
    · split <;> rfl
  · cases he

/-- An exchange begins with an attempt that gets the lock, or has waited for a port. -/
theorem begins_by {s s' : SerialTransport} {e : Event} {ser : Nat} {frame : Bytes}
    {timeout_s : String} (he : step s e = some s')
    (h : Submits s s' (.exchange ser frame timeout_s)) :
    (∃ c, attempts s e = some c) ∨
      ∃ c j, (s.calls c).place = .waiting j ∧ (s.jobs j).job = .open_port := by
  have hsame : s'.submitted ≠ s.submitted := by
    have := h.1
    omega
  cases step_cases he with
  | refused | begun | gave_up | thread => exact absurd rfl hsame
  | locked hplace hlock =>
    rename_i c
    have hkind : (s.calls c).kind = .send_and_receive :=
      begins_by_send (s := { s with lock := some c }) h
    exact Or.inl ⟨c, if_pos ⟨hplace, hlock, hkind⟩⟩
  | resumed hc hj hresume =>
    rename_i c j _
    cases hjob : (s.jobs j).job with
    | open_port => exact Or.inr ⟨c, j, hc, hjob⟩
    | exchange _ _ _ =>
      rw [hjob] at hresume
      exact absurd (submitted_resume_exchange hresume) hsame
    | close_port _ =>
      rw [hjob] at hresume
      cases hresume
      exact absurd rfl hsame
  | left_job hc => exact absurd (submitted_cancel_job s _) hsame

/-- Without a port, a `send_and_receive` that gets the lock has one opened, or is refused. -/
theorem opens_or_refused {s : SerialTransport} {c : Nat} (hconnected : s.connected = false) :
    line.opening (s.open_locked c) c ∨ line.refused (s.open_locked c) c := by
  rw [SerialTransport.open_locked, if_neg (by simp [hconnected])]
  split
  · apply Or.inr
    simp [line, SerialTransport.end_call, SerialTransport.move, SerialTransport.release,
      SerialTransport.set_call]
  · refine Or.inl ⟨s.submitted, ?_, ?_⟩
    · simp [SerialTransport.run_in_executor, SerialTransport.submit, SerialTransport.move,
        SerialTransport.set_call]
    · simp [SerialTransport.run_in_executor, SerialTransport.submit, SerialTransport.move,
        SerialTransport.set_call]

theorem encode_rtu_frame_error {unit_id : Int} {pdu : Bytes} {e : PyError}
    (h : encode_rtu_frame unit_id pdu = .error e) : ∃ message, e = .ValueError message := by
  unfold encode_rtu_frame at h
  split at h
  · cases h
    exact ⟨_, rfl⟩
  · split at h <;> cases h
    exact ⟨_, rfl⟩

theorem place_end_call (s : SerialTransport) (c : Nat) (place : CallAt) :
    ((s.end_call c place).calls c).place = place := by
  change ((s.set_call c _).calls c).place = _
  rw [calls_set_call]

/-- A call that ends so has no port opened, and was not refused. -/
theorem not_opens_of_raised {s : SerialTransport} {c : Nat} {e : PyError}
    (he : e ≠ transport_is_closed) :
    ¬ (line.opening (s.end_call c (.raised e)) c ∨ line.refused (s.end_call c (.raised e)) c) := by
  rintro (⟨j, hj, _⟩ | hrefused)
  · rw [place_end_call] at hj
    cases hj
  · simp only [line, place_end_call] at hrefused
    cases hrefused
    exact he rfl

/-- On an open port it goes on with that, or fails by itself. -/
theorem not_opens_or_refused {s : SerialTransport} {c : Nat}
    (hkind : (s.calls c).kind = .send_and_receive) (hconnected : s.connected = true) :
    ¬ (line.opening (s.open_locked c) c ∨ line.refused (s.open_locked c) c) := by
  rw [SerialTransport.open_locked, if_pos hconnected]
  simp only [SerialTransport.opened_call, hkind, SerialTransport.exchange]
  split
  · exact not_opens_of_raised (by rintro ⟨⟩)
  · rename_i ser _
    split
    · rename_i e he
      obtain ⟨message, rfl⟩ := encode_rtu_frame_error he
      exact not_opens_of_raised (by rintro ⟨⟩)
    · rename_i frame _
      let job : Job := .exchange ser frame (s.calls c).timeout_s
      have hplace : ((s.run_in_executor c job).calls c).place = .waiting s.submitted := by
        change (((s.submit job).set_call c _).calls c).place = _
        rw [calls_set_call]
      have hnew : (s.run_in_executor c job).jobs s.submitted = { job := job, place := .queued } :=
        update_self _ _ _
      rintro (⟨j, hj, hopen⟩ | hrefused)
      · rw [hplace] at hj
        cases hj
        rw [hnew] at hopen
        cases hopen
      · exact absurd (hplace.symm.trans hrefused) (by rintro ⟨⟩)

/-- Behind a failure the port is not a fresh one, so an attempt that gets the lock before the port
is closed breaks the property, and nothing else does. -/
theorem Behind.reconnects_iff {s : SerialTransport × List Nat} (h : Behind s) (e : Event) :
    line.Reconnects s e ↔ NoAttemptAfterFailure s e := by
  constructor
  · intro hr c hc hfailed
    obtain ⟨hkind, hstep⟩ := step_of_attempt hc
    cases hconnected : s.1.connected with
    | false => rfl
    | true =>
      rcases hr.reopens c hc _ hstep with ⟨ser, hser, hfresh⟩ | hopens
      · obtain ⟨n, hn⟩ := List.exists_mem_of_ne_nil _ hfailed
        have := h.behind ser hser n hn
        have := hfresh n hn
        omega
      · exact absurd hopens (not_opens_or_refused hkind hconnected)
  · intro hquiet
    constructor
    · rintro s' he ser ⟨frame, timeout_s, hsubmits⟩
      rcases begins_by he hsubmits with ⟨c, hc⟩ | ⟨c, j, hc, hj⟩
      · by_cases hfailed : s.2 = []
        · rw [hfailed]
          rintro n ⟨⟩
        · -- The attempt has no port, and asks for one.
          cases (step_of_attempt hc).2.symm.trans he
          have hserial : s.1.serial = some ser :=
            (uses_open_locked (t := { s.1 with lock := some c }) rfl rfl rfl c).begins ser frame
              timeout_s hsubmits
          have hlinked := h.port.stock.linked
          rw [hquiet c hc hfailed, hserial] at hlinked
          cases hlinked
      · rw [h.no_failure hc hj]
        rintro n ⟨⟩
    · intro c hc s' he
      obtain ⟨_, hstep⟩ := step_of_attempt hc
      cases hstep.symm.trans he
      cases hconnected : s.1.connected with
      | false => exact Or.inr (opens_or_refused rfl)
      | true =>
        have hfailed : s.2 = [] := by
          by_contra hfailed
          cases (hquiet c hc hfailed).symm.trans hconnected
        obtain ⟨ser, hser⟩ := Option.isSome_iff_exists.mp
          (h.port.stock.linked.symm.trans hconnected)
        refine Or.inl ⟨ser, hser, ?_⟩
        rw [hfailed]
        rintro n ⟨⟩

/-- Whether a port is used again after a failure depends on the attempts alone. -/
theorem always_reconnects_iff (port : String) (es : List Event) :
    line.AlwaysReconnects (new port) es ↔
      Guarded line.step_noting NoAttemptAfterFailure (new port, []) es :=
  guarded_iff_of_invariant (fun _ _ _ => behind_step) (fun _ e h => h.reconnects_iff e)
    (behind_new port) es

end pymod.serial_transport
