-- Who uses the serial bus. The lock belongs to a coroutine and the bus to a thread;
-- the two agree as long as no coroutine leaves its thread behind on the bus.
import Pymod.SerialTransport
import Pymod.Lib.Runs

namespace pymod.serial_transport

open SerialTransport errors codec adu_rtu Readers Function Runs

/-! ## The property and the guard -/

/-- A thread runs `_exchange_blocking`. -/
def Exchanging : JobAt → Prop
  | .exchanging _ => True
  | _ => False

instance : ∀ place : JobAt, Decidable (Exchanging place)
  | .exchanging _ => isTrue trivial
  | .absent | .queued | .busy | .finished _ | .cancelled => isFalse id

def Job.closes : Job → Prop
  | .close_port _ => True
  | _ => False

def Job.exchanges : Job → Prop
  | .exchange _ _ _ => True
  | _ => False

/-- At most one exchange is in progress, and no port is closed meanwhile. -/
structure OneTransaction (s : SerialTransport) : Prop where
  one : ∀ i j, Exchanging (s.jobs i).place → Exchanging (s.jobs j).place → i = j
  undisturbed : ∀ i j, Exchanging (s.jobs i).place → (s.jobs j).job.closes →
    (s.jobs j).place ≠ .busy

def Event.cancels : Event → Option Nat
  | .cancelled c => some c
  | _ => none

def CallAt.job : CallAt → Option Nat
  | .waiting j => some j
  | _ => none

/-- No call is cancelled while a thread runs its exchange. -/
def NoneAbandoned (s : SerialTransport) (e : Event) : Prop :=
  ∀ c ∈ e.cancels, ∀ j ∈ (s.calls c).place.job, ¬ Exchanging (s.jobs j).place

instance (s : SerialTransport) (e : Event) : Decidable (NoneAbandoned s e) :=
  inferInstanceAs (Decidable (∀ c ∈ e.cancels, _))

/-! ## The invariant -/

/-- The job is to run or runs. -/
def Active : JobAt → Prop
  | .queued | .exchanging _ | .busy => True
  | _ => False

theorem active_of_exchanging {place : JobAt} (h : Exchanging place) : Active place := by
  cases place <;> trivial

/-- The jobs and the calls by themselves: threads exchange only for exchange jobs, and only a
`close()` that has set the flag is a call of that kind. -/
structure Sane (s : SerialTransport) : Prop where
  unsubmitted : ∀ j, s.submitted ≤ j → (s.jobs j).place = .absent
  exchanging : ∀ j, Exchanging (s.jobs j).place → (s.jobs j).job.exchanges
  busy : ∀ j, (s.jobs j).place = .busy → ¬ (s.jobs j).job.exchanges
  flagged : ∀ c, (s.calls c).kind = .close → s.closed = true

/-- The call that holds the lock waits for the exchange that is to run or runs. While a port is to
be closed, every call that waits is a `close()`. -/
structure Held (s : SerialTransport) : Prop where
  sane : Sane s
  holder : ∀ c j, (s.calls c).place = .waiting j → s.lock = some c ∧ j < s.submitted
  owned : ∀ j, (s.jobs j).job.exchanges → Active (s.jobs j).place →
    ∃ c, (s.calls c).place = .waiting j
  closing : ∀ j, (s.jobs j).job.closes → Active (s.jobs j).place →
    s.closed = true ∧ s.connected = false ∧
      ∀ c i, (s.calls c).place = .waiting i → (s.jobs i).job.closes

theorem not_exchanges_of_closes {job : Job} (h : job.closes) : ¬ job.exchanges := by
  cases job <;> first | exact id | exact h.elim

theorem Held.one_transaction {s : SerialTransport} (h : Held s) : OneTransaction s := by
  constructor
  · intro i j hi hj
    obtain ⟨c, hc⟩ := h.owned i (h.sane.exchanging i hi) (active_of_exchanging hi)
    obtain ⟨d, hd⟩ := h.owned j (h.sane.exchanging j hj) (active_of_exchanging hj)
    have hcd : some c = some d := (h.holder c i hc).1.symm.trans (h.holder d j hd).1
    cases hcd
    rw [hc] at hd
    cases hd
    rfl
  · intro i j hi hj hbusy
    have hex := h.sane.exchanging i hi
    obtain ⟨c, hc⟩ := h.owned i hex (active_of_exchanging hi)
    have hall := (h.closing j hj (by rw [hbusy]; trivial)).2.2
    exact not_exchanges_of_closes (hall c i hc) hex

/-! ## The holder of the lock -/

/-- The call holds the lock, no other one waits for a job, and no exchange is left. A port that is
to be closed leaves the transport closed for good. -/
structure Alone (s : SerialTransport) (c : Nat) : Prop where
  sane : Sane s
  lock : s.lock = some c
  others : ∀ d j, d ≠ c → (s.calls d).place ≠ .waiting j
  spare : ∀ j, (s.jobs j).job.exchanges → ¬ Active (s.jobs j).place
  closing : ∀ j, (s.jobs j).job.closes → Active (s.jobs j).place →
    s.closed = true ∧ s.connected = false

theorem Sane.set_call {s : SerialTransport} (h : Sane s) {c : Nat} {call : Call}
    (hkind : call.kind = .close → s.closed = true) : Sane (s.set_call c call) := by
  refine ⟨h.unsubmitted, h.exchanging, h.busy, ?_⟩
  intro d hd
  by_cases hdc : d = c
  · subst hdc
    apply hkind
    simpa [SerialTransport.set_call] using hd
  · apply h.flagged d
    simpa [SerialTransport.set_call, update_of_ne hdc] using hd

@[simp] theorem calls_set_call (s : SerialTransport) (c : Nat) (call : Call) :
    (s.set_call c call).calls c = call := by
  simp [SerialTransport.set_call]

theorem calls_set_call_of_ne (s : SerialTransport) {c d : Nat} (call : Call) (h : d ≠ c) :
    (s.set_call c call).calls d = s.calls d := update_of_ne h _ _

/-- The holder of the lock waits for nothing any more. -/
theorem Alone.end_call {s : SerialTransport} {c : Nat} (h : Alone s c) {place : CallAt}
    (hplace : ∀ j, place ≠ .waiting j) : Held (s.end_call c place) := by
  have hno : ∀ d j, ((s.end_call c place).calls d).place ≠ .waiting j := by
    intro d j
    by_cases hdc : d = c
    · subst hdc
      change ((s.set_call d _).calls d).place ≠ _
      rw [calls_set_call]
      exact hplace j
    · change ((s.set_call c _).calls d).place ≠ _
      rw [calls_set_call_of_ne s _ hdc]
      exact h.others d j hdc
  have hsane : Sane (s.move c place) := h.sane.set_call fun hk => h.sane.flagged c hk
  refine ⟨⟨hsane.unsubmitted, hsane.exchanging, hsane.busy, hsane.flagged⟩, ?_, ?_, ?_⟩
  · intro d j hd
    exact absurd hd (hno d j)
  · intro j hj hact
    exact absurd hact (h.spare j hj)
  · intro j hj hact
    obtain ⟨hclosed, hconn⟩ := h.closing j hj hact
    exact ⟨hclosed, hconn, fun d i hd => absurd hd (hno d i)⟩

/-- The holder of the lock hands a job to the executor. -/
theorem Alone.run_in_executor {s : SerialTransport} {c : Nat} (h : Alone s c) {job : Job}
    (hopen : ¬ job.closes → s.closed = true → s.connected = true)
    (hclose : job.closes → s.closed = true ∧ s.connected = false) :
    Held (s.run_in_executor c job) := by
  have hnew : (s.run_in_executor c job).jobs s.submitted = { job := job, place := .queued } :=
    update_self _ _ _
  have hold : ∀ j, j ≠ s.submitted → (s.run_in_executor c job).jobs j = s.jobs j := fun j hj =>
    update_of_ne hj _ _
  have hplace : ∀ d j, ((s.run_in_executor c job).calls d).place = .waiting j →
      d = c ∧ j = s.submitted := by
    intro d j hd
    by_cases hdc : d = c
    · subst hdc
      change (((s.submit job).set_call d _).calls d).place = _ at hd
      rw [calls_set_call] at hd
      cases hd
      exact ⟨rfl, rfl⟩
    · change (((s.submit job).set_call c _).calls d).place = _ at hd
      rw [calls_set_call_of_ne _ _ hdc] at hd
      exact absurd hd (h.others d j hdc)
  have hself : ((s.run_in_executor c job).calls c).place = .waiting s.submitted := by
    change (((s.submit job).set_call c _).calls c).place = _
    rw [calls_set_call]
  have hsane : Sane (s.submit job) := by
    refine ⟨?_, ?_, ?_, h.sane.flagged⟩
    · intro j hj
      have hlt : s.submitted < j := hj
      change ((s.run_in_executor c job).jobs j).place = .absent
      rw [hold j (by omega)]
      exact h.sane.unsubmitted j (by omega)
    · intro j hj
      change Exchanging ((s.run_in_executor c job).jobs j).place at hj
      change ((s.run_in_executor c job).jobs j).job.exchanges
      by_cases hjs : j = s.submitted
      · rw [hjs, hnew] at hj
        exact hj.elim
      · rw [hold j hjs] at hj ⊢
        exact h.sane.exchanging j hj
    · intro j hj
      change ((s.run_in_executor c job).jobs j).place = .busy at hj
      change ¬ ((s.run_in_executor c job).jobs j).job.exchanges
      by_cases hjs : j = s.submitted
      · rw [hjs, hnew] at hj
        cases hj
      · rw [hold j hjs] at hj ⊢
        exact h.sane.busy j hj
  refine ⟨hsane.set_call fun hk => h.sane.flagged c hk, ?_, ?_, ?_⟩
  · intro d j hd
    obtain ⟨rfl, rfl⟩ := hplace d j hd
    exact ⟨h.lock, Nat.lt_succ_self _⟩
  · intro j hj hact
    by_cases hjs : j = s.submitted
    · exact ⟨c, hjs ▸ hself⟩
    · rw [hold j hjs] at hj hact
      exact absurd hact (h.spare j hj)
  · intro j hj hact
    have hclosing : s.closed = true ∧ s.connected = false := by
      by_cases hjs : j = s.submitted
      · rw [hjs, hnew] at hj
        exact hclose hj
      · rw [hold j hjs] at hj hact
        exact h.closing j hj hact
    refine ⟨hclosing.1, hclosing.2, ?_⟩
    intro d i hd
    obtain ⟨-, rfl⟩ := hplace d i hd
    rw [hnew]
    by_contra hjob
    have := hopen hjob hclosing.1
    rw [hclosing.2] at this
    cases this

/-! ## The functions of the transport -/

theorem Alone.exchange {s : SerialTransport} {c : Nat} (h : Alone s c)
    (hconn : s.connected = true) : Held (s.exchange c) := by
  unfold SerialTransport.exchange
  split
  · exact h.end_call (by rintro j ⟨⟩)
  · split
    · exact h.end_call (by rintro j ⟨⟩)
    · apply h.run_in_executor
      · exact fun _ _ => hconn
      · exact fun hc => hc.elim

theorem Alone.opened_call {s : SerialTransport} {c : Nat} (h : Alone s c)
    (hconn : s.connected = true) : Held (s.opened_call c) := by
  unfold SerialTransport.opened_call
  split
  · exact h.exchange hconn
  · exact h.end_call (by rintro j ⟨⟩)

theorem Alone.open_locked {s : SerialTransport} {c : Nat} (h : Alone s c) :
    Held (s.open_locked c) := by
  unfold SerialTransport.open_locked
  split
  · exact h.opened_call ‹_›
  · split
    · exact h.end_call (by rintro j ⟨⟩)
    · rename_i hclosed
      apply h.run_in_executor
      · exact fun _ hc => absurd hc hclosed
      · exact fun hc => hc.elim

theorem Alone.disconnect {s : SerialTransport} {c : Nat} (h : Alone s c) :
    Alone s.disconnect c :=
  ⟨⟨h.sane.unsubmitted, h.sane.exchanging, h.sane.busy, h.sane.flagged⟩, h.lock, h.others, h.spare,
    fun j hj hact => ⟨(h.closing j hj hact).1, rfl⟩⟩

theorem Alone.close_locked {s : SerialTransport} {c : Nat} (h : Alone s c)
    (hclosed : s.closed = true) : Held (s.close_locked c) := by
  unfold SerialTransport.close_locked
  split
  · apply h.disconnect.run_in_executor
    · exact fun hc => absurd trivial hc
    · exact fun _ => ⟨hclosed, rfl⟩
  · exact h.disconnect.end_call (by rintro j ⟨⟩)

theorem Alone.locked {s : SerialTransport} {c : Nat} (h : Alone s c) : Held (s.locked c) := by
  unfold SerialTransport.locked
  split
  · rename_i hkind
    exact h.close_locked (h.sane.flagged c hkind)
  · exact h.open_locked

theorem Alone.check_response {s : SerialTransport} {c : Nat} (h : Alone s c) (frame : Bytes) :
    Held (s.check_response c frame) := by
  unfold SerialTransport.check_response
  split
  · exact h.end_call (by rintro j ⟨⟩)
  · split <;> exact h.end_call (by rintro j ⟨⟩)

/-- The port was opened by the call that waited for that, so none is to be closed. -/
theorem Alone.install {s : SerialTransport} {c : Nat} (h : Alone s c) (ser : Nat)
    (hno : ∀ j, (s.jobs j).job.closes → ¬ Active (s.jobs j).place) : Alone (s.install ser) c :=
  ⟨⟨h.sane.unsubmitted, h.sane.exchanging, h.sane.busy, h.sane.flagged⟩, h.lock, h.others, h.spare,
    fun j hj hact => absurd hact (hno j hj)⟩

/-- The call that waits for a job that is over is the only one that waits. -/
theorem Held.alone {s : SerialTransport} (h : Held s) {c j : Nat}
    (hc : (s.calls c).place = .waiting j)
    (hj : (s.jobs j).job.exchanges → ¬ Active (s.jobs j).place) : Alone s c := by
  have hlock := (h.holder c j hc).1
  have hothers : ∀ d i, d ≠ c → (s.calls d).place ≠ .waiting i := by
    intro d i hd hi
    have hlock' := (h.holder d i hi).1
    rw [hlock] at hlock'
    cases hlock'
    exact hd rfl
  refine ⟨h.sane, hlock, hothers, ?_, ?_⟩
  · intro i hex hact
    obtain ⟨d, hd⟩ := h.owned i hex hact
    by_cases hdc : d = c
    · subst hdc
      rw [hc] at hd
      cases hd
      exact hj hex hact
    · exact hothers d i hdc hd
  · intro i hi hact
    obtain ⟨h1, h2, -⟩ := h.closing i hi hact
    exact ⟨h1, h2⟩

theorem Held.resume {s s' : SerialTransport} (h : Held s) {c j : Nat}
    (hc : (s.calls c).place = .waiting j) {result : Except PyError Result}
    (hj : (s.jobs j).place = .finished result)
    (he : s.resume c (s.jobs j).job result = some s') : Held s' := by
  have halone : Alone s c := h.alone hc fun _ => by
    rw [hj]
    exact id
  cases hjob : (s.jobs j).job with
  | open_port =>
    rw [hjob] at he
    rcases result with e | ⟨ser⟩ | _ | _
    · cases he
      exact halone.end_call (by rintro i ⟨⟩)
    · cases he
      apply (halone.install ser _).opened_call rfl
      intro i hi hact
      have hwaits := (h.closing i hi hact).2.2 c j hc
      rw [hjob] at hwaits
      exact hwaits
    · cases he
    · cases he
  | exchange ser frame timeout_s =>
    rw [hjob] at he
    rcases result with e | _ | ⟨frame⟩ | _
    · cases he
      exact halone.end_call (by rintro i ⟨⟩)
    · cases he
    · cases he
      exact halone.check_response frame
    · cases he
  | close_port ser =>
    rw [hjob] at he
    cases he
    exact halone.end_call (by rintro i ⟨⟩)

/-! ## Steps of the others -/

/-- A call that waits for no job goes on without the lock. -/
theorem Held.outside {s : SerialTransport} (h : Held s) {c : Nat} {call : Call}
    (hold : ∀ j, (s.calls c).place ≠ .waiting j) (hnew : ∀ j, call.place ≠ .waiting j)
    (hkind : call.kind = .close → s.closed = true) : Held (s.set_call c call) := by
  have hplace : ∀ d j, ((s.set_call c call).calls d).place = .waiting j ↔
      (s.calls d).place = .waiting j := by
    intro d j
    by_cases hdc : d = c
    · subst hdc
      rw [calls_set_call]
      exact iff_of_false (hnew j) (hold j)
    · rw [calls_set_call_of_ne s _ hdc]
  refine ⟨h.sane.set_call hkind, ?_, ?_, ?_⟩
  · intro d j hd
    exact h.holder d j ((hplace d j).mp hd)
  · intro j hj hact
    obtain ⟨d, hd⟩ := h.owned j hj hact
    exact ⟨d, (hplace d j).mpr hd⟩
  · intro j hj hact
    obtain ⟨h1, h2, h3⟩ := h.closing j hj hact
    exact ⟨h1, h2, fun d i hd => h3 d i ((hplace d i).mp hd)⟩

theorem Held.release {s : SerialTransport} (h : Held s) {c : Nat}
    (hc : ∀ j, (s.calls c).place ≠ .waiting j) : Held (s.release c) := by
  refine ⟨⟨h.sane.unsubmitted, h.sane.exchanging, h.sane.busy, h.sane.flagged⟩, ?_, h.owned, h.closing⟩
  intro d j hd
  obtain ⟨hlock, hlt⟩ := h.holder d j hd
  refine ⟨?_, hlt⟩
  have hdc : d ≠ c := by
    rintro rfl
    exact hc j hd
  simp only [SerialTransport.release, hlock]
  rw [if_neg (by simpa using hdc)]

theorem Held.end_outside {s : SerialTransport} (h : Held s) {c : Nat} {place : CallAt}
    (hold : ∀ j, (s.calls c).place ≠ .waiting j) (hnew : ∀ j, place ≠ .waiting j) :
    Held (s.end_call c place) := by
  have hmove : Held (s.move c place) := h.outside hold hnew (h.sane.flagged c)
  apply hmove.release
  intro j
  change ((s.set_call c _).calls c).place ≠ _
  rw [calls_set_call]
  exact hnew j

/-- A job comes to another place, and is not active again. -/
theorem Held.set_job {s : SerialTransport} (h : Held s) {j : Nat} {place : JobAt}
    (hact : Active place → Active (s.jobs j).place)
    (hex : Exchanging place → (s.jobs j).job.exchanges)
    (hbusy : place = .busy → ¬ (s.jobs j).job.exchanges)
    (habs : (s.jobs j).place ≠ .absent) : Held (s.set_job j place) := by
  have hself : (s.set_job j place).jobs j = { s.jobs j with place := place } := update_self _ _ _
  have hother : ∀ i, i ≠ j → (s.set_job j place).jobs i = s.jobs i := fun i hi =>
    update_of_ne hi _ _
  have hjob : ∀ i, ((s.set_job j place).jobs i).job = (s.jobs i).job := by
    intro i
    by_cases hij : i = j
    · rw [hij, hself]
    · rw [hother i hij]
  have hactive : ∀ i, Active ((s.set_job j place).jobs i).place → Active (s.jobs i).place := by
    intro i hi
    by_cases hij : i = j
    · rw [hij, hself] at hi
      rw [hij]
      exact hact hi
    · rw [hother i hij] at hi
      exact hi
  refine ⟨⟨?_, ?_, ?_, h.sane.flagged⟩, h.holder, ?_, ?_⟩
  · intro i hi
    have hij : i ≠ j := by
      rintro rfl
      exact habs (h.sane.unsubmitted i hi)
    rw [hother i hij]
    exact h.sane.unsubmitted i hi
  · intro i hi
    rw [hjob]
    by_cases hij : i = j
    · rw [hij, hself] at hi
      rw [hij]
      exact hex hi
    · rw [hother i hij] at hi
      exact h.sane.exchanging i hi
  · intro i hi
    rw [hjob]
    by_cases hij : i = j
    · rw [hij, hself] at hi
      rw [hij]
      exact hbusy hi
    · rw [hother i hij] at hi
      exact h.sane.busy i hi
  · intro i hi hai
    rw [hjob] at hi
    exact h.owned i hi (hactive i hai)
  · intro i hi hai
    rw [hjob] at hi
    obtain ⟨h1, h2, h3⟩ := h.closing i hi (hactive i hai)
    refine ⟨h1, h2, fun d k hd => ?_⟩
    rw [hjob]
    exact h3 d k hd

/-- A call that is cancelled leaves no exchange behind, when no thread runs it. -/
theorem Held.cancel_job {s : SerialTransport} (h : Held s) {c j : Nat}
    (hc : (s.calls c).place = .waiting j) (hrun : ¬ Exchanging (s.jobs j).place) :
    Alone (s.cancel_job j) c := by
  unfold SerialTransport.cancel_job
  split
  · rename_i hplace
    have hs : Held (s.set_job j .cancelled) := by
      apply h.set_job
      · exact fun hact => hact.elim
      · exact fun hex => hex.elim
      · rintro ⟨⟩
      · rw [hplace]
        rintro ⟨⟩
    apply hs.alone hc
    intro _
    simp [SerialTransport.set_job, Active]
  · rename_i hqueued
    apply h.alone hc
    intro hex hact
    cases hplace : (s.jobs j).place with
    | queued => exact hqueued hplace
    | exchanging at_ =>
      rw [hplace] at hrun
      exact hrun trivial
    | busy => exact h.sane.busy j hplace hex
    | _ => rw [hplace] at hact; exact hact

theorem Held.start_call {s : SerialTransport} (h : Held s) {c : Nat} {call : Call}
    (habs : (s.calls c).place = .absent) (hplace : call.place = .absent)
    (hkind : call.kind = .close → s.closed = true) : Held (s.set_call c call) := by
  apply h.outside
  · rw [habs]
    rintro j ⟨⟩
  · rw [hplace]
    rintro j ⟨⟩
  · exact hkind

theorem Held.wait_lock {s : SerialTransport} (h : Held s) {c : Nat}
    (habs : (s.calls c).place = .absent) : Held (s.move c .lock) := by
  apply h.outside
  · rw [habs]
    rintro j ⟨⟩
  · rintro j ⟨⟩
  · exact h.sane.flagged c

/-- Whoever gets the lock is alone: a thread that still ran would be waited for under it. -/
theorem Held.lock_acquired {s : SerialTransport} (h : Held s) (hfree : s.lock = none) (c : Nat) :
    Alone { s with lock := some c } c := by
  have hno : ∀ d j, (s.calls d).place ≠ .waiting j := by
    intro d j hd
    have := (h.holder d j hd).1
    rw [hfree] at this
    cases this
  refine ⟨⟨h.sane.unsubmitted, h.sane.exchanging, h.sane.busy, h.sane.flagged⟩, rfl,
    fun d j _ => hno d j, ?_, ?_⟩
  · intro j hj hact
    obtain ⟨d, hd⟩ := h.owned j hj hact
    exact hno d j hd
  · intro j hj hact
    obtain ⟨h1, h2, -⟩ := h.closing j hj hact
    exact ⟨h1, h2⟩

/-! ## Steps of the threads -/

/-- The job whose thread makes the step. -/
def Event.thread : Event → Option Nat
  | .job_started j | .gap_over j | .written j | .write_failed j _ | .read j _ | .deadline_reached j
  | .io_failed j _ | .port_opened j | .port_failed j _ | .port_closed j => some j
  | .start_connect _ | .start_send _ _ _ _ | .start_close _ | .lock_acquired _ | .resumed _
  | .cancelled _ => none

/-- How far a step of its thread takes a job. Only the start leads to the gap, and a port that is
opened has a number of its own. -/
structure Advances (s : SerialTransport) (e : Event) (j : Nat) (place : JobAt) (handles : Nat) :
    Prop where
  active : Active (s.jobs j).place
  exchanging : Exchanging place → Exchanging (s.jobs j).place ∨ (s.jobs j).job.exchanges
  busy : place = .busy → ¬ (s.jobs j).job.exchanges
  gap : place = .exchanging .gap → e = .job_started j
  opened : s.handles ≤ handles
  handle : ∀ ser, place = .finished (.ok (.handle ser)) → ser < handles

/-- The thread of an exchange goes on with it, or comes to its end. -/
theorem advances_exchange {s : SerialTransport} {e : Event} {j : Nat} {at_ : ExchangeAt}
    {place : JobAt} (hplace : (s.jobs j).place = .exchanging at_) (hbusy : place ≠ .busy)
    (hgap : place ≠ .exchanging .gap) (hhandle : ∀ ser, place ≠ .finished (.ok (.handle ser))) :
    Advances s e j place s.handles where
  active := by rw [hplace]; trivial
  exchanging _ := Or.inl (by rw [hplace]; trivial)
  busy h := absurd h hbusy
  gap h := absurd h hgap
  opened := Nat.le_refl _
  handle ser h := absurd h (hhandle ser)

/-- The thread of an open or a close comes to its end. -/
theorem advances_busy {s : SerialTransport} {e : Event} {j handles : Nat}
    {result : Except PyError Result} (hplace : (s.jobs j).place = .busy)
    (hopened : s.handles ≤ handles) (hhandle : ∀ ser, result = .ok (.handle ser) → ser < handles) :
    Advances s e j (.finished result) handles where
  active := by rw [hplace]; trivial
  exchanging h := h.elim
  busy := by rintro ⟨⟩
  gap := by rintro ⟨⟩
  opened := hopened
  handle := by
    rintro ser ⟨⟩
    exact hhandle ser rfl

/-- A step of a thread is about its own job. -/
theorem step_of_thread {s s' : SerialTransport} {e : Event} {j : Nat} (hthread : e.thread = some j)
    (he : step s e = some s') :
    ∃ place written handles, s' = { s.set_job j place with written, handles } ∧
      Advances s e j place handles := by
  cases e with
  | job_started i =>
    cases hthread
    simp only [step] at he
    split at he
    · rename_i hplace hjob
      cases he
      refine ⟨_, _, _, rfl, ?_, fun _ => Or.inr ?_, by rintro ⟨⟩, fun _ => rfl, Nat.le_refl _,
        by rintro ser ⟨⟩⟩
      · rw [hplace]
        trivial
      · rw [hjob]
        trivial
    · rename_i hplace hnot
      cases he
      refine ⟨_, _, _, rfl, ?_, fun h => h.elim, ?_, by rintro ⟨⟩, Nat.le_refl _, by rintro ser ⟨⟩⟩
      · rw [hplace]
        trivial
      · intro _ hx
        cases hjob : (s.jobs j).job with
        | exchange ser frame timeout_s => exact hnot ser frame timeout_s hjob
        | _ => rw [hjob] at hx; exact hx
    · cases he
  | gap_over i | written i | write_failed i e | deadline_reached i | io_failed i e =>
    cases hthread
    simp only [step] at he
    split at he <;> cases he
    exact ⟨_, _, _, rfl, advances_exchange ‹_› (by rintro ⟨⟩) (by rintro ⟨⟩) (by rintro ser ⟨⟩)⟩
  | read i data =>
    cases hthread
    simp only [step] at he
    split at he
    · rename_i hplace
      simp only [Option.ite_none_right_eq_some] at he
      obtain ⟨_, he⟩ := he
      cases he
      unfold SerialTransport.read
      split
      · exact ⟨_, _, _, rfl, advances_exchange hplace (by rintro ⟨⟩) (by rintro ⟨⟩)
          (by rintro ser ⟨⟩)⟩
      · unfold SerialTransport.resume_reading
        split <;> exact ⟨_, _, _, rfl, advances_exchange hplace (by rintro ⟨⟩) (by rintro ⟨⟩)
          (by rintro ser ⟨⟩)⟩
    · cases he
  | port_opened i =>
    cases hthread
    simp only [step] at he
    split at he <;> cases he
    refine ⟨_, _, _, rfl, advances_busy ‹_› (Nat.le_succ _) ?_⟩
    rintro ser ⟨⟩
    exact Nat.lt_succ_self _
  | port_failed i e | port_closed i =>
    cases hthread
    simp only [step] at he
    split at he <;> cases he
    exact ⟨_, _, _, rfl, advances_busy ‹_› (Nat.le_refl _) (by rintro ser ⟨⟩)⟩
  | _ => cases hthread

/-! ## The step -/

/-- What a step comes to: a call starts, and is refused or goes for the lock; the holder of the lock
goes on; a call is cancelled; or a thread goes on with its job. -/
inductive Steps (s : SerialTransport) : Event → SerialTransport → Prop
  | refused {e : Event} {c : Nat} {call : Call} {error : PyError}
      (habs : (s.calls c).place = .absent) (hplace : call.place = .absent)
      (hkind : call.kind ≠ .close) : Steps s e ((s.set_call c call).end_call c (.raised error))
  | begun {e : Event} {c : Nat} {call : Call} {closed : Bool}
      (habs : (s.calls c).place = .absent) (hplace : call.place = .absent)
      (hclosed : s.closed = true → closed = true) (hkind : call.kind = .close → closed = true) :
      Steps s e (({ s with closed }.set_call c call).move c .lock)
  | locked {c : Nat} (hplace : (s.calls c).place = .lock) (hlock : s.lock = none) :
      Steps s (.lock_acquired c) ({ s with lock := some c }.locked c)
  | resumed {s' : SerialTransport} {c j : Nat} {result : Except PyError Result}
      (hc : (s.calls c).place = .waiting j) (hj : (s.jobs j).place = .finished result)
      (hresume : s.resume c (s.jobs j).job result = some s') : Steps s (.resumed c) s'
  | gave_up {c : Nat} (hc : (s.calls c).place = .lock) :
      Steps s (.cancelled c) (s.end_call c (.raised .CancelledError))
  | left_job {c j : Nat} (hc : (s.calls c).place = .waiting j) :
      Steps s (.cancelled c) ((s.cancel_job j).end_call c (.raised .CancelledError))
  | thread {e : Event} {j : Nat} {place : JobAt} {written : List (Nat × Bytes)} {handles : Nat}
      (ha : Advances s e j place handles) :
      Steps s e { s.set_job j place with written, handles }

theorem step_cases {s s' : SerialTransport} {e : Event} (he : step s e = some s') :
    Steps s e s' := by
  cases hthread : e.thread with
  | some j =>
    obtain ⟨place, written, handles, rfl, ha⟩ := step_of_thread hthread he
    exact .thread ha
  | none =>
    cases e with
    | start_connect c =>
      simp only [step, Option.ite_none_right_eq_some] at he
      obtain ⟨habs, he⟩ := he
      split at he <;> cases he
      · exact .refused habs rfl (by rintro ⟨⟩)
      · exact .begun habs rfl id (by rintro ⟨⟩)
    | start_send c pdu unit_id timeout_s =>
      simp only [step, Option.ite_none_right_eq_some] at he
      obtain ⟨habs, he⟩ := he
      split at he
      · cases he
        exact .refused habs rfl (by rintro ⟨⟩)
      · split at he <;> cases he
        · exact .refused habs rfl (by rintro ⟨⟩)
        · exact .begun habs rfl id (by rintro ⟨⟩)
    | start_close c =>
      simp only [step, Option.ite_none_right_eq_some] at he
      obtain ⟨habs, he⟩ := he
      cases he
      exact .begun habs rfl (fun _ => rfl) (fun _ => rfl)
    | lock_acquired c =>
      simp only [step, Option.ite_none_right_eq_some] at he
      obtain ⟨⟨hplace, hfree⟩, he⟩ := he
      cases he
      exact .locked hplace hfree
    | resumed c =>
      simp only [step] at he
      split at he
      · split at he
        · exact .resumed ‹_› ‹_› he
        · cases he
      · cases he
    | cancelled c =>
      simp only [step, cancel_call] at he
      split at he
      · cases he
        exact .gave_up ‹_›
      · cases he
        exact .left_job ‹_›
      · cases he
      · cases he
      · cases he
    | _ => cases hthread

/-- A step of a thread keeps the invariant. -/
theorem Held.advance {s : SerialTransport} (h : Held s) {e : Event} {j : Nat} {place : JobAt}
    {written : List (Nat × Bytes)} {handles : Nat} (ha : Advances s e j place handles) :
    Held { s.set_job j place with written, handles } := by
  have hs : Held (s.set_job j place) := by
    apply h.set_job
    · exact fun _ => ha.active
    · exact fun hex => (ha.exchanging hex).elim (h.sane.exchanging j) id
    · exact ha.busy
    · intro habs
      have hact := ha.active
      rw [habs] at hact
      exact hact
  exact ⟨⟨hs.sane.unsubmitted, hs.sane.exchanging, hs.sane.busy, hs.sane.flagged⟩, hs.holder,
    hs.owned, hs.closing⟩

/-- The flag of a `close()` disturbs nobody. -/
theorem Held.set_closed {s : SerialTransport} (h : Held s) {closed : Bool}
    (hclosed : s.closed = true → closed = true) : Held { s with closed } :=
  ⟨⟨h.sane.unsubmitted, h.sane.exchanging, h.sane.busy, fun c hc => hclosed (h.sane.flagged c hc)⟩,
    h.holder, h.owned, fun j hj hact =>
      ⟨hclosed (h.closing j hj hact).1, (h.closing j hj hact).2⟩⟩

theorem held_step {s s' : SerialTransport} {e : Event} (h : Held s) (hg : NoneAbandoned s e)
    (he : step s e = some s') : Held s' := by
  cases step_cases he with
  | refused habs hplace hkind =>
    have hs := h.start_call habs hplace fun hk => absurd hk hkind
    exact hs.end_outside (by simp [hplace]) (by rintro j ⟨⟩)
  | begun habs hplace hclosed hkind =>
    have hs := (h.set_closed hclosed).start_call habs hplace hkind
    exact hs.wait_lock (by simp [hplace])
  | locked hplace hlock => exact (h.lock_acquired hlock _).locked
  | resumed hc hj hresume => exact h.resume hc hj hresume
  | gave_up hc =>
    apply h.end_outside
    · rw [hc]
      rintro j ⟨⟩
    · rintro j ⟨⟩
  | left_job hc =>
    have hrun := hg _ rfl _ (by rw [hc]; rfl)
    exact (h.cancel_job hc hrun).end_call (by rintro i ⟨⟩)
  | thread ha => exact h.advance ha

theorem held_new (port : String) : Held (new port) := by
  refine ⟨⟨fun _ _ => rfl, ?_, ?_, ?_⟩, ?_, ?_, ?_⟩
  · rintro j ⟨⟩
  · rintro j ⟨⟩
  · rintro c ⟨⟩
  · rintro c j ⟨⟩
  · rintro j ⟨⟩
  · rintro j ⟨⟩

/-! ## The law -/

/-- In every run in which no call abandons the exchange that a thread runs for it, the bus sees one
transaction at a time. -/
theorem the_bus_sees_one_transaction (port : String) {es : List Event}
    (hg : Guarded step NoneAbandoned (new port) es) : Always step OneTransaction (new port) es :=
  always_of_guarded (fun _ _ _ => held_step) (fun _ => Held.one_transaction) (held_new port) hg

/-- Two calls want the bus. The first one opens the port, and its exchange is started. -/
def two_callers : List Event :=
  [.start_send 0 [3, 0, 0, 0, 1] 1 "1.0", .start_send 1 [3, 0, 9, 0, 1] 1 "1.0", .lock_acquired 0,
    .job_started 0, .port_opened 0, .resumed 0, .job_started 1, .gap_over 1, .written 1]

/-- The first call has its response before the second one writes its request. -/
def one_by_one : List Event :=
  two_callers ++ [.read 1 [1, 3], .read 1 [2], .read 1 ((rtu_frame 1 [3, 2, 0, 7]).drop 3),
    .resumed 0, .lock_acquired 1, .job_started 2, .gap_over 2, .written 2]

theorem two_callers_take_turns :
    ∃ s, run step (new "COM3") one_by_one = some s ∧
      (s.calls 0).place = .returned (some [3, 2, 0, 7]) ∧ Exchanging (s.jobs 2).place ∧
      Always step OneTransaction (new "COM3") one_by_one :=
  ⟨_, rfl, rfl, trivial, the_bus_sees_one_transaction "COM3"
    (show Guarded step _ _ one_by_one by decide +kernel)⟩

/-- The first call is cancelled while its thread reads the response: it lets go of the lock, and
the second call starts an exchange on the same port. -/
theorem two_exchanges_are_in_progress :
    ∃ s, run step (new "COM3") (two_callers ++
        [.cancelled 0, .lock_acquired 1, .job_started 2, .gap_over 2, .written 2]) = some s ∧
      Exchanging (s.jobs 1).place ∧ Exchanging (s.jobs 2).place ∧
      s.written = [(0, rtu_frame 1 [3, 0, 0, 0, 1]), (0, rtu_frame 1 [3, 0, 9, 0, 1])] ∧
      ¬ OneTransaction s := by
  refine ⟨_, rfl, trivial, trivial, rfl, ?_⟩
  intro h
  cases h.one 1 2 trivial trivial

/-- A `close()` closes the port on which the thread of a cancelled call still reads. -/
theorem a_port_is_closed_under_an_exchange :
    ∃ s, run step (new "COM3") (two_callers ++
        [.cancelled 0, .start_close 2, .lock_acquired 2, .job_started 2]) = some s ∧
      (s.jobs 2).job = .close_port 0 ∧ ¬ OneTransaction s := by
  refine ⟨_, rfl, rfl, ?_⟩
  intro h
  exact h.undisturbed 1 2 trivial trivial rfl

end pymod.serial_transport
