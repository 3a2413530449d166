-- The inter-frame gap of `SerialTransport`: the transport with a clock. The gap is measured from
-- `_last_op_monotonic`, which only an exchange with a response sets.
import Pymod.SerialBus
import Mathlib.Algebra.Order.Field.Rat
import Mathlib.Tactic.Linarith

namespace pymod.serial_transport

open SerialTransport errors codec adu_rtu Readers Function Runs

/-! ## The gap of a transport -/

def MIN_FRAME_GAP_S : ℚ := 175 / 100000

/-- `int(round(x))`, where a half goes to the even neighbour. -/
def round_half_even (x : ℚ) : Int :=
  let below := x.floor
  if x - below < 1 / 2 then below
  else if 1 / 2 < x - below then below + 1
  else if below % 2 = 0 then below
  else below + 1

def bits_per_char (bytesize : Int) (parity : String) (stopbits : ℚ) : Int :=
  let parity_bits := if parity.toUpper = "N" then 0 else 1
  1 + bytesize + parity_bits + round_half_even stopbits

/-- The settings of a transport that its gap depends on. -/
structure Settings where
  baudrate : Int := 9600
  bytesize : Int := 8
  parity : String := "N"
  stopbits : ℚ := 1
  inter_frame_delay_s : Option ℚ := none

def Settings.frame_gap_s (self : Settings) : Except PyError ℚ :=
  match self.inter_frame_delay_s with
  | some delay => .ok delay
  | none =>
    if self.baudrate = 0 then .error (.Exception "ZeroDivisionError" "float division by zero")
    else .ok (max (7 / 2 * bits_per_char self.bytesize self.parity self.stopbits / self.baudrate)
      MIN_FRAME_GAP_S)

/-! ## The transport on the clock -/

/-- `wake j` is the time that the sleep of the job `j` lasts to, at least. The last two fields are
there for the statements: when the last byte was written to the port or read from it, and the
start of each `ser.write`, with the last byte before it. -/
structure TimedTransport where
  bus : SerialTransport
  frame_gap_s : ℚ
  now : ℚ
  last_op_monotonic : ℚ := 0
  wake : Nat → ℚ := fun _ => 0
  last_byte : Option ℚ := none
  writes : List (ℚ × Option ℚ) := []

/-- An event, what `time.monotonic()` says when it is over, and when the last byte moved in it. -/
structure TimedEvent where
  event : Event
  time : ℚ
  byte : Option ℚ := none

/-- Whether bytes may move in the event, or do. -/
def Event.moves : Event → Option ℚ → Bool
  | .written _, byte => byte.isSome
  | .read _ data, byte => byte.isSome == !data.isEmpty
  | .write_failed _ _, _ | .io_failed _ _, _ => true
  | _, byte => byte.isNone

def latest : Option ℚ → Option ℚ → Option ℚ
  | byte, none => byte
  | none, some byte => some byte
  | some byte, some byte' => some (max byte byte')

@[simp] theorem latest_none (byte : Option ℚ) : latest byte none = byte := by
  cases byte <;> rfl

namespace TimedTransport

/-- `SerialTransport(port, …)`, at the time `now` -/
def new (port : String) (settings : Settings) (now : ℚ) : Except PyError TimedTransport := do
  let frame_gap_s ← settings.frame_gap_s
  pure { bus := .new port, frame_gap_s, now }

variable (s : TimedTransport)

/-- Where the sleep ends when `_exchange_blocking` begins at the time `t`. -/
def sleeps_until (t : ℚ) : ℚ :=
  let elapsed := t - s.last_op_monotonic
  if elapsed < s.frame_gap_s then t + (s.frame_gap_s - elapsed) else t

/-- What the thread of the event does with the time. -/
def on_time (e : TimedEvent) : Option TimedTransport :=
  match e.event with
  | .job_started j => some { s with wake := update s.wake j (s.sleeps_until e.time) }
  | .gap_over j =>
    if s.wake j ≤ e.time then some { s with writes := s.writes ++ [(e.time, s.last_byte)] }
    else none
  | .read j _ =>
    match (s.bus.jobs j).place with
    | .finished (.ok _) => some { s with last_op_monotonic := e.time }
    | _ => some s
  | _ => some s

/-- The event is over: the bus is in the next state. -/
def after (e : TimedEvent) (bus : SerialTransport) : TimedTransport :=
  { s with bus := bus, now := e.time, last_byte := latest s.last_byte e.byte }

/-- The clock never goes back. -/
def Possible (e : TimedEvent) : Prop :=
  s.now ≤ e.time ∧ (∀ byte ∈ e.byte, byte ≤ e.time) ∧ e.event.moves e.byte = true

instance (e : TimedEvent) : Decidable (s.Possible e) := inferInstanceAs (Decidable (_ ∧ _))

end TimedTransport

open TimedTransport

def clock_step (s : TimedTransport) (e : TimedEvent) : Option TimedTransport :=
  if s.Possible e then
    match step s.bus e.event with
    | some bus => (s.after e bus).on_time e
    | none => none
  else none

/-! ## The property and the guard -/

/-- By the time `t`, the gap after the last byte is over. -/
def Spaced (s : TimedTransport) (t : ℚ) : Prop := ∀ byte ∈ s.last_byte, byte + s.frame_gap_s ≤ t

/-- Every `ser.write` starts after a gap. -/
def GapKept (s : TimedTransport) : Prop :=
  ∀ write ∈ s.writes, ∀ byte ∈ write.2, byte + s.frame_gap_s ≤ write.1

def Event.starts : Event → Option Nat
  | .job_started j => some j
  | _ => none

instance : ∀ job : Job, Decidable job.exchanges
  | .exchange _ _ _ => isTrue trivial
  | .open_port | .close_port _ => isFalse id

/-- No byte has moved since an exchange returned its response, or the gap is over anyway. -/
def Measured (s : TimedTransport) (t : ℚ) : Prop :=
  (∀ byte ∈ s.last_byte, byte ≤ s.last_op_monotonic) ∨ Spaced s t

instance (s : TimedTransport) (t : ℚ) : Decidable (Measured s t) :=
  inferInstanceAs (Decidable ((∀ byte ∈ s.last_byte, _) ∨ ∀ byte ∈ s.last_byte, _))

/-- The exchanges come one after the other, and each of them starts when the gap can be measured. -/
def InTurn (s : TimedTransport) (e : TimedEvent) : Prop :=
  NoneAbandoned s.bus e.event ∧
    ∀ j ∈ e.event.starts, (s.bus.jobs j).job.exchanges → Measured s e.time

instance (s : TimedTransport) (e : TimedEvent) : Decidable (InTurn s e) :=
  inferInstanceAs (Decidable (_ ∧ ∀ j ∈ e.event.starts, _))

/-! ## Who is in the gap -/

/-- Between the two states no thread has moved: jobs were at most submitted or cancelled. -/
def ThreadsStay (s s' : SerialTransport) : Prop :=
  ∀ j, s'.jobs j = s.jobs j ∨ (s'.jobs j).place = .queued ∨ (s'.jobs j).place = .cancelled

theorem threadsStay_of_jobs {s s' : SerialTransport} (h : s'.jobs = s.jobs) : ThreadsStay s s' := by
  intro j
  rw [h]
  exact Or.inl rfl

theorem threadsStay_run_in_executor {s t : SerialTransport} (h : t.jobs = s.jobs) (c : Nat)
    (job : Job) : ThreadsStay s (t.run_in_executor c job) := by
  intro j
  change update t.jobs t.submitted _ j = _ ∨ (update t.jobs t.submitted _ j).place = _ ∨ _
  rw [h]
  by_cases hj : j = t.submitted
  · subst hj
    rw [update_self]
    exact Or.inr (Or.inl rfl)
  · rw [update_of_ne hj]
    exact Or.inl rfl

theorem threadsStay_exchange {s t : SerialTransport} (h : t.jobs = s.jobs) (c : Nat) :
    ThreadsStay s (t.exchange c) := by
  unfold SerialTransport.exchange
  split
  · exact threadsStay_of_jobs h
  · split
    · exact threadsStay_of_jobs h
    · exact threadsStay_run_in_executor h c _

theorem threadsStay_opened_call {s t : SerialTransport} (h : t.jobs = s.jobs) (c : Nat) :
    ThreadsStay s (t.opened_call c) := by
  unfold SerialTransport.opened_call
  split
  · exact threadsStay_exchange h c
  · exact threadsStay_of_jobs h

theorem threadsStay_locked {s t : SerialTransport} (h : t.jobs = s.jobs) (c : Nat) :
    ThreadsStay s (t.locked c) := by
  unfold SerialTransport.locked
  split
  · unfold SerialTransport.close_locked
    split
    · exact threadsStay_run_in_executor h c _
    · exact threadsStay_of_jobs h
  · unfold SerialTransport.open_locked
    split
    · exact threadsStay_opened_call h c
    · split
      · exact threadsStay_of_jobs h
      · exact threadsStay_run_in_executor h c _

theorem threadsStay_resume {s s' : SerialTransport} {c : Nat} {job : Job}
    {result : Except PyError Result} (h : s.resume c job result = some s') : ThreadsStay s s' := by
  cases job with
  | open_port =>
    rcases result with e | ⟨ser⟩ | _ | _
    · cases h
      exact threadsStay_of_jobs rfl
    · cases h
      exact threadsStay_opened_call rfl c
    · cases h
    · cases h
  | exchange ser frame timeout_s =>
    rcases result with e | _ | ⟨frame⟩ | _
    · cases h
      exact threadsStay_of_jobs rfl
    · cases h
    · cases h
      unfold SerialTransport.check_response
      split
      · exact threadsStay_of_jobs rfl
      · split <;> exact threadsStay_of_jobs rfl
    · cases h
  | close_port ser =>
    cases h
    exact threadsStay_of_jobs rfl

theorem threadsStay_cancel_job (s : SerialTransport) (i : Nat) : ThreadsStay s (s.cancel_job i) := by
  unfold SerialTransport.cancel_job
  split
  · intro j
    by_cases hj : j = i
    · subst hj
      have hself : (s.set_job j .cancelled).jobs j = { s.jobs j with place := .cancelled } :=
        update_self _ _ _
      rw [hself]
      exact Or.inr (Or.inr rfl)
    · exact Or.inl (update_of_ne hj _ _)
  · exact threadsStay_of_jobs rfl

theorem exchanges_of_started {s s' : SerialTransport} {j : Nat}
    (he : step s (.job_started j) = some s') (hj : (s'.jobs j).place = .exchanging .gap) :
    (s.jobs j).job.exchanges := by
  simp only [step] at he
  split at he <;> cases he
  · rename_i hjob
    rw [hjob]
    trivial
  · simp [SerialTransport.set_job] at hj

theorem gap_of_over {s s' : SerialTransport} {j : Nat} (he : step s (.gap_over j) = some s') :
    (s.jobs j).place = .exchanging .gap := by
  simp only [step] at he
  split at he
  · assumption
  · cases he

/-- A job that is in the gap after a step was there before it, or starts with it. -/
theorem gap_before {s s' : SerialTransport} {e : Event} {j : Nat} (he : step s e = some s')
    (hj : (s'.jobs j).place = .exchanging .gap) :
    (s.jobs j).place = .exchanging .gap ∨ e = .job_started j := by
  have hstay : ThreadsStay s s' → (s.jobs j).place = .exchanging .gap := by
    intro hthreads
    rcases hthreads j with hsame | hqueued | hcancelled
    · exact hsame ▸ hj
    · cases hj.symm.trans hqueued
    · cases hj.symm.trans hcancelled
  cases step_cases he with
  | refused | begun | gave_up => exact Or.inl (hstay (threadsStay_of_jobs rfl))
  | locked => exact Or.inl (hstay (threadsStay_locked rfl _))
  | resumed hc hfinished hresume => exact Or.inl (hstay (threadsStay_resume hresume))
  | left_job => exact Or.inl (hstay (threadsStay_cancel_job s _))
  | thread ha =>
    rename_i i place written handles
    by_cases hji : j = i
    · subst hji
      apply Or.inr
      apply ha.gap
      simpa [SerialTransport.set_job] using hj
    · refine Or.inl ?_
      simpa [SerialTransport.set_job, update_of_ne hji] using hj

/-- Bytes move for a thread that is past the gap. -/
theorem moves_of_exchanging {s s' : SerialTransport} {e : Event} {byte : ℚ}
    (he : step s e = some s') (hmoves : e.moves (some byte) = true) :
    ∃ j at_, (s.jobs j).place = .exchanging at_ ∧ at_ ≠ .gap := by
  cases e with
  | written j =>
    simp only [step] at he
    split at he
    · exact ⟨j, _, ‹_›, by rintro ⟨⟩⟩
    · cases he
  | write_failed j e =>
    simp only [step] at he
    split at he
    · exact ⟨j, _, ‹_›, by rintro ⟨⟩⟩
    · cases he
  | read j data =>
    simp only [step] at he
    split at he
    · exact ⟨j, _, ‹_›, by rintro ⟨⟩⟩
    · cases he
  | io_failed j e =>
    simp only [step] at he
    split at he
    · exact ⟨j, _, ‹_›, by rintro ⟨⟩⟩
    · cases he
  | _ => cases hmoves

/-- No thread waits in the gap while bytes move. -/
theorem no_gap_while_bytes_move {s s' : SerialTransport} {e : Event} {byte : ℚ} (h : Held s)
    (he : step s e = some s') (hmoves : e.moves (some byte) = true) (j : Nat) :
    (s.jobs j).place ≠ .exchanging .gap := by
  intro hj
  obtain ⟨i, at_, hi, hgap⟩ := moves_of_exchanging he hmoves
  have hij : i = j := h.one_transaction.one i j (by rw [hi]; trivial) (by rw [hj]; trivial)
  subst hij
  rw [hi] at hj
  cases hj
  exact hgap rfl

/-! ## Steps on the clock -/

/-- What `on_time` does: the thread of an exchange starts, its sleep is over, it has its response,
or the time is not looked at. -/
theorem on_time_cases {s s' : TimedTransport} {e : TimedEvent} (h : s.on_time e = some s') :
    (∃ j, e.event = .job_started j ∧
      s' = { s with wake := update s.wake j (s.sleeps_until e.time) }) ∨
    (∃ j, e.event = .gap_over j ∧ s.wake j ≤ e.time ∧
      s' = { s with writes := s.writes ++ [(e.time, s.last_byte)] }) ∨
    ((∀ j, e.event ≠ .job_started j) ∧
      (s' = { s with last_op_monotonic := e.time } ∨ s' = s)) := by
  unfold TimedTransport.on_time at h
  split at h
  · cases h
    exact Or.inl ⟨_, ‹_›, rfl⟩
  · simp only [Option.ite_none_right_eq_some] at h
    obtain ⟨hwake, h⟩ := h
    cases h
    exact Or.inr (Or.inl ⟨_, ‹_›, hwake, rfl⟩)
  · rename_i hevent
    have hno : ∀ j, e.event ≠ .job_started j := by
      intro j hj
      rw [hj] at hevent
      cases hevent
    split at h <;> cases h
    · exact Or.inr (Or.inr ⟨hno, Or.inl rfl⟩)
    · exact Or.inr (Or.inr ⟨hno, Or.inr rfl⟩)
  · cases h
    exact Or.inr (Or.inr ⟨‹_›, Or.inr rfl⟩)

theorem clock_step_eq_some {s s' : TimedTransport} {e : TimedEvent}
    (h : clock_step s e = some s') :
    s.Possible e ∧ ∃ bus, step s.bus e.event = some bus ∧ (s.after e bus).on_time e = some s' := by
  simp only [clock_step, Option.ite_none_right_eq_some] at h
  obtain ⟨hpossible, h⟩ := h
  split at h
  · exact ⟨hpossible, _, ‹_›, h⟩
  · cases h

/-- The sleep covers the gap, when the gap can be measured. -/
theorem spaced_sleeps_until {s : TimedTransport} {t : ℚ} (h : Measured s t) :
    Spaced s (s.sleeps_until t) := by
  intro byte hbyte
  unfold TimedTransport.sleeps_until
  simp only
  rcases h with hop | hspaced
  · have := hop byte hbyte
    split <;> linarith
  · have := hspaced byte hbyte
    split <;> linarith

/-- Otherwise the frame may follow too early. -/
theorem not_spaced_sleeps_until {s : TimedTransport} {t : ℚ} (h : ¬ Measured s t) :
    ¬ Spaced s (s.sleeps_until t) := by
  obtain ⟨hop, hspaced⟩ := not_or.mp h
  intro hsleep
  unfold TimedTransport.sleeps_until at hsleep
  simp only at hsleep
  split at hsleep
  · apply hop
    intro byte hbyte
    have := hsleep byte hbyte
    linarith
  · exact hspaced hsleep

/-! ## The invariant -/

/-- The sleep of an exchange that is in the gap lasts until the gap after the last byte is over. -/
structure Paced (s : TimedTransport) : Prop where
  held : Held s.bus
  kept : GapKept s
  gaps : ∀ j, (s.bus.jobs j).place = .exchanging .gap → Spaced s (s.wake j)

/-- The start of a thread, or of a frame, moves no byte. -/
theorem after_of_still {s : TimedTransport} {e : TimedEvent} {bus : SerialTransport}
    (hstill : e.byte = none) : (s.after e bus).last_byte = s.last_byte := by
  rw [TimedTransport.after, hstill, latest_none]

theorem measured_after {s : TimedTransport} {e : TimedEvent} (bus : SerialTransport) {t : ℚ}
    (hstill : e.byte = none) (h : Measured s t) : Measured (s.after e bus) t := by
  rcases h with hop | hspaced
  · apply Or.inl
    rw [after_of_still hstill]
    exact hop
  · apply Or.inr
    intro byte hbyte
    rw [after_of_still hstill] at hbyte
    exact hspaced byte hbyte

/-- What an event leaves of the gaps before its own thread looks at the time. -/
theorem Paced.gaps_after {s : TimedTransport} {e : TimedEvent} {bus : SerialTransport} (h : Paced s)
    (hmoves : e.event.moves e.byte = true) (he : step s.bus e.event = some bus) {j : Nat}
    (hj : (bus.jobs j).place = .exchanging .gap) (hold : e.event ≠ .job_started j) :
    Spaced (s.after e bus) (s.wake j) := by
  have hgap : (s.bus.jobs j).place = .exchanging .gap := (gap_before he hj).resolve_right hold
  cases hbyte : e.byte with
  | none =>
    intro byte hmem
    rw [after_of_still hbyte] at hmem
    exact h.gaps j hgap byte hmem
  | some byte =>
    rw [hbyte] at hmoves
    exact absurd hgap (no_gap_while_bytes_move h.held he hmoves j)

theorem paced_step {s s' : TimedTransport} {e : TimedEvent} (h : Paced s) (hg : InTurn s e)
    (he : clock_step s e = some s') : Paced s' := by
  obtain ⟨⟨_, _, hmoves⟩, bus, hbus, htime⟩ := clock_step_eq_some he
  have hheld : Held bus := held_step h.held hg.1 hbus
  rcases on_time_cases htime with ⟨j, hj, rfl⟩ | ⟨j, hj, hwake, rfl⟩ | ⟨hno, rfl | rfl⟩
  · refine ⟨hheld, h.kept, ?_⟩
    intro i hi
    by_cases hij : i = j
    · -- The exchange that starts: the guard says that its gap can be measured.
      subst hij
      have hstill : e.byte = none := by simpa [hj, Event.moves] using hmoves
      have hjob : (s.bus.jobs i).job.exchanges := by
        rw [hj] at hbus
        exact exchanges_of_started hbus hi
      have hmeasured : Measured s e.time := hg.2 i (by rw [hj]; rfl) hjob
      have hspaced := spaced_sleeps_until (measured_after bus hstill hmeasured)
      intro byte hbyte
      simp only [update_self]
      exact hspaced byte hbyte
    · simp only [update_of_ne hij]
      exact h.gaps_after hmoves hbus hi (by rw [hj]; rintro ⟨⟩; exact hij rfl)
  · refine ⟨hheld, ?_, ?_⟩
    · have hstill : e.byte = none := by simpa [hj, Event.moves] using hmoves
      have hgap : (s.bus.jobs j).place = .exchanging .gap := by
        rw [hj] at hbus
        exact gap_of_over hbus
      intro write hwrite byte hbyte
      rcases List.mem_append.mp hwrite with hold | hnew
      · exact h.kept write hold byte hbyte
      · cases List.mem_singleton.mp hnew
        rw [after_of_still hstill] at hbyte
        exact (h.gaps j hgap byte hbyte).trans hwake
    · intro i hi
      exact h.gaps_after hmoves hbus hi (by rw [hj]; rintro ⟨⟩)
  · exact ⟨hheld, h.kept, fun i hi => h.gaps_after hmoves hbus hi (hno i)⟩
  · exact ⟨hheld, h.kept, fun i hi => h.gaps_after hmoves hbus hi (hno i)⟩

theorem new_eq_ok {port : String} {settings : Settings} {now : ℚ} {s : TimedTransport}
    (h : TimedTransport.new port settings now = .ok s) :
    ∃ frame_gap_s, s = { bus := .new port, frame_gap_s, now } := by
  unfold TimedTransport.new at h
  cases hgap : settings.frame_gap_s with
  | error e =>
    rw [hgap] at h
    cases h
  | ok frame_gap_s =>
    rw [hgap] at h
    cases h
    exact ⟨frame_gap_s, rfl⟩

theorem paced_new {port : String} {settings : Settings} {now : ℚ} {s : TimedTransport}
    (h : TimedTransport.new port settings now = .ok s) : Paced s := by
  obtain ⟨frame_gap_s, rfl⟩ := new_eq_ok h
  refine ⟨held_new port, ?_, ?_⟩
  · rintro write ⟨⟩
  · rintro j ⟨⟩

/-! ## A response -/

theorem latest_le {byte byte' : Option ℚ} {t : ℚ} (h : ∀ b ∈ byte, b ≤ t)
    (h' : ∀ b ∈ byte', b ≤ t) : ∀ b ∈ latest byte byte', b ≤ t := by
  intro b hb
  cases byte' with
  | none =>
    rw [latest_none] at hb
    exact h b hb
  | some b' =>
    cases byte with
    | none => exact h' b hb
    | some b₀ =>
      cases hb
      exact max_le (h b₀ rfl) (h' b' rfl)

/-- No byte is ahead of the clock. -/
def Past (s : TimedTransport) : Prop := ∀ byte ∈ s.last_byte, byte ≤ s.now

theorem past_after {s : TimedTransport} {e : TimedEvent} (bus : SerialTransport) (h : Past s)
    (hpossible : s.Possible e) : Past (s.after e bus) :=
  latest_le (fun b hb => (h b hb).trans hpossible.1) hpossible.2.1

theorem past_step {s s' : TimedTransport} {e : TimedEvent} (h : Past s)
    (he : clock_step s e = some s') : Past s' := by
  obtain ⟨hpossible, bus, _, htime⟩ := clock_step_eq_some he
  have hafter := past_after bus h hpossible
  rcases on_time_cases htime with ⟨_, _, rfl⟩ | ⟨_, _, _, rfl⟩ | ⟨_, rfl | rfl⟩ <;> exact hafter

/-- The gap after a response can be measured: `_last_op_monotonic` is set behind its last byte. -/
theorem measured_of_response {s s' : TimedTransport} {e : TimedEvent} {j : Nat} {data : Bytes}
    {r : Result} (h : Past s) (hread : e.event = .read j data) (he : clock_step s e = some s')
    (hr : (s'.bus.jobs j).place = .finished (.ok r)) (t : ℚ) : Measured s' t := by
  obtain ⟨hpossible, bus, _, htime⟩ := clock_step_eq_some he
  have hafter := past_after bus h hpossible
  have hop : s' = { s.after e bus with last_op_monotonic := e.time } := by
    simp only [TimedTransport.on_time, hread] at htime
    split at htime
    · cases htime
      rfl
    · rename_i hnot
      cases htime
      exact absurd hr (hnot r)
  subst hop
  exact Or.inl hafter

/-! ## The law -/

/-- The thread of the exchange has started. -/
def TimedTransport.started (s : TimedTransport) (j : Nat) (t : ℚ) : TimedTransport :=
  { s with
    bus := s.bus.set_job j (.exchanging .gap)
    now := t
    wake := update s.wake j (s.sleeps_until t) }

/-- Its sleep is over, and it calls `ser.write`. -/
def TimedTransport.awake (s : TimedTransport) (j : Nat) (t : ℚ) : TimedTransport :=
  { s with
    bus := s.bus.set_job j (.exchanging .writing)
    now := t
    writes := s.writes ++ [(t, s.last_byte)] }

theorem clock_step_started {s : TimedTransport} {j : Nat} {t : ℚ}
    (hplace : (s.bus.jobs j).place = .queued) (hjob : (s.bus.jobs j).job.exchanges)
    (hnow : s.now ≤ t) :
    clock_step s { event := .job_started j, time := t } = some (s.started j t) := by
  have hpossible : s.Possible { event := .job_started j, time := t } :=
    ⟨hnow, by rintro byte ⟨⟩, rfl⟩
  have hstep : step s.bus (.job_started j) = some (s.bus.set_job j (.exchanging .gap)) := by
    cases hkind : (s.bus.jobs j).job with
    | exchange ser frame timeout_s => simp only [step, hplace, hkind]
    | _ => rw [hkind] at hjob; exact hjob.elim
  rw [clock_step, if_pos hpossible]
  simp only [hstep, TimedTransport.after, latest_none]
  rfl

theorem clock_step_awake {s : TimedTransport} {j : Nat} {t : ℚ}
    (hplace : (s.bus.jobs j).place = .exchanging .gap) (hwake : s.wake j ≤ t) (hnow : s.now ≤ t) :
    clock_step s { event := .gap_over j, time := t } = some (s.awake j t) := by
  have hpossible : s.Possible { event := .gap_over j, time := t } :=
    ⟨hnow, by rintro byte ⟨⟩, rfl⟩
  have hstep : step s.bus (.gap_over j) = some (s.bus.set_job j (.exchanging .writing)) := by
    simp only [step, hplace]
  rw [clock_step, if_pos hpossible]
  simp only [hstep, TimedTransport.after, latest_none]
  exact if_pos hwake

/-- An exchange that starts when its gap cannot be measured may write too early. -/
theorem a_frame_without_a_gap {s : TimedTransport} {j : Nat} {t : ℚ}
    (hplace : (s.bus.jobs j).place = .queued) (hjob : (s.bus.jobs j).job.exchanges)
    (hnow : s.now ≤ t) (hmeasured : ¬ Measured s t) :
    ∃ s', run clock_step s [{ event := .job_started j, time := t },
        { event := .gap_over j, time := s.sleeps_until t }] = some s' ∧ ¬ GapKept s' := by
  have hsleep : t ≤ s.sleeps_until t := by
    unfold TimedTransport.sleeps_until
    simp only
    split <;> linarith
  have hgap : ((s.started j t).bus.jobs j).place = .exchanging .gap := by
    simp [TimedTransport.started, SerialTransport.set_job]
  have hwake : (s.started j t).wake j ≤ s.sleeps_until t := by
    simp [TimedTransport.started]
  refine ⟨(s.started j t).awake j (s.sleeps_until t), ?_, ?_⟩
  · rw [run_cons_of (clock_step_started hplace hjob hnow),
      run_cons_of (clock_step_awake hgap hwake hsleep)]
    rfl
  · intro hkept
    apply not_spaced_sleeps_until hmeasured
    intro byte hbyte
    apply hkept (s.sleeps_until t, s.last_byte) _ byte hbyte
    simp [TimedTransport.awake, TimedTransport.started]

/-- When no call abandons an exchange, and none starts after bytes that no response has followed
but within the gap, each frame is written after the gap; an exchange returns its response only with
its gap measured. An exchange that starts otherwise may write its frame too early. -/
theorem each_frame_follows_a_gap {port : String} {settings : Settings} {now : ℚ}
    {s : TimedTransport} (hnew : TimedTransport.new port settings now = .ok s) :
    (∀ es, Guarded clock_step InTurn s es → Always clock_step GapKept s es) ∧
    (∀ es t e t' j data r, run clock_step s es = some t → clock_step t e = some t' →
      e.event = .read j data → (t'.bus.jobs j).place = .finished (.ok r) →
      ∀ time, Measured t' time) ∧
    ∀ es t j time, run clock_step s es = some t → (t.bus.jobs j).place = .queued →
      (t.bus.jobs j).job.exchanges → t.now ≤ time → ¬ Measured t time →
      ∃ t', run clock_step s (es ++ [{ event := .job_started j, time },
        { event := .gap_over j, time := t.sleeps_until time }]) = some t' ∧ ¬ GapKept t' := by
  refine ⟨fun es hg => ?_, ?_, ?_⟩
  · exact always_of_guarded (fun _ _ _ => paced_step) (fun _ h => h.kept) (paced_new hnew) hg
  · intro es t e t' j data r hrun he hread hr time
    have hpast : Past t := by
      obtain ⟨frame_gap_s, rfl⟩ := new_eq_ok hnew
      refine invariant_run (fun _ _ _ h _ => past_step h) ?_
        (guarded_of_forall (g := fun _ _ => True) (fun _ _ _ => trivial) _) hrun
      rintro byte ⟨⟩
    exact measured_of_response hpast hread he hr time
  · intro es t j time hrun hplace hjob hnow hmeasured
    obtain ⟨t', ht, hkept⟩ := a_frame_without_a_gap hplace hjob hnow hmeasured
    refine ⟨t', ?_, hkept⟩
    rw [Runs.run_append, hrun]
    exact ht

/-! ## Two exchanges -/

def at_time (time : ℚ) (es : List Event) : List TimedEvent :=
  es.map fun event => { event, time }

/-- The request of the first call, written after 10 ms. -/
def first_request : List TimedEvent :=
  at_time 100 (two_callers.take 8) ++
    [{ event := .written 1, time := 10001 / 100, byte := some (10001 / 100) }]

/-- The first call has its response 20 ms later, and the second one writes after a gap of 5 ms. -/
def paced_requests : List TimedEvent :=
  first_request ++
    [{ event := .read 1 [1, 3], time := 10003 / 100, byte := some (10002 / 100) },
      { event := .read 1 [2], time := 10003 / 100, byte := some (10002 / 100) },
      { event := .read 1 ((rtu_frame 1 [3, 2, 0, 7]).drop 3), time := 10003 / 100,
        byte := some (10003 / 100) }] ++
    at_time (10003 / 100) [.resumed 0, .lock_acquired 1, .job_started 2] ++
    at_time (10003 / 100 + 5 / 1000) [.gap_over 2]

/-- The answer to the first call has a function code that is not known. -/
def hurried_requests : List TimedEvent :=
  first_request ++
    [{ event := .read 1 [1, 0x41], time := 10003 / 100, byte := some (10003 / 100) }] ++
    at_time (10003 / 100) [.resumed 0, .lock_acquired 1, .job_started 2, .gap_over 2]

def five_milliseconds : Settings := { inter_frame_delay_s := some (5 / 1000) }

theorem paced_requests_keep_the_gap :
    ∃ s, TimedTransport.new "COM3" five_milliseconds 100 = .ok s ∧
      Always clock_step GapKept s paced_requests := by
  have hnew : TimedTransport.new "COM3" five_milliseconds 100 = .ok _ := rfl
  refine ⟨_, hnew, ?_⟩
  apply (each_frame_follows_a_gap hnew).1
  decide +kernel

theorem hurried_requests_break_the_gap :
    ∃ s t, TimedTransport.new "COM3" five_milliseconds 100 = .ok s ∧
      run clock_step s hurried_requests = some t ∧
      t.writes = [(100, none), (10003 / 100, some (10003 / 100))] ∧ ¬ GapKept t := by
  let s : TimedTransport := { bus := .new "COM3", frame_gap_s := 5 / 1000, now := 100 }
  have hrun : (run clock_step s hurried_requests).map (fun t => (t.frame_gap_s, t.writes)) =
      some (5 / 1000, [(100, none), (10003 / 100, some (10003 / 100))]) := by decide +kernel
  obtain ⟨t, ht, hwrites⟩ := Option.map_eq_some_iff.mp hrun
  obtain ⟨hgap, hwrites⟩ := Prod.mk.inj hwrites
  refine ⟨s, t, rfl, ht, hwrites, ?_⟩
  intro hkept
  have hspaced := hkept (10003 / 100, some (10003 / 100)) (by rw [hwrites]; simp) _ rfl
  rw [hgap] at hspaced
  norm_num at hspaced

end pymod.serial_transport
