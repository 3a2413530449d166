-- `RetryPolicy`, `retry.py`, and the loop of `AsyncClient.execute`: how often it calls the
-- transport, and which outcome it ends with.
import Pymod.Codec
import Mathlib.Data.Rat.Defs
import Mathlib.Algebra.Order.Field.Rat
import Mathlib.Data.Nat.Find

namespace pymod.retry

open errors codec

/-! ## The policy -/

/-- What `await asyncio.sleep(delay)` comes to, in a task that nobody cancels: the sleep is
over, or it raises, or it does not end. -/
inductive Sleep
  | elapsed
  | raises (e : PyError)
  | endless
  deriving DecidableEq, Repr

/-- The numbers of a policy, with what Python and the event loop do with them. -/
class Timing (F : Type) extends OfScientific F, Mul F where
  /-- `x ** n`, which may raise `OverflowError` -/
  pow : F → Nat → Except PyError F
  lt : F → F → Bool
  sleep : F → Sleep

/-- The default of `retry_on`. -/
def transport_errors : PyError → Bool
  | .modbus (.ModbusTimeoutError _) | .modbus (.ModbusConnectionError _) => true
  | _ => false

/-- `retry_on` says which exceptions the clause `except policy.retry_on` catches. -/
structure RetryPolicy (F : Type) [Timing F] where
  max_attempts : Int := 2
  backoff_initial_s : F := 0.05
  backoff_factor : F := 2.0
  backoff_cap_s : F := 1.0
  retry_on : PyError → Bool := transport_errors

section

variable {F : Type} [Timing F]

def RetryPolicy.delay_for (self : RetryPolicy F) (attempt : Int) : Except PyError F :=
  if attempt ≤ 0 then
    pure 0.0
  else do
    let power ← Timing.pow self.backoff_factor (attempt - 1).toNat
    let delay := self.backoff_initial_s * power
    pure (if Timing.lt self.backoff_cap_s delay then self.backoff_cap_s else delay)

/-! ## `execute` -/

/-- A call of `send_and_receive`. -/
structure Send (F : Type) where
  pdu : Bytes
  unit_id : Int
  timeout_s : F
  deriving DecidableEq, Repr

/-- How `execute` ends: it returns or raises, or it stays in a sleep. -/
inductive Finish
  | ended (r : Except PyError Bytes)
  | asleep
  deriving DecidableEq

/-- How `execute` ends in a sleep that is not over. -/
def Sleep.finish : Sleep → Finish
  | .raises e => .ended (.error e)
  | _ => .asleep

/-- The start of a turn: `await asyncio.sleep(policy.delay_for(attempt - 1))`, past the first. -/
def pause (policy : RetryPolicy F) (attempt : Nat) : Sleep :=
  if 1 < attempt then
    match policy.delay_for (attempt - 1) with
    | .ok delay => Timing.sleep delay
    | .error e => .raises e
  else
    .elapsed

/-- The turns of the loop that are left, with the calls that they make. `outcomes attempt` is
what the call of that attempt ends with. -/
def execute_loop (policy : RetryPolicy F) (send : Send F) (outcomes : Nat → Except PyError Bytes) :
    Nat → Nat → Option PyError → List (Send F) × Finish
  | 0, _, none => ([], .ended (.error (.AssertionError "")))   -- `assert last_exc is not None`
  | 0, _, some last_exc => ([], .ended (.error last_exc))
  | turns + 1, attempt, _ =>
    match pause policy attempt with
    | .raises e => ([], .ended (.error e))
    | .endless => ([], .asleep)
    | .elapsed =>
      match outcomes attempt with
      | .ok resp => ([send], .ended (.ok resp))
      | .error e =>
        if policy.retry_on e ∧ (attempt : Int) < policy.max_attempts then
          let (sends, finish) := execute_loop policy send outcomes turns (attempt + 1) (some e)
          (send :: sends, finish)
        else
          ([send], .ended (.error e))

structure AsyncClient (F : Type) [Timing F] where
  default_unit_id : Int
  default_timeout_s : F
  default_retry : RetryPolicy F

namespace AsyncClient

variable (self : AsyncClient F)

def effective_send (pdu : Bytes) (unit_id : Option Int) (timeout_s : Option F) : Send F where
  pdu := pdu
  unit_id := unit_id.getD self.default_unit_id
  timeout_s := timeout_s.getD self.default_timeout_s

def execute (pdu : Bytes) (unit_id : Option Int) (timeout_s : Option F)
    (retry : Option (RetryPolicy F)) (outcomes : Nat → Except PyError Bytes) :
    List (Send F) × Finish :=
  let policy := retry.getD self.default_retry
  execute_loop policy (self.effective_send pdu unit_id timeout_s) outcomes
    policy.max_attempts.toNat 1 none

end AsyncClient

/-! ## Runs of the loop -/

variable (policy : RetryPolicy F) (outcomes : Nat → Except PyError Bytes)

/-- The attempt ends with an error of `retry_on`. -/
def Retried (attempt : Nat) : Prop := ∃ e, outcomes attempt = .error e ∧ policy.retry_on e = true

/-- The first attempt that does not. -/
structure First (k : Nat) : Prop where
  pos : 1 ≤ k
  final : ¬ Retried policy outcomes k
  retried : ∀ j, 1 ≤ j → j < k → Retried policy outcomes j

variable {policy outcomes} {send : Send F}

/-- A turn that is followed by another one. -/
theorem execute_loop_retry (send : Send F) (turns : Nat) (last_exc : Option PyError) {attempt : Nat}
    (hpause : pause policy attempt = .elapsed) (hretried : Retried policy outcomes attempt)
    (hmore : (attempt : Int) < policy.max_attempts) : ∃ e,
      execute_loop policy send outcomes (turns + 1) attempt last_exc =
        (send :: (execute_loop policy send outcomes turns (attempt + 1) (some e)).1,
          (execute_loop policy send outcomes turns (attempt + 1) (some e)).2) := by
  obtain ⟨e, he, hcaught⟩ := hretried
  refine ⟨e, ?_⟩
  rw [execute_loop, hpause]
  simp only [he]
  rw [if_pos ⟨hcaught, hmore⟩]

/-- A turn that returns or raises what the transport did. -/
theorem execute_loop_last {turns attempt : Nat} {last_exc : Option PyError}
    (hpause : pause policy attempt = .elapsed)
    (hlast : (attempt : Int) = policy.max_attempts ∨ ¬ Retried policy outcomes attempt) :
    execute_loop policy send outcomes (turns + 1) attempt last_exc =
      ([send], .ended (outcomes attempt)) := by
  rw [execute_loop, hpause]
  cases ho : outcomes attempt with
  | ok resp => rfl
  | error e =>
    simp only
    rw [if_neg]
    rintro ⟨hcaught, hmore⟩
    rcases hlast with hlast | hfinal
    · omega
    · exact hfinal ⟨e, ho, hcaught⟩

/-- Turns up to the attempt `n`, which is the last one. -/
theorem execute_loop_ends {n : Nat} (hmax : (n : Int) ≤ policy.max_attempts)
    (hlast : (n : Int) = policy.max_attempts ∨ ¬ Retried policy outcomes n) :
    ∀ (turns attempt : Nat) (last_exc : Option PyError), attempt ≤ n →
      (turns + attempt : Int) = policy.max_attempts + 1 →
      (∀ j, attempt ≤ j → j < n → Retried policy outcomes j) →
      (∀ j, attempt ≤ j → j ≤ n → pause policy j = .elapsed) →
      execute_loop policy send outcomes turns attempt last_exc =
        (List.replicate (n + 1 - attempt) send, .ended (outcomes n)) := by
  intro turns
  induction turns with
  | zero =>
    intro attempt _ hle hturns
    omega
  | succ turns ih =>
    intro attempt last_exc hle hturns hretried hpause
    have hover := hpause attempt (Nat.le_refl _) hle
    rcases Nat.eq_or_lt_of_le hle with rfl | hlt
    · rw [execute_loop_last hover hlast, Nat.add_sub_cancel_left]
      rfl
    · obtain ⟨e, he⟩ := execute_loop_retry send turns last_exc hover
        (hretried attempt (Nat.le_refl _) hlt) (by omega)
      have hrest := ih (attempt + 1) (some e) hlt (by push_cast at hturns ⊢; omega)
        (fun j h1 h2 => hretried j (by omega) h2) (fun j h1 h2 => hpause j (by omega) h2)
      have hcount : n + 1 - attempt = (n + 1 - (attempt + 1)) + 1 := by omega
      rw [he, hrest, hcount, List.replicate_succ]

/-- Turns up to a pause, before the attempt `n`, that is never over. -/
theorem execute_loop_stops (send : Send F) {n : Nat} (hmax : (n : Int) ≤ policy.max_attempts)
    (hstuck : pause policy n ≠ .elapsed) :
    ∀ (turns attempt : Nat) (last_exc : Option PyError), attempt ≤ n →
      (turns + attempt : Int) = policy.max_attempts + 1 →
      (∀ j, attempt ≤ j → j < n → Retried policy outcomes j ∧ pause policy j = .elapsed) →
      execute_loop policy send outcomes turns attempt last_exc =
        (List.replicate (n - attempt) send, (pause policy n).finish) := by
  intro turns
  induction turns with
  | zero =>
    intro attempt _ hle hturns
    omega
  | succ turns ih =>
    intro attempt last_exc hle hturns hbefore
    rcases Nat.eq_or_lt_of_le hle with rfl | hlt
    · rw [execute_loop, Nat.sub_self]
      cases hp : pause policy attempt with
      | elapsed => exact absurd hp hstuck
      | raises e => rfl
      | endless => rfl
    · obtain ⟨hretried, hover⟩ := hbefore attempt (Nat.le_refl _) hlt
      obtain ⟨e, he⟩ := execute_loop_retry send turns last_exc hover hretried (by omega)
      have hrest := ih (attempt + 1) (some e) hlt (by push_cast at hturns ⊢; omega)
        (fun j h1 h2 => hbefore j (by omega) h2)
      have hcount : n - attempt = (n - (attempt + 1)) + 1 := by omega
      rw [he, hrest, hcount, List.replicate_succ]

/-! ## What `execute` promises -/

variable (policy outcomes send)

/-- One call for each attempt up to the first that is no retry, or up to the bound; the run ends
with the outcome of the last one. -/
structure KeepsPromise (run : List (Send F) × Finish) : Prop where
  within : ∀ k : Nat, First policy outcomes k → k ≤ policy.max_attempts →
    run = (List.replicate k send, .ended (outcomes k))
  exhausted : (∀ k : Nat, First policy outcomes k → policy.max_attempts < k) →
    ∃ n : Nat, (n : Int) = policy.max_attempts ∧ 1 ≤ n ∧
      run = (List.replicate n send, .ended (outcomes n))

/-- There is an attempt, and every sleep before an attempt is over some time, when all the
attempts before it are retried. -/
structure AttemptsReached : Prop where
  attempts : 1 ≤ policy.max_attempts
  pauses : ∀ i : Nat, 2 ≤ i → i ≤ policy.max_attempts →
    (∀ j, 1 ≤ j → j < i → Retried policy outcomes j) → pause policy i = .elapsed

variable {policy outcomes send}

theorem exists_first {n : Nat} (hpos : 1 ≤ n) (h : ¬ Retried policy outcomes n) :
    ∃ k, First policy outcomes k ∧ k ≤ n := by
  classical
  have hex : ∃ k, 1 ≤ k ∧ ¬ Retried policy outcomes k := ⟨n, hpos, h⟩
  obtain ⟨h1, h2⟩ := Nat.find_spec hex
  refine ⟨Nat.find hex, ⟨h1, h2, fun j hj hlt => ?_⟩, Nat.find_min' hex ⟨hpos, h⟩⟩
  by_contra hnot
  exact Nat.find_min hex hlt ⟨hj, hnot⟩

/-- Below the bound and the first final outcome, every attempt is retried. -/
theorem retried_of_no_first (n : Nat) (h : ∀ k, First policy outcomes k → n < k) :
    ∀ j, 1 ≤ j → j ≤ n → Retried policy outcomes j := by
  intro j hpos hle
  by_contra hnot
  obtain ⟨k, hk, hkj⟩ := exists_first hpos hnot
  have := h k hk
  omega

theorem keepsPromise_of_reached (h : AttemptsReached policy outcomes) :
    KeepsPromise policy outcomes send
      (execute_loop policy send outcomes policy.max_attempts.toNat 1 none) := by
  obtain ⟨hattempts, hpauses⟩ := h
  have hends : ∀ n : Nat, 1 ≤ n → (n : Int) ≤ policy.max_attempts →
      ((n : Int) = policy.max_attempts ∨ ¬ Retried policy outcomes n) →
      (∀ j, 1 ≤ j → j < n → Retried policy outcomes j) →
      execute_loop policy send outcomes policy.max_attempts.toNat 1 none =
        (List.replicate n send, .ended (outcomes n)) := by
    intro n hpos hmax hlast hretried
    refine execute_loop_ends hmax hlast _ 1 none hpos (by omega) hretried fun j h1 h2 => ?_
    rcases Nat.eq_or_lt_of_le h1 with rfl | hlt
    · rfl
    · exact hpauses j hlt (by omega) fun i h3 h4 => hretried i h3 (by omega)
  constructor
  · intro k hk hle
    exact hends k hk.pos hle (Or.inr hk.final) hk.retried
  · intro hnone
    have hretried := retried_of_no_first policy.max_attempts.toNat fun k hk => by
      have := hnone k hk
      omega
    refine ⟨policy.max_attempts.toNat, by omega, by omega, ?_⟩
    exact hends _ (by omega) (by omega) (Or.inl (by omega)) fun j h1 h2 => hretried j h1 (by omega)

theorem reached_of_keepsPromise (h : KeepsPromise policy outcomes send
    (execute_loop policy send outcomes policy.max_attempts.toNat 1 none)) :
    AttemptsReached policy outcomes := by
  have hattempts : 1 ≤ policy.max_attempts := by
    by_contra hnone
    obtain ⟨n, hn, hpos, _⟩ := h.exhausted fun k hk => by
      have := hk.pos
      omega
    omega
  refine ⟨hattempts, fun i => ?_⟩
  -- Of the pauses that are reached, the first that is not over ends the run too early.
  induction i using Nat.strong_induction_on with
  | _ i ih =>
    intro h2 hmax hretried
    by_contra hstuck
    have hstops := execute_loop_stops send hmax hstuck policy.max_attempts.toNat 1 none (by omega)
      (by omega) fun j h1 hlt => ⟨hretried j h1 hlt, by
        rcases Nat.eq_or_lt_of_le h1 with rfl | hj
        · rfl
        · exact ih j hlt hj (by omega) fun l h3 h4 => hretried l h3 (by omega)⟩
    have hlength := congrArg (fun run => run.1.length) hstops
    simp only [List.length_replicate] at hlength
    by_cases hfirst : ∃ k, First policy outcomes k ∧ (k : Int) ≤ policy.max_attempts
    · obtain ⟨k, hk, hle⟩ := hfirst
      rw [h.within k hk hle, List.length_replicate] at hlength
      have hki : i ≤ k := by
        by_contra hlt
        exact hk.final (hretried k hk.pos (by omega))
      omega
    · obtain ⟨n, hn, hpos, hrun⟩ := h.exhausted fun k hk => by
        by_contra hle
        exact hfirst ⟨k, hk, by omega⟩
      rw [hrun, List.length_replicate] at hlength
      omega

/-- Without an attempt the loop ends at its `assert`, and the transport is not called. -/
theorem execute_without_attempts (self : AsyncClient F) (pdu : Bytes) (unit_id : Option Int)
    (timeout_s : Option F) (retry : Option (RetryPolicy F)) (outcomes : Nat → Except PyError Bytes)
    (h : (retry.getD self.default_retry).max_attempts ≤ 0) :
    self.execute pdu unit_id timeout_s retry outcomes =
      ([], .ended (.error (.AssertionError ""))) := by
  have hturns : (retry.getD self.default_retry).max_attempts.toNat = 0 := by omega
  unfold AsyncClient.execute
  simp only [hturns]
  rfl

/-- `execute` keeps its promise exactly when the policy allows an attempt, and every sleep
between two attempts that it gets to is over some time. -/
theorem execute_keeps_its_promise_iff (self : AsyncClient F) (pdu : Bytes) (unit_id : Option Int)
    (timeout_s : Option F) (retry : Option (RetryPolicy F)) (outcomes : Nat → Except PyError Bytes) :
    KeepsPromise (retry.getD self.default_retry) outcomes (self.effective_send pdu unit_id timeout_s)
        (self.execute pdu unit_id timeout_s retry outcomes) ↔
      AttemptsReached (retry.getD self.default_retry) outcomes :=
  ⟨reached_of_keepsPromise, keepsPromise_of_reached⟩

end

/-- Fractions in the place of doubles; a power past the largest double overflows. -/
instance : Timing Rat where
  pow x n :=
    if 2 ^ 1024 ≤ |x ^ n| then throw (.OverflowError "(34, 'Numerical result out of range')")
    else pure (x ^ n)
  lt x y := decide (x < y)
  sleep _ := .elapsed

-- The 1025th retry computes `2.0 ** 1024` before it looks at the cap.
example : pause ({ max_attempts := 2000 } : RetryPolicy Rat) 1026 =
    .raises (.OverflowError "(34, 'Numerical result out of range')") := by decide +kernel

/-- With `max_attempts=0`, a device that would answer is not asked. -/
theorem a_policy_without_attempts_breaks_the_promise :
    ¬ ∀ (self : AsyncClient Rat) (pdu : Bytes) (unit_id : Option Int) (timeout_s : Option Rat)
      (retry : Option (RetryPolicy Rat)) (outcomes : Nat → Except PyError Bytes),
      KeepsPromise (retry.getD self.default_retry) outcomes
        (self.effective_send pdu unit_id timeout_s)
        (self.execute pdu unit_id timeout_s retry outcomes) := by
  intro h
  have hpromise := h ⟨1, 1, {}⟩ [3, 0, 0, 0, 1] none none (some { max_attempts := 0 })
    fun _ => .ok [3, 2, 0, 7]
  obtain ⟨n, hn, hpos, _⟩ := hpromise.exhausted fun k hk => by
    have hk1 := hk.pos
    simp only [Option.getD_some]
    omega
  simp only [Option.getD_some] at hn
  omega

end pymod.retry
