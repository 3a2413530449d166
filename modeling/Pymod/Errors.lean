-- The errors of the package, and the Python code that raises them. A step of
-- the program takes the state of its surroundings and ends with a value or
-- with an exception; the state stays changed in both cases.

namespace pymod.errors

/-! ## The exception classes -/

/-- `ModbusExceptionResponse` and its subclasses. -/
inductive ExceptionClass
  | ModbusExceptionResponse
  | IllegalFunction
  | IllegalDataAddress
  | IllegalDataValue
  | SlaveDeviceFailure
  | Acknowledge
  | SlaveDeviceBusy
  | MemoryParityError
  | GatewayPathUnavailable
  | GatewayTargetFailedToRespond
  deriving DecidableEq, Repr

/-- The class attribute `code`. -/
def ExceptionClass.code : ExceptionClass → Int
  | .ModbusExceptionResponse => 0
  | .IllegalFunction => 0x01
  | .IllegalDataAddress => 0x02
  | .IllegalDataValue => 0x03
  | .SlaveDeviceFailure => 0x04
  | .Acknowledge => 0x05
  | .SlaveDeviceBusy => 0x06
  | .MemoryParityError => 0x08
  | .GatewayPathUnavailable => 0x0A
  | .GatewayTargetFailedToRespond => 0x0B

def EXCEPTION_BY_CODE : List (Int × ExceptionClass) :=
  [(0x01, .IllegalFunction), (0x02, .IllegalDataAddress), (0x03, .IllegalDataValue),
    (0x04, .SlaveDeviceFailure), (0x05, .Acknowledge), (0x06, .SlaveDeviceBusy),
    (0x08, .MemoryParityError), (0x0A, .GatewayPathUnavailable),
    (0x0B, .GatewayTargetFailedToRespond)]

/-- Everything under `ModbusError` that the package raises by itself. -/
inductive ModbusError
  | ModbusError (message : String)
  | ModbusTimeoutError (message : String)
  | ModbusConnectionError (message : String)
  | ModbusCRCError (message : String)
  | ModbusProtocolError (message : String)
  | ModbusExceptionResponse (cls : ExceptionClass) (message : String) (code : Int)
  deriving DecidableEq, Repr

/-- A Python exception: one of the package, a builtin, or any other. Only `CancelledError` is
no `Exception`. -/
inductive PyError
  | modbus (e : ModbusError)
  | ValueError (message : String)
  | TypeError (message : String)
  | OverflowError (message : String)
  | AssertionError (message : String)
  | CancelledError
  | Exception (name message : String)
  deriving DecidableEq, Repr

/-- `cls(message)`: the instance carries the code of its class. -/
def ExceptionClass.new (cls : ExceptionClass) (message : String) : PyError :=
  .modbus (.ModbusExceptionResponse cls message cls.code)

/-- Every entry of the table is the class with that code. -/
theorem exception_by_code_names_the_class :
    ∀ p ∈ EXCEPTION_BY_CODE, p.2.code = p.1 := by
  decide

/-! ## Steps of the program -/

/-- A step over a state `σ`. -/
def Py (σ α : Type) := σ → Except PyError α × σ

namespace Py

variable {σ α β : Type}

instance : Monad (Py σ) where
  pure a := fun s => (.ok a, s)
  bind x f := fun s =>
    match x s with
    | (.ok a, s') => f a s'
    | (.error e, s') => (.error e, s')

/-- Code that neither reads nor changes the state. -/
instance : MonadLift (Except PyError) (Py σ) where
  monadLift x := fun s => (x, s)

/-- `raise e` -/
def raise (e : PyError) : Py σ α := fun s => (.error e, s)

/-- `try: x` with `except ModbusError as e: handler`. -/
def except_modbus (x : Py σ α) (handler : ModbusError → α) : Py σ α := fun s =>
  match x s with
  | (.error (.modbus e), s') => (.ok (handler e), s')
  | r => r

/-- `try: x` with `except` clauses that end the step. -/
def except_with (x : Py σ α) (handler : PyError → Except PyError α) : Py σ α := fun s =>
  match x s with
  | (.ok a, s') => (.ok a, s')
  | (.error e, s') => (handler e, s')

/-- `asyncio.gather` of tasks that suspend at most once. The tasks start in list
order and each runs to its own end, also when an earlier one raised; then the
first exception is raised, or the values are returned in list order. -/
def gather : List (Py σ α) → Py σ (List α)
  | [] => pure []
  | t :: ts => fun s =>
    let (r, s') := t s
    let (rs, s'') := gather ts s'
    (r.bind fun a => rs.map fun as => a :: as, s'')

@[simp] theorem pure_run (a : α) (s : σ) : (pure a : Py σ α) s = (.ok a, s) := rfl

@[simp] theorem lift_run (x : Except PyError α) (s : σ) :
    (liftM x : Py σ α) s = (x, s) := rfl

theorem bind_ok {x : Py σ α} {f : α → Py σ β} {s s' : σ} {a : α} (h : x s = (.ok a, s')) :
    (x >>= f) s = f a s' := by
  simp only [bind, h]

theorem bind_error {x : Py σ α} {f : α → Py σ β} {s s' : σ} {e : PyError}
    (h : x s = (.error e, s')) : (x >>= f) s = (.error e, s') := by
  simp only [bind, h]

/-- What a bind that returned did: its first part returned, then the rest. -/
theorem bind_eq_ok {x : Py σ α} {f : α → Py σ β} {s s'' : σ} {b : β}
    (h : (x >>= f) s = (.ok b, s'')) : ∃ a s', x s = (.ok a, s') ∧ f a s' = (.ok b, s'') := by
  simp only [bind] at h
  rcases hx : x s with ⟨e | a, s'⟩
  · simp [hx] at h
  · exact ⟨a, s', rfl, by simpa [hx] using h⟩

/-- What `except ModbusError` makes of the end of its block. -/
def handled (f : α → β) (handler : ModbusError → β) : Except PyError α → Except PyError β
  | .ok a => .ok (f a)
  | .error (.modbus e) => .ok (handler e)
  | .error e => .error e

theorem except_modbus_run {x : Py σ α} {s s' : σ} {r : Except PyError α} (h : x s = (r, s'))
    (f : α → β) (handler : ModbusError → β) :
    except_modbus (do let a ← x; pure (f a)) handler s = (handled f handler r, s') := by
  unfold except_modbus
  cases r with
  | ok a =>
    rw [bind_ok h]
    rfl
  | error e =>
    rw [bind_error h]
    cases e <;> rfl

/-- Tasks that all return, in every state that they can meet, give the list of their values. -/
theorem gather_all_ok {ι : Type} {task : ι → Py σ α} (val : ι → α) {p : σ → Prop} {is : List ι}
    (h : ∀ i ∈ is, ∀ s, p s → ∃ s', task i s = (.ok (val i), s') ∧ p s') {s : σ} (hs : p s) :
    ∃ s', gather (is.map task) s = (.ok (is.map val), s') ∧ p s' := by
  induction is generalizing s with
  | nil => exact ⟨s, rfl, hs⟩
  | cons i is ih =>
    obtain ⟨s₁, hi, hs₁⟩ := h i (by simp) s hs
    obtain ⟨s₂, hrest, hs₂⟩ := ih (fun j hj => h j (by simp [hj])) hs₁
    refine ⟨s₂, ?_, hs₂⟩
    simp only [List.map_cons, gather, hi, hrest]
    rfl

/-- One task that raises, in whatever state it starts, makes the whole raise. -/
theorem gather_raises {ι : Type} {task : ι → Py σ α} {is : List ι} {i : ι} (hi : i ∈ is)
    (h : ∀ s, ∃ e s', task i s = (.error e, s')) (s : σ) :
    ∃ e s', gather (is.map task) s = (.error e, s') := by
  induction is generalizing s with
  | nil => cases hi
  | cons j is ih =>
    simp only [List.map_cons, gather]
    rcases hj : task j s with ⟨e | a, s₁⟩
    · exact ⟨e, _, rfl⟩
    · rcases List.mem_cons.mp hi with rfl | hi
      · obtain ⟨e, s', he⟩ := h s
        rw [hj] at he
        cases he
      · obtain ⟨e, s₂, hrest⟩ := ih hi s₁
        rw [hrest]
        exact ⟨e, s₂, rfl⟩

end Py

end pymod.errors
