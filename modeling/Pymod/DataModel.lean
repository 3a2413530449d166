-- The Modbus data model: four maps, the requests that a PDU can carry, and what
-- a device answers. Nothing here is translated from the source.
import Pymod.PduLaws
import Pymod.Types
import Mathlib.Logic.Function.Basic

namespace pymod.data_model

open errors codec pdu types BitStrings Slices

/-- A value that fits into a register. -/
abbrev Register := {r : Int // IsRegister r}

/-- What is mapped, and its values. -/
structure DataModel where
  coil : Int → Option Bool
  discrete_input : Int → Option Bool
  holding_register : Int → Option Register
  input_register : Int → Option Register

/-! ## Requests -/

inductive Request
  | read (area : Area) (start : Int) (count : Nat)
  | write_coils (start : Int) (values : List Bool)
  | write_registers (start : Int) (values : List Register)

def register_words (values : List Register) : List Int := values.map Subtype.val

/-- The function code that reads an area, and the most that one request can read. -/
def read_code_limit : Area → UInt8 × Nat
  | .COIL => (0x01, 2000)
  | .DISCRETE_INPUT => (0x02, 2000)
  | .HOLDING_REGISTER => (0x03, 125)
  | .INPUT_REGISTER => (0x04, 125)

/-- The PDUs that carry a request, and what answers a write. -/
inductive Carries : Bytes → Request → Bytes → Prop
  | read (area : Area) (start : Register) (count : Nat) (h0 : 1 ≤ count)
      (h1 : count ≤ (read_code_limit area).2) :
      Carries (words (read_code_limit area).1 start count) (.read area start count) []
  | write_single_coil (address : Register) (value : Bool) :
      Carries (words 0x05 address (coil_word value)) (.write_coils address [value])
        (words 0x05 address (coil_word value))
  | write_single_register (address value : Register) :
      Carries (words 0x06 address value) (.write_registers address [value])
        (words 0x06 address value)
  | write_multiple_coils (start : Register) (count : Nat) (data : Bytes) (h0 : 1 ≤ count)
      (h1 : count ≤ 1968) (hdata : data.length = (count + 7) / 8) :
      Carries (write_request 0x0F start count data) (.write_coils start (unpack count data))
        (words 0x0F start count)
  | write_multiple_registers (start : Register) (values : List Register)
      (h0 : 1 ≤ values.length) (h1 : values.length ≤ 123) :
      Carries (write_request 0x10 start values.length (register_data (register_words values)))
        (.write_registers start values) (words 0x10 start values.length)

def read_codes : List UInt8 := [0x01, 0x02, 0x03, 0x04]

def write_codes : List UInt8 := [0x05, 0x06, 0x0F, 0x10]

/-- The function codes of a device. -/
def Supported (writable : Bool) (fc : UInt8) : Prop :=
  fc ∈ read_codes ∨ writable = true ∧ fc ∈ write_codes

/-! ## The device -/

/-- The map with the values from an address on. -/
def overwrite {α : Type} (mem : Int → Option α) (start : Int) (values : List α) :
    Int → Option α := fun x =>
  if start ≤ x ∧ x < start + values.length then values[(x - start).toNat]? else mem x

theorem overwrite_append {α : Type} (mem : Int → Option α) (start : Int) (xs ys : List α) :
    overwrite (overwrite mem start xs) (start + xs.length) ys = overwrite mem start (xs ++ ys) := by
  funext x
  simp only [overwrite, List.length_append, Nat.cast_add]
  by_cases hys : start + xs.length ≤ x ∧ x < start + xs.length + ys.length
  · have hidx : (x - start).toNat = xs.length + (x - (start + xs.length)).toNat := by omega
    rw [if_pos hys, if_pos (by omega), hidx, List.getElem?_append_right (by omega)]
    congr 1
    omega
  · rw [if_neg hys]
    by_cases hxs : start ≤ x ∧ x < start + xs.length
    · rw [if_pos hxs, if_pos (by omega), List.getElem?_append_left (by omega)]
    · rw [if_neg hxs, if_neg (by omega)]

theorem overwrite_nil {α : Type} (mem : Int → Option α) (start : Int) :
    overwrite mem start [] = mem := by
  funext x
  have : ¬ (start ≤ x ∧ x < start + (([] : List α).length : Nat)) := by
    rw [List.length_nil]
    omega
  exact if_neg this

theorem overwrite_outside {α : Type} {mem : Int → Option α} {start x : Int} {values : List α}
    (h : ¬ (start ≤ x ∧ x < start + values.length)) : overwrite mem start values x = mem x :=
  if_neg h

/-- The values of a stretch, when it is mapped throughout. -/
def stored {α : Type} (mem : Int → Option α) (start : Int) (count : Nat) (values : List α) :
    Prop :=
  (slice mem start count) = values.map some

/-- What was just written is stored. -/
theorem stored_overwrite {α : Type} (mem : Int → Option α) (start : Int) (values : List α) :
    stored (overwrite mem start values) start values.length values := by
  apply List.ext_getElem (by simp [slice])
  intro i hi _
  have hlt : i < values.length := by simpa [slice] using hi
  have hidx : (start + (i : Int) - start).toNat = i := by omega
  simp only [slice, List.getElem_map, List.getElem_range, overwrite]
  rw [if_pos ⟨by omega, by omega⟩, hidx, List.getElem?_eq_getElem hlt]

theorem stored_sub {α : Type} {mem : Int → Option α} {start a : Int} {n k : Nat} {values : List α}
    (h : stored mem start n values) (h0 : start ≤ a) (h1 : a + k ≤ start + n) :
    stored mem a k ((values.drop (a - start).toNat).take k) := by
  unfold stored at h ⊢
  rw [← cut_slice mem h0 h1, h, List.map_take, List.map_drop]

/-- A read touches an address that is not mapped. -/
def Unmapped {α : Type} (mem : Int → Option α) (start : Int) (count : Nat) : Prop :=
  ∃ x, start ≤ x ∧ x < start + count ∧ mem x = none

def DataModel.unmapped (m : DataModel) (area : Area) (start : Int) (count : Nat) : Prop :=
  match area with
  | .COIL => Unmapped m.coil start count
  | .DISCRETE_INPUT => Unmapped m.discrete_input start count
  | .HOLDING_REGISTER => Unmapped m.holding_register start count
  | .INPUT_REGISTER => Unmapped m.input_register start count

/-- A normal response to a read: the code, the number of data bytes, the data. -/
def read_response (fc : UInt8) (data : Bytes) : Bytes := fc :: UInt8.ofNat data.length :: data

/-- The data bytes hold exactly the stored values. -/
inductive DataModel.Holds (m : DataModel) : Area → Int → Nat → Bytes → Prop
  | coil {start count values} (h : stored m.coil start count values) :
      Holds m .COIL start count (pack values)
  | discrete_input {start count values} (h : stored m.discrete_input start count values) :
      Holds m .DISCRETE_INPUT start count (pack values)
  | holding_register {start count values} (h : stored m.holding_register start count values) :
      Holds m .HOLDING_REGISTER start count (register_data (register_words values))
  | input_register {start count values} (h : stored m.input_register start count values) :
      Holds m .INPUT_REGISTER start count (register_data (register_words values))

/-- An exception response. -/
def exception_pdu (fc : UInt8) (code : UInt8) : Bytes := [fc ||| 0x80, code]

/-- The filter of a device lets the unit through. -/
def Accepts (unit_id : Option Int) (uid : Int) : Prop := unit_id = none ∨ unit_id = some uid

/-- What a device answers to a PDU for a unit, and the model after it. The rules stand in the
order of their precedence; each one says that none before it applies. -/
inductive Answers (unit_id : Option Int) (writable : Bool) (m : DataModel) :
    Int → Bytes → DataModel → Bytes → Prop
  | empty (uid : Int) : Answers unit_id writable m uid [] m (exception_pdu 0 0x01)
  | other_unit {uid : Int} {fc : UInt8} {rest : Bytes} (hunit : ¬ Accepts unit_id uid) :
      Answers unit_id writable m uid (fc :: rest) m (exception_pdu fc 0x0B)
  | unsupported {uid : Int} {fc : UInt8} {rest : Bytes} (hunit : Accepts unit_id uid)
      (hfc : ¬ Supported writable fc) :
      Answers unit_id writable m uid (fc :: rest) m (exception_pdu fc 0x01)
  | malformed {uid : Int} {fc : UInt8} {rest : Bytes} (hunit : Accepts unit_id uid)
      (hfc : Supported writable fc) (hshape : ∀ r echo, ¬ Carries (fc :: rest) r echo) :
      Answers unit_id writable m uid (fc :: rest) m (exception_pdu fc 0x03)
  | unmapped {uid : Int} {pdu echo : Bytes} {area : Area} {start : Int} {count : Nat}
      (hunit : Accepts unit_id uid) (hshape : Carries pdu (.read area start count) echo)
      (hmap : m.unmapped area start count) :
      Answers unit_id writable m uid pdu m (exception_pdu (read_code_limit area).1 0x02)
  | read {uid : Int} {pdu echo data : Bytes} {area : Area} {start : Int} {count : Nat}
      (hunit : Accepts unit_id uid) (hshape : Carries pdu (.read area start count) echo)
      (hdata : m.Holds area start count data) :
      Answers unit_id writable m uid pdu m (read_response (read_code_limit area).1 data)
  | write_coils {uid : Int} {pdu echo : Bytes} {start : Int} {values : List Bool}
      (hunit : Accepts unit_id uid) (hwritable : writable = true)
      (hshape : Carries pdu (.write_coils start values) echo) :
      Answers unit_id writable m uid pdu
        { m with coil := overwrite m.coil start values } echo
  | write_registers {uid : Int} {pdu echo : Bytes} {start : Int} {values : List Register}
      (hunit : Accepts unit_id uid) (hwritable : writable = true)
      (hshape : Carries pdu (.write_registers start values) echo) :
      Answers unit_id writable m uid pdu
        { m with holding_register := overwrite m.holding_register start values } echo

/-- A session: each request is answered by the model that the one before it left. -/
inductive Session (unit_id : Option Int) (writable : Bool) :
    DataModel → List (Int × Bytes) → DataModel → List Bytes → Prop
  | nil (m : DataModel) : Session unit_id writable m [] m []
  | cons {m m' m'' : DataModel} {uid : Int} {pdu resp : Bytes}
      {requests : List (Int × Bytes)} {resps : List Bytes}
      (h : Answers unit_id writable m uid pdu m' resp)
      (hrest : Session unit_id writable m' requests m'' resps) :
      Session unit_id writable m ((uid, pdu) :: requests) m'' (resp :: resps)

/-! ## What an answer leaves as it was -/

/-- A response with the exception bit, and one code. -/
def IsException (resp : Bytes) : Prop := ∃ fc code, resp = exception_pdu fc code

variable {unit_id : Option Int} {writable : Bool} {m m' : DataModel} {uid : Int}
  {pdu resp : Bytes}

theorem length_echo {start : Int} {values : List Bool} {echo : Bytes}
    (h : Carries pdu (.write_coils start values) echo) : echo.length = 5 := by
  cases h <;> exact length_words _ _ _

theorem length_echo' {start : Int} {values : List Register} {echo : Bytes}
    (h : Carries pdu (.write_registers start values) echo) : echo.length = 5 := by
  cases h <;> exact length_words _ _ _

/-- A request that is answered with an exception changes nothing. -/
theorem an_exception_changes_nothing (h : Answers unit_id writable m uid pdu m' resp)
    (he : IsException resp) : m' = m := by
  have hlen : resp.length = 2 := by
    obtain ⟨fc, code, rfl⟩ := he
    rfl
  cases h with
  | write_coils _ _ hshape => rw [length_echo hshape] at hlen; omega
  | write_registers _ _ hshape => rw [length_echo' hshape] at hlen; omega
  | _ => rfl

/-- No request changes the inputs. -/
theorem no_answer_changes_an_input (h : Answers unit_id writable m uid pdu m' resp) :
    m'.input_register = m.input_register ∧ m'.discrete_input = m.discrete_input := by
  cases h <;> exact ⟨rfl, rfl⟩

/-- A device without writes never changes. -/
theorem no_answer_writes (h : Answers unit_id false m uid pdu m' resp) : m' = m := by
  cases h with
  | write_coils _ hw _ => cases hw
  | write_registers _ hw _ => cases hw
  | _ => rfl

theorem length_session {requests : List (Int × Bytes)} {resps : List Bytes}
    (h : Session unit_id writable m requests m' resps) : resps.length = requests.length := by
  induction h with
  | nil => rfl
  | cons _ _ ih => rw [List.length_cons, List.length_cons, ih]

theorem no_session_changes_an_input {requests : List (Int × Bytes)} {resps : List Bytes}
    (h : Session unit_id writable m requests m' resps) :
    m'.input_register = m.input_register ∧ m'.discrete_input = m.discrete_input := by
  induction h with
  | nil => exact ⟨rfl, rfl⟩
  | cons h _ ih =>
    obtain ⟨h1, h2⟩ := no_answer_changes_an_input h
    exact ⟨ih.1.trans h1, ih.2.trans h2⟩

theorem no_session_writes {requests : List (Int × Bytes)} {resps : List Bytes}
    (h : Session unit_id false m requests m' resps) : m' = m := by
  induction h with
  | nil => rfl
  | cons h _ ih => rw [ih, no_answer_writes h]

end pymod.data_model
