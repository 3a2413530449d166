-- Typed values in blocks of 16-bit registers: `codec/_common.py`,
-- `codec/values.py` and `codec/bits.py`.
import Pymod.Errors
import Pymod.Lib.Digits
import Pymod.Lib.Slices

namespace pymod.codec

open errors Digits Slices

abbrev Bytes := List UInt8

inductive Order
  | big
  | little
  deriving DecidableEq, Repr

inductive BitNumbering
  | lsb_first
  | msb_first
  deriving DecidableEq, Repr

inductive NumericDType
  | int16 | uint16
  | int32 | uint32 | float32
  | int64 | uint64 | float64
  deriving DecidableEq, Repr

def NumericDType.name : NumericDType → String
  | .int16 => "int16"
  | .uint16 => "uint16"
  | .int32 => "int32"
  | .uint32 => "uint32"
  | .float32 => "float32"
  | .int64 => "int64"
  | .uint64 => "uint64"
  | .float64 => "float64"

/-- What the code asks of Python floats: `struct` packs and unpacks them, `float`
makes one from an integer, and `is_integer` gives the integer back. -/
class FloatOps (F : Type) where
  /-- `struct.unpack(">f", raw)` -/
  unpack_f : Bytes → F
  /-- `struct.unpack(">d", raw)` -/
  unpack_d : Bytes → F
  /-- `struct.pack(">f", x)` -/
  pack_f : F → Except PyError {raw : Bytes // raw.length = 4}
  /-- `struct.pack(">d", x)` -/
  pack_d : F → {raw : Bytes // raw.length = 8}
  /-- `float(z)` -/
  of_int : Int → Except PyError F
  /-- `int(x)`, when `x.is_integer()` -/
  as_integer : F → Option Int
  repr : F → String

/-- A value that a caller writes or reads. -/
inductive Value (F : Type)
  | int (z : Int)
  | float (x : F)
  | bool (b : Bool)
  deriving DecidableEq, Repr

/-! ## Registers and bytes -/

/-- `0 <= r <= 0xFFFF` -/
def IsRegister (r : Int) : Prop := 0 ≤ r ∧ r ≤ 0xFFFF

instance (r : Int) : Decidable (IsRegister r) := inferInstanceAs (Decidable (_ ∧ _))

/-- `r.to_bytes(2, "big")` -/
def register_bytes (r : Int) : Bytes := toBytes 2 r.toNat

def registers_to_bytes (registers : List Int) (word_order byte_order : Order) :
    Except PyError Bytes :=
  match registers.find? fun r => ¬ IsRegister r with
  | some r => throw (.ValueError s!"register value out of range: {r}")
  | none =>
    let seq := if word_order = .little then registers.reverse else registers
    if byte_order = .big then
      pure (seq.flatMap register_bytes)
    else
      pure (seq.flatMap fun r => (register_bytes r).reverse)

/-- `[raw[i : i + 2] for i in range(0, len(raw), 2)]` -/
def byte_pairs : Bytes → List Bytes
  | [] => []
  | [a] => [[a]]
  | a :: b :: raw => [a, b] :: byte_pairs raw

def bytes_to_registers (raw : Bytes) (word_order byte_order : Order) :
    Except PyError (List Int) :=
  if raw.length % 2 ≠ 0 then
    throw (.ValueError s!"byte count must be even, got {raw.length}")
  else
    let chunks := byte_pairs raw
    let regs : List Int :=
      if byte_order = .big then chunks.map fun c => (ofBytes c : Int)
      else chunks.map fun c => (ofBytes c.reverse : Int)
    pure (if word_order = .little then regs.reverse else regs)

/-! ## Typed values -/

def regs_per_item : NumericDType → Nat
  | .uint16 => 1
  | .int16 => 1
  | .uint32 => 2
  | .int32 => 2
  | .float32 => 2
  | .uint64 => 4
  | .int64 => 4
  | .float64 => 4

/-- `_INT_RANGES`, and `none` for the float types. -/
def int_range : NumericDType → Option (Int × Int)
  | .uint16 => some (0, 0xFFFF)
  | .int16 => some (-0x8000, 0x7FFF)
  | .uint32 => some (0, 0xFFFFFFFF)
  | .int32 => some (-0x80000000, 0x7FFFFFFF)
  | .uint64 => some (0, 0xFFFFFFFFFFFFFFFF)
  | .int64 => some (-0x8000000000000000, 0x7FFFFFFFFFFFFFFF)
  | .float32 => none
  | .float64 => none

/-- `int.from_bytes(raw, "big", signed=s)` -/
def int_from_bytes (raw : Bytes) (s : Bool) : Int :=
  if s then Digits.signed raw.length (ofBytes raw) else ofBytes raw

/-- `v.to_bytes(n, "big")`, signed or not, of a value that fits. -/
def int_to_bytes (v : Int) (n : Nat) : Bytes := toBytes n (wrap n v)

section Values

variable {F : Type} [FloatOps F]

def decode_one (raw : Bytes) : NumericDType → Value F
  | .uint16 => .int (int_from_bytes raw false)
  | .int16 => .int (int_from_bytes raw true)
  | .uint32 => .int (int_from_bytes raw false)
  | .int32 => .int (int_from_bytes raw true)
  | .float32 => .float (FloatOps.unpack_f raw)
  | .uint64 => .int (int_from_bytes raw false)
  | .int64 => .int (int_from_bytes raw true)
  | .float64 => .float (FloatOps.unpack_d raw)

/-- `int(value)` in `_encode_one`, after the check of a float. -/
def integer_of (dtype : NumericDType) : Value F → Except PyError Int
  | .int z => pure z
  | .bool b => pure (if b then 1 else 0)
  | .float x =>
    match FloatOps.as_integer x with
    | some z => pure z
    | none => throw (.ValueError
        s!"{dtype.name} expects an integer-valued number, got {FloatOps.repr x}")

/-- `float(value)` -/
def float_of : Value F → Except PyError F
  | .int z => FloatOps.of_int z
  | .bool b => FloatOps.of_int (if b then 1 else 0)
  | .float x => pure x

def encode_one (value : Value F) (dtype : NumericDType) : Except PyError Bytes :=
  match int_range dtype with
  | none =>
    if dtype = .float32 then do
      let x ← float_of value
      let raw ← FloatOps.pack_f x
      pure raw.val
    else do
      let x ← float_of value
      pure (FloatOps.pack_d x).val
  | some (lo, hi) => do
    let ivalue ← integer_of dtype value
    if lo ≤ ivalue ∧ ivalue ≤ hi then
      pure (int_to_bytes ivalue (2 * regs_per_item dtype))
    else
      throw (.ValueError s!"value {ivalue} out of range for {dtype.name} ({lo}..{hi})")

def decode_registers (registers : List Int) (dtype : NumericDType)
    (word_order byte_order : Order) : Except PyError (List (Value F)) :=
  let rpi := regs_per_item dtype
  if registers.length % rpi ≠ 0 then
    throw (.ValueError
      s!"register count {registers.length} is not a multiple of {rpi} for dtype '{dtype.name}'")
  else
    -- the windows are `registers[i : i + rpi]` for `i in range(0, len(registers), rpi)`
    (windows rpi registers).mapM fun window => do
      let raw ← registers_to_bytes window word_order byte_order
      pure (decode_one raw dtype)

def encode_registers (values : List (Value F)) (dtype : NumericDType)
    (word_order byte_order : Order) : Except PyError (List Int) := do
  let blocks ← values.mapM fun v => do
    let raw ← encode_one v dtype
    bytes_to_registers raw word_order byte_order
  pure blocks.flatten

end Values

/-! ## Bits -/

def resolve_pos (bit_index : Int) (total_bits : Nat) (bit_numbering : BitNumbering) :
    Except PyError Int :=
  if ¬ (0 ≤ bit_index ∧ bit_index < total_bits) then
    throw (.ValueError s!"bit_index {bit_index} out of range for {total_bits}-bit window")
  else if bit_numbering = .lsb_first then
    pure bit_index
  else
    pure (total_bits - 1 - bit_index)

def registers_to_int (registers : List Int) (word_order byte_order : Order) :
    Except PyError Nat := do
  let raw ← registers_to_bytes registers word_order byte_order
  pure (ofBytes raw)

/-- `bool((value >> pos) & 1)` -/
def bit_of (value : Nat) (pos : Int) : Bool := value.testBit pos.toNat

def extract_bit (registers : List Int) (bit_index : Int) (word_order byte_order : Order)
    (bit_numbering : BitNumbering) : Except PyError Bool :=
  if registers.length = 0 then
    throw (.ValueError "register block is empty")
  else do
    let total_bits := registers.length * 16
    let pos ← resolve_pos bit_index total_bits bit_numbering
    let value ← registers_to_int registers word_order byte_order
    pure (bit_of value pos)

def extract_bits (registers : List Int) (bit_indices : List Int)
    (word_order byte_order : Order) (bit_numbering : BitNumbering) :
    Except PyError (List Bool) :=
  if registers.length = 0 then
    throw (.ValueError "register block is empty")
  else do
    let total_bits := registers.length * 16
    let value ← registers_to_int registers word_order byte_order
    bit_indices.mapM fun idx => do
      let pos ← resolve_pos idx total_bits bit_numbering
      pure (bit_of value pos)

end pymod.codec
