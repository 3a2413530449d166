-- The typed read and write items and their results: `_types.py`.
import Pymod.Codec

namespace pymod.types

open errors codec

inductive Area
  | COIL
  | DISCRETE_INPUT
  | HOLDING_REGISTER
  | INPUT_REGISTER
  deriving DecidableEq, Repr

/-- The string of the enumeration. -/
def Area.value : Area → String
  | .COIL => "coil"
  | .DISCRETE_INPUT => "discrete_input"
  | .HOLDING_REGISTER => "holding_register"
  | .INPUT_REGISTER => "input_register"

/-- `int | bool`: what a register or a coil holds, on its way between two layers. -/
inductive Cell
  | int (z : Int)
  | bool (b : Bool)
  deriving DecidableEq, Repr

/-- `int(v)`; in Python a bool is one of the integers 0 and 1. -/
def Cell.as_int : Cell → Int
  | .int z => z
  | .bool b => if b then 1 else 0

/-- `bool(v)` -/
def Cell.as_bool : Cell → Bool
  | .int z => z != 0
  | .bool b => b

def Cell.value {F : Type} : Cell → Value F
  | .int z => .int z
  | .bool b => .bool b

inductive RegisterDType
  | numeric (dtype : NumericDType)
  | bit
  | bits
  deriving DecidableEq, Repr

/-! ## Items -/

/-- The fields of `Holding` and of `Input`. -/
structure RegisterItem where
  start : Int
  count : Int
  dtype : RegisterDType := .numeric .uint16
  word_order : Order := .big
  byte_order : Order := .big
  bit_index : Option Int := none
  bit_indices : Option (List Int) := none
  bit_numbering : BitNumbering := .lsb_first
  deriving DecidableEq, Repr

inductive ReadItem
  | Holding (item : RegisterItem)
  | Input (item : RegisterItem)
  | Coil (start count : Int)
  | Discrete (start count : Int)
  deriving DecidableEq, Repr

def ReadItem.start : ReadItem → Int
  | .Holding item => item.start
  | .Input item => item.start
  | .Coil start _ => start
  | .Discrete start _ => start

def ReadItem.count : ReadItem → Int
  | .Holding item => item.count
  | .Input item => item.count
  | .Coil _ count => count
  | .Discrete _ count => count

inductive WriteItem (F : Type)
  | WriteHolding (start : Int) (values : List (Value F)) (dtype : NumericDType)
      (word_order byte_order : Order)
  | WriteCoils (start : Int) (values : List Bool)
  deriving DecidableEq, Repr

/-! ## Results -/

structure ReadResult (F : Type) where
  item : ReadItem
  values : List (Value F) := []
  ok : Bool := true
  error : Option ModbusError := none
  deriving DecidableEq, Repr

structure WriteResult (F : Type) where
  item : WriteItem F
  ok : Bool := true
  error : Option ModbusError := none
  deriving DecidableEq, Repr

end pymod.types
