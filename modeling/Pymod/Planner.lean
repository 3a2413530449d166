-- The request planner, `planner.py`: items are grouped, merged and split into
-- chunks, each chunk is one request, and the answers are put together per item.
import Pymod.Pdu
import Pymod.Types
import Pymod.Lib.Ranges
import Mathlib.Data.List.Sort

namespace pymod.planner

open errors codec pdu types Ranges

/-! ## The plan of a batch of reads -/

/-- One read on the wire. -/
structure ReadChunk where
  area : Area
  start : Int
  count : Int
  deriving DecidableEq, Repr

structure ReadChunkResult where
  chunk : ReadChunk
  values : Option (List Cell)
  error : Option ModbusError
  deriving DecidableEq, Repr

def READ_LIMITS : Area → Int
  | .HOLDING_REGISTER => MAX_READ_REGISTERS
  | .INPUT_REGISTER => MAX_READ_REGISTERS
  | .COIL => MAX_READ_COILS
  | .DISCRETE_INPUT => MAX_READ_DISCRETE_INPUTS

def item_area : ReadItem → Area
  | .Holding _ => .HOLDING_REGISTER
  | .Input _ => .INPUT_REGISTER
  | .Coil _ _ => .COIL
  | .Discrete _ _ => .DISCRETE_INPUT

/-- The check of the bit fields, which only `Holding` and `Input` have. -/
def validate_bit_fields (item : RegisterItem) : Except PyError Unit :=
  if item.dtype = .bit ∧ item.bit_index = none then
    throw (.ValueError "dtype='bit' requires bit_index")
  else if item.dtype = .bits ∧ item.bit_indices = none then
    throw (.ValueError "dtype='bits' requires bit_indices")
  else
    pure ()

def validate_read_item (item : ReadItem) : Except PyError Unit :=
  if item.count ≤ 0 then
    throw (.ValueError s!"item count must be > 0, got {item.count}")
  else
    match item with
    | .Holding i => validate_bit_fields i
    | .Input i => validate_bit_fields i
    | .Coil _ _ => pure ()
    | .Discrete _ _ => pure ()

/-- The order of pairs that `sorted` goes by. -/
def pair_le (r q : Range) : Prop := r.1 < q.1 ∨ r.1 = q.1 ∧ r.2 ≤ q.2

instance (r q : Range) : Decidable (pair_le r q) := inferInstanceAs (Decidable (_ ∨ _))

/-- The loop of `_merge_ranges`; `last` is `merged[-1]`. -/
def merge_into (last : Range) : List Range → List Range
  | [] => [last]
  | r :: rest =>
    if r.1 ≤ last.2 then merge_into (last.1, max last.2 r.2) rest
    else last :: merge_into r rest

def merge_ranges (ranges : List Range) : List Range :=
  match ranges.insertionSort pair_le with
  | [] => []
  | r :: rest => merge_into r rest

/-- `by_area.setdefault(area, []).append(r)` on a dict in insertion order. -/
def add_range (area : Area) (r : Range) : List (Area × List Range) → List (Area × List Range)
  | [] => [(area, [r])]
  | (a, ranges) :: rest =>
    if a = area then (a, ranges ++ [r]) :: rest else (a, ranges) :: add_range area r rest

def item_range (item : ReadItem) : Range := (item.start, item.start + item.count)

def group_by_area (items : List ReadItem) : List (Area × List Range) :=
  items.foldl (fun by_area item => add_range (item_area item) (item_range item) by_area) []

/-- `while cur < e`, cut at the limit of the area. Each turn moves `cur` by one at
least, so `e - cur` turns are enough. -/
def split_loop (area : Area) (e : Int) : Nat → Int → List ReadChunk
  | 0, _ => []
  | fuel + 1, cur =>
    if cur < e then
      let chunk_end := min (cur + READ_LIMITS area) e
      ⟨area, cur, chunk_end - cur⟩ :: split_loop area e fuel chunk_end
    else
      []

def split_range (area : Area) (r : Range) : List ReadChunk :=
  split_loop area r.2 (r.2 - r.1).toNat r.1

def plan_read_chunks (items : List ReadItem) : List ReadChunk :=
  (group_by_area items).flatMap fun (area, ranges) =>
    (merge_ranges ranges).flatMap fun r => split_range area r

/-! ## Requests -/

section Execution

variable {σ : Type}

/-- `req = encode(...)`, `resp = await execute(req)`, `decode(resp)` -/
def exchange {α : Type} (req : Except PyError Bytes) (execute : Bytes → Py σ Bytes)
    (decode : Bytes → Except PyError α) : Py σ α := do
  let req ← req
  let resp ← execute req
  decode resp

/-- The `try` block of `_execute_read_chunk`. -/
def read_chunk (chunk : ReadChunk) (execute : Bytes → Py σ Bytes) : Py σ (List Cell) :=
  match chunk.area with
  | .HOLDING_REGISTER =>
    exchange (encode_read_holding_registers chunk.start chunk.count) execute fun resp =>
      (decode_read_holding_registers resp chunk.count).map fun values => values.map .int
  | .INPUT_REGISTER =>
    exchange (encode_read_input_registers chunk.start chunk.count) execute fun resp =>
      (decode_read_input_registers resp chunk.count).map fun values => values.map .int
  | .COIL =>
    exchange (encode_read_coils chunk.start chunk.count) execute fun resp =>
      (decode_read_coils resp chunk.count).map fun values => values.map .bool
  | .DISCRETE_INPUT =>
    exchange (encode_read_discrete_inputs chunk.start chunk.count) execute fun resp =>
      (decode_read_discrete_inputs resp chunk.count).map fun values => values.map .bool

def execute_read_chunk (chunk : ReadChunk) (execute : Bytes → Py σ Bytes) :
    Py σ ReadChunkResult :=
  Py.except_modbus
    (do
      let values ← read_chunk chunk execute
      pure { chunk, values := some values, error := none })
    fun e => { chunk, values := none, error := some e }

end Execution

/-! ## Results of reads -/

/-- A slice index, from the end when it is negative, moved into the list. -/
def slice_index (len : Nat) (i : Int) : Nat :=
  if i < 0 then (i + len).toNat else min i.toNat len

/-- `l[a:b]` -/
def py_slice {α : Type} (l : List α) (a b : Int) : List α :=
  (l.drop (slice_index l.length a)).take (slice_index l.length b - slice_index l.length a)

def covering_chunks (item : ReadItem) (chunk_results : List ReadChunkResult) :
    List ReadChunkResult :=
  let covering := chunk_results.filter fun cr =>
    cr.chunk.area = item_area item ∧ cr.chunk.start < item.start + item.count ∧
      cr.chunk.start + cr.chunk.count > item.start
  covering.insertionSort fun a b => a.chunk.start ≤ b.chunk.start

section Decoding

variable {F : Type} [FloatOps F]

/-- The `try` block of `_decode_register_item`. -/
def decode_raw_registers (item : RegisterItem) (raw_registers : List Int) :
    Except PyError (List (Value F)) :=
  match item.dtype with
  | .bit =>
    match item.bit_index with
    | none => throw (.AssertionError "")
    | some bit_index => do
      let b ← extract_bit raw_registers bit_index item.word_order item.byte_order
        item.bit_numbering
      pure [.bool b]
  | .bits =>
    match item.bit_indices with
    | none => throw (.AssertionError "")
    | some bit_indices => do
      let bs ← extract_bits raw_registers bit_indices item.word_order item.byte_order
        item.bit_numbering
      pure (bs.map .bool)
  | .numeric dtype => decode_registers raw_registers dtype item.word_order item.byte_order

/-- `except ValueError`: the item fails, and the batch goes on. -/
def decode_register_item (self : ReadItem) (item : RegisterItem) (raw_registers : List Cell) :
    Except PyError (ReadResult F) :=
  match decode_raw_registers item (raw_registers.map Cell.as_int) with
  | .ok decoded => pure { item := self, values := decoded, ok := true }
  | .error (.ValueError m) => pure
      { item := self, values := [], ok := false,
        error := some (.ModbusError s!"decode failed: {m}") }
  | .error e => throw e

/-- `cr.values`, after `assert cr.values is not None` -/
def chunk_values (cr : ReadChunkResult) : Except PyError (List Cell) :=
  match cr.values with
  | some values => pure values
  | none => throw (.AssertionError "")

/-- `flat.extend(cr.values)` for each covering chunk -/
def flat_values (covering : List ReadChunkResult) : Except PyError (List Cell) :=
  (covering.mapM chunk_values).map List.flatten

def decode_read_item (item : ReadItem) (chunk_results : List ReadChunkResult) :
    Except PyError (ReadResult F) :=
  match covering_chunks item chunk_results with
  | [] => pure
      { item, values := [], ok := false,
        error := some (.ModbusError "internal planner error: no chunk covers item") }
  | first :: others =>
    match (first :: others).findSome? fun cr => cr.error with
    | some e => pure { item, values := [], ok := false, error := some e }
    | none => do
      let flat ← flat_values (first :: others)
      let rel_start := item.start - first.chunk.start
      let rel_end := rel_start + item.count
      let item_values := py_slice flat rel_start rel_end
      match item with
      | .Coil _ _ => pure { item, values := item_values.map Cell.value, ok := true }
      | .Discrete _ _ => pure { item, values := item_values.map Cell.value, ok := true }
      | .Holding i => decode_register_item item i item_values
      | .Input i => decode_register_item item i item_values

def plan_and_execute_reads {σ : Type} (items : List ReadItem) (execute : Bytes → Py σ Bytes) :
    Py σ (List (ReadResult F)) :=
  if items.isEmpty then
    pure []
  else do
    (items.forM validate_read_item : Except PyError Unit)
    let chunks := plan_read_chunks items
    let chunk_results ← Py.gather (chunks.map fun c => execute_read_chunk c execute)
    (items.mapM fun item => decode_read_item item chunk_results :
      Except PyError (List (ReadResult F)))

/-! ## Writes -/

structure WriteChunk where
  item_idx : Nat
  area : Area
  start : Int
  register_values : Option (List Int)
  coil_values : Option (List Bool)
  deriving DecidableEq, Repr

structure WriteChunkResult where
  chunk : WriteChunk
  error : Option ModbusError
  deriving DecidableEq, Repr

def validate_write_item : WriteItem F → Except PyError Unit
  | .WriteHolding _ values _ _ _ =>
    if values.length = 0 then throw (.ValueError "WriteHolding values must be non-empty")
    else pure ()
  | .WriteCoils _ values =>
    if values.length = 0 then throw (.ValueError "WriteCoils values must be non-empty")
    else pure ()

/-- `while cur < len(values)`, pieces of at most `maximum` values. -/
def split_values {α : Type} (maximum : Nat) (values : List α) :
    Nat → Nat → Int → List (Int × List α)
  | 0, _, _ => []
  | fuel + 1, cur, addr =>
    if cur < values.length then
      let size := min maximum (values.length - cur)
      (addr, (values.drop cur).take size) ::
        split_values maximum values fuel (cur + size) (addr + size)
    else
      []

/-- The chunks of one item of `_plan_writes`. -/
def plan_write (idx : Nat) (item : WriteItem F) : Except PyError (List WriteChunk) := do
  validate_write_item item
  match item with
  | .WriteHolding start values dtype word_order byte_order => do
    let regs ← encode_registers values dtype word_order byte_order
    pure ((split_values MAX_WRITE_REGISTERS.toNat regs regs.length 0 start).map
      fun (addr, piece) =>
        { item_idx := idx, area := .HOLDING_REGISTER, start := addr,
          register_values := some piece, coil_values := none })
  | .WriteCoils start values =>
    pure ((split_values MAX_WRITE_COILS.toNat values values.length 0 start).map
      fun (addr, piece) =>
        { item_idx := idx, area := .COIL, start := addr,
          register_values := none, coil_values := some piece })

def plan_writes (items : List (WriteItem F)) : Except PyError (List WriteChunk) := do
  let chunks ← items.zipIdx.mapM fun (item, idx) => plan_write idx item
  pure chunks.flatten

/-- The `try` block of `_execute_write_chunk`. -/
def write_chunk {σ : Type} (chunk : WriteChunk) (execute : Bytes → Py σ Bytes) : Py σ Unit :=
  match chunk.area with
  | .HOLDING_REGISTER =>
    match chunk.register_values with
    | none => Py.raise (.AssertionError "")
    | some [value] =>
      exchange (encode_write_single_register chunk.start value) execute fun resp => do
        let _ ← decode_write_single_register resp
        pure ()
    | some values =>
      exchange (encode_write_multiple_registers chunk.start values) execute fun resp => do
        let _ ← decode_write_multiple_registers resp
        pure ()
  | .COIL =>
    match chunk.coil_values with
    | none => Py.raise (.AssertionError "")
    | some [value] =>
      exchange (encode_write_single_coil chunk.start value) execute fun resp => do
        let _ ← decode_write_single_coil resp
        pure ()
    | some values =>
      exchange (encode_write_multiple_coils chunk.start values) execute fun resp => do
        let _ ← decode_write_multiple_coils resp
        pure ()
  | .DISCRETE_INPUT => Py.raise (.AssertionError "unhandled area: Area.DISCRETE_INPUT")
  | .INPUT_REGISTER => Py.raise (.AssertionError "unhandled area: Area.INPUT_REGISTER")

def execute_write_chunk {σ : Type} (chunk : WriteChunk) (execute : Bytes → Py σ Bytes) :
    Py σ WriteChunkResult :=
  Py.except_modbus
    (do
      write_chunk chunk execute
      pure { chunk, error := none })
    fun e => { chunk, error := some e }

/-- The first error of an item wins. -/
def apply_error (results : List (WriteResult F)) (cr : WriteChunkResult) :
    List (WriteResult F) :=
  match cr.error with
  | none => results
  | some e => results.modify cr.chunk.item_idx fun r =>
      if r.ok then { item := r.item, ok := false, error := some e } else r

def plan_and_execute_writes {σ : Type} (items : List (WriteItem F))
    (execute : Bytes → Py σ Bytes) : Py σ (List (WriteResult F)) :=
  if items.isEmpty then
    pure []
  else do
    let chunks ← plan_writes items
    let chunk_results ← Py.gather (chunks.map fun c => execute_write_chunk c execute)
    pure (chunk_results.foldl apply_error
      (items.map fun item => { item, ok := true, error := none }))

end Decoding

end pymod.planner
