-- Reading from a device: its memory, the answers that a server makes from it,
-- and what a batch of reads gets out of them.
import Pymod.Reads
import Pymod.Floats

namespace pymod.planner

open errors codec pdu types Ranges Slices

/-- Four maps from every address to what stands there. -/
structure DeviceMemory where
  coil : Int → Bool
  discrete_input : Int → Bool
  holding_register : Int → {r : Int // IsRegister r}
  input_register : Int → {r : Int // IsRegister r}

namespace DeviceMemory

def registers (mem : Int → {r : Int // IsRegister r}) (start : Int) (n : Nat) : List Int :=
  slice (fun x => (mem x).val) start n

theorem isRegister_registers (mem : Int → {r : Int // IsRegister r}) (start : Int) (n : Nat) :
    ∀ v ∈ registers mem start n, IsRegister v := by
  intro v hv
  obtain ⟨i, _, rfl⟩ := List.mem_map.mp hv
  exact (mem _).property

def cells (mem : DeviceMemory) : Area → Int → Cell
  | .COIL => fun x => .bool (mem.coil x)
  | .DISCRETE_INPUT => fun x => .bool (mem.discrete_input x)
  | .HOLDING_REGISTER => fun x => .int (mem.holding_register x).val
  | .INPUT_REGISTER => fun x => .int (mem.input_register x).val

/-- The response of a server to a read of this slice. -/
def response (mem : DeviceMemory) (area : Area) (start : Int) (count : Nat) :
    Except PyError Bytes :=
  match area with
  | .COIL => encode_response_read_coils (slice mem.coil start count)
  | .DISCRETE_INPUT => encode_response_read_discrete_inputs (slice mem.discrete_input start count)
  | .HOLDING_REGISTER =>
    encode_response_read_holding_registers (registers mem.holding_register start count)
  | .INPUT_REGISTER =>
    encode_response_read_input_registers (registers mem.input_register start count)

end DeviceMemory

/-- The client's request for a slice. -/
def read_request : Area → Int → Int → Except PyError Bytes
  | .COIL => encode_read_coils
  | .DISCRETE_INPUT => encode_read_discrete_inputs
  | .HOLDING_REGISTER => encode_read_holding_registers
  | .INPUT_REGISTER => encode_read_input_registers

/-- What the client reads in a response. -/
def read_cells (area : Area) (count : Int) (resp : Bytes) : Except PyError (List Cell) :=
  match area with
  | .COIL => (decode_read_coils resp count).map fun values => values.map .bool
  | .DISCRETE_INPUT => (decode_read_discrete_inputs resp count).map fun values => values.map .bool
  | .HOLDING_REGISTER =>
    (decode_read_holding_registers resp count).map fun values => values.map .int
  | .INPUT_REGISTER => (decode_read_input_registers resp count).map fun values => values.map .int

theorem read_chunk_eq {σ : Type} (c : ReadChunk) (execute : Bytes → Py σ Bytes) :
    read_chunk c execute =
      exchange (read_request c.area c.start c.count) execute (read_cells c.area c.count) := by
  obtain ⟨area, start, count⟩ := c
  cases area <;> rfl

/-- One call of the executor, and the decoder on what it returns. -/
theorem exchange_run {σ α : Type} {execute : Bytes → Py σ Bytes} {decode : Bytes → Except PyError α}
    {q : Bytes} {s s' : σ} {r : Except PyError Bytes} (h : execute q s = (r, s')) :
    exchange (.ok q) execute decode s = (r.bind decode, s') := by
  unfold exchange
  rw [Py.bind_ok (Py.lift_run _ s)]
  cases r with
  | ok resp =>
    rw [Py.bind_ok h]
    rfl
  | error e =>
    rw [Py.bind_error h]
    rfl

theorem exchange_ok {σ α : Type} {req : Except PyError Bytes} {execute : Bytes → Py σ Bytes}
    {decode : Bytes → Except PyError α} {q resp : Bytes} {v : α} {s s' : σ} (hreq : req = .ok q)
    (hexec : execute q s = (.ok resp, s')) (hdec : decode resp = .ok v) :
    exchange req execute decode s = (.ok v, s') := by
  rw [hreq, exchange_run hexec, Except.bind, hdec]

theorem execute_read_chunk_run {σ : Type} {c : ReadChunk} {execute : Bytes → Py σ Bytes}
    {r : Except PyError (List Cell)} {s s' : σ} (h : read_chunk c execute s = (r, s')) :
    execute_read_chunk c execute s =
      (Py.handled (fun values => { chunk := c, values := some values, error := none })
        (fun e => { chunk := c, values := none, error := some e }) r, s') :=
  Py.except_modbus_run h _ _

/-- The function code that reads an area. -/
def read_code : Area → UInt8
  | .COIL => FC_READ_COILS
  | .DISCRETE_INPUT => FC_READ_DISCRETE_INPUTS
  | .HOLDING_REGISTER => FC_READ_HOLDING_REGISTERS
  | .INPUT_REGISTER => FC_READ_INPUT_REGISTERS

theorem read_request_eq (area : Area) : ∃ name, ∀ start count,
    read_request area start count =
      encode_read (read_code area) (READ_LIMITS area) name start count := by
  cases area <;> exact ⟨_, fun _ _ => rfl⟩

theorem read_request_ok (area : Area) {start count : Int} (hstart : IsRegister start)
    (h0 : 1 ≤ count) (h1 : count ≤ READ_LIMITS area) :
    read_request area start count = .ok (words (read_code area) start count) := by
  obtain ⟨name, hname⟩ := read_request_eq area
  rw [hname]
  exact encode_read_ok (by have := read_limits_le area; omega) hstart h0 h1

/-- The client reads in the server's response the cells of the slice. -/
theorem response_reads_back (mem : DeviceMemory) (area : Area) (start : Int) (count : Nat)
    (h : (count : Int) ≤ READ_LIMITS area) : ∃ resp, mem.response area start count = .ok resp ∧
      read_cells area count resp = .ok (slice (mem.cells area) start count) := by
  have hbits : ∀ (fc : UInt8) (m : Int → Bool), count ≤ 2000 → ∃ resp,
      encode_response_bits fc (slice m start count) = .ok resp ∧
        (decode_bit_response resp count fc).map (fun values => values.map Cell.bool) =
          .ok (slice (fun x => Cell.bool (m x)) start count) := by
    intro fc m hle
    have hlen : ((slice m start count).length + 7) / 8 < 256 := by rw [length_slice]; omega
    refine ⟨_, encode_response_bits_ok hlen, ?_⟩
    have hdec := decode_bit_response_of_pack fc hlen
    rw [length_slice] at hdec ⊢
    rw [hdec]
    exact congrArg Except.ok (map_slice ..)
  have hregs : ∀ (fc : UInt8) (m : Int → {r : Int // IsRegister r}), count ≤ 125 → ∃ resp,
      encode_response_registers fc (DeviceMemory.registers m start count) = .ok resp ∧
        (decode_register_response resp count fc).map (fun values => values.map Cell.int) =
          .ok (slice (fun x => Cell.int (m x).val) start count) := by
    intro fc m hle
    have hall := DeviceMemory.isRegister_registers m start count
    have hlen : 2 * (DeviceMemory.registers m start count).length < 256 := by
      rw [DeviceMemory.registers, length_slice]; omega
    refine ⟨_, encode_response_registers_ok hlen hall, ?_⟩
    have hdec := decode_register_response_of_data fc hlen hall
    rw [DeviceMemory.registers, length_slice] at hdec ⊢
    rw [hdec]
    exact congrArg Except.ok (map_slice ..)
  cases area with
  | COIL => exact hbits _ mem.coil (by simp only [READ_LIMITS, MAX_READ_COILS] at h; omega)
  | DISCRETE_INPUT =>
    exact hbits _ mem.discrete_input
      (by simp only [READ_LIMITS, MAX_READ_DISCRETE_INPUTS] at h; omega)
  | HOLDING_REGISTER =>
    exact hregs _ mem.holding_register (by simp only [READ_LIMITS, MAX_READ_REGISTERS] at h; omega)
  | INPUT_REGISTER =>
    exact hregs _ mem.input_register (by simp only [READ_LIMITS, MAX_READ_REGISTERS] at h; omega)

/-- An executor that answers every read request inside of the address space from the memory;
what else it does to its state is its own affair. -/
def Answers {σ : Type} (mem : DeviceMemory) (execute : Bytes → Py σ Bytes) : Prop :=
  ∀ area start count req resp s, 0 ≤ start → start + count ≤ 65536 →
    read_request area start count = .ok req → mem.response area start count.toNat = .ok resp →
    ∃ s', execute req s = (.ok resp, s')

theorem execute_read_chunk_slice {σ : Type} {mem : DeviceMemory} {execute : Bytes → Py σ Bytes}
    {c : ReadChunk} {p : σ → Prop} (hstart : 0 ≤ c.start) (hend : c.start + c.count ≤ 65536)
    (h0 : 1 ≤ c.count) (h1 : c.count ≤ READ_LIMITS c.area)
    (hanswer : ∀ req resp s, p s → read_request c.area c.start c.count = .ok req →
      mem.response c.area c.start c.count.toNat = .ok resp →
      ∃ s', execute req s = (.ok resp, s') ∧ p s') {s : σ} (hs : p s) :
    ∃ s', execute_read_chunk c execute s = (.ok (slice_result mem.cells c), s') ∧ p s' := by
  have hcount : (c.count.toNat : Int) = c.count := by omega
  have hreq := read_request_ok c.area (⟨hstart, by omega⟩ : IsRegister c.start) h0 h1
  obtain ⟨resp, hresp, hcells⟩ := response_reads_back mem c.area c.start
    c.count.toNat (by omega)
  rw [hcount] at hcells
  obtain ⟨s', hexec, hs'⟩ := hanswer _ resp s hs hreq hresp
  have hread : read_chunk c execute s =
      (.ok (slice (mem.cells c.area) c.start c.count.toNat), s') := by
    rw [read_chunk_eq]
    exact exchange_ok hreq hexec hcells
  exact ⟨s', execute_read_chunk_run hread, hs'⟩

/-! ## Every item reads its own slice -/

section

variable {F : Type} [FloatOps F]

/-- What registers hold for an item: the bit, the bits or the numbers that it asks for. -/
def register_reading (i : RegisterItem) (registers : List Int) :
    Except PyError (List (Value F)) :=
  match i.dtype, i.bit_index, i.bit_indices with
  | .bit, some bit_index, _ =>
    (extract_bit registers bit_index i.word_order i.byte_order i.bit_numbering).map ([.bool ·])
  | .bits, _, some bit_indices =>
    (extract_bits registers bit_indices i.word_order i.byte_order i.bit_numbering).map
      (List.map .bool)
  | .numeric dtype, _, _ => decode_registers registers dtype i.word_order i.byte_order
  -- no valid item: its bits are not named
  | .bit, none, _ | .bits, _, none => .error (.AssertionError "")

/-- What the item's own slice of its own area decodes to. -/
def reading (mem : DeviceMemory) : ReadItem → Except PyError (List (Value F))
  | .Coil start count => .ok ((slice mem.coil start count.toNat).map .bool)
  | .Discrete start count => .ok ((slice mem.discrete_input start count.toNat).map .bool)
  | .Holding i =>
    register_reading i (DeviceMemory.registers mem.holding_register i.start i.count.toNat)
  | .Input i =>
    register_reading i (DeviceMemory.registers mem.input_register i.start i.count.toNat)

/-- The result has the decoded values, or it failed because the decoder raised `ValueError`. -/
def OwnReading (mem : DeviceMemory) (item : ReadItem) (r : ReadResult F) : Prop :=
  (∃ values, reading mem item = .ok values ∧
    r = { item, values, ok := true, error := none }) ∨
  ∃ m, reading (F := F) mem item = .error (.ValueError m) ∧
    r = { item, values := [], ok := false,
          error := some (.ModbusError s!"decode failed: {m}") }

/-- The code tells the types apart as the reading does. -/
theorem decode_raw_registers_eq (i : RegisterItem) (registers : List Int) :
    decode_raw_registers (F := F) i registers = register_reading i registers := by
  unfold decode_raw_registers register_reading
  cases i.dtype with
  | bit =>
    cases i.bit_index with
    | none => rfl
    | some bit_index =>
      simp only
      cases extract_bit registers bit_index i.word_order i.byte_order i.bit_numbering <;> rfl
  | bits =>
    cases i.bit_indices with
    | none => rfl
    | some bit_indices =>
      simp only
      cases extract_bits registers bit_indices i.word_order i.byte_order i.bit_numbering <;> rfl
  | numeric dtype => rfl

/-- A validated item's decoder raises nothing but `ValueError`. -/
theorem decode_raw_registers_error {i : RegisterItem} {registers : List Int} {e : PyError}
    (hvalid : validate_bit_fields i = .ok ())
    (h : decode_raw_registers (F := F) i registers = .error e) : IsValueError e := by
  unfold decode_raw_registers at h
  unfold validate_bit_fields at hvalid
  cases hd : i.dtype with
  | bit =>
    cases hb : i.bit_index with
    | none => simp [hd, hb] at hvalid
    | some bit_index =>
      simp only [hd, hb] at h
      rcases bind_eq_error h with h | ⟨_, _, h⟩
      · exact extract_bit_error h
      · cases h
  | bits =>
    cases hb : i.bit_indices with
    | none => simp [hd, hb] at hvalid
    | some bit_indices =>
      simp only [hd, hb] at h
      rcases bind_eq_error h with h | ⟨_, _, h⟩
      · exact extract_bits_error h
      · cases h
  | numeric dtype =>
    simp only [hd] at h
    exact decode_registers_error h

theorem decode_register_item_own (item : ReadItem) {i : RegisterItem} (registers : List Int)
    (hvalid : validate_bit_fields i = .ok ()) : ∃ r : ReadResult F,
    decode_register_item item i (registers.map .int) = .ok r ∧
      ((∃ values, register_reading i registers = .ok values ∧
          r = { item, values, ok := true, error := none }) ∨
        ∃ m, register_reading (F := F) i registers = .error (.ValueError m) ∧
          r = { item, values := [], ok := false,
                error := some (.ModbusError s!"decode failed: {m}") }) := by
  have hcells : (registers.map Cell.int).map Cell.as_int = registers := by
    rw [List.map_map]
    exact List.map_id _
  unfold decode_register_item
  rw [hcells, ← decode_raw_registers_eq]
  cases hd : decode_raw_registers (F := F) i registers with
  | ok values => exact ⟨_, rfl, Or.inl ⟨values, rfl, rfl⟩⟩
  | error e =>
    obtain ⟨m, rfl⟩ := decode_raw_registers_error hvalid hd
    exact ⟨_, rfl, Or.inr ⟨m, rfl, rfl⟩⟩

theorem decode_cells_own (mem : DeviceMemory) {item : ReadItem}
    (hvalid : validate_read_item item = .ok ()) : ∃ r : ReadResult F,
    decode_cells item (slice (mem.cells (item_area item)) item.start item.count.toNat) = .ok r ∧
      OwnReading mem item r := by
  have hpos := validate_read_item_count hvalid
  unfold validate_read_item at hvalid
  rw [if_neg (by omega)] at hvalid
  have hregs : ∀ (m : Int → {r : Int // IsRegister r}) (start : Int) (n : Nat),
      slice (fun x => Cell.int (m x).val) start n =
        (DeviceMemory.registers m start n).map .int := fun m start n => (map_slice ..).symm
  have hbits : ∀ (m : Int → Bool) (start : Int) (n : Nat),
      (slice (fun x => Cell.bool (m x)) start n).map (Cell.value (F := F)) =
        (slice m start n).map .bool := by
    intro m start n
    rw [map_slice, map_slice]
    rfl
  cases item with
  | Holding i =>
    obtain ⟨r, hr, hown⟩ := decode_register_item_own (F := F) (.Holding i)
      (DeviceMemory.registers mem.holding_register i.start i.count.toNat) hvalid
    rw [← hregs] at hr
    exact ⟨r, hr, hown⟩
  | Input i =>
    obtain ⟨r, hr, hown⟩ := decode_register_item_own (F := F) (.Input i)
      (DeviceMemory.registers mem.input_register i.start i.count.toNat) hvalid
    rw [← hregs] at hr
    exact ⟨r, hr, hown⟩
  | Coil start count =>
    exact ⟨_, rfl, Or.inl ⟨_, rfl, by rw [← hbits]; rfl⟩⟩
  | Discrete start count =>
    exact ⟨_, rfl, Or.inl ⟨_, rfl, by rw [← hbits]; rfl⟩⟩

/-- Merging, splitting, and putting the chunks together again is invisible: the results stand in
the order of the items, and each is what the item's own slice decodes to. -/
theorem every_item_reads_its_own_slice {σ : Type} (mem : DeviceMemory) (items : List ReadItem)
    (execute : Bytes → Py σ Bytes) (hanswers : Answers mem execute)
    (hvalid : ∀ item ∈ items, validate_read_item item = .ok ())
    (hrange : ∀ item ∈ items, 0 ≤ item.start ∧ item.start + item.count ≤ 65536) (s : σ) :
    ∃ (results : List (ReadResult F)) (s' : σ),
      plan_and_execute_reads items execute s = (.ok results, s') ∧
        List.Forall₂ (OwnReading mem) items results := by
  have hpos : ∀ item ∈ items, 0 < item.count := fun item hitem =>
    validate_read_item_count (hvalid item hitem)
  have hexec : ∀ c ∈ plan_read_chunks items, ∀ s : σ, True →
      ∃ s', execute_read_chunk c execute s = (.ok (slice_result mem.cells c), s') ∧ True := by
    intro c hc s _
    obtain ⟨_, h0, h1, hreq⟩ := plan_read_chunks.spec hpos hc
    -- A chunk asks for nothing that no item asks for, so it stays in the address space.
    obtain ⟨a, ha, _, hfirst, _⟩ := hreq c.start (Int.le_refl _) (by omega)
    obtain ⟨b, hb, _, _, hlast⟩ := hreq (c.start + c.count - 1) (by omega) (by omega)
    have hra := (hrange a ha).1
    have hrb := (hrange b hb).2
    refine execute_read_chunk_slice (by omega) (by omega) h0 h1 ?_ trivial
    intro req resp s _ hq hr
    obtain ⟨s', hs'⟩ := hanswers c.area c.start c.count req resp s (by omega) (by omega) hq hr
    exact ⟨s', hs', trivial⟩
  obtain ⟨s', hrun, _⟩ := reads_of_slices (F := F) mem.cells hvalid hexec (s := s) trivial
  obtain ⟨results, hmap, hown⟩ := mapM_forall₂ fun item hitem =>
    decode_cells_own (F := F) mem (hvalid item hitem)
  exact ⟨results, s', by rw [hrun, hmap], hown⟩

end

/-! ## A device that answers from a memory -/

/-- The area that a function code reads. -/
def area_read_by (fc : UInt8) : Option Area :=
  [Area.COIL, .DISCRETE_INPUT, .HOLDING_REGISTER, .INPUT_REGISTER].find? fun a => read_code a = fc

/-- The executor of a device with this memory, for read requests. -/
def memory_executor (mem : DeviceMemory) (req : Bytes) : Py Unit Bytes := fun s =>
  match req.head? >>= area_read_by with
  | some area => (mem.response area (unpack_HH req).1 (unpack_HH req).2.toNat, s)
  | none => (encode_exception_response 0 0x01, s)

theorem memory_executor_answers (mem : DeviceMemory) : Answers mem (memory_executor mem) := by
  intro area start count req resp s hstart hend hreq hresp
  obtain ⟨name, hname⟩ := read_request_eq area
  obtain ⟨hreg, h0, h1⟩ := encode_read_legal (hname start count ▸ hreq)
  rw [read_request_ok area hreg h0 h1] at hreq
  cases hreq
  have hlimit := read_limits_le area
  have harea : area_read_by (read_code area) = some area := by cases area <;> decide
  refine ⟨s, ?_⟩
  unfold memory_executor
  rw [head_words, unpack_HH_words' _ hreg ⟨by omega, by omega⟩]
  simp only [Option.bind_eq_bind, Option.bind_some, harea, hresp]

/-- Registers that hold their own address, and coils set at the even ones. -/
def ramp_memory : DeviceMemory :=
  have hmod : ∀ x : Int, IsRegister (x % 65536) := fun x => ⟨by omega, by omega⟩
  { coil := fun x => x % 2 = 0
    discrete_input := fun x => x % 2 = 1
    holding_register := fun x => ⟨x % 65536, hmod x⟩
    input_register := fun x => ⟨(x + 7) % 65536, hmod _⟩ }

/-- Two overlapping items, one that does not fit into a request, one of another area. -/
def ramp_items : List ReadItem :=
  [.Holding { start := 130, count := 2, dtype := .numeric .uint32 },
    .Holding { start := 3, count := 200 }, .Coil 5 9,
    .Holding { start := 65535, count := 1, dtype := .bit, bit_index := some 16 }]

theorem ramp_items_read_their_own_slices : ∃ (results : List (ReadResult Float)) (s' : Unit),
    plan_and_execute_reads ramp_items (memory_executor ramp_memory) () = (.ok results, s') ∧
      List.Forall₂ (OwnReading ramp_memory) ramp_items results :=
  every_item_reads_its_own_slice ramp_memory ramp_items (memory_executor ramp_memory)
    (memory_executor_answers ramp_memory) (by decide) (by decide) ()

end pymod.planner
