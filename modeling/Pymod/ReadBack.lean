-- The planner over the server of `pymod serve`: what a batch writes, a batch
-- reads back, and nothing else changes.
import Pymod.DeviceMemory
import Pymod.WritePlan
import Pymod.ServerRefinement

namespace pymod.planner

open errors codec pdu types data_model server BitStrings Ranges Slices

variable {unit_id : Option Int} {uid : Int}

/-! ## Reading from the store -/

/-- The memory of a model; what is not mapped is zero. -/
def device_memory (m : DataModel) : DeviceMemory where
  coil := fun x => (m.coil x).getD false
  discrete_input := fun x => (m.discrete_input x).getD false
  holding_register := fun x => (m.holding_register x).getD ⟨0, by decide⟩
  input_register := fun x => (m.input_register x).getD ⟨0, by decide⟩

theorem slice_getD_of_stored {α : Type} {mem : Int → Option α} {start : Int} {count : Nat}
    {values : List α} (d : α) (h : stored mem start count values) :
    slice (fun x => (mem x).getD d) start count = values := by
  have := congrArg (List.map fun o : Option α => o.getD d) h
  rw [map_slice, List.map_map] at this
  rw [this]
  exact List.map_id _

theorem registers_of_stored {mem : Int → Option Register} {start : Int} {count : Nat}
    {values : List Register} (d : Register) (h : stored mem start count values) :
    DeviceMemory.registers (fun x => (mem x).getD d) start count = register_words values := by
  have := congrArg (List.map Subtype.val) (slice_getD_of_stored d h)
  rw [map_slice] at this
  exact this

theorem response_of_holds {m : DataModel} {area : Area} {start : Int} {count : Nat} {data : Bytes}
    (h : m.Holds area start count data) (h1 : count ≤ (read_code_limit area).2) :
    (device_memory m).response area start count =
      .ok (read_response (read_code_limit area).1 data) := by
  cases h with
  | coil hs =>
    change encode_response_bits _ (slice (fun x => (m.coil x).getD false) start count) = _
    rw [slice_getD_of_stored false hs]
    exact encode_response_bits_stored hs h1
  | discrete_input hs =>
    change encode_response_bits _ (slice (fun x => (m.discrete_input x).getD false) start count) = _
    rw [slice_getD_of_stored false hs]
    exact encode_response_bits_stored hs h1
  | holding_register hs =>
    change encode_response_registers _ (DeviceMemory.registers _ start count) = _
    rw [device_memory, registers_of_stored _ hs]
    exact encode_response_registers_stored hs h1
  | input_register hs =>
    change encode_response_registers _ (DeviceMemory.registers _ start count) = _
    rw [device_memory, registers_of_stored _ hs]
    exact encode_response_registers_stored hs h1

/-- The server answers a read of mapped addresses as its memory does. -/
theorem dispatch_reads_memory {readonly : Bool} (haccept : Accepts unit_id uid) {m : DataModel}
    {area : Area} {start count : Int} {data req resp : Bytes} (hdata : m.Holds area start count.toNat data)
    (hreq : read_request area start count = .ok req)
    (hresp : (device_memory m).response area start count.toNat = .ok resp) :
    dispatch (sim_server unit_id readonly) uid req (concrete m) = (.ok resp, concrete m) := by
  obtain ⟨name, hname⟩ := read_request_eq area
  obtain ⟨hreg, h0, h1⟩ := encode_read_legal (hname start count ▸ hreq)
  have hlimit : ((read_code_limit area).2 : Int) = READ_LIMITS area := by cases area <;> rfl
  have hcode : (read_code_limit area).1 = read_code area := by cases area <;> rfl
  have hcount : (count.toNat : Int) = count := by omega
  have hpdu : req = words (read_code_limit area).1 start count := by
    rw [read_request_ok area hreg h0 h1] at hreq
    cases hreq
    rw [hcode]
  have hcarries := Carries.read area ⟨start, hreg⟩ count.toNat (by omega) (by omega)
  rw [hcount, ← hpdu] at hcarries
  have hdispatch := dispatch_of_answers readonly
    (Answers.read haccept hcarries hdata)
  have hsame : resp = read_response (read_code_limit area).1 data :=
    Except.ok.inj (hresp.symm.trans (response_of_holds hdata (by omega)))
  rw [hdispatch, hsame]

/-- The request for a slice carries its read. -/
theorem carries_read (area : Area) {start count : Int} (hstart : IsRegister start)
    (h0 : 1 ≤ count) (h1 : count ≤ READ_LIMITS area) :
    Carries (words (read_code area) start count) (.read area start count.toNat) [] := by
  obtain ⟨n, rfl⟩ := Int.eq_ofNat_of_zero_le (by omega : 0 ≤ count)
  have hlimit : ((read_code_limit area).2 : Int) = READ_LIMITS area := by cases area <;> rfl
  have hcode : (read_code_limit area).1 = read_code area := by cases area <;> rfl
  have hcarries := Carries.read area ⟨start, hstart⟩ n (by omega) (by omega)
  rw [hcode] at hcarries
  exact hcarries

/-! ## Writing to the store -/

/-- The request of a chunk carries its registers, and the client takes the echo. -/
theorem carries_registers {start : Int} (values : List Register) (hstart : IsRegister start)
    (h0 : 1 ≤ values.length) (h1 : values.length ≤ 123) :
    ∃ echo, Carries (payload_request start (.registers (register_words values)))
        (.write_registers start values) echo ∧
      payload_response (.registers (register_words values)) echo = .ok () := by
  have hwords : (register_words values).length = values.length := List.length_map _
  have hlegal : (Payload.registers (register_words values)).Legal := by
    refine ⟨hwords ▸ h0, hwords ▸ h1, fun v hv => ?_⟩
    obtain ⟨r, -, rfl⟩ := List.mem_map.mp hv
    exact r.property
  refine ⟨payload_echo start (.registers (register_words values)), ?_,
    payload_response_echo hstart hlegal⟩
  match values, h0, h1, hwords with
  | [value], _, _, _ => exact Carries.write_single_register ⟨start, hstart⟩ value
  | v :: w :: rest, h0, h1, hwords =>
    have hcarries := Carries.write_multiple_registers ⟨start, hstart⟩ (v :: w :: rest) h0 h1
    change Carries (write_request 0x10 start (register_words (v :: w :: rest)).length _) _
      (words FC_WRITE_MULTIPLE_REGISTERS start (register_words (v :: w :: rest)).length)
    rw [hwords]
    exact hcarries

/-- The request of a chunk carries its coils, and the client takes the echo. -/
theorem carries_coils {start : Int} (values : List Bool) (hstart : IsRegister start)
    (h0 : 1 ≤ values.length) (h1 : values.length ≤ 1968) :
    ∃ echo, Carries (payload_request start (.coils values)) (.write_coils start values) echo ∧
      payload_response (.coils values) echo = .ok () := by
  have hlegal : (Payload.coils values).Legal := ⟨h0, h1⟩
  refine ⟨payload_echo start (.coils values), ?_, payload_response_echo hstart hlegal⟩
  match values, h0, h1 with
  | [value], _, _ => exact Carries.write_single_coil ⟨start, hstart⟩ value
  | v :: w :: rest, h0, h1 =>
    have hcarries := Carries.write_multiple_coils ⟨start, hstart⟩ (v :: w :: rest).length
      (pack (v :: w :: rest)) h0 h1 (length_pack _)
    rw [unpack_pack] at hcarries
    exact hcarries

theorem execute_write_chunk_ok {σ : Type} {execute : Bytes → Py σ Bytes} {idx : Nat} {start : Int}
    (payload : Payload) {echo : Bytes} {s s' : σ} (hlegal : payload.Legal)
    (hstart : IsRegister start)
    (hexec : execute (payload_request start payload) s = (.ok echo, s'))
    (hecho : payload_response payload echo = .ok ()) :
    execute_write_chunk (payload_chunk idx start payload) execute s =
      (.ok { chunk := payload_chunk idx start payload, error := none }, s') := by
  have hwrite : write_chunk (payload_chunk idx start payload) execute s = (.ok (), s') := by
    rw [write_chunk_payload idx hlegal hstart]
    exact exchange_ok rfl hexec hecho
  exact execute_write_chunk_run hwrite

/-- Pieces with consecutive addresses, each of which overwrites its stretch of a map, overwrite
the stretch of all of them together. -/
theorem gather_pieces {α β : Type} (model : (Int → Option α) → SimState)
    (task : Int × List α → Py SimState β) (result : Int × List α → β)
    (l : List (Int × List α)) (start : Int) (hcons : Consecutive start l)
    (h0 : 0 ≤ start) (h1 : start + (l.map Prod.snd).flatten.length ≤ 65536)
    (hne : ∀ p ∈ l, 1 ≤ p.2.length)
    (htask : ∀ p ∈ l, IsRegister p.1 → ∀ mem, task p (model mem) =
      (.ok (result p), model (overwrite mem p.1 p.2))) (mem : Int → Option α) :
    Py.gather (l.map task) (model mem) =
      (.ok (l.map result), model (overwrite mem start (l.map Prod.snd).flatten)) := by
  induction l generalizing start mem with
  | nil => simp [Py.gather, overwrite_nil]
  | cons p l ih =>
    obtain ⟨haddr, hrest⟩ := hcons
    have hlen := hne p (by simp)
    simp only [List.map_cons, List.flatten_cons, List.length_append, Nat.cast_add] at h1
    have hp := htask p (by simp) ⟨by omega, by omega⟩ mem
    have hl := ih (start + p.2.length) hrest (by omega) (by omega)
      (fun q hq => hne q (by simp [hq])) (fun q hq => htask q (by simp [hq]))
      (overwrite mem p.1 p.2)
    simp only [List.map_cons, Py.gather, hp, List.flatten_cons]
    rw [← haddr] at hl ⊢
    rw [hl, overwrite_append]
    rfl

theorem split_values_map {α β : Type} (f : α → β) (maximum : Nat) (values : List α)
    (fuel cur : Nat) (addr : Int) : split_values maximum (values.map f) fuel cur addr =
      (split_values maximum values fuel cur addr).map fun p => (p.1, p.2.map f) := by
  induction fuel generalizing cur addr with
  | zero => rfl
  | succ fuel ih =>
    unfold split_values
    rw [List.length_map]
    split
    · simp only [List.map_cons, ih, List.map_take, List.map_drop]
    · rfl

section Batches

variable {F : Type} [FloatOps F]

/-- A batch of one write whose chunks all succeed. -/
theorem plan_and_execute_write_ok {σ : Type} {item : WriteItem F} {execute : Bytes → Py σ Bytes}
    {s s' : σ} (hplan : ¬ Unplannable item)
    (hgather : Py.gather ((item_pieces item).map fun p =>
        execute_write_chunk (payload_chunk 0 p.1 p.2) execute) s =
      (.ok ((item_pieces item).map fun p =>
        { chunk := payload_chunk 0 p.1 p.2, error := none }), s')) :
    plan_and_execute_writes [item] execute s =
      (.ok [{ item, ok := true, error := none }], s') := by
  have hone : ∀ i ∈ [item], ¬ Unplannable i := by simpa using hplan
  have hchunks := plan_writes_ok hone
  unfold plan_and_execute_writes
  rw [if_neg (by simp), hchunks, Py.bind_ok (Py.lift_run _ _)]
  simp only [List.zipIdx_cons, List.zipIdx_nil, List.flatMap_cons, List.flatMap_nil,
    List.append_nil, List.map_map, Function.comp_def]
  rw [Py.bind_ok hgather, Py.pure_run, foldl_apply_error_none]
  · rfl
  · intro cr hcr
    obtain ⟨p, _, rfl⟩ := List.mem_map.mp hcr
    rfl

variable {m : DataModel} {start : Int}

/-- A batch that writes registers overwrites their stretch of the holding map. -/
theorem write_holding_ok (haccept : Accepts unit_id uid) {values : List (Value F)}
    {dtype : NumericDType} {word_order byte_order : Order} {rs : List Register}
    (henc : encode_registers values dtype word_order byte_order = .ok (register_words rs))
    (hne : values ≠ []) (h0 : 0 ≤ start) (h1 : start + rs.length ≤ 65536) :
    plan_and_execute_writes [WriteItem.WriteHolding start values dtype word_order byte_order]
        (dispatch (sim_server unit_id false) uid) (concrete m) =
      (.ok [{ item := .WriteHolding start values dtype word_order byte_order, ok := true,
              error := none }],
        concrete { m with holding_register := overwrite m.holding_register start rs }) := by
  let item : WriteItem F := .WriteHolding start values dtype word_order byte_order
  have hvalid : validate_write_item item = .ok () :=
    if_neg fun h => hne (List.length_eq_zero_iff.mp h)
  have hpayload : item_payload item = .ok (.registers (register_words rs)) := by
    simp only [item, item_payload, henc]
    rfl
  have hplan : ¬ Unplannable item := by
    rintro (⟨e, he⟩ | ⟨e, he⟩)
    · rw [hvalid] at he; cases he
    · rw [hpayload] at he; cases he
  have hwords : (register_words rs).length = rs.length := List.length_map _
  obtain ⟨hcons, hflat, hlen⟩ :=
    split_values.spec (by omega : 0 < 123) rs rs.length 0 start (by omega)
  have hpieces : item_pieces item = (split_values 123 rs rs.length 0 start).map fun p =>
      (p.1, .registers (register_words p.2)) := by
    simp only [item_pieces, hpayload, pieces, hwords]
    rw [show item_start item = start from rfl, register_words, split_values_map, List.map_map]
    rfl
  rw [List.drop_zero] at hflat
  have hgather := gather_pieces
    (fun mem => concrete { m with holding_register := mem })
    (fun p => execute_write_chunk
      (payload_chunk 0 p.1 (.registers (register_words p.2)))
      (dispatch (sim_server unit_id false) uid))
    (fun p =>
      { chunk := payload_chunk 0 p.1 (.registers (register_words p.2)), error := none })
    (split_values 123 rs rs.length 0 start) start hcons h0 (by rw [hflat]; exact h1)
    (fun p hp => (hlen p hp).1)
    (by
      intro p hp hstart mem
      obtain ⟨hp0, hp1⟩ := hlen p hp
      obtain ⟨echo, hcarries, hecho⟩ := carries_registers p.2 hstart hp0 hp1
      have hlegal : (Payload.registers (register_words p.2)).Legal :=
        ⟨by rw [register_words, List.length_map]; exact hp0,
          by rw [register_words, List.length_map]; exact hp1, register_words_legal p.2⟩
      exact execute_write_chunk_ok _ hlegal hstart
        (dispatch_of_answers false (Answers.write_registers haccept rfl hcarries))
        hecho)
    m.holding_register
  rw [hflat] at hgather
  refine plan_and_execute_write_ok hplan ?_
  rw [hpieces, List.map_map, List.map_map]
  exact hgather

/-- A batch that writes coils overwrites their stretch of the coil map. -/
theorem write_coils_ok (haccept : Accepts unit_id uid) {values : List Bool} (hne : values ≠ [])
    (h0 : 0 ≤ start) (h1 : start + values.length ≤ 65536) :
    plan_and_execute_writes [(WriteItem.WriteCoils start values : WriteItem F)]
        (dispatch (sim_server unit_id false) uid) (concrete m) =
      (.ok [{ item := .WriteCoils start values, ok := true, error := none }],
        concrete { m with coil := overwrite m.coil start values }) := by
  let item : WriteItem F := .WriteCoils start values
  have hvalid : validate_write_item item = .ok () :=
    if_neg fun h => hne (List.length_eq_zero_iff.mp h)
  have hplan : ¬ Unplannable item := by
    rintro (⟨e, he⟩ | ⟨e, he⟩)
    · rw [hvalid] at he; cases he
    · cases he
  obtain ⟨hcons, hflat, hlen⟩ :=
    split_values.spec (by omega : 0 < 1968) values values.length 0 start (by omega)
  rw [List.drop_zero] at hflat
  have hgather := gather_pieces (fun mem => concrete { m with coil := mem })
    (fun p => execute_write_chunk (payload_chunk 0 p.1 (.coils p.2))
      (dispatch (sim_server unit_id false) uid))
    (fun p => { chunk := payload_chunk 0 p.1 (.coils p.2), error := none })
    (split_values 1968 values values.length 0 start) start hcons h0 (by rw [hflat]; exact h1)
    (fun p hp => (hlen p hp).1)
    (by
      intro p hp hstart mem
      obtain ⟨hp0, hp1⟩ := hlen p hp
      obtain ⟨echo, hcarries, hecho⟩ := carries_coils p.2 hstart hp0 hp1
      exact execute_write_chunk_ok (.coils p.2) ⟨hp0, hp1⟩ hstart
        (dispatch_of_answers false (Answers.write_coils haccept rfl hcarries))
        hecho)
    m.coil
  rw [hflat] at hgather
  refine plan_and_execute_write_ok hplan ?_
  have hpieces : item_pieces item = (split_values 1968 values values.length 0 start).map fun p =>
      (p.1, .coils p.2) := rfl
  rw [hpieces, List.map_map, List.map_map]
  exact hgather

/-! ## Reading it back -/

/-- A batch of one read of a mapped stretch decodes the stored values. -/
theorem read_stored_item {readonly : Bool} (haccept : Accepts unit_id uid) {item : ReadItem}
    (hvalid : validate_read_item item = .ok ()) (h0 : 0 ≤ item.start)
    (h1 : item.start + item.count ≤ 65536)
    (hdata : ∀ a n, item.start ≤ a → 0 ≤ n → a + n ≤ item.start + item.count →
      ∃ data, m.Holds (item_area item) a n.toNat data)
    {r : ReadResult F}
    (hdecode : decode_cells item
      (slice ((device_memory m).cells (item_area item)) item.start item.count.toNat) = .ok r) :
    plan_and_execute_reads [item] (dispatch (sim_server unit_id readonly) uid) (concrete m) =
      (.ok [r], concrete m) := by
  have hpos := validate_read_item_count hvalid
  have hexec : ∀ c ∈ plan_read_chunks [item], ∀ s, s = concrete m →
      ∃ s', execute_read_chunk c (dispatch (sim_server unit_id readonly) uid) s =
        (.ok (slice_result (device_memory m).cells c), s') ∧ s' = concrete m := by
    rintro c hc s rfl
    obtain ⟨_, hc0, hc1, hreq⟩ := plan_read_chunks.spec (by simpa using hpos) hc
    have hin : ∀ x, c.start ≤ x → x < c.start + c.count →
        item_area item = c.area ∧ item.start ≤ x ∧ x < item.start + item.count := by
      intro x hx hx'
      obtain ⟨i, hi, h⟩ := hreq x hx hx'
      rw [List.mem_singleton] at hi
      exact hi ▸ h
    obtain ⟨harea, hfirst, _⟩ := hin c.start (Int.le_refl _) (by omega)
    obtain ⟨_, _, hlast⟩ := hin (c.start + c.count - 1) (by omega) (by omega)
    refine execute_read_chunk_slice (p := fun s => s = concrete m) (by omega) (by omega) hc0 hc1
      ?_ rfl
    rintro req resp s rfl hq hresp
    obtain ⟨data, hholds⟩ := hdata c.start c.count hfirst (by omega) (by omega)
    rw [harea] at hholds
    exact ⟨_, dispatch_reads_memory haccept hholds hq hresp, rfl⟩
  obtain ⟨s', hrun, rfl⟩ := reads_of_slices (F := F) (device_memory m).cells
    (by simpa using hvalid : ∀ i ∈ [item], validate_read_item i = .ok ()) hexec rfl
  rw [hrun, List.mapM_cons, hdecode]
  rfl

/-- The item that reads a block of registers. -/
def holding_item (start : Int) (n : Nat) (dtype : NumericDType) (word_order byte_order : Order) :
    ReadItem :=
  .Holding { start, count := n, dtype := .numeric dtype, word_order, byte_order }

theorem read_holding_ok (readonly : Bool) (haccept : Accepts unit_id uid) {rs : List Register}
    {values : List (Value F)} {dtype : NumericDType} {word_order byte_order : Order}
    (hdec : decode_registers (register_words rs) dtype word_order byte_order = .ok values)
    (hne : rs ≠ []) (h0 : 0 ≤ start) (h1 : start + rs.length ≤ 65536)
    (hstored : stored m.holding_register start rs.length rs) :
    plan_and_execute_reads [holding_item start rs.length dtype word_order byte_order]
        (dispatch (sim_server unit_id readonly) uid) (concrete m) =
      (.ok [{ item := holding_item start rs.length dtype word_order byte_order, values,
              ok := true, error := none }], concrete m) := by
  have hlen : 0 < rs.length := List.length_pos_of_ne_nil hne
  have hvalid : validate_read_item
      (holding_item start rs.length dtype word_order byte_order) = .ok () := by
    have hcount : ¬ (rs.length : Int) ≤ 0 := by omega
    exact if_neg hcount
  refine read_stored_item haccept hvalid h0 h1 ?_ ?_
  · intro a n ha hn hend
    exact ⟨_, .holding_register (stored_sub hstored ha (by
      change a + n ≤ start + (rs.length : Int) at hend
      omega))⟩
  · have hregs : DeviceMemory.registers (device_memory m).holding_register start rs.length =
        register_words rs := registers_of_stored _ hstored
    have hcells : slice ((device_memory m).cells .HOLDING_REGISTER) start rs.length =
        (register_words rs).map .int := by
      rw [← hregs, DeviceMemory.registers, map_slice]
      rfl
    have hints : ((register_words rs).map Cell.int).map Cell.as_int = register_words rs := by
      rw [List.map_map]
      exact List.map_id _
    change decode_register_item _ _ (slice ((device_memory m).cells .HOLDING_REGISTER) start
      ((rs.length : Int).toNat)) = _
    rw [Int.toNat_natCast, hcells, decode_register_item, hints]
    simp only [decode_raw_registers, hdec]
    rfl

theorem read_coils_ok {readonly : Bool} (haccept : Accepts unit_id uid) {values : List Bool}
    (hne : values ≠ []) (h0 : 0 ≤ start) (h1 : start + values.length ≤ 65536)
    (hstored : stored m.coil start values.length values) :
    plan_and_execute_reads [.Coil start values.length]
        (dispatch (sim_server unit_id readonly) uid) (concrete m) =
      (.ok [{ item := .Coil start values.length, values := values.map (.bool : Bool → Value F),
              ok := true, error := none }], concrete m) := by
  have hlen : 0 < values.length := List.length_pos_of_ne_nil hne
  have hvalid : validate_read_item (.Coil start values.length) = .ok () := by
    have hcount : ¬ (values.length : Int) ≤ 0 := by omega
    exact if_neg hcount
  refine read_stored_item haccept hvalid h0 h1 ?_ ?_
  · intro a n ha hn hend
    exact ⟨_, .coil (stored_sub hstored ha (by
      change a + n ≤ start + (values.length : Int) at hend
      omega))⟩
  · have hbits := slice_getD_of_stored false hstored
    have hcells : slice ((device_memory m).cells .COIL) start values.length =
        values.map .bool := by
      rw [← hbits, map_slice]
      simp only [length_slice]
      rfl
    change (.ok _ : Except PyError (ReadResult F)) = _
    simp only [item_area, ReadItem.start, ReadItem.count, Int.toNat_natCast, hcells, List.map_map]
    rfl

/-! ## The round trip -/

theorem exists_register_words {regs : List Int} (h : ∀ r ∈ regs, IsRegister r) :
    ∃ rs, regs = register_words rs := by
  refine ⟨regs.attach.map fun r => ⟨r.val, h r.val r.property⟩, ?_⟩
  simp [register_words, List.map_map, Function.comp_def]

/-- Over the server of `pymod serve`, from any legal store: integers in the range of their type,
written as registers in any order, are read back as they were, and so are coils; every other cell
keeps its value. -/
theorem a_write_is_read_back (unit_id : Option Int) (uid : Int) (haccept : Accepts unit_id uid)
    (state : SimState) (hstate : LegalState state) :
    let execute := dispatch (sim_server unit_id false) uid
    (∀ (dtype : NumericDType) (lo hi : Int) (zs : List Int) (word_order byte_order : Order)
      (start : Int), int_range dtype = some (lo, hi) → zs ≠ [] → (∀ z ∈ zs, lo ≤ z ∧ z ≤ hi) →
      0 ≤ start → start + (zs.length * regs_per_item dtype : Nat) ≤ 65536 →
      let n := zs.length * regs_per_item dtype
      let values := zs.map (.int : Int → Value F)
      let witem := WriteItem.WriteHolding start values dtype word_order byte_order
      let ritem := holding_item start n dtype word_order byte_order
      ∃ state',
        plan_and_execute_writes [witem] execute state =
          (.ok [{ item := witem, ok := true, error := none }], state') ∧
        plan_and_execute_reads [ritem] execute state' =
          (.ok [{ item := ritem, values, ok := true, error := none }], state') ∧
        (∀ x, ¬ (start ≤ x ∧ x < start + n) → state'.holding x = state.holding x) ∧
        state'.input = state.input ∧ state'.coil = state.coil ∧
        state'.discrete = state.discrete) ∧
    ∀ (bits : List Bool) (start : Int), bits ≠ [] → 0 ≤ start → start + bits.length ≤ 65536 →
      let witem := (WriteItem.WriteCoils start bits : WriteItem F)
      let ritem := ReadItem.Coil start bits.length
      ∃ state',
        plan_and_execute_writes [witem] execute state =
          (.ok [{ item := witem, ok := true, error := none }], state') ∧
        plan_and_execute_reads [ritem] execute state' =
          (.ok [{ item := ritem, values := bits.map (.bool : Bool → Value F), ok := true,
                  error := none }], state') ∧
        (∀ x, ¬ (start ≤ x ∧ x < start + bits.length) → state'.coil x = state.coil x) ∧
        state'.holding = state.holding ∧ state'.input = state.input ∧
        state'.discrete = state.discrete := by
  obtain ⟨m, rfl⟩ := exists_concrete hstate
  intro execute
  refine ⟨?_, ?_⟩
  · intro dtype lo hi zs word_order byte_order start hrange hne hz h0 h1 n values witem ritem
    obtain ⟨regs, henc, hdec⟩ :=
      decode_encode_registers (F := F) hrange hz word_order byte_order
    obtain ⟨hlen, hlegal⟩ := encode_registers_legal henc
    obtain ⟨rs, rfl⟩ := exists_register_words hlegal
    have hn : rs.length = n := by
      rw [register_words, List.length_map, List.length_map] at hlen
      exact hlen
    have hpos : 0 < n := Nat.mul_pos (List.length_pos_of_ne_nil hne) (regs_per_item_pos dtype)
    have hend : start + rs.length ≤ 65536 := by rw [hn]; exact h1
    have hvalues : values ≠ [] := by simpa [values] using hne
    refine ⟨_, write_holding_ok haccept henc hvalues h0 hend, ?_, ?_, rfl, rfl, rfl⟩
    · have hread := read_holding_ok (F := F) false
        (m := { m with holding_register := overwrite m.holding_register start rs }) haccept hdec
        (List.ne_nil_of_length_pos (by omega)) h0 hend (stored_overwrite _ _ _)
      rw [hn] at hread
      exact hread
    · intro x hx
      simp only [concrete, register_store]
      rw [overwrite_outside (by rw [hn]; exact hx)]
  · intro bits start hne h0 h1 witem ritem
    refine ⟨_, write_coils_ok haccept hne h0 h1, ?_, ?_, rfl, rfl, rfl⟩
    · exact read_coils_ok (m := { m with coil := overwrite m.coil start bits }) haccept hne h0 h1
        (stored_overwrite _ _ _)
    · intro x hx
      simp only [concrete, bool_store]
      rw [overwrite_outside hx]

end Batches

/-- Two integers over four registers, with the words swapped, and three coils. -/
theorem two_int32_and_three_coils_are_read_back :
    let execute := dispatch (sim_server (some 1) false) 1
    let integers := [Value.int (-5), Value.int 70000]
    let witem : WriteItem Float := .WriteHolding 10 integers .int32 .little .big
    let ritem := holding_item 10 4 .int32 .little .big
    let coils := [true, false, true]
    let wcoils : WriteItem Float := .WriteCoils 1 coils
    (∃ state',
      plan_and_execute_writes [witem] execute small_state =
        (.ok [{ item := witem, ok := true, error := none }], state') ∧
      plan_and_execute_reads [ritem] execute state' =
        (.ok [{ item := ritem, values := integers, ok := true, error := none }], state') ∧
      (∀ x : Int, ¬ (10 ≤ x ∧ x < 10 + (4 : Nat)) → state'.holding x = small_state.holding x) ∧
      state'.input = small_state.input ∧ state'.coil = small_state.coil ∧
      state'.discrete = small_state.discrete) ∧
    ∃ state',
      plan_and_execute_writes [wcoils] execute small_state =
        (.ok [{ item := wcoils, ok := true, error := none }], state') ∧
      plan_and_execute_reads [.Coil 1 3] execute state' =
        (.ok [{ item := .Coil 1 3, values := coils.map (.bool : Bool → Value Float), ok := true,
                error := none }], state') ∧
      (∀ x : Int, ¬ (1 ≤ x ∧ x < 1 + (3 : Nat)) → state'.coil x = small_state.coil x) ∧
      state'.holding = small_state.holding ∧ state'.input = small_state.input ∧
      state'.discrete = small_state.discrete := by
  have h := a_write_is_read_back (F := Float) (some 1) 1 (Or.inr rfl) small_state legal_small_state
  refine ⟨?_, ?_⟩
  · exact h.1 .int32 (-0x80000000) 0x7FFFFFFF [-5, 70000] .little .big 10 rfl (by decide)
      (by decide) (by decide) (by decide)
  · exact h.2 [true, false, true] 1 (by decide) (by decide) (by decide)

end pymod.planner
