-- What `pymod read` prints: a command that returns has printed one report, the values that its
-- item asks for or the error that it failed with, and its exit code says which.
import Pymod.CliExitCodes
import Pymod.Lib.Fallible

namespace pymod.cli

open errors codec pdu types planner retry Slices

section

variable {F : Type} [FloatOps F]

/-! ## The values of an item -/

/-- The number of values that registers are decoded to. -/
def register_value_count (item : RegisterItem) : Nat :=
  match item.dtype with
  | .numeric dtype => item.count.toNat / regs_per_item dtype
  | .bit => 1
  | .bits => (item.bit_indices.getD []).length

/-- The number of values that an item asks for. -/
def value_count : ReadItem → Nat
  | .Coil _ count | .Discrete _ count => count.toNat
  | .Holding item | .Input item => register_value_count item

theorem length_decode_registers {registers : List Int} {dtype : NumericDType}
    {word_order byte_order : Order} {values : List (Value F)}
    (h : decode_registers registers dtype word_order byte_order = .ok values) :
    values.length = registers.length / regs_per_item dtype := by
  have hpos := regs_per_item_pos dtype
  unfold decode_registers at h
  simp only at h
  split_ifs at h with hmultiple
  rw [← (forall₂_of_mapM_ok h).length_eq, windows, List.length_map, List.length_range]
  obtain ⟨n, hn⟩ := Nat.dvd_of_mod_eq_zero (not_not.mp hmultiple)
  rw [hn, Nat.mul_div_cancel_left _ hpos, Nat.add_sub_assoc hpos, Nat.mul_add_div hpos,
    Nat.div_eq_of_lt (by omega), Nat.add_zero]

theorem length_extract_bits {registers bit_indices : List Int} {word_order byte_order : Order}
    {bit_numbering : BitNumbering} {bits : List Bool}
    (h : extract_bits registers bit_indices word_order byte_order bit_numbering = .ok bits) :
    bits.length = bit_indices.length := by
  unfold extract_bits at h
  split_ifs at h with hempty
  obtain ⟨value, -, h⟩ := Fallible.bind_eq_ok.mp h
  exact (forall₂_of_mapM_ok h).length_eq.symm

theorem length_decode_raw {item : RegisterItem} {raw : List Int} {values : List (Value F)}
    (h : decode_raw_registers item raw = .ok values) (hlen : raw.length = item.count.toNat) :
    values.length = register_value_count item := by
  unfold decode_raw_registers at h
  unfold register_value_count
  cases hdtype : item.dtype with
  | numeric dtype =>
    rw [hdtype] at h
    simp only
    rw [← hlen]
    exact length_decode_registers h
  | bit =>
    rw [hdtype] at h
    cases hindex : item.bit_index with
    | none =>
      rw [hindex] at h
      cases h
    | some bit_index =>
      rw [hindex] at h
      obtain ⟨b, -, h⟩ := Fallible.bind_eq_ok.mp h
      cases h
      rfl
  | bits =>
    rw [hdtype] at h
    cases hindices : item.bit_indices with
    | none =>
      rw [hindices] at h
      cases h
    | some bit_indices =>
      rw [hindices] at h
      obtain ⟨bits, hbits, h⟩ := Fallible.bind_eq_ok.mp h
      cases h
      rw [List.length_map]
      exact length_extract_bits hbits

variable (F) in
/-- The cells are registers that are not of the type of the item: the decoder of its type raises
this `ValueError`. -/
def Undecodable (item : ReadItem) (cells : List Cell) (m : String) : Prop :=
  ∃ i, (item = .Holding i ∨ item = .Input i) ∧
    register_reading (F := F) i (cells.map Cell.as_int) = .error (.ValueError m)

/-- The cells of an item are decoded to as many values as it asks for, or its decoder fails. -/
theorem decode_cells_values {item : ReadItem} {cells : List Cell} {r : ReadResult F}
    (h : decode_cells item cells = .ok r) (hlen : cells.length = item.count.toNat) :
    (∃ values, r = { item, values := values, ok := true } ∧ values.length = value_count item) ∨
      ∃ m, Undecodable F item cells m ∧ r =
        { item, values := [], ok := false,
          error := some (.ModbusError s!"decode failed: {m}") } := by
  have hregister : ∀ i : RegisterItem, (item = .Holding i ∨ item = .Input i) →
      i.count = item.count → value_count item = register_value_count i →
      decode_register_item item i cells = .ok r →
      (∃ values, r = { item, values := values, ok := true } ∧ values.length = value_count item) ∨
        ∃ m, Undecodable F item cells m ∧ r =
          { item, values := [], ok := false,
            error := some (.ModbusError s!"decode failed: {m}") } := by
    intro i hitem hcount hsame hi
    unfold decode_register_item at hi
    split at hi
    · next decoded hdecoded =>
      cases hi
      refine .inl ⟨decoded, rfl, ?_⟩
      rw [hsame]
      exact length_decode_raw hdecoded (by rw [List.length_map, hlen, hcount])
    · next m hraised =>
      cases hi
      rw [decode_raw_registers_eq] at hraised
      exact .inr ⟨m, ⟨i, hitem, hraised⟩, rfl⟩
    · cases hi
  cases item with
  | Holding i => exact hregister i (.inl rfl) rfl rfl h
  | Input i => exact hregister i (.inr rfl) rfl rfl h
  | Coil start count =>
    cases h
    exact .inl ⟨_, rfl, by rw [List.length_map, hlen]; rfl⟩
  | Discrete start count =>
    cases h
    exact .inl ⟨_, rfl, by rw [List.length_map, hlen]; rfl⟩

/-! ## The report of a read -/

/-- The answers to the requests of the item carry these cells. -/
def AnswersCarry (client : Client) (transport : Transport) (item : ReadItem) (cell : Int → Cell) :
    Prop :=
  ∀ p ∈ ended (read_chunks item) (final client transport),
    chunk_cells p = .ok (slice cell p.1.start p.1.count.toNat)

/-- The values are decoded from the cells that the answers to the requests of the item carry. -/
def ReadAnswers (client : Client) (transport : Transport) (item : ReadItem)
    (values : List (Value F)) : Prop :=
  ∃ cell, AnswersCarry client transport item cell ∧
    decode_cells item (slice cell item.start item.count.toNat) =
      .ok { item, values := values, ok := true }

/-- The values, in the order of the item, and nothing else. -/
structure PrintsValues (json : Bool) (item : ReadItem) (values : List (Value F)) (out : Output F) :
    Prop where
  exit_code : out.exit_code = 0
  stderr : out.stderr = []
  json_line : json = true → out.stdout =
    [.dumps (.dict [("ok", .bool true), ("values", .list (serialize values))])]
  text_lines : json = false → out.stdout =
    values.zipIdx.map fun p => .text (format_value p.2 p.1 (item_dtype item))

/-- The error with its type, once, on the stream of the mode. -/
structure PrintsError (json : Bool) (e : ModbusError) (code : Int) (out : Output F) : Prop where
  exit_code : out.exit_code = code
  json_line : json = true → out.stderr = [] ∧ out.stdout =
    [.dumps (.dict [("ok", .bool false),
      ("error", .dict [("type", .str (type_name e)), ("message", .str (str e))])])]
  text_line : json = false → out.stdout = [] ∧
    out.stderr = [.text (error_line (some e))]

variable (F) in
/-- With which error a read can fail, and the exit code for it: the client does not connect, the
lowest request of the item that failed, or answered registers that are not of the type. -/
inductive ReadFails (client : Client) (transport : Transport) (item : ReadItem) :
    ModbusError → Int → Prop
  | unreachable {message : String}
      (h : transport.connect = .error (.ModbusConnectionError message)) :
      ReadFails client transport item (.ModbusConnectionError message) 2
  | unconnected {e : ModbusError} (h : transport.connect = .error e)
      (hother : ∀ message, e ≠ .ModbusConnectionError message) :
      ReadFails client transport item e 1
  | refused {e : ModbusError} (hconnect : transport.connect = .ok ())
      (h : FailsFirst (fun p => p.1.start) chunk_failure
        (ended (read_chunks item) (final client transport)) e) :
      ReadFails client transport item e 1
  | undecodable {m : String} {cell : Int → Cell} (hconnect : transport.connect = .ok ())
      (hcells : AnswersCarry client transport item cell)
      (h : Undecodable F item (slice cell item.start item.count.toNat) m) :
      ReadFails client transport item (.ModbusError s!"decode failed: {m}") 1

theorem emit_values (json : Bool) (item : ReadItem) (values : List (Value F)) :
    PrintsValues json item values
      (emit_read_result { item, values := values, ok := true } json) := by
  cases json
  · exact ⟨rfl, rfl, by simp, fun _ => rfl⟩
  · exact ⟨rfl, rfl, fun _ => rfl, by simp⟩

theorem emit_error (json : Bool) (item : ReadItem) (e : ModbusError) :
    PrintsError json e 1
      (emit_read_result (F := F) { item, values := [], ok := false, error := some e } json) := by
  cases json
  · exact ⟨rfl, by simp, fun _ => ⟨rfl, rfl⟩⟩
  · exact ⟨rfl, fun _ => ⟨rfl, rfl⟩, by simp⟩

omit [FloatOps F] in
theorem emit_failure_error (json : Bool) (e : ModbusError) (code : Int) :
    PrintsError json e code (emit_failure json (type_name e) (str e) code : Output F) := by
  cases json
  · exact ⟨rfl, by simp, fun _ => ⟨rfl, rfl⟩⟩
  · exact ⟨rfl, fun _ => ⟨rfl, rfl⟩, by simp⟩

/-- A `ModbusError` out of the `try` block is reported with the code of its kind. -/
theorem run_client_error {α : Type} {json : Bool} {transport : Transport} {body : Py Nat α}
    {emit : α → Except Raised (Output F)} {client : Client} {item : ReadItem} {e : ModbusError}
    {out : Output F} (hconnect : transport.connect = .error e)
    (hrun : run_client json transport body emit = .ok out) :
    ∃ code, ReadFails F client transport item e code ∧ PrintsError json e code out := by
  unfold run_client async_with at hrun
  rw [hconnect] at hrun
  cases e with
  | ModbusConnectionError message =>
    cases hrun
    exact ⟨2, .unreachable hconnect, emit_failure_error json (.ModbusConnectionError message) 2⟩
  | _ =>
    cases hrun
    exact ⟨1, .unconnected hconnect (by simp), emit_failure_error json _ 1⟩

/-- What a read prints of a result that its requests came to. -/
theorem emit_outcome {client : Client} {transport : Transport} (json : Bool) {item : ReadItem}
    {r : ReadResult F} (hconnect : transport.connect = .ok ())
    (h : ReadOutcome item (ended (read_chunks item) (final client transport)) r) :
    (∃ values, ReadAnswers client transport item values ∧ values.length = value_count item ∧
      PrintsValues json item values (emit_read_result r json)) ∨
    ∃ e code, ReadFails F client transport item e code ∧
      PrintsError json e code (emit_read_result r json) := by
  by_cases hany : ∃ p ∈ ended (read_chunks item) (final client transport), chunk_failure p ≠ none
  · obtain ⟨e, hfirst, rfl⟩ := h.failed hany
    exact .inr ⟨e, 1, .refused hconnect hfirst, emit_error json item e⟩
  · have hnone : ∀ p ∈ ended (read_chunks item) (final client transport),
        chunk_failure p = none := by
      intro p hp
      by_contra hfailed
      exact hany ⟨p, hp, hfailed⟩
    obtain ⟨cell, hcells, hdecode⟩ := h.read hnone
    rcases decode_cells_values hdecode (length_slice _ _ _) with
      ⟨values, rfl, hlen⟩ | ⟨m, hraised, rfl⟩
    · exact .inl ⟨values, ⟨cell, hcells, hdecode⟩, hlen, emit_values json item values⟩
    · exact .inr ⟨_, 1, .undecodable hconnect hcells hraised, emit_error json item _⟩

/-- A read that returns has printed one report. With code 0 it is the values of the item, as many
as it asks for, decoded from the cells of the answers to its requests. Otherwise it is the error,
once, for a client that does not connect, for the lowest request that failed, or for registers that
the answers carry and the decoder refuses, and only a connection that could not be made has the
code 2. -/
theorem every_read_reports (parsers : Parsers F) (transports : Link → Transport) {args : ReadArgs}
    {item : ReadItem} {client : Client} (built : build_read_item parsers args = .ok item)
    (made : make_client args.connection = .ok client) (count : 0 < item.count)
    (inside : InAddressSpace (item_range item)) {out : Output F}
    (hrun : run parsers transports (.read args) = .ok out) :
    (∃ values, ReadAnswers client (transports client.link) item values ∧
      values.length = value_count item ∧ PrintsValues args.json item values out) ∨
    ∃ e code, ReadFails F client (transports client.link) item e code ∧
      PrintsError args.json e code out := by
  rw [run_read_eq built made] at hrun
  cases hconnect : (transports client.link).connect with
  | error e =>
    obtain ⟨code, hfails, hprints⟩ := run_client_error hconnect hrun
    exact .inr ⟨e, code, hfails, hprints⟩
  | ok u =>
    have hvalid := validate_built built count
    have hbody : client.read (F := F) (transports client.link) [item] =
        plan_and_execute_reads [item] (numbered (ending client (transports client.link))) := by
      rw [Client.read, make_pdu_executor_eq made]
    rw [hbody] at hrun
    have htime : InTime client (transports client.link) (read_chunks item).length := by
      by_contra hlate
      obtain ⟨call, hcall, he⟩ := exists_late hlate
      obtain ⟨e, hraised, hother⟩ := read_one_error (F := F) hvalid inside hcall he
        not_isModbus_power_overflows
      rw [run_client_other hconnect hraised hother] at hrun
      cases hrun
    obtain ⟨r, hr, hcomes⟩ := read_one_ok (F := F) hvalid inside htime.isModbus
    rw [htime.ended_eq] at hcomes
    rw [run_client_ok hconnect hr] at hrun
    cases hrun
    exact emit_outcome args.json hconnect hcomes

end

/-- A device whose register 0 is 7. -/
def prompt_device (_ : Link) : Transport where
  connect := .ok ()
  send_and_receive _ _ := .ok [3, 2, 0, 7]

theorem a_read_prints_its_value : ∃ (out : Output Float) (values : List (Value Float)),
    run seven prompt_device (.read (read_one 0)) = .ok out ∧ values.length = 1 ∧
      ReadAnswers (plc 0) (prompt_device (plc 0).link) one_register values ∧
      PrintsValues false one_register values out := by
  have hrun : run seven prompt_device (.read (read_one 0)) =
      .ok (emit_read_result { item := one_register, values := [.int 7] } false) := rfl
  rcases @every_read_reports Float _ seven prompt_device (read_one 0) one_register (plc 0) rfl rfl
    (by decide) ⟨by decide, by decide⟩ _ hrun with
    ⟨values, hanswers, hlen, hprints⟩ | ⟨e, code, hfails, hprints⟩
  · exact ⟨_, values, hrun, hlen, hanswers, hprints⟩
  · have hzero : 0 = code := hprints.exit_code
    cases hfails <;> cases hzero

end pymod.cli
