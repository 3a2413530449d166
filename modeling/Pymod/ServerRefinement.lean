-- The server over the store of `pymod serve` refines the data model: one
-- request, and a whole session.
import Pymod.Server
import Pymod.DataModel

namespace pymod.server

open errors codec pdu types data_model BitStrings Slices

/-! ## The store of a model -/

def bool_store (mem : Int → Option Bool) : Store := fun x => (mem x).map .bool

def register_cell (r : Register) : Cell := .int r.val

def register_store (mem : Int → Option Register) : Store := fun x => (mem x).map register_cell

/-- The store that holds what the model maps. -/
def concrete (m : DataModel) : SimState where
  holding := register_store m.holding_register
  input := register_store m.input_register
  coil := bool_store m.coil
  discrete := bool_store m.discrete_input

/-- The registers hold integers in `0..0xFFFF`, and the coils and discrete inputs hold bools. -/
structure LegalState (state : SimState) : Prop where
  holding : ∀ x c, state.holding x = some c → ∃ r, c = .int r ∧ IsRegister r
  input : ∀ x c, state.input x = some c → ∃ r, c = .int r ∧ IsRegister r
  coil : ∀ x c, state.coil x = some c → ∃ b, c = .bool b
  discrete : ∀ x c, state.discrete x = some c → ∃ b, c = .bool b

theorem exists_register_store {store : Store}
    (h : ∀ x c, store x = some c → ∃ r, c = .int r ∧ IsRegister r) :
    ∃ mem, store = register_store mem := by
  have hall : ∀ x, ∃ o : Option Register, store x = o.map register_cell := by
    intro x
    cases hx : store x with
    | none => exact ⟨none, rfl⟩
    | some c =>
      obtain ⟨r, rfl, hr⟩ := h x c hx
      exact ⟨some ⟨r, hr⟩, rfl⟩
  choose mem hmem using hall
  exact ⟨mem, funext hmem⟩

theorem exists_bool_store {store : Store} (h : ∀ x c, store x = some c → ∃ b, c = .bool b) :
    ∃ mem, store = bool_store mem := by
  have hall : ∀ x, ∃ o : Option Bool, store x = o.map .bool := by
    intro x
    cases hx : store x with
    | none => exact ⟨none, rfl⟩
    | some c =>
      obtain ⟨b, rfl⟩ := h x c hx
      exact ⟨some b, rfl⟩
  choose mem hmem using hall
  exact ⟨mem, funext hmem⟩

/-- Every legal store is the store of a model. -/
theorem exists_concrete {state : SimState} (h : LegalState state) : ∃ m, state = concrete m := by
  obtain ⟨holding, hh⟩ := exists_register_store h.holding
  obtain ⟨input, hi⟩ := exists_register_store h.input
  obtain ⟨coil, hc⟩ := exists_bool_store h.coil
  obtain ⟨discrete, hd⟩ := exists_bool_store h.discrete
  refine ⟨⟨coil, discrete, holding, input⟩, ?_⟩
  cases state
  simp only at hh hi hc hd
  subst hh hi hc hd
  rfl

/-! ## Reading and writing the store -/

theorem read_stored {α : Type} {mem : Int → Option α} {f : α → Cell} {start : Int} {count : Nat}
    {values : List α} (area : Area) (h : stored mem start count values) :
    (List.range count).mapM (fun i : Nat => SimState.lookup area (fun x => (mem x).map f)
      (start + i)) = .ok (values.map f) := by
  have hall : ∀ i ∈ List.range count, ∃ y,
      SimState.lookup area (fun x => (mem x).map f) (start + i) = .ok y ∧
        (mem (start + i)).map f = some y := by
    intro i hi
    have hmem : mem (start + i) ∈ values.map some := by
      rw [← show slice mem start count = values.map some from h]
      exact List.mem_map_of_mem (f := fun i : Nat => mem (start + i)) hi
    obtain ⟨v, _, hv⟩ := List.mem_map.mp hmem
    refine ⟨f v, ?_, by rw [← hv]; rfl⟩
    simp only [SimState.lookup, ← hv]
    rfl
  obtain ⟨ys, hys, hrel⟩ := mapM_forall₂ hall
  rw [hys]
  have hmap := map_eq_map_of_forall₂ hrel
  have hslice : (List.range count).map (fun i : Nat => (mem (start + i)).map f) =
      (values.map f).map some := by
    have := congrArg (List.map (Option.map f)) h
    simpa [slice, List.map_map, Function.comp_def] using this
  rw [hslice] at hmap
  exact congrArg Except.ok (List.map_injective_iff.mpr (Option.some_injective _) hmap).symm

theorem read_unmapped {α : Type} {mem : Int → Option α} {f : α → Cell} {start : Int} {count : Nat}
    (area : Area) (h : Unmapped mem start count) :
    ∃ msg, (List.range count).mapM (fun i : Nat => SimState.lookup area (fun x => (mem x).map f)
      (start + i)) = .error (ExceptionClass.IllegalDataAddress.new msg) := by
  obtain ⟨x, h0, h1, hx⟩ := h
  have hi : (x - start).toNat ∈ List.range count := List.mem_range.mpr (by omega)
  have haddr : start + ((x - start).toNat : Int) = x := by omega
  have hfail : SimState.lookup area (fun x => (mem x).map f) (start + ((x - start).toNat : Int)) =
      .error (ExceptionClass.IllegalDataAddress.new s!"no value mapped at {area.value}/{x}") := by
    simp only [haddr, SimState.lookup, hx, Option.map_none]
    rfl
  obtain ⟨e, he⟩ := mapM_error (f := fun i : Nat =>
    SimState.lookup area (fun x => (mem x).map f) (start + i)) hi hfail
  obtain ⟨i, _, hei⟩ := error_of_mapM he
  simp only [SimState.lookup] at hei
  split at hei
  · cases hei
    exact ⟨_, he⟩
  · cases hei

theorem foldl_update (values : List Cell) (k : Nat) (address : Int) (store : Store) :
    (values.zipIdx k).foldl
        (fun store v => Function.update store (address + v.2) (some v.1)) store =
      fun x => if address + k ≤ x ∧ x < address + k + values.length then
        values[(x - address - k).toNat]? else store x := by
  induction values generalizing k store with
  | nil =>
    funext x
    simp
  | cons v vs ih =>
    rw [List.zipIdx_cons, List.foldl_cons, ih]
    funext x
    rw [List.length_cons]
    rcases Int.lt_trichotomy x (address + k) with hlt | heq | hgt
    · have h1 : ¬ (address + (k + 1 : Nat) ≤ x ∧ x < address + (k + 1 : Nat) + vs.length) := by
        omega
      have h2 : ¬ (address + k ≤ x ∧ x < address + k + (vs.length + 1 : Nat)) := by omega
      rw [if_neg h1, if_neg h2, Function.update_of_ne (by omega)]
    · have h1 : ¬ (address + (k + 1 : Nat) ≤ x ∧ x < address + (k + 1 : Nat) + vs.length) := by
        omega
      have h2 : address + k ≤ x ∧ x < address + k + (vs.length + 1 : Nat) := by omega
      have h3 : (x - address - k).toNat = 0 := by omega
      rw [if_neg h1, if_pos h2, h3, heq, Function.update_self]
      rfl
    · rw [Function.update_of_ne (by omega)]
      have hidx : (x - address - k).toNat = (x - address - (k + 1 : Nat)).toNat + 1 := by omega
      by_cases h : x < address + k + (vs.length + 1 : Nat)
      · rw [if_pos ⟨by omega, by omega⟩, if_pos ⟨by omega, h⟩, hidx]
        rfl
      · rw [if_neg (by omega), if_neg (by omega)]

/-- Writing the store of a map writes the map. -/
theorem write_cells_overwrite {α : Type} (f : α → Cell) (mem : Int → Option α) (start : Int)
    (values : List α) :
    SimState.write_cells (fun x => (mem x).map f) start (values.map f) =
      fun x => (overwrite mem start values x).map f := by
  unfold SimState.write_cells
  rw [foldl_update]
  funext x
  simp only [Int.natCast_zero, Int.add_zero, Int.sub_zero, List.length_map, overwrite]
  split
  · rw [List.getElem?_map]
  · rfl

/-! ## One request -/

section

variable {unit_id : Option Int} {uid : Int} {fc : UInt8} {rest : Bytes} {readonly : Bool}

theorem encode_exception_response_ok (fc : UInt8) {code : Int} (h0 : 0 ≤ code) (h1 : code ≤ 0xFF) :
    encode_exception_response fc.toNat code = .ok (exception_pdu fc (UInt8.ofNat code.toNat)) := by
  have hfc := fc.toNat_lt
  unfold encode_exception_response
  rw [if_neg (by omega), if_neg (by omega), Int.toNat_natCast, UInt8.ofNat_toNat]
  rfl

theorem dispatch_accepted (h : Accepts unit_id uid) (state : SimState) :
    dispatch (sim_server unit_id readonly) uid (fc :: rest) state =
      Py.except_with (handle (sim_server unit_id readonly) fc (fc :: rest)) (except_dispatch fc)
        state := by
  have hunit : ¬ ((sim_server unit_id readonly).unit_id ≠ none ∧
      some uid ≠ (sim_server unit_id readonly).unit_id) := by
    rcases h with h | h
    · exact fun hc => hc.1 h
    · exact fun hc => hc.2 h.symm
  unfold dispatch
  simp only
  rw [if_neg hunit]

theorem dispatch_ok {resp : Bytes} {state state' : SimState} (h : Accepts unit_id uid)
    (hh : handle (sim_server unit_id readonly) fc (fc :: rest) state = (.ok resp, state')) :
    dispatch (sim_server unit_id readonly) uid (fc :: rest) state = (.ok resp, state') := by
  rw [dispatch_accepted h, Py.except_with, hh]

theorem dispatch_exception {cls : ExceptionClass} {msg : String} {state state' : SimState}
    (h : Accepts unit_id uid) (h0 : 0 ≤ cls.code) (h1 : cls.code ≤ 0xFF)
    (hh : handle (sim_server unit_id readonly) fc (fc :: rest) state =
      (.error (cls.new msg), state')) :
    dispatch (sim_server unit_id readonly) uid (fc :: rest) state =
      (.ok (exception_pdu fc (UInt8.ofNat cls.code.toNat)), state') := by
  rw [dispatch_accepted h, Py.except_with, hh]
  simp only [ExceptionClass.new, except_dispatch, encode_exception_response_ok fc h0 h1]

end

/-! ## Reads -/

theorem to_bool_list_ok (values : List Bool) :
    to_bool_list (values.map .bool) values.length = .ok values := by
  unfold to_bool_list
  rw [if_neg (by simp), List.map_map]
  exact congrArg Except.ok (List.map_id _)

theorem to_int_list_ok (values : List Register) :
    to_int_list (values.map register_cell) values.length = .ok (register_words values) := by
  unfold to_int_list
  rw [if_neg (by simp), List.mapM_map]
  exact mapM_ok fun r _ => if_neg (fun h => h r.property)

theorem length_of_stored {α : Type} {mem : Int → Option α} {start : Int} {count : Nat}
    {values : List α} (h : stored mem start count values) : values.length = count := by
  have := congrArg List.length h
  simpa using this.symm

/-- A read request that is well formed, on the map of its area. -/
theorem decode_request_read_words {fc : UInt8} {maximum : Int} {name : String} (start : Register)
    {count : Nat} (h0 : 1 ≤ count) (h1 : (count : Int) ≤ maximum) (hmax : maximum ≤ 2000) :
    decode_request_read (words fc start count) maximum name = .ok (start.val, (count : Int)) := by
  have hu := unpack_HH_words' fc start.property (b := count) ⟨by omega, by omega⟩
  rw [decode_request_read_ok (length_words _ _ _) (by rw [hu]; simp only; omega)
    (by rw [hu]; exact h1), hu]

theorem register_words_legal (values : List Register) :
    ∀ v ∈ register_words values, IsRegister v := by
  intro v hv
  obtain ⟨r, _, rfl⟩ := List.mem_map.mp hv
  exact r.property

section

variable {area : Area} {start : Int} {count : Nat}

/-- A read of the store of a map, when the stretch is mapped. -/
theorem sim_read_stored {α : Type} {mem : Int → Option α} {f : α → Cell} {values : List α}
    {state : SimState} (hstore : state.store area = fun x => (mem x).map f)
    (h : stored mem start count values) :
    SimState.read area start count state = (.ok (values.map f), state) := by
  unfold SimState.read
  rw [Int.toNat_natCast, hstore, read_stored area h]

theorem sim_read_unmapped {α : Type} {mem : Int → Option α} (area : Area) (f : α → Cell)
    (state : SimState) (hstore : state.store area = fun x => (mem x).map f) (h : Unmapped mem start count) :
    ∃ msg, SimState.read area start count state =
      (.error (ExceptionClass.IllegalDataAddress.new msg), state) := by
  obtain ⟨msg, hmsg⟩ := read_unmapped (f := f) area h
  refine ⟨msg, ?_⟩
  unfold SimState.read
  rw [Int.toNat_natCast, hstore, hmsg]

variable {α : Type} {server : Server SimState} {state : SimState}
  {request : Except PyError (Int × Int)} {convert : List Cell → Int → Except PyError α}
  {respond : α → Except PyError Bytes} {n : Int}

theorem handle_read_error {e : PyError} (h : request = .error e) :
    handle_read server area request convert respond state = (.error e, state) := by
  subst h
  exact Py.bind_error (Py.lift_run _ _)

theorem handle_read_raises {e : PyError} (h : request = .ok (start, n))
    (hread : server.on_read area start n state = (.error e, state)) :
    handle_read server area request convert respond state = (.error e, state) := by
  subst h
  unfold handle_read
  rw [Py.bind_ok (Py.lift_run _ _)]
  exact Py.bind_error hread

theorem handle_read_ok {cells : List Cell} {converted : α} {resp : Bytes}
    (h : request = .ok (start, n)) (hread : server.on_read area start n state = (.ok cells, state))
    (hconvert : convert cells n = .ok converted) (hrespond : respond converted = .ok resp) :
    handle_read server area request convert respond state = (.ok resp, state) := by
  subst h
  unfold handle_read
  rw [Py.bind_ok (Py.lift_run _ _)]
  simp only
  rw [Py.bind_ok hread, hconvert, Py.bind_ok (Py.lift_run _ _), hrespond]
  rfl

end

section

variable {unit_id : Option Int} {readonly : Bool} {m : DataModel} {start : Int} {count : Nat}

/-- The reads of `handle`: which decoder, which conversion and which encoder each code has. -/
theorem handle_reads (server : Server SimState) (pdu : Bytes) :
    handle server 0x01 pdu = handle_read server .COIL (decode_request_read_coils pdu)
        to_bool_list encode_response_read_coils ∧
      handle server 0x02 pdu = handle_read server .DISCRETE_INPUT
        (decode_request_read_discrete_inputs pdu) to_bool_list
        encode_response_read_discrete_inputs ∧
      handle server 0x03 pdu = handle_read server .HOLDING_REGISTER
        (decode_request_read_holding_registers pdu) to_int_list
        encode_response_read_holding_registers ∧
      handle server 0x04 pdu = handle_read server .INPUT_REGISTER
        (decode_request_read_input_registers pdu) to_int_list
        encode_response_read_input_registers :=
  ⟨rfl, rfl, rfl, rfl⟩

theorem encode_response_bits_stored {fc : UInt8} {mem : Int → Option Bool} {values : List Bool}
    (h : stored mem start count values) (h1 : count ≤ 2000) :
    encode_response_bits fc values = .ok (read_response fc (pack values)) := by
  rw [encode_response_bits_ok (by rw [length_of_stored h]; omega), read_response, length_pack]

theorem encode_response_registers_stored {fc : UInt8} {mem : Int → Option Register}
    {values : List Register} (h : stored mem start count values) (h1 : count ≤ 125) :
    encode_response_registers fc (register_words values) =
      .ok (read_response fc (register_data (register_words values))) := by
  have hlen : (register_words values).length = count := by
    rw [register_words, List.length_map, length_of_stored h]
  rw [encode_response_registers_ok (by rw [hlen]; omega) (register_words_legal values),
    read_response, length_register_data]

theorem to_bool_list_stored {mem : Int → Option Bool} {values : List Bool}
    (h : stored mem start count values) :
    to_bool_list (values.map .bool) count = .ok values := by
  rw [← length_of_stored h]
  exact to_bool_list_ok values

theorem to_int_list_stored {mem : Int → Option Register} {values : List Register}
    (h : stored mem start count values) :
    to_int_list (values.map register_cell) count = .ok (register_words values) := by
  rw [← length_of_stored h]
  exact to_int_list_ok values

/-- A well-formed read of mapped addresses gives the stored values. -/
theorem handle_read_stored {area : Area} {start : Register} {data : Bytes} (h0 : 1 ≤ count)
    (h1 : count ≤ (read_code_limit area).2) (hdata : m.Holds area start count data) :
    handle (sim_server unit_id readonly) (read_code_limit area).1
        (words (read_code_limit area).1 start count) (concrete m) =
      (.ok (read_response (read_code_limit area).1 data), concrete m) := by
  obtain ⟨hc, hd, hh, hi⟩ := handle_reads (sim_server unit_id readonly)
    (words (read_code_limit area).1 start count)
  have hle : (count : Int) ≤ (read_code_limit area).2 := Int.ofNat_le.mpr h1
  cases hdata with
  | coil hs =>
    exact (congrFun hc _).trans (handle_read_ok
      (decode_request_read_words start h0 hle (by decide))
      (sim_read_stored rfl hs) (to_bool_list_stored hs) (encode_response_bits_stored hs h1))
  | discrete_input hs =>
    exact (congrFun hd _).trans (handle_read_ok
      (decode_request_read_words start h0 hle (by decide))
      (sim_read_stored rfl hs) (to_bool_list_stored hs) (encode_response_bits_stored hs h1))
  | holding_register hs =>
    exact (congrFun hh _).trans (handle_read_ok
      (decode_request_read_words start h0 hle (by decide))
      (sim_read_stored rfl hs) (to_int_list_stored hs) (encode_response_registers_stored hs h1))
  | input_register hs =>
    exact (congrFun hi _).trans (handle_read_ok
      (decode_request_read_words start h0 hle (by decide))
      (sim_read_stored rfl hs) (to_int_list_stored hs) (encode_response_registers_stored hs h1))

/-- A well-formed read that touches an unmapped address raises `IllegalDataAddress`. -/
theorem handle_read_unmapped (unit_id : Option Int) (readonly : Bool) {area : Area}
    {start : Register} (h0 : 1 ≤ count)
    (h1 : count ≤ (read_code_limit area).2) (hmap : m.unmapped area start count) :
    ∃ msg, handle (sim_server unit_id readonly) (read_code_limit area).1
        (words (read_code_limit area).1 start count) (concrete m) =
      (.error (ExceptionClass.IllegalDataAddress.new msg), concrete m) := by
  obtain ⟨hc, hd, hh, hi⟩ := handle_reads (sim_server unit_id readonly)
    (words (read_code_limit area).1 start count)
  have hle : (count : Int) ≤ (read_code_limit area).2 := Int.ofNat_le.mpr h1
  cases area with
  | COIL =>
    obtain ⟨msg, hmsg⟩ := sim_read_unmapped .COIL .bool (concrete m) rfl hmap
    exact ⟨msg, (congrFun hc _).trans
      (handle_read_raises (decode_request_read_words start h0 hle (by decide)) hmsg)⟩
  | DISCRETE_INPUT =>
    obtain ⟨msg, hmsg⟩ := sim_read_unmapped .DISCRETE_INPUT .bool (concrete m) rfl hmap
    exact ⟨msg, (congrFun hd _).trans
      (handle_read_raises (decode_request_read_words start h0 hle (by decide)) hmsg)⟩
  | HOLDING_REGISTER =>
    obtain ⟨msg, hmsg⟩ := sim_read_unmapped .HOLDING_REGISTER register_cell (concrete m) rfl
      hmap
    exact ⟨msg, (congrFun hh _).trans
      (handle_read_raises (decode_request_read_words start h0 hle (by decide)) hmsg)⟩
  | INPUT_REGISTER =>
    obtain ⟨msg, hmsg⟩ := sim_read_unmapped .INPUT_REGISTER register_cell (concrete m) rfl hmap
    exact ⟨msg, (congrFun hi _).trans
      (handle_read_raises (decode_request_read_words start h0 hle (by decide)) hmsg)⟩

end

/-! ## Writes -/

section

variable {unit_id : Option Int} {m : DataModel}

/-- The writes of `handle`, when the server has `on_write`. -/
theorem handle_writes {fc : UInt8} (pdu : Bytes) (h : fc ∈ write_codes) :
    handle (sim_server unit_id false) fc pdu = handle_write SimState.write fc pdu := by
  simp only [write_codes, List.mem_cons, List.not_mem_nil, or_false] at h
  rcases h with rfl | rfl | rfl | rfl <;> rfl

theorem sim_write_coils (m : DataModel) (start : Int) (values : List Bool) :
    SimState.write .COIL start (values.map .bool) (concrete m) =
      (.ok (), concrete { m with coil := overwrite m.coil start values }) := by
  exact congrArg (fun store => (Except.ok (), { concrete m with coil := store }))
    (write_cells_overwrite Cell.bool m.coil start values)

theorem sim_write_registers (m : DataModel) (start : Int) (values : List Register) :
    SimState.write .HOLDING_REGISTER start (values.map register_cell) (concrete m) =
      (.ok (), concrete { m with holding_register := overwrite m.holding_register start values }) := by
  exact congrArg (fun store => (Except.ok (), { concrete m with holding := store }))
    (write_cells_overwrite register_cell m.holding_register start values)

theorem map_int_register_words (values : List Register) :
    (register_words values).map .int = values.map register_cell := by
  rw [register_words, List.map_map]
  rfl

/-- A coil write that is well formed sets the coils and gives the echo. -/
theorem handle_write_coils {pdu echo : Bytes} {start : Int} {values : List Bool} {fc : UInt8}
    {rest : Bytes} (hpdu : pdu = fc :: rest)
    (h : Carries pdu (.write_coils start values) echo) :
    handle (sim_server unit_id false) fc pdu (concrete m) =
      (.ok echo, concrete { m with coil := overwrite m.coil start values }) := by
  cases h with
  | write_single_coil address value =>
    obtain ⟨rfl, _⟩ := List.cons.inj hpdu
    have hu := unpack_HH_words' 0x05 address.property (isRegister_coil_word value)
    have hdec := decode_request_write_single_coil_ok (length_words 0x05 address (coil_word value))
      (by rw [hu])
    rw [hu] at hdec
    rw [handle_writes _ (by decide), handle_write_single_coil, hdec,
      Py.bind_ok (Py.lift_run _ _)]
    simp only
    have hwrite : SimState.write .COIL address [.bool value] (concrete m) = _ :=
      sim_write_coils m address [value]
    rw [Py.bind_ok hwrite]
    have hresp : encode_response_write_single_coil address value =
        .ok (words 0x05 address (coil_word value)) :=
      pack_BHH_ok _ address.property (isRegister_coil_word value)
    rw [hresp]
    rfl
  | write_multiple_coils start count data h0 h1 hdata =>
    obtain ⟨rfl, _⟩ := List.cons.inj hpdu
    have hdec : decode_request_write_multiple_coils (write_request 0x0F start count data) =
        .ok (start.val, unpack count data) :=
      decode_write_coils_request 0x0F start.property (by omega) (by omega) (by omega)
    rw [handle_writes _ (by decide), handle_write_multiple_coils, hdec,
      Py.bind_ok (Py.lift_run _ _)]
    simp only
    rw [Py.bind_ok (sim_write_coils m start (unpack count data)), length_unpack]
    have hresp : encode_response_write_multiple_coils start count = .ok (words 0x0F start count) :=
      pack_BHH_ok _ start.property ⟨by omega, by omega⟩
    rw [hresp]
    rfl

/-- A register write that is well formed sets the registers and gives the echo. -/
theorem handle_write_registers {pdu echo : Bytes} {start : Int} {values : List Register}
    {fc : UInt8} {rest : Bytes} (hpdu : pdu = fc :: rest)
    (h : Carries pdu (.write_registers start values) echo) :
    handle (sim_server unit_id false) fc pdu (concrete m) =
      (.ok echo,
        concrete { m with holding_register := overwrite m.holding_register start values }) := by
  cases h with
  | write_single_register address value =>
    obtain ⟨rfl, _⟩ := List.cons.inj hpdu
    have hu := unpack_HH_words' 0x06 address.property value.property
    have hdec := decode_request_write_single_register_ok (length_words 0x06 address value)
    rw [hu] at hdec
    rw [handle_writes _ (by decide), handle_write_single_register, hdec,
      Py.bind_ok (Py.lift_run _ _)]
    simp only
    have hwrite : SimState.write .HOLDING_REGISTER address [.int value.val] (concrete m) = _ :=
      sim_write_registers m address [value]
    rw [Py.bind_ok hwrite]
    have hresp : encode_response_write_single_register address value =
        .ok (words 0x06 address value) := pack_BHH_ok _ address.property value.property
    rw [hresp]
    rfl
  | write_multiple_registers start values h0 h1 =>
    obtain ⟨rfl, _⟩ := List.cons.inj hpdu
    have hlen : (register_words values).length = values.length := List.length_map _
    have hdec : decode_request_write_multiple_registers (write_request 0x10 start values.length
        (register_data (register_words values))) = .ok (start.val, register_words values) := by
      rw [← hlen]
      exact decode_write_registers_request 0x10 start.property (by omega) (by omega)
        (register_words_legal values)
    rw [handle_writes _ (by decide), handle_write_multiple_registers, hdec,
      Py.bind_ok (Py.lift_run _ _)]
    simp only
    rw [map_int_register_words, Py.bind_ok (sim_write_registers m start values), hlen]
    have hresp : encode_response_write_multiple_registers start values.length =
        .ok (words 0x10 start values.length) :=
      pack_BHH_ok _ start.property ⟨by omega, by omega⟩
    rw [hresp]
    rfl

end

/-! ## Requests of wrong shape -/

section

variable {unit_id : Option Int} {state : SimState} {fc : UInt8} {rest : Bytes}

theorem carries_of_read_shape (area : Area) {pdu : Bytes}
    (hfc : pdu.head? = some (read_code_limit area).1) (hlen : pdu.length = 5)
    (h0 : 1 ≤ (unpack_HH pdu).2) (h1 : (unpack_HH pdu).2 ≤ (read_code_limit area).2) :
    ∃ r echo, Carries pdu r echo := by
  have hpdu := words_unpack_HH pdu (by omega) hfc
  rw [List.drop_eq_nil_of_le (by omega), List.append_nil] at hpdu
  have hcarries := Carries.read area ⟨_, (isRegister_unpack_HH pdu (by omega)).1⟩
    (unpack_HH pdu).2.toNat (by omega) (by omega)
  have hcount : ((unpack_HH pdu).2.toNat : Int) = (unpack_HH pdu).2 := by omega
  rw [hcount, ← hpdu] at hcarries
  exact ⟨_, _, hcarries⟩

theorem decode_request_read_malformed (area : Area) (name : String) {maximum : Int}
    (hmax : maximum = (read_code_limit area).2)
    (hshape : ∀ r echo, ¬ Carries ((read_code_limit area).1 :: rest) r echo) :
    ∃ e, decode_request_read ((read_code_limit area).1 :: rest) maximum name = .error e ∧
      IsIllegalValue e := by
  apply decode_request_read_error
  rintro ⟨hlen, h0, h1⟩
  obtain ⟨r, echo, h⟩ := carries_of_read_shape area rfl hlen h0 (hmax ▸ h1)
  exact hshape r echo h

theorem malformed_write_single_coil (hshape : ∀ r echo, ¬ Carries (0x05 :: rest) r echo) :
    ∃ e, decode_request_write_single_coil (0x05 :: rest) = .error e ∧ IsIllegalValue e := by
  apply decode_request_write_single_coil_error
  rintro ⟨hlen, value, hvalue⟩
  have hpdu := words_unpack_HH (0x05 :: rest) (by omega) rfl
  rw [List.drop_eq_nil_of_le (by omega), List.append_nil, hvalue] at hpdu
  have hregs := isRegister_unpack_HH (0x05 :: rest) (by omega)
  have hcarries := Carries.write_single_coil ⟨_, hregs.1⟩ value
  rw [← hpdu] at hcarries
  exact hshape _ _ hcarries

theorem malformed_write_single_register (hshape : ∀ r echo, ¬ Carries (0x06 :: rest) r echo) :
    ∃ e, decode_request_write_single_register (0x06 :: rest) = .error e ∧ IsIllegalValue e := by
  apply decode_request_write_single_register_error
  intro hlen
  have hpdu := words_unpack_HH (0x06 :: rest) (by omega) rfl
  rw [List.drop_eq_nil_of_le (by omega), List.append_nil] at hpdu
  have hregs := isRegister_unpack_HH (0x06 :: rest) (by omega)
  have hcarries := Carries.write_single_register ⟨_, hregs.1⟩ ⟨_, hregs.2⟩
  rw [← hpdu] at hcarries
  exact hshape _ _ hcarries

theorem malformed_write_multiple_coils (hshape : ∀ r echo, ¬ Carries (0x0F :: rest) r echo) :
    ∃ e, decode_request_write_multiple_coils (0x0F :: rest) = .error e ∧ IsIllegalValue e := by
  obtain ⟨e, he, hvalue⟩ : ∃ e, decode_request_write (0x0F :: rest) MAX_WRITE_COILS
      (fun count => (count + 7) / 8) "FC15" = .error e ∧ IsIllegalValue e :=
    decode_request_write_error (by
      intro hs
      obtain ⟨hpdu, hdata⟩ := multiple_write_shape hs rfl
      have hleast := hs.least
      have hmost := hs.most
      simp only [MAX_WRITE_COILS] at hmost
      have hcount : ((unpack_HH (0x0F :: rest)).2.toNat : Int) = (unpack_HH (0x0F :: rest)).2 := by
        omega
      have hlong := hs.long
      have hregs := isRegister_unpack_HH (0x0F :: rest) (by omega)
      have hcarries := Carries.write_multiple_coils ⟨_, hregs.1⟩
        (unpack_HH (0x0F :: rest)).2.toNat ((0x0F :: rest).drop 6) (by omega) (by omega) (by omega)
      rw [hcount, ← hpdu] at hcarries
      exact hshape _ _ hcarries)
  refine ⟨e, ?_, hvalue⟩
  unfold decode_request_write_multiple_coils
  rw [he]
  rfl

theorem malformed_write_multiple_registers (hshape : ∀ r echo, ¬ Carries (0x10 :: rest) r echo) :
    ∃ e, decode_request_write_multiple_registers (0x10 :: rest) = .error e ∧
      IsIllegalValue e := by
  obtain ⟨e, he, hvalue⟩ : ∃ e, decode_request_write (0x10 :: rest) MAX_WRITE_REGISTERS
      (fun count => 2 * count) "FC16" = .error e ∧ IsIllegalValue e :=
    decode_request_write_error (by
      intro hs
      obtain ⟨hpdu, hdata⟩ := multiple_write_shape hs rfl
      have hleast := hs.least
      have hmost := hs.most
      simp only [MAX_WRITE_REGISTERS] at hmost
      have hlong := hs.long
      obtain ⟨values, _, hlen, hlegal, hraw⟩ := unpack_H_ok
        (unpack_HH (0x10 :: rest)).2.toNat ((0x10 :: rest).drop 6) (by omega)
      -- The data bytes are those of legal registers, so they are a list of `Register`.
      have hwords : register_words (values.attach.map fun v => ⟨v.val, hlegal v.val v.property⟩) =
          values := by
        simp [register_words, List.map_map, Function.comp_def]
      have hcarries := Carries.write_multiple_registers
        ⟨_, (isRegister_unpack_HH (0x10 :: rest) (by omega)).1⟩
        (values.attach.map fun v => ⟨v.val, hlegal v.val v.property⟩)
        (by rw [List.length_map, List.length_attach]; omega)
        (by rw [List.length_map, List.length_attach]; omega)
      have hcount : ((values.length : Nat) : Int) = (unpack_HH (0x10 :: rest)).2 := by omega
      rw [hwords, List.length_map, List.length_attach, hcount, ← hraw, ← hpdu] at hcarries
      exact hshape _ _ hcarries)
  refine ⟨e, ?_, hvalue⟩
  unfold decode_request_write_multiple_registers
  rw [he]
  rfl

/-- A request of a supported code that carries nothing raises `IllegalDataValue`. -/
theorem handle_malformed {readonly : Bool} (unit_id : Option Int) (state : SimState) (hfc : Supported (!readonly) fc)
    (hshape : ∀ r echo, ¬ Carries (fc :: rest) r echo) :
    ∃ msg, handle (sim_server unit_id readonly) fc (fc :: rest) state =
      (.error (ExceptionClass.IllegalDataValue.new msg), state) := by
  obtain ⟨hc, hd, hh, hi⟩ := handle_reads (sim_server unit_id readonly) (fc :: rest)
  rcases hfc with hfc | ⟨hw, hfc⟩
  · simp only [read_codes, List.mem_cons, List.not_mem_nil, or_false] at hfc
    rcases hfc with rfl | rfl | rfl | rfl
    · obtain ⟨e, he, msg, rfl⟩ := decode_request_read_malformed .COIL "FC01" rfl hshape
      exact ⟨msg, (congrFun hc _).trans (handle_read_error he)⟩
    · obtain ⟨e, he, msg, rfl⟩ :=
        decode_request_read_malformed .DISCRETE_INPUT "FC02" rfl hshape
      exact ⟨msg, (congrFun hd _).trans (handle_read_error he)⟩
    · obtain ⟨e, he, msg, rfl⟩ :=
        decode_request_read_malformed .HOLDING_REGISTER "FC03" rfl hshape
      exact ⟨msg, (congrFun hh _).trans (handle_read_error he)⟩
    · obtain ⟨e, he, msg, rfl⟩ :=
        decode_request_read_malformed .INPUT_REGISTER "FC04" rfl hshape
      exact ⟨msg, (congrFun hi _).trans (handle_read_error he)⟩
  · obtain rfl : readonly = false := by simpa using hw
    have hwrites : handle (sim_server unit_id false) fc (fc :: rest) = _ :=
      handle_writes (fc :: rest) hfc
    simp only [write_codes, List.mem_cons, List.not_mem_nil, or_false] at hfc
    rcases hfc with rfl | rfl | rfl | rfl
    · obtain ⟨e, he, msg, rfl⟩ := malformed_write_single_coil hshape
      exact ⟨msg, (congrFun hwrites _).trans (Py.bind_error (by rw [he]; rfl))⟩
    · obtain ⟨e, he, msg, rfl⟩ := malformed_write_single_register hshape
      exact ⟨msg, (congrFun hwrites _).trans (Py.bind_error (by rw [he]; rfl))⟩
    · obtain ⟨e, he, msg, rfl⟩ := malformed_write_multiple_coils hshape
      exact ⟨msg, (congrFun hwrites _).trans (Py.bind_error (by rw [he]; rfl))⟩
    · obtain ⟨e, he, msg, rfl⟩ := malformed_write_multiple_registers hshape
      exact ⟨msg, (congrFun hwrites _).trans (Py.bind_error (by rw [he]; rfl))⟩

end

/-! ## The refinement -/

section

variable {unit_id : Option Int} {readonly : Bool}

theorem handle_unsupported {fc : UInt8} {pdu : Bytes} {state : SimState}
    (h : ¬ Supported (!readonly) fc) :
    handle (sim_server unit_id readonly) fc pdu state = (.ok (exception_pdu fc 0x01), state) := by
  have hexc : encode_exception_response fc.toNat ExceptionClass.IllegalFunction.code =
      .ok (exception_pdu fc 0x01) := encode_exception_response_ok fc (by decide) (by decide)
  have hne : ∀ c ∈ read_codes, fc ≠ c := fun c hc hfc => h (Or.inl (hfc ▸ hc))
  unfold handle
  rw [if_neg (hne FC_READ_COILS (by decide)), if_neg (hne FC_READ_DISCRETE_INPUTS (by decide)),
    if_neg (hne FC_READ_HOLDING_REGISTERS (by decide)),
    if_neg (hne FC_READ_INPUT_REGISTERS (by decide))]
  by_cases hw : fc ∈ write_codes
  · obtain rfl : readonly = true := by
      by_contra hro
      exact h (Or.inr ⟨by simpa using hro, hw⟩)
    rw [if_pos (show fc ∈ [FC_WRITE_SINGLE_COIL, FC_WRITE_SINGLE_REGISTER,
      FC_WRITE_MULTIPLE_COILS, FC_WRITE_MULTIPLE_REGISTERS] from hw)]
    simp only [sim_server, if_true, hexc]
    rfl
  · rw [if_neg (show ¬ fc ∈ [FC_WRITE_SINGLE_COIL, FC_WRITE_SINGLE_REGISTER,
      FC_WRITE_MULTIPLE_COILS, FC_WRITE_MULTIPLE_REGISTERS] from hw), hexc]
    rfl

theorem carries_cons {pdu echo : Bytes} {r : Request} (h : Carries pdu r echo) :
    ∃ fc rest, pdu = fc :: rest := by
  cases h <;> exact ⟨_, _, rfl⟩

/-- The server does what the data model says. -/
theorem dispatch_of_answers (readonly : Bool) {uid : Int} {pdu resp : Bytes} {m m' : DataModel}
    (h : Answers unit_id (!readonly) m uid pdu m' resp) :
    dispatch (sim_server unit_id readonly) uid pdu (concrete m) = (.ok resp, concrete m') := by
  cases h with
  | empty => rfl
  | @other_unit fc rest hunit =>
    have hcond : (sim_server unit_id readonly).unit_id ≠ none ∧
        some uid ≠ (sim_server unit_id readonly).unit_id :=
      ⟨fun h => hunit (Or.inl h), fun h => hunit (Or.inr h.symm)⟩
    unfold dispatch
    simp only
    rw [if_pos hcond, encode_exception_response_ok fc (by decide) (by decide)]
    rfl
  | unsupported hunit hfc => exact dispatch_ok hunit (handle_unsupported hfc)
  | malformed hunit hfc hshape =>
    obtain ⟨msg, hmsg⟩ := handle_malformed unit_id (concrete m) hfc hshape
    exact dispatch_exception hunit (by decide) (by decide) hmsg
  | unmapped hunit hshape hmap =>
    cases hshape with
    | read area start count h0 h1 =>
      obtain ⟨msg, hmsg⟩ := handle_read_unmapped unit_id readonly h0 h1 hmap
      exact dispatch_exception hunit (by decide) (by decide) hmsg
  | read hunit hshape hdata =>
    cases hshape with
    | read area start count h0 h1 => exact dispatch_ok hunit (handle_read_stored h0 h1 hdata)
  | write_coils hunit hw hshape =>
    obtain rfl : readonly = false := by simpa using hw
    obtain ⟨fc, rest, rfl⟩ := carries_cons hshape
    exact dispatch_ok hunit (handle_write_coils rfl hshape)
  | write_registers hunit hw hshape =>
    obtain rfl : readonly = false := by simpa using hw
    obtain ⟨fc, rest, rfl⟩ := carries_cons hshape
    exact dispatch_ok hunit (handle_write_registers rfl hshape)

theorem stored_or_unmapped {α : Type} (mem : Int → Option α) (start : Int) (count : Nat) :
    (∃ values, stored mem start count values) ∨ Unmapped mem start count := by
  by_cases h : Unmapped mem start count
  · exact Or.inr h
  · refine Or.inl (exists_map_some ?_)
    intro o ho
    obtain ⟨i, hi, rfl⟩ := List.mem_map.mp ho
    have hlt := List.mem_range.mp hi
    exact fun hn => h ⟨start + i, by omega, by omega, hn⟩

theorem holds_or_unmapped (m : DataModel) (area : Area) (start : Int) (count : Nat) :
    (∃ data, m.Holds area start count data) ∨ m.unmapped area start count := by
  cases area with
  | COIL =>
    exact (stored_or_unmapped m.coil start count).imp (fun ⟨_, h⟩ => ⟨_, .coil h⟩) id
  | DISCRETE_INPUT =>
    exact (stored_or_unmapped m.discrete_input start count).imp
      (fun ⟨_, h⟩ => ⟨_, .discrete_input h⟩) id
  | HOLDING_REGISTER =>
    exact (stored_or_unmapped m.holding_register start count).imp
      (fun ⟨_, h⟩ => ⟨_, .holding_register h⟩) id
  | INPUT_REGISTER =>
    exact (stored_or_unmapped m.input_register start count).imp
      (fun ⟨_, h⟩ => ⟨_, .input_register h⟩) id

theorem write_code_of_carries {fc : UInt8} {rest echo : Bytes} {r : Request}
    (h : Carries (fc :: rest) r echo) : fc ∈ read_codes ↔ ∃ area start count,
      r = .read area start count := by
  generalize hp : fc :: rest = pdu at h
  cases h with
  | read area start count =>
    obtain ⟨rfl, _⟩ := List.cons.inj hp
    exact ⟨fun _ => ⟨area, _, _, rfl⟩, fun _ => by cases area <;> decide⟩
  | _ =>
    obtain ⟨rfl, _⟩ := List.cons.inj hp
    exact ⟨fun h => absurd h (by decide), by rintro ⟨_, _, _, h⟩; cases h⟩

/-- Every PDU has an answer. -/
theorem answers_total (unit_id : Option Int) (writable : Bool) (m : DataModel) (uid : Int) (pdu : Bytes) :
    ∃ m' resp, Answers unit_id writable m uid pdu m' resp := by
  cases pdu with
  | nil => exact ⟨m, _, .empty uid⟩
  | cons fc rest =>
    by_cases hunit : Accepts unit_id uid
    · by_cases hfc : Supported writable fc
      · by_cases hshape : ∃ r echo, Carries (fc :: rest) r echo
        · obtain ⟨r, echo, hr⟩ := hshape
          have hcode := write_code_of_carries hr
          cases r with
          | read area start count =>
            rcases holds_or_unmapped m area start count with ⟨data, hdata⟩ | hmap
            · exact ⟨m, _, .read hunit hr hdata⟩
            · exact ⟨m, _, .unmapped hunit hr hmap⟩
          | write_coils start values =>
            have hw := hfc.resolve_left fun hc => by
              obtain ⟨_, _, _, h⟩ := hcode.mp hc
              cases h
            exact ⟨_, _, .write_coils hunit hw.1 hr⟩
          | write_registers start values =>
            have hw := hfc.resolve_left fun hc => by
              obtain ⟨_, _, _, h⟩ := hcode.mp hc
              cases h
            exact ⟨_, _, .write_registers hunit hw.1 hr⟩
        · exact ⟨m, _, .malformed hunit hfc fun r echo h => hshape ⟨r, echo, h⟩⟩
      · exact ⟨m, _, .unsupported hunit hfc⟩
    · exact ⟨m, _, .other_unit hunit⟩

/-- A session of the server is a session of the data model. -/
theorem serve_session (unit_id : Option Int) (readonly : Bool) (m : DataModel)
    (requests : List (Int × Bytes)) : ∃ m' resps,
    serve (sim_server unit_id readonly) requests (concrete m) = (.ok resps, concrete m') ∧
      Session unit_id (!readonly) m requests m' resps := by
  induction requests generalizing m with
  | nil => exact ⟨m, [], rfl, .nil m⟩
  | cons request requests ih =>
    obtain ⟨uid, pdu⟩ := request
    obtain ⟨m₁, resp, hanswer⟩ := answers_total unit_id (!readonly) m uid pdu
    obtain ⟨m₂, resps, hserve, hsession⟩ := ih m₁
    refine ⟨m₂, resp :: resps, ?_, .cons hanswer hsession⟩
    unfold serve
    rw [Py.bind_ok (dispatch_of_answers readonly hanswer), Py.bind_ok hserve]
    rfl

end

/-- Every session over a legal store is a session of the data model, answer by answer: one
response for each request, in the order of precedence of `Answers`. An exception leaves the
model as it was, no session changes an input, and a read-only server changes nothing. -/
theorem the_server_refines_the_data_model (unit_id : Option Int) (readonly : Bool)
    (state : SimState) (hstate : LegalState state) (requests : List (Int × Bytes)) :
    ∃ m m' resps, state = concrete m ∧
      serve (sim_server unit_id readonly) requests state = (.ok resps, concrete m') ∧
      Session unit_id (!readonly) m requests m' resps ∧
      resps.length = requests.length ∧
      (∀ m₁ m₂ uid pdu resp, Answers unit_id (!readonly) m₁ uid pdu m₂ resp →
        dispatch (sim_server unit_id readonly) uid pdu (concrete m₁) = (.ok resp, concrete m₂) ∧
        (IsException resp → m₂ = m₁)) ∧
      (concrete m').input = state.input ∧ (concrete m').discrete = state.discrete ∧
      (readonly = true → concrete m' = state) := by
  obtain ⟨m, rfl⟩ := exists_concrete hstate
  obtain ⟨m', resps, hserve, hsession⟩ :=
    serve_session unit_id readonly m requests
  obtain ⟨hinput, hdiscrete⟩ := no_session_changes_an_input hsession
  refine ⟨m, m', resps, rfl, hserve, hsession, length_session hsession, ?_, ?_, ?_, ?_⟩
  · intro m₁ m₂ uid pdu resp h
    exact ⟨dispatch_of_answers readonly h, an_exception_changes_nothing h⟩
  · simp only [concrete, hinput]
  · simp only [concrete, hdiscrete]
  · rintro rfl
    rw [no_session_writes hsession]

/-- A store with a holding register, a coil and an input register. -/
def small_state : SimState where
  holding := fun x => if x = 7 then some (.int 0x1234) else none
  input := fun x => if x = 1 then some (.int 5) else none
  coil := fun x => if x = 2 then some (.bool true) else none
  discrete := fun _ => none

theorem legal_small_state : LegalState small_state := by
  refine ⟨?_, ?_, ?_, ?_⟩
  · intro x c h
    simp only [small_state] at h
    split at h <;> cases h
    exact ⟨_, rfl, by decide⟩
  · intro x c h
    simp only [small_state] at h
    split at h <;> cases h
    exact ⟨_, rfl, by decide⟩
  · intro x c h
    simp only [small_state] at h
    split at h <;> cases h
    exact ⟨_, rfl⟩
  · intro x c h
    cases h

/-- A read, a write, a read of what was written, and a PDU of wrong shape. -/
def small_session : List (Int × Bytes) :=
  [(1, [0x03, 0, 7, 0, 1]), (1, [0x06, 0, 8, 0, 9]), (1, [0x03, 0, 7, 0, 2]), (1, [0x03, 0])]

theorem a_small_session_refines_the_data_model : ∃ m m' resps, small_state = concrete m ∧
    serve (sim_server (some 1) false) small_session small_state = (.ok resps, concrete m') ∧
    Session (some 1) (!false) m small_session m' resps ∧
    resps.length = small_session.length ∧
    (∀ m₁ m₂ uid pdu resp, Answers (some 1) (!false) m₁ uid pdu m₂ resp →
      dispatch (sim_server (some 1) false) uid pdu (concrete m₁) = (.ok resp, concrete m₂) ∧
      (IsException resp → m₂ = m₁)) ∧
    (concrete m').input = small_state.input ∧ (concrete m').discrete = small_state.discrete ∧
    (false = true → concrete m' = small_state) :=
  the_server_refines_the_data_model (some 1) false small_state legal_small_state small_session

example : (serve (sim_server (some 1) false) small_session small_state).1 =
    .ok [[0x03, 2, 0x12, 0x34], [0x06, 0, 8, 0, 9], [0x03, 4, 0x12, 0x34, 0, 9],
      [0x83, 0x03]] := by
  decide

end pymod.server
