-- The calls that a request makes to the callbacks of a server: they carry the address and
-- the count of the request, each within its own bound. What the store of `pymod serve`
-- holds after any number of requests.
import Pymod.ServerCallbacks

namespace pymod.server

open errors codec pdu types

/-! ## The fields of a call -/

def Call.start : Call → Int
  | .read _ start _ => start
  | .write _ start _ => start

def Call.count : Call → Int
  | .read _ _ count => count
  | .write _ _ values => values.length

/-- What the decoder of such a request allows. -/
def Call.limit : Call → Int
  | .read .COIL _ _ => MAX_READ_COILS
  | .read .DISCRETE_INPUT _ _ => MAX_READ_DISCRETE_INPUTS
  | .read _ _ _ => MAX_READ_REGISTERS
  | .write .COIL _ _ => MAX_WRITE_COILS
  | .write _ _ _ => MAX_WRITE_REGISTERS

/-- How many values a request is about; FC05 and FC06 have no field for it. -/
def request_count (pdu : Bytes) : Int :=
  if pdu.head? = some FC_WRITE_SINGLE_COIL ∨ pdu.head? = some FC_WRITE_SINGLE_REGISTER then 1
  else (unpack_HH pdu).2

/-- The call has the address and the count of the request. Each is within its bound; where
the range ends is not looked at. -/
structure FromRequest (pdu : Bytes) (c : Call) : Prop where
  start : c.start = (unpack_HH pdu).1
  count : c.count = request_count pdu
  address : 0 ≤ c.start ∧ c.start ≤ ADDRESS_MAX
  nonempty : 1 ≤ c.count
  limit : c.count ≤ c.limit

theorem decode_request_read_eq {pdu : Bytes} {maximum : Int} {name : String} {p : Int × Int}
    (h : decode_request_read pdu maximum name = .ok p) :
    p = unpack_HH pdu ∧ pdu.length = 5 ∧ 1 ≤ p.2 ∧ p.2 ≤ maximum := by
  by_cases hshape : pdu.length = 5 ∧ 1 ≤ (unpack_HH pdu).2 ∧ (unpack_HH pdu).2 ≤ maximum
  · obtain ⟨hlen, h0, h1⟩ := hshape
    rw [decode_request_read_ok hlen h0 h1] at h
    cases h
    exact ⟨rfl, hlen, h0, h1⟩
  · obtain ⟨e, he, _⟩ : ∃ e, decode_request_read pdu maximum name = .error e ∧ _ :=
      decode_request_read_error hshape
    cases he.symm.trans h

theorem fromRequest_read {area : Area} {pdu : Bytes} {maximum : Int} {name : String} {c : Call}
    (hcount : request_count pdu = (unpack_HH pdu).2)
    (hlimit : ∀ start count, maximum = (Call.read area start count).limit)
    (h : read_call area (decode_request_read pdu maximum name) = some c) : FromRequest pdu c := by
  cases hdecode : decode_request_read pdu maximum name with
  | error e =>
    rw [hdecode] at h
    cases h
  | ok p =>
    rw [hdecode] at h
    cases h
    obtain ⟨rfl, hlen, h0, h1⟩ := decode_request_read_eq hdecode
    refine ⟨rfl, hcount.symm, (isRegister_unpack_HH pdu (by omega)).1, h0, ?_⟩
    rw [← hlimit]
    exact h1

theorem fromRequest_single {α : Type} {area : Area} {pdu : Bytes}
    {request : Except PyError (Int × α)} {cell : α → Cell} {c : Call} (hcount : request_count pdu = 1)
    (hrequest : ∀ p, request = .ok p → pdu.length = 5 ∧ p.1 = (unpack_HH pdu).1)
    (h : (request.toOption.map fun (address, value) => Call.write area address [cell value]) =
      some c) : FromRequest pdu c := by
  cases request with
  | error e => cases h
  | ok p =>
    cases h
    obtain ⟨hlen, hstart⟩ := hrequest p rfl
    refine ⟨hstart, hcount.symm, ?_, Int.le_refl 1, ?_⟩
    · rw [Call.start, hstart]
      exact (isRegister_unpack_HH pdu (by omega)).1
    · cases area <;> simp [Call.count, Call.limit, MAX_WRITE_COILS, MAX_WRITE_REGISTERS]

theorem fromRequest_multiple {α : Type} {area : Area} {pdu : Bytes} {maximum : Int}
    {request : Except PyError (Int × List α)} {cell : α → Cell} {c : Call} {bytes_for : Int → Int}
    (hcount : request_count pdu = (unpack_HH pdu).2)
    (hlimit : ∀ start values, maximum = (Call.write area start values).limit)
    (hrequest : ∀ p, request = .ok p → WriteShape pdu maximum bytes_for ∧
      p.1 = (unpack_HH pdu).1 ∧ (p.2.length : Int) = (unpack_HH pdu).2)
    (h : (request.toOption.map fun (start, values) => Call.write area start (values.map cell)) =
      some c) : FromRequest pdu c := by
  cases request with
  | error e => cases h
  | ok p =>
    cases h
    obtain ⟨hshape, hstart, hlength⟩ := hrequest p rfl
    have hcalled : (Call.write area p.1 (p.2.map cell)).count = (unpack_HH pdu).2 := by
      rw [Call.count, List.length_map, hlength]
    have hlong := hshape.long
    refine ⟨hstart, hcalled.trans hcount.symm, ?_, ?_, ?_⟩
    · rw [Call.start, hstart]
      exact (isRegister_unpack_HH pdu (by omega)).1
    · rw [hcalled]
      exact hshape.least
    · rw [hcalled, ← hlimit]
      exact hshape.most

theorem decode_request_write_shape {pdu : Bytes} {maximum : Int} {bytes_for : Int → Int}
    {name : String} {p : Int × Int × Bytes}
    (h : decode_request_write pdu maximum bytes_for name = .ok p) :
    WriteShape pdu maximum bytes_for ∧ p = ((unpack_HH pdu).1, (unpack_HH pdu).2, pdu.drop 6) := by
  by_cases hshape : WriteShape pdu maximum bytes_for
  · rw [decode_request_write_ok hshape] at h
    cases h
    exact ⟨hshape, rfl⟩
  · obtain ⟨e, he, _⟩ : ∃ e, decode_request_write pdu maximum bytes_for name = .error e ∧ _ :=
      decode_request_write_error hshape
    cases he.symm.trans h

theorem decode_request_write_multiple_coils_shape {pdu : Bytes} {p : Int × List Bool}
    (h : decode_request_write_multiple_coils pdu = .ok p) :
    WriteShape pdu MAX_WRITE_COILS (fun count => (count + 7) / 8) ∧
      p.1 = (unpack_HH pdu).1 ∧ (p.2.length : Int) = (unpack_HH pdu).2 := by
  obtain ⟨q, hq, h⟩ := bind_eq_ok h
  obtain ⟨hshape, rfl⟩ := decode_request_write_shape hq
  cases h
  have hleast := hshape.least
  refine ⟨hshape, rfl, ?_⟩
  rw [BitStrings.length_unpack]
  omega

theorem decode_request_write_multiple_registers_shape {pdu : Bytes} {p : Int × List Int}
    (h : decode_request_write_multiple_registers pdu = .ok p) :
    WriteShape pdu MAX_WRITE_REGISTERS (fun count => 2 * count) ∧
      p.1 = (unpack_HH pdu).1 ∧ (p.2.length : Int) = (unpack_HH pdu).2 := by
  obtain ⟨q, hq, h⟩ := bind_eq_ok h
  obtain ⟨hshape, rfl⟩ := decode_request_write_shape hq
  obtain ⟨values, hvalues, h⟩ := bind_eq_ok h
  cases h
  have hleast := hshape.least
  refine ⟨hshape, rfl, ?_⟩
  rw [length_unpack_H hvalues]
  omega

theorem decode_request_write_single_coil_shape {pdu : Bytes} {p : Int × Bool}
    (h : decode_request_write_single_coil pdu = .ok p) :
    pdu.length = 5 ∧ p.1 = (unpack_HH pdu).1 := by
  by_cases hshape : pdu.length = 5 ∧ ∃ value, (unpack_HH pdu).2 = coil_word value
  · obtain ⟨hlen, value, hv⟩ := hshape
    rw [decode_request_write_single_coil_ok hlen hv] at h
    cases h
    exact ⟨hlen, rfl⟩
  · obtain ⟨e, he, _⟩ := decode_request_write_single_coil_error hshape
    cases he.symm.trans h

theorem decode_request_write_single_register_shape {pdu : Bytes} {p : Int × Int}
    (h : decode_request_write_single_register pdu = .ok p) :
    pdu.length = 5 ∧ p.1 = (unpack_HH pdu).1 := by
  by_cases hlen : pdu.length = 5
  · rw [decode_request_write_single_register_ok hlen] at h
    cases h
    exact ⟨hlen, rfl⟩
  · obtain ⟨e, he, _⟩ := decode_request_write_single_register_error hlen
    cases he.symm.trans h

section

variable {σ : Type} {callbacks : Callbacks σ}

/-- The callback that a request reaches gets what the request says. -/
theorem reached_fromRequest {uid : Int} {pdu : Bytes} {c : Call}
    (h : reached callbacks uid pdu = some c) : FromRequest pdu c := by
  cases pdu with
  | nil => cases h
  | cons fc rest =>
    rw [reached] at h
    simp only at h
    by_cases hunit : callbacks.unit_id ≠ none ∧ some uid ≠ callbacks.unit_id
    · rw [if_pos hunit] at h
      cases h
    rw [if_neg hunit] at h
    by_cases hfc : fc = FC_READ_COILS
    · rw [if_pos hfc] at h
      subst hfc
      exact fromRequest_read rfl (fun _ _ => rfl) h
    rw [if_neg hfc] at h
    by_cases hfc : fc = FC_READ_DISCRETE_INPUTS
    · rw [if_pos hfc] at h
      subst hfc
      exact fromRequest_read rfl (fun _ _ => rfl) h
    rw [if_neg hfc] at h
    by_cases hfc : fc = FC_READ_HOLDING_REGISTERS
    · rw [if_pos hfc] at h
      subst hfc
      exact fromRequest_read rfl (fun _ _ => rfl) h
    rw [if_neg hfc] at h
    by_cases hfc : fc = FC_READ_INPUT_REGISTERS
    · rw [if_pos hfc] at h
      subst hfc
      exact fromRequest_read rfl (fun _ _ => rfl) h
    rw [if_neg hfc] at h
    by_cases hnone : callbacks.on_write.isNone
    · rw [if_pos hnone] at h
      cases h
    rw [if_neg hnone] at h
    by_cases hfc : fc = FC_WRITE_SINGLE_COIL
    · rw [if_pos hfc] at h
      subst hfc
      exact fromRequest_single rfl (fun _ => decode_request_write_single_coil_shape) h
    rw [if_neg hfc] at h
    by_cases hfc : fc = FC_WRITE_SINGLE_REGISTER
    · rw [if_pos hfc] at h
      subst hfc
      exact fromRequest_single rfl (fun _ => decode_request_write_single_register_shape) h
    rw [if_neg hfc] at h
    by_cases hfc : fc = FC_WRITE_MULTIPLE_COILS
    · rw [if_pos hfc] at h
      subst hfc
      exact fromRequest_multiple rfl (fun _ _ => rfl)
        (fun _ => decode_request_write_multiple_coils_shape) h
    rw [if_neg hfc] at h
    by_cases hfc : fc = FC_WRITE_MULTIPLE_REGISTERS
    · rw [if_pos hfc] at h
      subst hfc
      exact fromRequest_multiple rfl (fun _ _ => rfl)
        (fun _ => decode_request_write_multiple_registers_shape) h
    rw [if_neg hfc] at h
    cases h

/-! ## The calls, recorded -/

/-- The callbacks, with a list of the calls that are made to them. -/
def recording (callbacks : Callbacks σ) : Callbacks (List Call × σ) where
  on_read := fun area start count (calls, s) =>
    let (r, s') := callbacks.on_read area start count s
    (r, (calls ++ [.read area start count], s'))
  on_write := callbacks.on_write.map fun on_write area start values (calls, s) =>
    let (r, s') := on_write area start values s
    (r, (calls ++ [.write area start values], s'))
  unit_id := callbacks.unit_id

/-- The calls that one request makes. -/
def calls_of (callbacks : Callbacks σ) (uid : Int) (pdu : Bytes) (s : σ) : List Call :=
  (dispatch_callbacks (recording callbacks) uid pdu ([], s)).2.1

theorem reached_recording (callbacks : Callbacks σ) (uid : Int) (pdu : Bytes) :
    reached (recording callbacks) uid pdu = reached callbacks uid pdu := by
  have hunit : (recording callbacks).unit_id = callbacks.unit_id := rfl
  have hwrite : (recording callbacks).on_write.isNone = callbacks.on_write.isNone :=
    Option.isNone_map
  unfold reached
  rw [hunit, hwrite]

/-- A request leaves the state that its callback leaves, whatever it ends with. -/
theorem dispatch_callbacks_state (callbacks : Callbacks σ) (uid : Int) (pdu : Bytes) (s : σ) :
    (dispatch_callbacks callbacks uid pdu s).2 = after callbacks uid pdu s := by
  have hexcept : ∀ (fc : UInt8) (step : Py σ Bytes),
      (Py.except_with step (except_dispatch fc) s).2 = (step s).2 := by
    intro fc step
    unfold Py.except_with
    rcases step s with ⟨e | a, s'⟩ <;> rfl
  cases pdu with
  | nil => rfl
  | cons fc rest =>
    unfold dispatch_callbacks after
    simp only
    by_cases hreject : callbacks.unit_id ≠ none ∧ some uid ≠ callbacks.unit_id
    · have hnone : reached callbacks uid (fc :: rest) = none := by
        unfold reached
        exact if_pos hreject
      rw [if_pos hreject, hnone]
      rfl
    · rw [if_neg hreject, hexcept]
      have hends := @endsLike_handle σ callbacks fc uid rest hreject
      cases hcall : reached callbacks uid (fc :: rest) with
      | none =>
        rw [hcall] at hends
        cases hends with
        | no_call h =>
          obtain ⟨r, hr, _⟩ := h s
          rw [hr]
      | some c =>
        rw [hcall] at hends
        cases hends with
        | call herror hok =>
          simp only
          rcases hrun : c.run callbacks s with ⟨e | u, s'⟩
          · rw [herror s e s' hrun]
          · obtain ⟨r, hr, _⟩ := hok s s' hrun
            rw [hr]

/-- A write is reached only where there is an `on_write`. -/
theorem on_write_of_reached {uid : Int} {pdu : Bytes} {area : Area} {start : Int}
    {values : List Cell} (h : reached callbacks uid pdu = some (.write area start values)) :
    ∃ on_write, callbacks.on_write = some on_write := by
  cases hwrite : callbacks.on_write with
  | some on_write => exact ⟨on_write, rfl⟩
  | none =>
    have hread : ∀ (area' : Area) (request : Except PyError (Int × Int)),
        read_call area' request ≠ some (.write area start values) := by
      rintro area' (e | p) hc <;> cases hc
    unfold reached at h
    cases pdu with
    | nil => cases h
    | cons fc rest =>
      simp only [hwrite, Option.isNone_none, if_true] at h
      split_ifs at h
      all_goals exact absurd h (hread _ _)

theorem calls_of_eq (callbacks : Callbacks σ) (uid : Int) (pdu : Bytes) (s : σ) :
    calls_of callbacks uid pdu s = (reached callbacks uid pdu).toList := by
  unfold calls_of
  rw [dispatch_callbacks_state, after, reached_recording]
  cases hcall : reached callbacks uid pdu with
  | none => rfl
  | some c =>
    cases c with
    | read area start count =>
      rcases hread : callbacks.on_read area start count s with ⟨e | values, s'⟩ <;>
        simp only [Call.run, bind, recording, hread, List.nil_append] <;> rfl
    | write area start values =>
      obtain ⟨on_write, hwrite⟩ := on_write_of_reached hcall
      simp only [Call.run, recording, hwrite]
      rfl

end

/-! ## The cells of `_SimState` -/

/-- The store of the area has a value at the address. -/
def Mapped (state : SimState) (area : Area) (x : Int) : Prop := state.store area x ≠ none

@[simp] theorem store_set_store (state : SimState) (area a : Area) (store : Store) :
    (state.set_store area store).store a = if a = area then store else state.store a := by
  cases area <;> cases a <;> rfl

theorem write_cells_ne_none (store : Store) (start : Int) (values : List Cell) (x : Int) :
    SimState.write_cells store start values x ≠ none ↔
      store x ≠ none ∨ start ≤ x ∧ x < start + values.length := by
  unfold SimState.write_cells
  rw [foldl_update]
  simp only [Int.natCast_zero, Int.add_zero, Int.sub_zero]
  by_cases hin : start ≤ x ∧ x < start + values.length
  · rw [if_pos hin, List.getElem?_eq_getElem (by omega)]
    simp [hin]
  · rw [if_neg hin]
    simp [hin]

section

variable (unit_id : Option Int) (readonly : Bool)

/-- The server of `pymod serve` writes the cell when it gets the request. -/
def Writes (request : Int × Bytes) (area : Area) (x : Int) : Prop :=
  ∃ start values, reached (sim_server unit_id readonly).callbacks request.1 request.2 =
    some (.write area start values) ∧ start ≤ x ∧ x < start + values.length

theorem mapped_after (uid : Int) (pdu : Bytes) (state : SimState) (area : Area) (x : Int) :
    Mapped (dispatch (sim_server unit_id readonly) uid pdu state).2 area x ↔
      Mapped state area x ∨ Writes unit_id readonly (uid, pdu) area x := by
  unfold Writes
  rw [← dispatch_callbacks_of, dispatch_callbacks_state, after]
  cases hcall : reached (sim_server unit_id readonly).callbacks uid pdu with
  | none => simp
  | some c =>
    cases c with
    | read area' start count =>
      have hsame : ((Call.read area' start count).run (sim_server unit_id readonly).callbacks
          state).2 = state := by
        simp only [Call.run, Server.callbacks, sim_server, SimState.read, bind]
        rcases (List.range count.toNat).mapM fun i : Nat =>
          SimState.lookup area' (state.store area') (start + i) with e | cells <;> rfl
      simp [hsame]
    | write area' start values =>
      obtain ⟨on_write, hwrite⟩ := on_write_of_reached hcall
      have hrun : ((Call.write area' start values).run (sim_server unit_id readonly).callbacks
          state).2 = state.set_store area'
            (SimState.write_cells (state.store area') start values) := by
        cases readonly with
        | true => cases hwrite
        | false => rfl
      simp only [hrun, Mapped, store_set_store]
      by_cases harea : area = area'
      · subst harea
        simp [write_cells_ne_none]
      · have harea' : ¬ area' = area := fun h => harea h.symm
        simp [harea, harea']

/-- The state after requests, from any number of connections. -/
def run_requests (requests : List (Int × Bytes)) (state : SimState) : SimState :=
  requests.foldl (fun state request =>
    (dispatch (sim_server unit_id readonly) request.1 request.2 state).2) state

theorem mapped_run_requests (requests : List (Int × Bytes)) (state : SimState) (area : Area)
    (x : Int) : Mapped (run_requests unit_id readonly requests state) area x ↔
      Mapped state area x ∨ ∃ request ∈ requests, Writes unit_id readonly request area x := by
  induction requests generalizing state with
  | nil => simp [run_requests]
  | cons request requests ih =>
    have hrest := ih (dispatch (sim_server unit_id readonly) request.1 request.2 state).2
    rw [mapped_after, or_assoc] at hrest
    rw [List.exists_mem_cons_iff]
    exact hrest

end

/-- A callback is called with the address and the count of the request, each within its bound;
the end of the range is left to the callback. The store of `pymod serve` maps after a session
what it mapped before and what the requests wrote, so it stays in the address space when the
ranges of the requests do, and goes past it by less than the limit of one request otherwise. -/
theorem calls_carry_the_fields_of_the_request :
    (∀ (σ : Type) (callbacks : Callbacks σ) uid pdu s, ∀ c ∈ calls_of callbacks uid pdu s,
      FromRequest pdu c) ∧
    ∀ unit_id readonly requests state,
      (∀ area x, Mapped (run_requests unit_id readonly requests state) area x ↔
        Mapped state area x ∨ ∃ request ∈ requests, Writes unit_id readonly request area x) ∧
      ((∀ area x, Mapped state area x → x ≤ ADDRESS_MAX) →
        (∀ area x, Mapped (run_requests unit_id readonly requests state) area x →
          x < ADDRESS_MAX + (Call.write area 0 []).limit) ∧
        ((∀ request ∈ requests, (unpack_HH request.2).1 + request_count request.2 ≤ 0x10000) →
          ∀ area x, Mapped (run_requests unit_id readonly requests state) area x →
            x ≤ ADDRESS_MAX)) := by
  refine ⟨fun σ callbacks uid pdu s c hc => ?_, fun unit_id readonly requests state =>
    ⟨mapped_run_requests unit_id readonly requests state, fun hstate => ⟨?_, ?_⟩⟩⟩
  · rw [calls_of_eq, Option.mem_toList] at hc
    exact reached_fromRequest hc
  · intro area x hx
    rcases (mapped_run_requests _ _ _ _ _ _).mp hx with hx | ⟨request, _, start, values, hcall, hin⟩
    · have hle := hstate area x hx
      have hpos : 0 < (Call.write area 0 []).limit := by cases area <;> decide
      omega
    · have hfrom := reached_fromRequest hcall
      have haddress := hfrom.address.2
      have hlimit := hfrom.limit
      have hsame : (Call.write area start values).limit = (Call.write area 0 []).limit := by
        cases area <;> rfl
      simp only [Call.start, Call.count, hsame] at haddress hlimit
      omega
  · intro hinside area x hx
    rcases (mapped_run_requests _ _ _ _ _ _).mp hx with hx | ⟨request, hr, start, values, hcall, hin⟩
    · exact hstate area x hx
    · have hfrom := reached_fromRequest hcall
      have hend := hinside request hr
      rw [← hfrom.start, ← hfrom.count] at hend
      simp only [Call.start, Call.count] at hend
      unfold ADDRESS_MAX
      omega

/-- A store with no values. -/
def empty_state : SimState where
  holding := fun _ => none
  input := fun _ => none
  coil := fun _ => none
  discrete := fun _ => none

theorem not_mapped_empty_state (area : Area) (x : Int) : ¬ Mapped empty_state area x := by
  cases area <;> exact fun h => h rfl

/-- FC16 with the last two registers of the address space. -/
def last_registers : Bytes := [0x10, 0xFF, 0xFE, 0, 2, 4, 0, 1, 0, 2]

theorem the_last_registers_stay_inside (area : Area) (x : Int)
    (hx : Mapped (run_requests none false [(1, last_registers)] empty_state) area x) :
    x ≤ ADDRESS_MAX := by
  obtain ⟨_, hsim⟩ := calls_carry_the_fields_of_the_request
  obtain ⟨_, hstart⟩ := hsim none false [(1, last_registers)] empty_state
  obtain ⟨_, hinside⟩ := hstart fun area x h => absurd h (not_mapped_empty_state area x)
  exact hinside (by decide) area x hx

theorem reached_sim_registers (uid : Int) (rest : Bytes) :
    reached (sim_server none false).callbacks uid (0x10 :: rest) =
      (decode_request_write_multiple_registers (0x10 :: rest)).toOption.map fun (start, regs) =>
        .write .HOLDING_REGISTER start (regs.map .int) := rfl

/-- Two registers from 65535 on: they are read, and they are written. -/
theorem a_request_runs_past_the_last_register :
    (¬ ∀ (callbacks : Callbacks Unit) (uid : Int) (pdu : Bytes),
      ∀ c ∈ calls_of callbacks uid pdu (), 1 ≤ c.count ∧ c.start + c.count ≤ 0x10000) ∧
    ¬ ∀ (requests : List (Int × Bytes)) (area : Area) (x : Int),
      Mapped (run_requests none false requests empty_state) area x → x ≤ ADDRESS_MAX := by
  constructor
  · intro h
    let callbacks : Callbacks Unit := ⟨fun _ _ _ => pure (values_of []), none, none⟩
    have hcall : Call.read .HOLDING_REGISTER 65535 2 ∈
        calls_of callbacks 1 [0x03, 0xFF, 0xFF, 0, 2] () := by
      have hdecode : decode_request_read_holding_registers [0x03, 0xFF, 0xFF, 0, 2] =
          .ok (65535, 2) := by decide
      rw [calls_of_eq, Option.mem_toList]
      change read_call .HOLDING_REGISTER
        (decode_request_read_holding_registers [0x03, 0xFF, 0xFF, 0, 2]) = _
      rw [hdecode]
      rfl
    have hend := (h callbacks 1 [0x03, 0xFF, 0xFF, 0, 2] _ hcall).2
    simp [Call.start, Call.count] at hend
  · intro h
    have hwrites : Writes none false (1, [0x10, 0xFF, 0xFF, 0, 2, 4, 0, 1, 0, 2])
        .HOLDING_REGISTER 65536 := by
      have hdecode : decode_request_write_multiple_registers
          [0x10, 0xFF, 0xFF, 0, 2, 4, 0, 1, 0, 2] = .ok (65535, [1, 2]) := by decide
      refine ⟨65535, [.int 1, .int 2], ?_, by decide⟩
      rw [reached_sim_registers, hdecode]
      rfl
    have hmapped := (mapped_run_requests none false [(1, [0x10, 0xFF, 0xFF, 0, 2, 4, 0, 1, 0, 2])]
      empty_state .HOLDING_REGISTER 65536).mpr (Or.inr ⟨_, List.mem_singleton.mpr rfl, hwrites⟩)
    exact absurd (h _ _ _ hmapped) (by decide)

end pymod.server
