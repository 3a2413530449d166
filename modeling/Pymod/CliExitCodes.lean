-- The exit codes of `pymod read`, `pymod write` and `pymod scan`, against the table in
-- `docs/cli.md`: for which behaviours of the transport a command returns the code that it
-- documents.
import Pymod.CliRequests
import Pymod.Floats

namespace pymod.cli

open errors codec pdu types planner retry Slices

/-! ## What the documentation says -/

/-- The codes that the documentation gives to a failure. -/
structure FailureCode (e : ModbusError) (code : Int) : Prop where
  unreachable : ∀ message, e = .ModbusConnectionError message → code = 2
  refused : ∀ cls message n, e = .ModbusExceptionResponse cls message n → code = 1

/-- A normal response to the request of `scan`, or an exception response. -/
def Answered (response : Bytes) : Prop :=
  response.head? = some 0x03 ∨ ∃ code rest, response = 0x83 :: code :: rest

/-- What the arguments of a command ask for. -/
inductive Job (F : Type)
  | read (item : ReadItem)
  | write (item : WriteItem F)
  | scan (start : Int)

section

variable {F : Type} [FloatOps F]

/-- The number of requests. -/
def Job.requests : Job F → Nat
  | .read item => (read_chunks item).length
  | .write item => (write_chunks item).length
  | .scan _ => 1

/-- The code is the documented one for what becomes of the job when its requests end so. -/
def Job.Coded (outcomes : Nat → Outcome) (code : Int) : Job F → Prop
  | .read item => ∀ r : ReadResult F, ReadOutcome item (ended (read_chunks item) outcomes) r →
      (r.ok = true → code = 0) ∧ ∀ e, r.error = some e → FailureCode e code
  | .write item => ∀ r : WriteResult F, WriteOutcome item (ended (write_chunks item) outcomes) r →
      (r.ok = true → code = 0) ∧ ∀ e, r.error = some e → FailureCode e code
  | .scan _ => (∀ response, outcomes 0 = .ok response → Answered response → code = 0) ∧
      ∀ message, outcomes 0 = .error (.modbus (.ModbusConnectionError message)) → code = 2

/-- The request that fails the job did not fail for want of a connection; the reply to `scan`, if
there is one, is an answer. -/
def Job.Visible (outcomes : Nat → Outcome) : Job F → Prop
  | .read item => ∀ message, ¬ FailsFirst (fun p => p.1.start) chunk_failure
      (ended (read_chunks item) outcomes) (.ModbusConnectionError message)
  | .write item => ∀ message, ¬ FailsFirst (fun p => p.1.start) write_chunk_failure
      (ended (write_chunks item) outcomes) (.ModbusConnectionError message)
  | .scan _ => ∀ response, outcomes 0 = .ok response → Answered response

variable (parsers : Parsers F) (transports : Link → Transport)

/-- The arguments are valid: they make a job and a client, and the job stays inside of the
address space. -/
inductive Valid : Command → Job F → Client → Prop
  | read {args : ReadArgs} {item : ReadItem} {client : Client}
      (built : build_read_item parsers args = .ok item)
      (made : make_client args.connection = .ok client)
      (count : 0 < item.count) (inside : InAddressSpace (item_range item)) :
      Valid (.read args) (.read item) client
  | write {args : WriteArgs} {item : WriteItem F} {client : Client}
      (built : build_write_item parsers args.toWriteValues = .ok item)
      (made : make_client args.connection = .ok client)
      (plannable : ¬ Unplannable item) (inside : InAddressSpace (write_range item)) :
      Valid (.write args) (.write item) client
  | scan {args : ScanArgs} {client : Client} (made : make_client args.connection = .ok client)
      (inside : IsRegister args.start) : Valid (.scan args) (.scan args.start) client

/-- The command returns a code and raises nothing. The code is the documented one, whether the
client connects or not. -/
def ExitsAsDocumented (command : Command) (job : Job F) (client : Client) : Prop :=
  ∃ out, run parsers transports command = .ok out ∧
    (∀ e, (transports client.link).connect = .error e → FailureCode e out.exit_code) ∧
    ((transports client.link).connect = .ok () →
      job.Coded (final client (transports client.link)) out.exit_code)

end

/-! ## What an item comes to -/

section

variable {F : Type} [FloatOps F] {outcomes : Nat → Outcome}

/-- Every address of the item is read by one of its requests. -/
theorem exists_read_of_mem {item : ReadItem} (hpos : 0 < item.count) {x : Int}
    (hlow : item.start ≤ x) (hhigh : x < item.start + item.count) :
    ∃ p ∈ ended (read_chunks item) outcomes, p.1.start ≤ x ∧ x < p.1.start + p.1.count := by
  have hall : ∀ i ∈ [item], 0 < i.count := by simpa using hpos
  obtain ⟨-, hcovered, -⟩ := area_chunks.spec (item_area item) hall
  obtain ⟨q, hq, hx⟩ := (hcovered x).mpr ⟨item, List.mem_singleton_self item, rfl, hlow, hhigh⟩
  obtain ⟨c, hc, hrange⟩ := List.mem_map.mp hq
  rw [← hrange] at hx
  rw [← filter_plan_read_chunks, List.mem_filter] at hc
  obtain ⟨i, hi, hget⟩ := List.mem_iff_getElem.mp hc.1
  refine ⟨(c, outcomes i), ?_, hx⟩
  unfold ended read_chunks
  rw [List.mem_iff_getElem]
  exact ⟨i, by simpa using hi, by simp [hget]⟩

/-- Two readings of the same answers are the same. -/
theorem readOutcome_unique {item : ReadItem} (hpos : 0 < item.count) {r r' : ReadResult F}
    (hnone : ∀ p ∈ ended (read_chunks item) outcomes, chunk_failure p = none)
    (h : ReadOutcome item (ended (read_chunks item) outcomes) r)
    (h' : ReadOutcome item (ended (read_chunks item) outcomes) r') : r = r' := by
  obtain ⟨cell, hcells, hr⟩ := h.read hnone
  obtain ⟨cell', hcells', hr'⟩ := h'.read hnone
  have hsame : slice cell item.start item.count.toNat = slice cell' item.start item.count.toNat := by
    rw [slice_inj]
    intro i hi
    obtain ⟨p, hp, hlow, hhigh⟩ : ∃ p ∈ ended (read_chunks item) outcomes,
        p.1.start ≤ item.start + i ∧ item.start + i < p.1.start + p.1.count :=
      exists_read_of_mem hpos (by omega) (by omega)
    have hslice := Except.ok.inj ((hcells p hp).symm.trans (hcells' p hp))
    rw [slice_inj] at hslice
    have hx := hslice (item.start + i - p.1.start).toNat (by omega)
    have hoffset : p.1.start + ((item.start + i - p.1.start).toNat : Int) = item.start + i := by
      omega
    rwa [hoffset] at hx
  rw [hsame, hr'] at hr
  exact (Except.ok.inj hr).symm

/-- An item that is decoded has no error, or one of the planner's own. -/
theorem decode_cells_result {item : ReadItem} {cells : List Cell} {r : ReadResult F}
    (h : decode_cells item cells = .ok r) :
    (r.ok = true ∧ r.error = none) ∨
      (r.ok = false ∧ ∃ message, r.error = some (.ModbusError message)) := by
  have hregister : ∀ i : RegisterItem, decode_register_item item i cells = .ok r →
      (r.ok = true ∧ r.error = none) ∨
        (r.ok = false ∧ ∃ message, r.error = some (.ModbusError message)) := by
    intro i hi
    unfold decode_register_item at hi
    split at hi
    · cases hi
      exact .inl ⟨rfl, rfl⟩
    · cases hi
      exact .inr ⟨rfl, _, rfl⟩
    · cases hi
  cases item with
  | Holding i => exact hregister i h
  | Input i => exact hregister i h
  | Coil start count =>
    cases h
    exact .inl ⟨rfl, rfl⟩
  | Discrete start count =>
    cases h
    exact .inl ⟨rfl, rfl⟩

/-- What becomes of a command for one item. `Comes` says which results its requests can have, and
`First` with which error the first of them fails. -/
structure Reports {ρ : Type} (ok : ρ → Bool) (error : ρ → Option ModbusError) (Comes : ρ → Prop)
    (First : ModbusError → Prop) : Prop where
  first : ∀ e, First e → ∃ r, Comes r ∧ error r = some e
  ok_eq : ∀ r r', Comes r → Comes r' → ok r = ok r'
  error_of : ∀ r e, Comes r → error r = some e →
    ok r = false ∧ (First e ∨ ∃ message, e = .ModbusError message)

/-- Results that are made of the first failure, or else of requests that all succeed. -/
theorem Reports.of_requests {ρ κ : Type} {ok : ρ → Bool} {error : ρ → Option ModbusError}
    {Comes : ρ → Prop} {start : κ → Int} {failed : κ → Option ModbusError} {own : List κ}
    {failure : ModbusError → ρ}
    (hfailure : ∀ e, ok (failure e) = false ∧ error (failure e) = some e)
    (hcomes : ∀ e, FailsFirst start failed own e → Comes (failure e))
    (hfailed : ∀ r, Comes r → (∃ p ∈ own, failed p ≠ none) →
      ∃ e, FailsFirst start failed own e ∧ r = failure e)
    (hdone : (∀ p ∈ own, failed p = none) → ∀ r, Comes r → (∀ r', Comes r' → r = r') ∧
      ∀ e, error r = some e → ok r = false ∧ ∃ message, e = .ModbusError message) :
    Reports ok error Comes (FailsFirst start failed own) := by
  have hnone : (¬ ∃ p ∈ own, failed p ≠ none) → ∀ p ∈ own, failed p = none := by
    intro h p hp
    by_contra hne
    exact h ⟨p, hp, hne⟩
  constructor
  · intro e hfirst
    exact ⟨failure e, hcomes e hfirst, (hfailure e).2⟩
  · intro r r' h h'
    by_cases hany : ∃ p ∈ own, failed p ≠ none
    · obtain ⟨e, -, hr⟩ := hfailed r h hany
      obtain ⟨e', -, hr'⟩ := hfailed r' h' hany
      rw [hr, hr', (hfailure e).1, (hfailure e').1]
    · rw [(hdone (hnone hany) r h).1 r' h']
  · intro r e h he
    by_cases hany : ∃ p ∈ own, failed p ≠ none
    · obtain ⟨e', hfirst, hr⟩ := hfailed r h hany
      rw [hr, (hfailure e').2] at he
      rw [hr, ← Option.some.inj he]
      exact ⟨(hfailure e').1, .inl hfirst⟩
    · obtain ⟨hok, hplain⟩ := (hdone (hnone hany) r h).2 e he
      exact ⟨hok, .inr hplain⟩

/-- The first failure is not among requests that all succeed. -/
theorem not_all_none {κ : Type} {start : κ → Int} {failed : κ → Option ModbusError} {own : List κ}
    {e : ModbusError} (h : FailsFirst start failed own e) : ¬ ∀ p ∈ own, failed p = none := by
  intro hall
  obtain ⟨p, hp, he, -⟩ := h
  rw [hall p hp] at he
  cases he

theorem read_reports {item : ReadItem} (hpos : 0 < item.count) :
    Reports (ReadResult.ok (F := F)) ReadResult.error
      (ReadOutcome item (ended (read_chunks item) outcomes))
      (FailsFirst (fun p => p.1.start) chunk_failure (ended (read_chunks item) outcomes)) := by
  refine .of_requests (fun e => ⟨rfl, rfl⟩) ?_ (fun r h => h.failed) ?_
  · intro e hfirst
    exact ⟨fun _ => ⟨e, hfirst, rfl⟩, fun hall => absurd hall (not_all_none hfirst)⟩
  · intro hall r h
    refine ⟨fun r' h' => readOutcome_unique hpos hall h h', ?_⟩
    intro e he
    obtain ⟨cell, -, hr⟩ := h.read hall
    rcases decode_cells_result hr with ⟨-, hok⟩ | ⟨hok, message, hmessage⟩
    · rw [hok] at he
      cases he
    · rw [hmessage] at he
      exact ⟨hok, message, (Option.some.inj he).symm⟩

theorem write_reports {item : WriteItem F} :
    Reports WriteResult.ok WriteResult.error
      (WriteOutcome item (ended (write_chunks item) outcomes))
      (FailsFirst (fun p => p.1.start) write_chunk_failure
        (ended (write_chunks item) outcomes)) := by
  refine .of_requests (fun e => ⟨rfl, rfl⟩) ?_ (fun r h => h.failed) ?_
  · intro e hfirst
    exact ⟨fun _ => ⟨e, hfirst, rfl⟩, fun hall => absurd hall (not_all_none hfirst)⟩
  · intro hall r h
    rw [h.written hall]
    refine ⟨fun r' h' => (h'.written hall).symm, ?_⟩
    intro e he
    cases he

end

/-! ## What a command returns -/

section

variable {F : Type} {json : Bool} {transport : Transport} {α : Type} {body : Py Nat α}
  {emit : α → Except Raised (Output F)}

theorem run_client_ok (hconnect : transport.connect = .ok ()) {a : α} (h : (body 0).1 = .ok a) :
    run_client json transport body emit = emit a := by
  have hwith : async_with transport body = .ok a := by
    unfold async_with
    rw [hconnect]
    exact h
  unfold run_client
  rw [hwith]

/-- No `except` clause catches an exception that is no `ModbusError`. -/
theorem run_client_other (hconnect : transport.connect = .ok ()) {e : PyError}
    (h : (body 0).1 = .error e) (hother : ¬ IsModbus e) :
    run_client json transport body emit = .error (.error e) := by
  have hwith : async_with transport body = .error e := by
    unfold async_with
    rw [hconnect]
    exact h
  unfold run_client
  rw [hwith]
  cases e with
  | modbus m => exact absurd ⟨m, rfl⟩ hother
  | _ => rfl

theorem emit_failure_code (err_type message : String) (code : Int) :
    (emit_failure json err_type message code : Output F).exit_code = code := by
  cases json <;> rfl

/-- What a `ModbusError` out of the `try` block comes to. -/
theorem run_client_modbus {e : ModbusError} (h : async_with transport body = .error (.modbus e)) :
    ∃ out, run_client json transport body emit = .ok out ∧ FailureCode e out.exit_code := by
  unfold run_client
  rw [h]
  cases e with
  | ModbusConnectionError message =>
    refine ⟨_, rfl, ⟨fun _ _ => emit_failure_code .., ?_⟩⟩
    intro cls message n he
    cases he
  | ModbusExceptionResponse cls message n =>
    refine ⟨_, rfl, ⟨?_, fun _ _ _ _ => emit_failure_code ..⟩⟩
    intro message he
    cases he
  | _ =>
    refine ⟨_, rfl, ?_, ?_⟩
    · intro _ he
      cases he
    · intro _ _ _ he
      cases he

theorem run_client_unconnected {e : ModbusError} (h : transport.connect = .error e) :
    ∃ out, run_client json transport body emit = .ok out ∧ FailureCode e out.exit_code := by
  apply run_client_modbus
  unfold async_with
  rw [h]

/-- A command for one item returns the documented code exactly when it returns, and its item does
not fail with `ModbusConnectionError`. -/
theorem item_exits_iff {ρ : Type} {ok : ρ → Bool} {error : ρ → Option ModbusError}
    {Comes : ρ → Prop} {First : ModbusError → Prop} {emit : ρ → Output F} {body : Py Nat (List ρ)}
    {intime : Prop} (hreports : Reports ok error Comes First)
    (hemit : ∀ r, (emit r).exit_code = if ok r then 0 else 1)
    (hconnect : transport.connect = .ok ())
    (hok : intime → ∃ r, (body 0).1 = .ok [r] ∧ Comes r)
    (hother : ¬ intime → ∃ e, (body 0).1 = .error e ∧ ¬ IsModbus e) :
    (∃ out, run_client json transport body (emit_first emit) = .ok out ∧ ∀ r, Comes r →
        (ok r = true → out.exit_code = 0) ∧ ∀ e, error r = some e → FailureCode e out.exit_code) ↔
      intime ∧ ∀ message, ¬ First (.ModbusConnectionError message) := by
  constructor
  · intro ⟨out, hrun, hcoded⟩
    have htime : intime := by
      by_contra hlate
      obtain ⟨e, he, hno⟩ := hother hlate
      rw [run_client_other hconnect he hno] at hrun
      cases hrun
    refine ⟨htime, ?_⟩
    intro message hfirst
    obtain ⟨r, hr, -⟩ := hok htime
    rw [run_client_ok hconnect hr] at hrun
    cases hrun
    -- Such an item would have to end with 2, which no item does.
    obtain ⟨r', hcomes, herror⟩ := hreports.first _ hfirst
    have htwo := ((hcoded r' hcomes).2 _ herror).unreachable message rfl
    rw [hemit r] at htwo
    split at htwo
    · cases htwo
    · cases htwo
  · intro ⟨htime, hvisible⟩
    obtain ⟨r, hr, hcomes⟩ := hok htime
    refine ⟨emit r, run_client_ok hconnect hr, ?_⟩
    intro r' hcomes'
    rw [hemit r, hreports.ok_eq r r' hcomes hcomes']
    refine ⟨fun h => if_pos h, ?_⟩
    intro e he
    obtain ⟨hfailed, hfirst⟩ := hreports.error_of r' e hcomes' he
    rw [hfailed]
    constructor
    · intro message hmessage
      subst hmessage
      rcases hfirst with hfirst | ⟨message', hplain⟩
      · exact absurd hfirst (hvisible message)
      · cases hplain
    · exact fun _ _ _ _ => rfl

end

/-! ## The three commands -/

section

variable {F : Type} [FloatOps F] {parsers : Parsers F} {transports : Link → Transport}
  {client : Client}

theorem emit_read_result_code (json : Bool) (r : ReadResult F) :
    (emit_read_result r json).exit_code = if r.ok then 0 else 1 := by
  unfold emit_read_result
  cases json <;> cases r.ok <;> rfl

omit [FloatOps F] in
theorem emit_write_result_code (json : Bool) (r : WriteResult F) :
    (emit_write_result r json).exit_code = if r.ok then 0 else 1 := by
  unfold emit_write_result
  cases json <;> cases r.ok <;> rfl

omit [FloatOps F] in
/-- Registers that the arguments ask for have the bit fields of their type. -/
theorem validate_bit_fields_built {args : ReadArgs} {i : RegisterItem}
    (built : build_register_item parsers args = .ok i) : validate_bit_fields i = .ok () := by
  unfold build_register_item at built
  cases hd : args.dtype with
  | bit =>
    cases hb : args.bit_index with
    | none =>
      rw [hd, hb] at built
      cases built
    | some bit_index =>
      rw [hd, hb] at built
      cases built
      rfl
  | bits =>
    cases hb : given args.bit_indices with
    | none =>
      rw [hd, hb] at built
      cases built
    | some text =>
      rw [hd, hb] at built
      simp only at built
      cases hm : (split text).mapM fun s =>
          value_error "--bit-indices" (parsers.int_auto (strip s)) with
      | error e =>
        rw [hm] at built
        cases built
      | ok bit_indices =>
        rw [hm] at built
        cases built
        rfl
  | numeric dtype =>
    rw [hd] at built
    cases built
    rfl

omit [FloatOps F] in
theorem validate_built {args : ReadArgs} {item : ReadItem}
    (built : build_read_item parsers args = .ok item) (count : 0 < item.count) :
    validate_read_item item = .ok () := by
  have hmap : ∀ f : RegisterItem → ReadItem, (build_register_item parsers args).map f = .ok item →
      ∃ i, item = f i ∧ validate_bit_fields i = .ok () := by
    intro f hf
    cases hi : build_register_item parsers args with
    | error e =>
      rw [hi] at hf
      cases hf
    | ok i =>
      rw [hi] at hf
      cases hf
      exact ⟨i, rfl, validate_bit_fields_built hi⟩
  unfold validate_read_item
  rw [if_neg (by omega)]
  unfold build_read_item at built
  cases harea : args.area with
  | COIL =>
    rw [harea] at built
    cases built
    rfl
  | DISCRETE_INPUT =>
    rw [harea] at built
    cases built
    rfl
  | HOLDING_REGISTER =>
    rw [harea] at built
    obtain ⟨i, hitem, hvalid⟩ := hmap _ built
    subst hitem
    exact hvalid
  | INPUT_REGISTER =>
    rw [harea] at built
    obtain ⟨i, hitem, hvalid⟩ := hmap _ built
    subst hitem
    exact hvalid

theorem run_read_eq {args : ReadArgs} {item : ReadItem}
    (built : build_read_item parsers args = .ok item)
    (made : make_client args.connection = .ok client) :
    run parsers transports (.read args) =
      run_client args.json (transports client.link) (client.read (transports client.link) [item])
        (emit_first fun result => emit_read_result result args.json) := by
  rw [run, run_read, built, made]
  rfl

theorem run_write_eq {args : WriteArgs} {item : WriteItem F}
    (built : build_write_item parsers args.toWriteValues = .ok item)
    (made : make_client args.connection = .ok client) :
    run parsers transports (.write args) =
      run_client args.json (transports client.link) (client.write (transports client.link) [item])
        (emit_first fun result => emit_write_result result args.json) := by
  rw [run, run_write, built, made]
  rfl

/-- The `try` block of `_run_scan`. -/
def probe (client : Client) (transport : Transport) (start : Int) : Py Nat Bytes := do
  let pdu ← encode_read_holding_registers start 1
  client.execute transport pdu none none none

theorem run_scan_eq {args : ScanArgs} (made : make_client args.connection = .ok client) :
    run parsers transports (.scan args) =
      run_client args.json (transports client.link)
        (probe client (transports client.link) args.start) (emit_response args.json) := by
  rw [run, run_scan, made]
  rfl

theorem read_exits_iff {args : ReadArgs} {item : ReadItem}
    (built : build_read_item parsers args = .ok item)
    (made : make_client args.connection = .ok client) (count : 0 < item.count)
    (inside : InAddressSpace (item_range item))
    (hconnect : (transports client.link).connect = .ok ()) :
    (∃ out, run parsers transports (.read args) = .ok out ∧
      (Job.read item : Job F).Coded (final client (transports client.link)) out.exit_code) ↔
    InTime client (transports client.link) (read_chunks item).length ∧
      (Job.read item : Job F).Visible (final client (transports client.link)) := by
  have hvalid := validate_built built count
  have hbody : client.read (F := F) (transports client.link) [item] =
      plan_and_execute_reads [item] (numbered (ending client (transports client.link))) := by
    rw [Client.read, make_pdu_executor_eq made]
  rw [run_read_eq built made, hbody]
  apply item_exits_iff (read_reports count) (emit_read_result_code args.json) hconnect
  · intro htime
    rw [← htime.ended_eq]
    exact read_one_ok hvalid inside htime.isModbus
  · intro hlate
    obtain ⟨call, hcall, he⟩ := exists_late hlate
    exact read_one_error hvalid inside hcall he not_isModbus_power_overflows

theorem write_exits_iff {args : WriteArgs} {item : WriteItem F}
    (built : build_write_item parsers args.toWriteValues = .ok item)
    (made : make_client args.connection = .ok client) (plannable : ¬ Unplannable item)
    (inside : InAddressSpace (write_range item))
    (hconnect : (transports client.link).connect = .ok ()) :
    (∃ out, run parsers transports (.write args) = .ok out ∧
      (Job.write item).Coded (final client (transports client.link)) out.exit_code) ↔
    InTime client (transports client.link) (write_chunks item).length ∧
      (Job.write item).Visible (final client (transports client.link)) := by
  have hbody : client.write (transports client.link) [item] =
      plan_and_execute_writes [item] (numbered (ending client (transports client.link))) := by
    rw [Client.write, make_pdu_executor_eq made]
  rw [run_write_eq built made, hbody]
  apply item_exits_iff write_reports (emit_write_result_code args.json) hconnect
  · intro htime
    rw [← htime.ended_eq]
    exact write_one_ok plannable inside htime.isModbus
  · intro hlate
    obtain ⟨call, hcall, he⟩ := exists_late hlate
    exact write_one_error plannable inside hcall he not_isModbus_power_overflows

omit [FloatOps F] in
/-- The answers to `scan`, alive or not. -/
theorem emit_response_of_answered (json : Bool) {response : Bytes} (h : Answered response) :
    ∃ out : Output F, emit_response json response = .ok out ∧ out.exit_code = 0 := by
  unfold emit_response
  rcases h with hhead | ⟨code, rest, hexception⟩
  · obtain ⟨rest, hcons⟩ := List.head?_eq_some_iff.mp hhead
    have hnone : detect_exception response FC_READ_HOLDING_REGISTERS = .ok none := by
      rw [hcons]
      rfl
    rw [hnone]
    cases json <;> exact ⟨_, rfl, rfl⟩
  · subst hexception
    obtain ⟨exc, hexc⟩ : ∃ exc, detect_exception (0x83 :: code :: rest)
        FC_READ_HOLDING_REGISTERS = .ok (some exc) := ⟨_, rfl⟩
    rw [hexc]
    cases json <;> exact ⟨_, rfl, rfl⟩

omit [FloatOps F] in
theorem emit_response_raises (json : Bool) {response : Bytes} (h : ¬ Answered response) :
    ∃ e, (emit_response json response : Except Raised (Output F)) = .error e := by
  unfold emit_response
  cases hdetect : detect_exception response FC_READ_HOLDING_REGISTERS with
  | error e => exact ⟨_, rfl⟩
  | ok exc =>
    exfalso
    apply h
    unfold detect_exception at hdetect
    cases response with
    | nil => cases hdetect
    | cons fc rest =>
      by_cases hnormal : fc = FC_READ_HOLDING_REGISTERS
      · exact .inl (congrArg some hnormal)
      · simp only [if_neg hnormal] at hdetect
        by_cases hexception : fc = FC_READ_HOLDING_REGISTERS ||| EXCEPTION_BIT
        · cases rest with
          | nil =>
            rw [if_pos hexception] at hdetect
            cases hdetect
          | cons code rest => exact .inr ⟨code, rest, by rw [hexception]; rfl⟩
        · rw [if_neg hexception] at hdetect
          cases hdetect

theorem scan_exits_iff {args : ScanArgs} (made : make_client args.connection = .ok client)
    (inside : IsRegister args.start) (hconnect : (transports client.link).connect = .ok ()) :
    (∃ out, run parsers transports (.scan args) = .ok out ∧
      (Job.scan args.start : Job F).Coded (final client (transports client.link)) out.exit_code) ↔
    InTime client (transports client.link) 1 ∧
      (Job.scan args.start : Job F).Visible (final client (transports client.link)) := by
  have hencode : encode_read_holding_registers args.start 1 =
      .ok (words FC_READ_HOLDING_REGISTERS args.start 1) :=
    read_request_ok .HOLDING_REGISTER inside (by decide) (by decide)
  have hbody : (probe client (transports client.link) args.start 0).1 =
      ending client (transports client.link) 0 := by
    unfold probe
    rw [hencode, Py.bind_ok (Py.lift_run _ _), execute_eq made _ _ _ rfl]
  rw [run_scan_eq made]
  constructor
  · intro ⟨out, hout, _⟩
    have htime : InTime client (transports client.link) 1 := by
      by_contra hlate
      obtain ⟨call, hcall, he⟩ := exists_late hlate
      obtain rfl : call = 0 := by omega
      rw [run_client_other hconnect (hbody.trans he) not_isModbus_power_overflows] at hout
      cases hout
    refine ⟨htime, ?_⟩
    intro response hresponse
    by_contra hno
    rw [← htime.ending_eq Nat.zero_lt_one, ← hbody] at hresponse
    obtain ⟨e, he⟩ := emit_response_raises (F := F) args.json hno
    rw [run_client_ok hconnect hresponse, he] at hout
    cases hout
  · intro ⟨htime, hvisible⟩
    rw [htime.ending_eq Nat.zero_lt_one] at hbody
    cases hfinal : final client (transports client.link) 0 with
    | ok response =>
      obtain ⟨out, hout, hzero⟩ :=
        emit_response_of_answered (F := F) args.json (hvisible response hfinal)
      rw [hfinal] at hbody
      refine ⟨out, (run_client_ok hconnect hbody).trans hout, fun _ _ _ => hzero, ?_⟩
      intro message hmessage
      rw [hfinal] at hmessage
      cases hmessage
    | error e =>
      obtain ⟨m, hm⟩ := isModbus_final hfinal
      subst hm
      rw [hfinal] at hbody
      have hwith : async_with (transports client.link)
          (probe client (transports client.link) args.start) = .error (.modbus m) := by
        unfold async_with
        rw [hconnect]
        exact hbody
      obtain ⟨out, hout, hcode⟩ : ∃ out : Output F, run_client args.json
          (transports client.link) _ (emit_response args.json) = .ok out ∧
            FailureCode m out.exit_code := run_client_modbus hwith
      refine ⟨out, hout, ?_, ?_⟩
      · intro response hresponse
        rw [hfinal] at hresponse
        cases hresponse
      · intro message hmessage
        rw [hfinal] at hmessage
        cases hmessage
        exact hcode.unreachable message rfl

/-- A valid command awaits its client, and prints what comes of it. -/
theorem Valid.runs_client {command : Command} {job : Job F}
    (h : Valid parsers command job client) :
    ∃ (α : Type) (json : Bool) (body : Py Nat α) (emit : α → Except Raised (Output F)),
      run parsers transports command = run_client json (transports client.link) body emit := by
  cases h with
  | read built made => exact ⟨_, _, _, _, run_read_eq built made⟩
  | write built made => exact ⟨_, _, _, _, run_write_eq built made⟩
  | scan made => exact ⟨_, _, _, _, run_scan_eq made⟩

/-- A valid command returns the documented code exactly when it gets no connection, or else each
of its requests is over in time and its failure is one that it reports. -/
theorem a_command_exits_as_documented_iff (parsers : Parsers F) (transports : Link → Transport)
    (command : Command) (job : Job F) (client : Client) (h : Valid parsers command job client) :
    ExitsAsDocumented parsers transports command job client ↔
      ((transports client.link).connect = .ok () →
        InTime client (transports client.link) job.requests ∧
          job.Visible (final client (transports client.link))) := by
  unfold ExitsAsDocumented
  cases hconnect : (transports client.link).connect with
  | error e =>
    -- Without a connection there is no exchange, and both `except` clauses stand open.
    obtain ⟨α, json, body, emit, hrun⟩ : ∃ (α : Type) (json : Bool) (body : Py Nat α)
        (emit : α → Except Raised (Output F)), run parsers transports command =
          run_client json (transports client.link) body emit := h.runs_client
    obtain ⟨out, hout, hcode⟩ : ∃ out, run_client json (transports client.link) body emit =
        .ok out ∧ FailureCode e out.exit_code := run_client_unconnected hconnect
    constructor
    · intro _ hno
      cases hno
    · intro _
      refine ⟨out, hrun.trans hout, ?_, ?_⟩
      · intro e' he
        cases he
        exact hcode
      · intro hno
        cases hno
  | ok u =>
    simp only [reduceCtorEq, false_implies, implies_true, true_and, forall_const]
    cases h with
    | read built made count inside => exact read_exits_iff built made count inside hconnect
    | write built made plannable inside => exact write_exits_iff built made plannable inside hconnect
    | scan made inside => exact scan_exits_iff made inside hconnect

end

/-- Parsers of one literal. -/
def seven : Parsers Float where
  int_auto s :=
    if s = "7" then .ok 7 else .error s!"invalid literal for int() with base 0: {repr s}"
  float s := if s = "7" then .ok 7 else .error s!"could not convert string to float: {repr s}"
  int_eq z x := Float.ofInt z == x

/-- `pymod read --host plc --retries RETRIES --area holding --start 0 --count 1` -/
def read_one (retries : Int) : ReadArgs where
  connection := { host := some "plc", retries }
  area := .HOLDING_REGISTER
  start := 0
  count := 1

/-- The client of `read_one`. -/
def plc (retries : Int) : Client :=
  ⟨.tcp "plc" 502, ⟨1, 0.5, { max_attempts := max 1 (retries + 1) }⟩⟩

/-- The item of `read_one`. -/
def one_register : ReadItem := .Holding { start := 0, count := 1 }

theorem read_one_is_valid (retries : Int) :
    Valid seven (.read (read_one retries)) (.read one_register) (plc retries) :=
  .read rfl rfl (by decide) ⟨by decide, by decide⟩

/-- A device that answers the second attempt. -/
def slow_device (_ : Link) : Transport where
  connect := .ok ()
  send_and_receive _ attempt :=
    if attempt = 1 then .error (.ModbusTimeoutError "no response within 0.5s") else .ok [3, 2, 0, 7]

theorem slow_device_answers :
    ended (read_chunks one_register) (final (plc 1) (slow_device (plc 1).link)) =
      [(⟨.HOLDING_REGISTER, 0, 1⟩, .ok [3, 2, 0, 7])] := rfl

theorem a_retried_read_exits_as_documented :
    ExitsAsDocumented seven slow_device (.read (read_one 1)) (.read one_register) (plc 1) :=
  (a_command_exits_as_documented_iff seven slow_device (.read (read_one 1)) (.read one_register)
    (plc 1) (read_one_is_valid 1)).mpr fun _ => by
      refine ⟨fun call _ => (last_attempt_spec _ (by decide)).2.1.trans (by decide), ?_⟩
      intro message ⟨p, hp, hfailed, _⟩
      rw [slow_device_answers, List.mem_singleton] at hp
      subst hp
      cases hfailed

/-- A device that accepts a connection, and drops it at every request. -/
def dropping_device (_ : Link) : Transport where
  connect := .ok ()
  send_and_receive _ _ := .error (.ModbusConnectionError "connection closed")

theorem dropping_device_drops :
    ended (read_chunks one_register) (final (plc 0) (dropping_device (plc 0).link)) =
      [(⟨.HOLDING_REGISTER, 0, 1⟩,
        .error (.modbus (.ModbusConnectionError "connection closed")))] := rfl

/-- A read that fails for want of a connection exits with 1. -/
theorem a_dropped_read_exits_with_one : ¬ ∀ (parsers : Parsers Float)
    (transports : Link → Transport) (command : Command) (job : Job Float) (client : Client),
    Valid parsers command job client →
      ExitsAsDocumented parsers transports command job client := by
  intro h
  obtain ⟨out, hout, -, hcoded⟩ := h seven dropping_device _ _ _ (read_one_is_valid 0)
  have hrun : run seven dropping_device (.read (read_one 0)) = .ok
      { exit_code := 1, stderr := [.text "error: ModbusConnectionError: connection closed"] } := rfl
  rw [hrun] at hout
  cases hout
  have hfirst : FailsFirst (fun p => p.1.start) chunk_failure
      (ended (read_chunks one_register) (final (plc 0) (dropping_device (plc 0).link)))
      (.ModbusConnectionError "connection closed") := by
    rw [dropping_device_drops]
    exact ⟨_, List.mem_singleton_self _, rfl, fun d hd _ => by rw [List.mem_singleton.mp hd]⟩
  obtain ⟨r, hcomes, herror⟩ :=
    (read_reports (F := Float) (by decide)).first _ hfirst
  have htwo := ((hcoded rfl r hcomes).2 _ herror).unreachable _ rfl
  cases htwo

-- Bytes that are no answer end `scan` with a traceback.
example : (emit_response false [] : Except Raised (Output Float)) =
    .error (.error (.modbus (.ModbusProtocolError "empty PDU"))) := rfl

end pymod.cli
