-- The requests of a command for one item: which attempt is the last one of each, and what comes
-- of the item when they end so.
import Pymod.Cli
import Pymod.Backoff
import Pymod.BatchIsolation

namespace pymod.cli

open errors codec pdu types planner retry Slices

/-! ## How a request ends -/

/-- The errors after which `execute` tries again. -/
def retried : Except ModbusError Bytes → Bool
  | .error (.ModbusTimeoutError _) | .error (.ModbusConnectionError _) => true
  | _ => false

/-- The last attempt of a request, when there may be `most` of them: the first one that is not
tried again, or the one of that number. -/
def last_attempt (most : Nat) (attempts : Nat → Except ModbusError Bytes) : Nat :=
  ((List.range' 1 most).find? fun n => !retried (attempts n)).getD most

/-- How many attempts a request of the client may have. -/
def Client.attempts (client : Client) : Nat :=
  client.async_client.default_retry.max_attempts.toNat

section

variable (client : Client) (transport : Transport)

/-- The last attempt of a call of `execute`. -/
def last_of (call : Nat) : Nat := last_attempt client.attempts (transport.send_and_receive call)

/-- What the transport ended the last attempt with. -/
def final (call : Nat) : Outcome :=
  (transport.send_and_receive call (last_of client transport call)).mapError .modbus

/-- Each request is over by its 1025th attempt. The delay before the next one overflows. -/
def InTime (requests : Nat) : Prop := ∀ call < requests, last_of client transport call ≤ 1025

end

/-- The requests of a command for one item. -/
def read_chunks (item : ReadItem) : List ReadChunk := plan_read_chunks [item]

def write_chunks {F : Type} [FloatOps F] (item : WriteItem F) : List WriteChunk :=
  (item_pieces item).map fun p => payload_chunk 0 p.1 p.2

/-- The requests, each with what it ended with. -/
def ended {κ : Type} (chunks : List κ) (outcomes : Nat → Outcome) : List (κ × Outcome) :=
  chunks.zip ((List.range chunks.length).map outcomes)

/-! ## Attempts -/

theorem last_attempt_spec {most : Nat} (attempts : Nat → Except ModbusError Bytes)
    (hmost : 1 ≤ most) :
    1 ≤ last_attempt most attempts ∧ last_attempt most attempts ≤ most ∧
      (last_attempt most attempts = most ∨ retried (attempts (last_attempt most attempts)) = false) ∧
      ∀ j, 1 ≤ j → j < last_attempt most attempts → retried (attempts j) = true := by
  unfold last_attempt
  cases hfind : (List.range' 1 most).find? fun n => !retried (attempts n) with
  | none =>
    rw [List.find?_range'_eq_none] at hfind
    refine ⟨hmost, Nat.le_refl _, .inl rfl, ?_⟩
    intro j hj hlt
    simp only [Option.getD_none] at hlt
    have hretried := hfind j hj (by omega)
    simpa using hretried
  | some k =>
    obtain ⟨hk, hmem, hbefore⟩ := List.find?_range'_eq_some.mp hfind
    rw [List.mem_range'_1] at hmem
    refine ⟨hmem.1, by simp only [Option.getD_some]; omega, .inr (by simpa using hk), ?_⟩
    intro j hj hlt
    have hretried := hbefore j hj hlt
    simpa using hretried

/-- `retry_on` catches the errors that are retried. -/
theorem retried_iff (policy : RetryPolicy ℚ) (hcatches : policy.retry_on = transport_errors)
    (attempts : Nat → Except ModbusError Bytes) (n : Nat) :
    Retried policy (fun n => (attempts n).mapError .modbus) n ↔ retried (attempts n) = true := by
  unfold Retried
  rw [hcatches]
  simp only
  cases attempts n with
  | ok response => simp [Except.mapError, retried]
  | error e => cases e <;> simp [Except.mapError, retried, transport_errors]

/-- The policy of the command line: the default one, but for the number of attempts. -/
abbrev cli_policy (most : Int) : RetryPolicy ℚ := { max_attempts := most }

theorem cli_backs_off (most : Int) : BacksOff (cli_policy most) :=
  ⟨default_backs_off.initial, default_backs_off.factor, default_backs_off.cap⟩

theorem cli_factor (most : Int) : (cli_policy most).backoff_factor = 2 := default_factor

theorem cli_pause_elapsed (most : Int) {n : Nat} (h : n ≤ 1025) :
    pause (cli_policy most) n = .elapsed := by
  apply (cli_backs_off most).pause_elapsed
  rw [cli_factor]
  exact pow_lt_pow_right₀ (by norm_num) (by omega)

theorem cli_pause_raises (most : Int) :
    pause (cli_policy most) 1026 = .raises power_overflows := by
  apply (cli_backs_off most).pause_raises (by decide)
  rw [cli_factor]

/-! ## One call of `execute` -/

section

variable {client : Client} {transport : Transport}

/-- What a call of `execute` ends with. -/
def ending (client : Client) (transport : Transport) (call : Nat) : Outcome :=
  if last_of client transport call ≤ 1025 then final client transport call
  else .error power_overflows

/-- The client that the arguments make has the policy of the command line. -/
theorem made_policy {args : ConnectionArgs} (h : make_client args = .ok client) :
    ∃ most : Nat, 1 ≤ most ∧ client.async_client.default_retry = cli_policy most := by
  have hmost : ((max 1 (args.retries + 1)).toNat : Int) = max 1 (args.retries + 1) := by omega
  refine ⟨(max 1 (args.retries + 1)).toNat, by omega, ?_⟩
  rw [hmost]
  unfold make_client at h
  simp only at h
  split at h
  · split at h
    · cases h
      rfl
    · cases h
  · split at h
    · cases h
    · split at h
      · cases h
        rfl
      · cases h
        rfl

/-- The loop ends with its last attempt, or with the first delay that cannot be computed. -/
theorem execute_loop_ending {most : Nat} (hmost : 1 ≤ most) (send : Send ℚ)
    (attempts : Nat → Except ModbusError Bytes) :
    Client.awaited (execute_loop (cli_policy most) send (fun n => (attempts n).mapError .modbus)
        most 1 none).2 =
      if last_attempt most attempts ≤ 1025 then
        (attempts (last_attempt most attempts)).mapError .modbus
      else .error power_overflows := by
  obtain ⟨hpos, hle, hlast, hbefore⟩ := last_attempt_spec attempts hmost
  have hretried := retried_iff (cli_policy most) rfl attempts
  have hturns : ((most : Int) + (1 : Nat)) = (cli_policy most).max_attempts + 1 := rfl
  by_cases htime : last_attempt most attempts ≤ 1025
  · have hends : execute_loop (cli_policy most) send (fun n => (attempts n).mapError .modbus)
        most 1 none = _ :=
      execute_loop_ends (Int.ofNat_le.mpr hle)
        (hlast.imp (congrArg Int.ofNat) fun h => by rw [hretried, h]; decide) most 1 none
        hpos hturns (fun j h1 h2 => (hretried j).mpr (hbefore j h1 h2))
        fun j _ h2 => cli_pause_elapsed most (h2.trans htime)
    rw [hends, if_pos htime]
    rfl
  · have hpause := cli_pause_raises most
    have hlate : (1026 : Nat) ≤ (cli_policy most).max_attempts := by
      simp only
      omega
    have hstops : execute_loop (cli_policy most) send (fun n => (attempts n).mapError .modbus)
        most 1 none = _ :=
      execute_loop_stops send hlate (by rw [hpause]; exact Sleep.noConfusion) most 1 none
        (by decide) hturns fun j h1 h2 =>
          ⟨(hretried j).mpr (hbefore j h1 (by omega)), cli_pause_elapsed most (by omega)⟩
    rw [hstops, hpause, if_neg htime]
    rfl

/-- A call of `execute` with the client's own policy. -/
theorem execute_eq {args : ConnectionArgs} (h : make_client args = .ok client) (pdu : Bytes)
    (unit_id : Option Int) (timeout_s : Option ℚ) {retry : Option (RetryPolicy ℚ)}
    (hretry : retry.getD client.async_client.default_retry = client.async_client.default_retry)
    (call : Nat) :
    client.execute transport pdu unit_id timeout_s retry call =
      (ending client transport call, call + 1) := by
  obtain ⟨most, hmost, hpolicy⟩ := made_policy h
  have hattempts : client.attempts = most := by
    rw [Client.attempts, hpolicy]
    rfl
  unfold Client.execute AsyncClient.execute ending final last_of
  rw [hpolicy] at hretry
  simp only [hpolicy, hattempts, hretry]
  rw [Int.toNat_natCast, execute_loop_ending hmost]

/-- An executor whose calls end with these outcomes, one after the other. -/
def numbered (outcomes : Nat → Outcome) (_ : Bytes) : Py Nat Bytes := fun call =>
  (outcomes call, call + 1)

theorem make_pdu_executor_eq {args : ConnectionArgs} (h : make_client args = .ok client) :
    client.make_pdu_executor transport = numbered (ending client transport) := by
  funext pdu call
  exact execute_eq h pdu _ _ rfl call

end

/-! ## Requests in a row -/

section

variable {outcomes : Nat → Outcome}

theorem exchange_numbered {α : Type} (decode : Bytes → Except PyError α) (q : Bytes) (call : Nat) :
    exchange (.ok q) (numbered outcomes) decode call =
      ((outcomes call).bind decode, call + 1) :=
  exchange_run rfl

/-- What comes of a chunk: its result, or an exception that is no `ModbusError`. -/
def settle {κ ρ : Type} (result : κ → Outcome → ρ) (p : κ × Outcome) : Except PyError ρ :=
  match p.2 with
  | .ok _ | .error (.modbus _) => .ok (result p.1 p.2)
  | .error e => .error e

theorem settle_ok {κ ρ : Type} {result : κ → Outcome → ρ} {p : κ × Outcome}
    (h : ∀ e, p.2 = .error e → IsModbus e) : settle result p = .ok (result p.1 p.2) := by
  obtain ⟨c, o⟩ := p
  cases o with
  | ok response => rfl
  | error e =>
    obtain ⟨m, hm⟩ := h e rfl
    subst hm
    rfl

theorem settle_error {κ ρ : Type} {result : κ → Outcome → ρ} {p : κ × Outcome} {e : PyError}
    (h : p.2 = .error e) (hother : ¬ IsModbus e) : settle result p = .error e := by
  obtain ⟨c, o⟩ := p
  subst h
  cases e with
  | modbus m => exact absurd ⟨m, rfl⟩ hother
  | _ => rfl

/-- A chunk that is settled badly had an outcome that is no `ModbusError`. -/
theorem not_isModbus_of_settle {κ ρ : Type} {result : κ → Outcome → ρ} {p : κ × Outcome}
    {e : PyError} (h : settle result p = .error e) : ¬ IsModbus e := by
  obtain ⟨c, o⟩ := p
  intro ⟨m, hm⟩
  subst hm
  cases o with
  | ok response => cases h
  | error e =>
    cases e with
    | modbus m' => cases h
    | _ => cases h

/-- Tasks of one call each, from the call of number `call` on. -/
theorem gather_numbered {κ ρ : Type} {task : κ → Py Nat ρ}
    {value : κ × Outcome → Except PyError ρ} {cs : List κ}
    (htask : ∀ c ∈ cs, ∀ call, task c call = (value (c, outcomes call), call + 1)) (call : Nat) :
    Py.gather (cs.map task) call =
      ((cs.zip ((List.range' call cs.length).map outcomes)).mapM value, call + cs.length) := by
  induction cs generalizing call with
  | nil => rfl
  | cons c cs ih =>
    have hrest := ih (fun d hd => htask d (List.mem_cons_of_mem c hd)) (call + 1)
    rw [List.map_cons, Py.gather]
    simp only [htask c (by simp) call, hrest]
    rw [List.length_cons, List.range'_succ, List.map_cons, List.zip_cons_cons, List.mapM_cons,
      Nat.add_assoc, Nat.add_comm 1]
    rfl

/-- All requests end with bytes or `ModbusError`, and all chunks have results. -/
theorem settled {κ ρ : Type} {result : κ → Outcome → ρ} {cs : List κ}
    (h : ∀ call < cs.length, ∀ e, outcomes call = .error e → IsModbus e) :
    (ended cs outcomes).mapM (settle result) =
      .ok (List.zipWith result cs ((List.range cs.length).map outcomes)) := by
  rw [← List.map_uncurry_zip_eq_zipWith]
  apply mapM_ok
  intro p hp
  obtain ⟨call, hcall, ho⟩ := List.mem_map.mp (List.of_mem_zip hp).2
  apply settle_ok
  intro e he
  rw [← ho] at he
  exact h call (List.mem_range.mp hcall) e he

/-- A request that ends with another exception ends them all. -/
theorem unsettled {κ ρ : Type} {result : κ → Outcome → ρ} {cs : List κ} {call : Nat}
    (hcall : call < cs.length) {e : PyError} (he : outcomes call = .error e)
    (hother : ¬ IsModbus e) :
    ∃ e', (ended cs outcomes).mapM (settle result) = .error e' ∧ ¬ IsModbus e' := by
  have hmem : (cs[call], outcomes call) ∈ ended cs outcomes := by
    unfold ended
    rw [List.mem_iff_getElem]
    refine ⟨call, by simpa using hcall, by simp⟩
  obtain ⟨e', he'⟩ := mapM_error (f := settle result) hmem (settle_error he hother)
  obtain ⟨p, -, hp⟩ := error_of_mapM he'
  exact ⟨e', he', not_isModbus_of_settle hp⟩

theorem execute_read_chunk_numbered {c : ReadChunk} (hstart : IsRegister c.start)
    (h0 : 1 ≤ c.count) (h1 : c.count ≤ READ_LIMITS c.area) (call : Nat) :
    execute_read_chunk c (numbered outcomes) call =
      (settle chunk_result (c, outcomes call), call + 1) := by
  have hread : read_chunk c (numbered outcomes) call =
      (chunk_cells (c, outcomes call), call + 1) := by
    rw [read_chunk_eq, read_request_ok c.area hstart h0 h1]
    exact exchange_numbered (read_cells c.area c.count) (chunk_request c) call
  rw [execute_read_chunk_run hread]
  congr 1
  cases ho : outcomes call with
  | error e => cases e <;> rfl
  | ok response =>
    have hcount : 0 ≤ c.count := by omega
    exact chunk_result_of_cells fun e he => read_cells_modbus hcount he

theorem execute_write_chunk_numbered (idx : Nat) {start : Int} {payload : Payload}
    (hstart : IsRegister start) (hlegal : payload.Legal) (call : Nat) :
    execute_write_chunk (payload_chunk idx start payload) (numbered outcomes) call =
      (settle write_chunk_result (payload_chunk idx start payload, outcomes call), call + 1) := by
  have hwrite : write_chunk (payload_chunk idx start payload) (numbered outcomes) call =
      ((outcomes call).bind (payload_response payload), call + 1) := by
    rw [write_chunk_payload idx hlegal hstart]
    exact exchange_numbered (payload_response payload) (payload_request start payload) call
  rw [execute_write_chunk_run hwrite]
  congr 1
  cases ho : outcomes call with
  | error e =>
    unfold settle write_chunk_result write_chunk_failure
    rw [payload_chunk_payload]
    cases e <;> rfl
  | ok response => exact write_result_of_response fun e he => payload_response_modbus he

theorem mem_ended {κ : Type} {cs : List κ} {p : κ × Outcome} (h : p ∈ ended cs outcomes) :
    p.1 ∈ cs ∧ ∃ call < cs.length, p.2 = outcomes call := by
  obtain ⟨hc, ho⟩ := List.of_mem_zip h
  obtain ⟨call, hcall, heq⟩ := List.mem_map.mp ho
  exact ⟨hc, call, List.mem_range.mp hcall, heq.symm⟩

/-- The tasks of a batch of one item. -/
theorem gather_ended {κ ρ : Type} {task : κ → Py Nat ρ} {result : κ → Outcome → ρ} {cs : List κ}
    (htask : ∀ c ∈ cs, ∀ call, task c call = (settle result (c, outcomes call), call + 1)) :
    Py.gather (cs.map task) 0 = ((ended cs outcomes).mapM (settle result), cs.length) := by
  rw [gather_numbered htask 0, Nat.zero_add, ← List.range_eq_range']
  rfl

/-! ## One item that is read -/

variable {F : Type} [FloatOps F] {item : ReadItem}

theorem read_chunk_inside (hpos : 0 < item.count) (hinside : InAddressSpace (item_range item))
    {c : ReadChunk} (hc : c ∈ read_chunks item) :
    IsRegister c.start ∧ 1 ≤ c.count ∧ c.count ≤ READ_LIMITS c.area ∧ Overlaps item c := by
  have hall : ∀ i ∈ [item], 0 < i.count := by simpa using hpos
  obtain ⟨_, h0, h1, hrequested⟩ := plan_read_chunks.spec hall hc
  obtain ⟨item', hitem, harea, hlow, hhigh⟩ := hrequested c.start (Int.le_refl _) (by omega)
  rw [List.mem_singleton] at hitem
  subst hitem
  obtain ⟨hzero, htop⟩ := hinside
  simp only [item_range] at hzero htop
  exact ⟨⟨by omega, by omega⟩, h0, h1, harea.symm, by omega, by omega⟩

/-- All requests of a single item are its own. -/
theorem own_reads_one (hpos : 0 < item.count) (hinside : InAddressSpace (item_range item)) :
    own_reads item (ended (read_chunks item) outcomes) = ended (read_chunks item) outcomes := by
  apply List.filter_eq_self.mpr
  intro p hp
  simpa using (read_chunk_inside hpos hinside (mem_ended hp).1).2.2.2

theorem read_one_eq (hvalid : validate_read_item item = .ok ())
    (hinside : InAddressSpace (item_range item)) :
    (plan_and_execute_reads (F := F) [item] (numbered outcomes) 0).1 =
      ((ended (read_chunks item) outcomes).mapM (settle chunk_result)).bind fun crs =>
        (decode_read_item item crs).map fun r => [r] := by
  have hpos := validate_read_item_count hvalid
  have htask : ∀ c ∈ read_chunks item, ∀ call, execute_read_chunk c (numbered outcomes) call =
      (settle chunk_result (c, outcomes call), call + 1) := by
    intro c hc call
    obtain ⟨hstart, h0, h1, -⟩ := read_chunk_inside hpos hinside hc
    exact execute_read_chunk_numbered hstart h0 h1 call
  have hgather := gather_ended htask
  unfold plan_and_execute_reads
  rw [if_neg (by simp), forM_ok (by simpa using hvalid)]
  simp only [bind, Py.lift_run]
  unfold read_chunks at hgather ⊢
  rw [hgather]
  cases (ended (plan_read_chunks [item]) outcomes).mapM (settle chunk_result) with
  | error e => rfl
  | ok crs =>
    simp only [List.mapM_cons, List.mapM_nil, Except.bind]
    cases decode_read_item (F := F) item crs <;> rfl

/-- Calls that end with bytes and `ModbusError` give the item its result. -/
theorem read_one_ok (hvalid : validate_read_item item = .ok ())
    (hinside : InAddressSpace (item_range item))
    (h : ∀ call < (read_chunks item).length, ∀ e, outcomes call = .error e → IsModbus e) :
    ∃ r : ReadResult F,
      (plan_and_execute_reads [item] (numbered outcomes) 0).1 = .ok [r] ∧
        ReadOutcome item (ended (read_chunks item) outcomes) r := by
  have hpos := validate_read_item_count hvalid
  have hmodbus : ∀ p ∈ ended (read_chunks item) outcomes, ∀ e, chunk_cells p = .error e →
      IsModbus e := by
    intro p hp e he
    obtain ⟨hc, call, hcall, ho⟩ := mem_ended hp
    obtain ⟨-, h0, -⟩ := read_chunk_inside hpos hinside hc
    unfold chunk_cells at he
    cases hp2 : p.2 with
    | error e' =>
      rw [hp2] at he
      cases he
      exact h call hcall e (ho.symm.trans hp2)
    | ok response =>
      rw [hp2] at he
      exact read_cells_modbus (by omega) he
  obtain ⟨r, hr, -⟩ := decode_read_item_settled (F := F) hvalid (settled_of_isModbus hmodbus)
  refine ⟨r, ?_, ?_⟩
  · rw [read_one_eq hvalid hinside, settled h]
    simp only [Except.bind, hr]
    rfl
  · have hall : ∀ i ∈ [item], 0 < i.count := by simpa using hpos
    have houtcome := readOutcome_of_decoded hall (List.mem_singleton_self item)
      (by simp [read_chunks]) hmodbus hr
    rwa [← own_reads_one hpos hinside]

/-- A call that ends with another exception raises one out of the read. -/
theorem read_one_error (hvalid : validate_read_item item = .ok ())
    (hinside : InAddressSpace (item_range item)) {call : Nat}
    (hcall : call < (read_chunks item).length) {e : PyError} (he : outcomes call = .error e)
    (hother : ¬ IsModbus e) :
    ∃ e', (plan_and_execute_reads (F := F) [item] (numbered outcomes) 0).1 = .error e' ∧
      ¬ IsModbus e' := by
  obtain ⟨e', he', hother'⟩ : ∃ e', (ended (read_chunks item) outcomes).mapM (settle chunk_result) =
      .error e' ∧ ¬ IsModbus e' := unsettled hcall he hother
  refine ⟨e', ?_, hother'⟩
  rw [read_one_eq hvalid hinside, he']
  rfl

/-! ## One item that is written -/

variable {written : WriteItem F}

theorem write_chunk_inside (hplan : ¬ Unplannable written)
    (hinside : InAddressSpace (write_range written)) {p : Int × Payload}
    (hp : p ∈ item_pieces written) : IsRegister p.1 ∧ p.2.Legal :=
  ⟨isRegister_of_write_range hplan hinside p hp, item_pieces_legal written p hp⟩

theorem plan_writes_one (hplan : ¬ Unplannable written) :
    plan_writes [written] = .ok (write_chunks written) := by
  rw [plan_writes_ok (by simpa using hplan)]
  simp [write_chunks]

/-- All requests of a single item are its own. -/
theorem own_writes_one :
    own_writes 0 (ended (write_chunks written) outcomes) =
      ended (write_chunks written) outcomes := by
  apply List.filter_eq_self.mpr
  intro p hp
  obtain ⟨q, -, hq⟩ := List.mem_map.mp (mem_ended hp).1
  rw [← hq]
  simp

theorem write_one_eq (hplan : ¬ Unplannable written)
    (hinside : InAddressSpace (write_range written)) :
    (plan_and_execute_writes [written] (numbered outcomes) 0).1 =
      ((ended (write_chunks written) outcomes).mapM (settle write_chunk_result)).map fun crs =>
        crs.foldl apply_error ([written].map fun item => { item, ok := true, error := none }) := by
  have htask : ∀ c ∈ write_chunks written, ∀ call,
      execute_write_chunk c (numbered outcomes) call =
        (settle write_chunk_result (c, outcomes call), call + 1) := by
    intro c hc call
    obtain ⟨p, hp, hq⟩ := List.mem_map.mp hc
    obtain ⟨hstart, hlegal⟩ := write_chunk_inside hplan hinside hp
    rw [← hq]
    exact execute_write_chunk_numbered 0 hstart hlegal call
  have hgather := gather_ended htask
  unfold plan_and_execute_writes
  rw [if_neg (by simp), plan_writes_one hplan]
  simp only [bind, Py.lift_run, hgather]
  cases (ended (write_chunks written) outcomes).mapM (settle write_chunk_result) <;> rfl

theorem write_one_ok (hplan : ¬ Unplannable written)
    (hinside : InAddressSpace (write_range written))
    (h : ∀ call < (write_chunks written).length, ∀ e, outcomes call = .error e → IsModbus e) :
    ∃ r : WriteResult F,
      (plan_and_execute_writes [written] (numbered outcomes) 0).1 = .ok [r] ∧
        WriteOutcome written (ended (write_chunks written) outcomes) r := by
  have hone : ∀ crs : List WriteChunkResult, ∃ r : WriteResult F,
      crs.foldl apply_error ([written].map fun item => { item, ok := true, error := none }) = [r] :=
    fun crs => List.length_eq_one_iff.mp <| by
      simpa using congrArg List.length (foldl_apply_error_items crs
        ([written].map fun item => { item, ok := true, error := none }))
  obtain ⟨r, hr⟩ := hone (List.zipWith write_chunk_result (write_chunks written)
    ((List.range (write_chunks written).length).map outcomes))
  refine ⟨r, ?_, ?_⟩
  · rw [write_one_eq hplan hinside, settled h]
    exact congrArg Except.ok hr
  · have hlen : ((List.range (write_chunks written).length).map outcomes).length =
        (write_chunks written).length := by simp
    have houtcome := writeOutcome_of_written (i := 0) (plan_writes_one hplan) hlen
      List.getElem?_cons_zero (by rw [hr]; exact List.getElem?_cons_zero)
    rwa [← own_writes_one]

theorem write_one_error (hplan : ¬ Unplannable written)
    (hinside : InAddressSpace (write_range written)) {call : Nat}
    (hcall : call < (write_chunks written).length) {e : PyError} (he : outcomes call = .error e)
    (hother : ¬ IsModbus e) :
    ∃ e', (plan_and_execute_writes [written] (numbered outcomes) 0).1 = .error e' ∧
      ¬ IsModbus e' := by
  obtain ⟨e', he', hother'⟩ : ∃ e',
      (ended (write_chunks written) outcomes).mapM (settle write_chunk_result) = .error e' ∧
        ¬ IsModbus e' := unsettled hcall he hother
  refine ⟨e', ?_, hother'⟩
  rw [write_one_eq hplan hinside, he']
  rfl

end

/-! ## Requests that are over in time -/

section

variable {client : Client} {transport : Transport}

theorem isModbus_final {call : Nat} {e : PyError} (h : final client transport call = .error e) :
    IsModbus e := by
  unfold final at h
  cases ho : transport.send_and_receive call (last_of client transport call) with
  | ok response =>
    rw [ho] at h
    cases h
  | error m =>
    rw [ho] at h
    cases h
    exact ⟨m, rfl⟩

theorem not_isModbus_power_overflows : ¬ IsModbus power_overflows := by
  intro ⟨m, hm⟩
  cases hm

theorem InTime.ending_eq {requests : Nat} (h : InTime client transport requests) {call : Nat}
    (hcall : call < requests) : ending client transport call = final client transport call :=
  if_pos (h call hcall)

theorem InTime.isModbus {requests : Nat} (h : InTime client transport requests) :
    ∀ call < requests, ∀ e, ending client transport call = .error e → IsModbus e := by
  intro call hcall e he
  rw [h.ending_eq hcall] at he
  exact isModbus_final he

theorem InTime.ended_eq {κ : Type} {cs : List κ} (h : InTime client transport cs.length) :
    ended cs (ending client transport) = ended cs (final client transport) := by
  unfold ended
  congr 1
  apply List.map_congr_left
  intro call hcall
  exact h.ending_eq (List.mem_range.mp hcall)

theorem exists_late {requests : Nat} (h : ¬ InTime client transport requests) :
    ∃ call < requests, ending client transport call = .error power_overflows := by
  unfold InTime at h
  push Not at h
  obtain ⟨call, hcall, hlate⟩ := h
  exact ⟨call, hcall, if_neg (by omega)⟩

end

end pymod.cli
