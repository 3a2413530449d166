-- The requests that a batch sends: whatever its items are and whatever the executor does, every
-- PDU is one that a server can carry out, of at most 252 bytes.
import Pymod.BatchIsolation
import Pymod.ReadBack

namespace pymod.planner

open errors codec pdu types data_model

/-! ## Steps that send -/

section

variable {σ α β : Type} {p : Bytes → Prop}

/-- Whatever the state is, all calls that the step adds to the record send such PDUs. -/
def Sends (p : Bytes → Prop) (step : Py (List (Bytes × Outcome) × σ) α) : Prop :=
  ∀ calls s, ∃ new, (step (calls, s)).2.1 = calls ++ new ∧ ∀ call ∈ new, p call.1

theorem Sends.of_nothing {step : Py (List (Bytes × Outcome) × σ) α}
    (h : ∀ st, (step st).2 = st) : Sends p step := by
  intro calls s
  exact ⟨[], by rw [h, List.append_nil], by simp⟩

theorem Sends.bind {x : Py (List (Bytes × Outcome) × σ) α}
    {f : α → Py (List (Bytes × Outcome) × σ) β} (hx : Sends p x) (hf : ∀ a, Sends p (f a)) :
    Sends p (x >>= f) := by
  intro calls s
  obtain ⟨first, hfirst, hall⟩ := hx calls s
  rcases hrun : x (calls, s) with ⟨e | a, calls', s'⟩
  · rw [hrun] at hfirst
    exact ⟨first, by rw [Py.bind_error hrun]; exact hfirst, hall⟩
  · rw [hrun] at hfirst
    obtain ⟨second, hsecond, hrest⟩ := hf a calls' s'
    obtain rfl : calls' = calls ++ first := hfirst
    refine ⟨first ++ second, ?_, List.forall_mem_append.mpr ⟨hall, hrest⟩⟩
    rw [Py.bind_ok hrun, hsecond, List.append_assoc]

/-- A step behind a value that is there, or not. -/
theorem Sends.lift {x : Except PyError α} {f : α → Py (List (Bytes × Outcome) × σ) β}
    (hf : ∀ a, x = .ok a → Sends p (f a)) : Sends p (do let a ← x; f a) := by
  cases x with
  | error e => exact .of_nothing fun _ => rfl
  | ok a => exact hf a rfl

theorem Sends.except_modbus {x : Py (List (Bytes × Outcome) × σ) α} (hx : Sends p x)
    (handler : ModbusError → α) : Sends p (Py.except_modbus x handler) := by
  intro calls s
  obtain ⟨new, hnew, hall⟩ := hx calls s
  refine ⟨new, ?_, hall⟩
  rw [← hnew]
  unfold Py.except_modbus
  split
  · next heq => rw [heq]
  · rfl

theorem Sends.gather {tasks : List (Py (List (Bytes × Outcome) × σ) α)}
    (h : ∀ task ∈ tasks, Sends p task) : Sends p (Py.gather tasks) := by
  induction tasks with
  | nil => exact .of_nothing fun _ => rfl
  | cons task tasks ih =>
    intro calls s
    obtain ⟨first, hfirst, hall⟩ := h task List.mem_cons_self calls s
    rcases hrun : task (calls, s) with ⟨r, calls', s'⟩
    rw [hrun] at hfirst
    obtain rfl : calls' = calls ++ first := hfirst
    obtain ⟨others, hothers, hrest⟩ :=
      ih (fun t ht => h t (List.mem_cons_of_mem _ ht)) (calls ++ first) s'
    refine ⟨first ++ others, ?_, List.forall_mem_append.mpr ⟨hall, hrest⟩⟩
    simp only [Py.gather, hrun]
    rw [hothers, List.append_assoc]

/-- One call of the executor. -/
theorem Sends.exchange (execute : Bytes → Py σ Bytes) {req : Except PyError Bytes}
    (decode : Bytes → Except PyError α) (h : ∀ q, req = .ok q → p q) :
    Sends p (exchange req (recorded execute) decode) := by
  cases req with
  | error e => exact .of_nothing fun _ => rfl
  | ok q =>
    intro calls s
    refine ⟨[(q, (execute q s).1)], by rw [exchange_recorded], ?_⟩
    simpa using h q rfl

end

/-! ## Well-formed requests -/

/-- The PDU carries a request, in at most 252 bytes. -/
structure WellFormed (pdu : Bytes) : Prop where
  carries : ∃ r echo, Carries pdu r echo
  length_le : pdu.length ≤ 252

theorem length_le_of_carries {pdu echo : Bytes} {r : Request} (h : Carries pdu r echo) :
    pdu.length ≤ 252 := by
  cases h with
  | write_multiple_coils start count data h0 h1 hdata =>
    simp only [write_request, List.length_cons, List.length_append, length_words, hdata]
    omega
  | write_multiple_registers start values h0 h1 =>
    have hwords : (register_words values).length = values.length := List.length_map _
    simp only [write_request, List.length_cons, List.length_append, length_words,
      length_register_data, hwords]
    omega
  | _ => simp

theorem Carries.wellFormed {pdu echo : Bytes} {r : Request} (h : Carries pdu r echo) :
    WellFormed pdu := ⟨⟨r, echo, h⟩, length_le_of_carries h⟩

/-- A read that its encoder lets through is well formed. -/
theorem wellFormed_read {area : Area} {start count : Int} {q : Bytes}
    (h : read_request area start count = .ok q) : WellFormed q := by
  obtain ⟨name, hname⟩ := read_request_eq area
  have hlegal := h
  rw [hname] at hlegal
  obtain ⟨hstart, h0, h1⟩ := encode_read_legal hlegal
  rw [read_request_ok area hstart h0 h1] at h
  cases h
  exact Carries.wellFormed (carries_read area hstart h0 h1)

/-- The request of a legal payload is well formed. -/
theorem wellFormed_payload {start : Int} {payload : Payload} (hstart : IsRegister start)
    (hlegal : payload.Legal) : WellFormed (payload_request start payload) := by
  cases payload with
  | registers values =>
    obtain ⟨h0, h1, hvalues⟩ := hlegal
    obtain ⟨rs, rfl⟩ := exists_register_words hvalues
    rw [register_words, List.length_map] at h0 h1
    obtain ⟨echo, hcarries, -⟩ := carries_registers rs hstart h0 h1
    exact Carries.wellFormed hcarries
  | coils values =>
    obtain ⟨h0, h1⟩ := hlegal
    obtain ⟨echo, hcarries, -⟩ := carries_coils values hstart h0 h1
    exact Carries.wellFormed hcarries

section

variable {σ : Type} (execute : Bytes → Py σ Bytes)

theorem sends_read_chunk (c : ReadChunk) :
    Sends WellFormed (execute_read_chunk c (recorded execute)) := by
  refine Sends.except_modbus (.bind ?_ fun _ => .of_nothing fun _ => rfl) _
  rw [read_chunk_eq]
  exact Sends.exchange execute _ fun q hq => wellFormed_read hq

theorem sends_write_chunk (idx : Nat) (start : Int) {payload : Payload} (hlegal : payload.Legal) :
    Sends WellFormed (execute_write_chunk (payload_chunk idx start payload) (recorded execute)) := by
  refine Sends.except_modbus (.bind ?_ fun _ => .of_nothing fun _ => rfl) _
  by_cases hstart : IsRegister start
  · rw [write_chunk_payload idx hlegal hstart]
    refine Sends.exchange execute _ fun q hq => ?_
    cases hq
    exact wellFormed_payload hstart hlegal
  · exact .of_nothing fun st => by rw [write_chunk_error hstart]

variable {F : Type} [FloatOps F]

theorem sends_reads (items : List ReadItem) :
    Sends WellFormed (plan_and_execute_reads (F := F) items (recorded execute)) := by
  unfold plan_and_execute_reads
  split
  · exact .of_nothing fun _ => rfl
  · refine .bind (.of_nothing fun _ => rfl) fun _ => .bind (.gather ?_) fun _ =>
      .of_nothing fun _ => rfl
    intro task htask
    obtain ⟨c, -, rfl⟩ := List.mem_map.mp htask
    exact sends_read_chunk execute c

theorem sends_writes (items : List (WriteItem F)) :
    Sends WellFormed (plan_and_execute_writes items (recorded execute)) := by
  unfold plan_and_execute_writes
  split
  · exact .of_nothing fun _ => rfl
  · refine .lift fun chunks hplan => .bind (.gather ?_) fun _ => .of_nothing fun _ => rfl
    intro task htask
    obtain ⟨c, hc, rfl⟩ := List.mem_map.mp htask
    obtain ⟨-, rfl⟩ := plan_writes_eq hplan
    obtain ⟨q, -, hc⟩ := List.mem_flatMap.mp hc
    obtain ⟨piece, hpiece, rfl⟩ := List.mem_map.mp hc
    exact sends_write_chunk execute q.2 piece.1 (item_pieces_legal q.1 piece hpiece)

/-- Whatever the items are and whatever comes of the calls, a batch calls its executor only with
PDUs that carry a request of the data model, in at most 252 bytes. -/
theorem a_batch_sends_well_formed_requests (s : σ) :
    (∀ items : List ReadItem, ∀ call ∈
      (plan_and_execute_reads (F := F) items (recorded execute) ([], s)).2.1,
        WellFormed call.1) ∧
    ∀ items : List (WriteItem F), ∀ call ∈
      (plan_and_execute_writes items (recorded execute) ([], s)).2.1, WellFormed call.1 := by
  constructor
  · intro items
    obtain ⟨new, hnew, hall⟩ := sends_reads execute (F := F) items [] s
    rw [hnew, List.nil_append]
    exact hall
  · intro items
    obtain ⟨new, hnew, hall⟩ := sends_writes execute items [] s
    rw [hnew, List.nil_append]
    exact hall

end

end pymod.planner
