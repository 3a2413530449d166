-- The plan of a batch of writes: the chunks of an item carry its values in
-- order, each chunk fits into one request, and what it takes to send one.
import Pymod.Planner
import Pymod.PduLaws

namespace pymod.planner

open errors codec pdu types Slices

/-! ## The split at the limit -/

theorem split_values.spec {α : Type} {maximum : Nat} (hmax : 0 < maximum) (values : List α)
    (fuel cur : Nat) (addr : Int) (hfuel : values.length - cur ≤ fuel) :
    Consecutive addr (split_values maximum values fuel cur addr) ∧
      ((split_values maximum values fuel cur addr).map Prod.snd).flatten = values.drop cur ∧
      ∀ p ∈ split_values maximum values fuel cur addr,
        1 ≤ p.2.length ∧ p.2.length ≤ maximum := by
  have hend : ∀ cur, values.length ≤ cur → values.drop cur = [] := fun cur h =>
    List.drop_eq_nil_of_le h
  induction fuel generalizing cur addr with
  | zero => exact ⟨trivial, (hend cur (by omega)).symm, by simp [split_values]⟩
  | succ fuel ih =>
    unfold split_values
    by_cases hlt : cur < values.length
    · rw [if_pos hlt]
      simp only
      obtain ⟨hcons, hflat, hlen⟩ :=
        ih (cur + min maximum (values.length - cur)) (addr + ↑(min maximum (values.length - cur)))
          (by omega)
      have hpiece : ((values.drop cur).take (min maximum (values.length - cur))).length =
          min maximum (values.length - cur) := by
        rw [List.length_take, List.length_drop]
        omega
      refine ⟨⟨rfl, ?_⟩, ?_, ?_⟩
      · rw [hpiece]
        exact hcons
      · rw [List.map_cons, List.flatten_cons, hflat, ← List.drop_drop]
        exact List.take_append_drop _ _
      · intro p hp
        rcases List.mem_cons.mp hp with rfl | hp
        · rw [hpiece]
          omega
        · exact hlen p hp
    · rw [if_neg hlt]
      exact ⟨trivial, (hend cur (by omega)).symm, by simp⟩

/-- The pieces of a list of values: one at every multiple of the limit that is left in it. -/
theorem mem_split_values {α : Type} {maximum : Nat} (hmax : 0 < maximum) (values : List α)
    (fuel cur : Nat) (addr : Int) (p : Int × List α) (hfuel : values.length - cur ≤ fuel) :
    p ∈ split_values maximum values fuel cur addr ↔ ∃ j : Nat, cur + j * maximum < values.length ∧
      p.1 = addr + (j * maximum : Nat) ∧
      p.2 = (values.drop (cur + j * maximum)).take maximum := by
  induction fuel generalizing cur addr with
  | zero =>
    simp only [split_values, List.not_mem_nil, false_iff]
    rintro ⟨j, hj, _⟩
    omega
  | succ fuel ih =>
    unfold split_values
    by_cases hlt : cur < values.length
    · have hrest := ih (cur + min maximum (values.length - cur))
        (addr + ((min maximum (values.length - cur) : Nat) : Int)) (by omega)
      have hpiece : (values.drop cur).take (min maximum (values.length - cur)) =
          (values.drop cur).take maximum := by
        rw [← List.length_drop]
        exact List.take_eq_take_min.symm
      rw [if_pos hlt]
      simp only
      refine List.mem_cons.trans ((or_congr_right hrest).trans ?_)
      rw [hpiece]
      clear hrest ih
      constructor
      · rintro (rfl | ⟨j, hj, h1, h2⟩)
        · exact ⟨0, by omega, by simp, by simp⟩
        · have hmin : min maximum (values.length - cur) = maximum := by omega
          rw [hmin] at hj h1 h2
          have hnext : cur + maximum + j * maximum = cur + (j + 1) * maximum := by ring
          rw [hnext] at hj h2
          refine ⟨j + 1, hj, ?_, h2⟩
          rw [h1, Nat.succ_mul]
          push_cast
          ring
      · rintro ⟨j, hj, h1, h2⟩
        rcases j with _ | j
        · exact Or.inl (Prod.ext (by simpa using h1) (by simpa using h2))
        · have hnext : cur + (j + 1) * maximum = cur + maximum + j * maximum := by ring
          rw [hnext] at hj h2
          have hmin : min maximum (values.length - cur) = maximum := by omega
          rw [hmin]
          refine Or.inr ⟨j, hj, ?_, h2⟩
          rw [h1, Nat.succ_mul]
          push_cast
          ring
    · rw [if_neg hlt]
      simp only [List.not_mem_nil, false_iff]
      rintro ⟨j, hj, _⟩
      omega

/-- The pieces start at the first address and at every multiple of the limit after it. -/
theorem split_values_starts {α : Type} {maximum : Nat} (hmax : 0 < maximum) (values : List α)
    (fuel cur : Nat) (addr x : Int) (hfuel : values.length - cur ≤ fuel) :
    (∃ p ∈ split_values maximum values fuel cur addr, p.1 = x) ↔
      ∃ k : Nat, cur + k * maximum < values.length ∧ x = addr + (k * maximum : Nat) := by
  constructor
  · rintro ⟨p, hp, rfl⟩
    obtain ⟨k, hk, haddr, -⟩ := (mem_split_values hmax values fuel cur addr p hfuel).mp hp
    exact ⟨k, hk, haddr⟩
  · rintro ⟨k, hk, rfl⟩
    let piece := (values.drop (cur + k * maximum)).take maximum
    refine ⟨(addr + (k * maximum : Nat), piece), ?_, rfl⟩
    exact (mem_split_values hmax values fuel cur addr _ hfuel).mpr ⟨k, hk, rfl, rfl⟩

/-! ## One chunk -/

/-- The values of a chunk that a request can carry. -/
inductive Payload
  | registers (values : List Int)
  | coils (values : List Bool)

/-- A chunk with these values, as the plan builds it. -/
def payload_chunk (idx : Nat) (start : Int) : Payload → WriteChunk
  | .registers values =>
    { item_idx := idx, area := .HOLDING_REGISTER, start, register_values := some values,
      coil_values := none }
  | .coils values =>
    { item_idx := idx, area := .COIL, start, register_values := none, coil_values := some values }

/-- What the limits and the encoders ask of the values. -/
def Payload.Legal : Payload → Prop
  | .registers values => 1 ≤ values.length ∧ values.length ≤ 123 ∧ ∀ v ∈ values, IsRegister v
  | .coils values => 1 ≤ values.length ∧ values.length ≤ 1968

/-- The request that carries the values: FC05 and FC06 for one, FC15 and FC16 for more. -/
def payload_request (start : Int) : Payload → Bytes
  | .registers [value] => words FC_WRITE_SINGLE_REGISTER start value
  | .registers values =>
    write_request FC_WRITE_MULTIPLE_REGISTERS start values.length (register_data values)
  | .coils [value] => words FC_WRITE_SINGLE_COIL start (coil_word value)
  | .coils values =>
    write_request FC_WRITE_MULTIPLE_COILS start values.length (BitStrings.pack values)

/-- How the client reads the answer. -/
def payload_response : Payload → Bytes → Except PyError Unit
  | .registers [_] => fun resp => do let _ ← decode_write_single_register resp
  | .registers _ => fun resp => do let _ ← decode_write_multiple_registers resp
  | .coils [_] => fun resp => do let _ ← decode_write_single_coil resp
  | .coils _ => fun resp => do let _ ← decode_write_multiple_coils resp

theorem payload_response_modbus {payload : Payload} {resp : Bytes} {e : PyError}
    (h : payload_response payload resp = .error e) : IsModbus e := by
  unfold payload_response at h
  split at h <;> rcases bind_eq_error h with h | ⟨_, _, h⟩
  · exact decode_echo_modbus h
  · cases h
  · exact decode_echo_modbus h
  · cases h
  · exact decode_write_single_coil_modbus h
  · cases h
  · exact decode_echo_modbus h
  · cases h

/-- The normal response to the request of a payload. -/
def payload_echo (start : Int) : Payload → Bytes
  | .registers [value] => words FC_WRITE_SINGLE_REGISTER start value
  | .registers values => words FC_WRITE_MULTIPLE_REGISTERS start values.length
  | .coils [value] => words FC_WRITE_SINGLE_COIL start (coil_word value)
  | .coils values => words FC_WRITE_MULTIPLE_COILS start values.length

/-- The client takes the echo. -/
theorem payload_response_echo {start : Int} {payload : Payload} (hstart : IsRegister start)
    (hlegal : payload.Legal) : payload_response payload (payload_echo start payload) = .ok () := by
  match payload, hlegal with
  | .registers [value], ⟨_, _, hv⟩ =>
    change (decode_echo (words FC_WRITE_SINGLE_REGISTER start value) _ >>= fun _ => pure ()) = _
    rw [decode_echo_words FC_WRITE_SINGLE_REGISTER hstart (hv value (by simp))]
    rfl
  | .registers [], ⟨h0, _, _⟩ => simp at h0
  | .registers (v :: w :: rest), ⟨h0, h1, _⟩ =>
    have hlen : IsRegister ((v :: w :: rest).length : Int) := ⟨by omega, by omega⟩
    change (decode_echo (words FC_WRITE_MULTIPLE_REGISTERS start (v :: w :: rest).length) _ >>=
      fun _ => pure ()) = _
    rw [decode_echo_words FC_WRITE_MULTIPLE_REGISTERS hstart hlen]
    rfl
  | .coils [value], _ =>
    change (decode_write_single_coil (words FC_WRITE_SINGLE_COIL start (coil_word value)) >>=
      fun _ => pure ()) = _
    rw [decode_write_single_coil_words value hstart]
    rfl
  | .coils [], ⟨h0, _⟩ => simp at h0
  | .coils (v :: w :: rest), ⟨h0, h1⟩ =>
    have hlen : IsRegister ((v :: w :: rest).length : Int) := ⟨by omega, by omega⟩
    change (decode_echo (words FC_WRITE_MULTIPLE_COILS start (v :: w :: rest).length) _ >>=
      fun _ => pure ()) = _
    rw [decode_echo_words FC_WRITE_MULTIPLE_COILS hstart hlen]
    rfl

section Sending

variable {σ : Type} {execute : Bytes → Py σ Bytes}

/-- A chunk with a legal start sends its request and reads the answer. -/
theorem write_chunk_payload (idx : Nat) {start : Int} {payload : Payload}
    (hlegal : payload.Legal) (hstart : IsRegister start) :
    write_chunk (payload_chunk idx start payload) execute =
      exchange (.ok (payload_request start payload)) execute (payload_response payload) := by
  match payload, hlegal with
  | .registers [value], ⟨_, _, hv⟩ =>
    have h := encode_write_single_register_ok hstart (hv value (by simp))
    simp only [write_chunk, payload_chunk, h]
    rfl
  | .registers [], ⟨h0, _, _⟩ => simp at h0
  | .registers (v :: w :: rest), ⟨h0, h1, hv⟩ =>
    have h := encode_write_multiple_registers_ok hstart h0 h1 hv
    simp only [write_chunk, payload_chunk, h]
    rfl
  | .coils [value], _ =>
    have h := encode_write_single_coil_ok value hstart
    simp only [write_chunk, payload_chunk, h]
    rfl
  | .coils [], ⟨h0, _⟩ => simp at h0
  | .coils (v :: w :: rest), ⟨h0, h1⟩ =>
    have h := encode_write_multiple_coils_ok hstart h0 h1
    simp only [write_chunk, payload_chunk, h]
    rfl

theorem execute_write_chunk_run {c : WriteChunk} {r : Except PyError Unit} {s s' : σ}
    (h : write_chunk c execute s = (r, s')) :
    execute_write_chunk c execute s =
      (Py.handled (fun _ => { chunk := c, error := none })
        (fun e => { chunk := c, error := some e }) r, s') :=
  Py.except_modbus_run h _ _

/-- A chunk that starts outside of the address space raises `ValueError`, with nothing sent. -/
theorem write_chunk_error {idx : Nat} {start : Int} {payload : Payload}
    (hstart : ¬ IsRegister start) (s : σ) :
    write_chunk (payload_chunk idx start payload) execute s =
      (.error (.ValueError s!"address out of range: {start}"), s) := by
  match payload with
  | .registers [value] =>
    have h := (encode_write_error hstart value true [] []).2.1
    simp only [write_chunk, payload_chunk, h]
    rfl
  | .registers [] =>
    have h := (encode_write_error hstart 0 true [] []).2.2.2
    simp only [write_chunk, payload_chunk, h]
    rfl
  | .registers (v :: w :: rest) =>
    have h := (encode_write_error hstart 0 true (v :: w :: rest) []).2.2.2
    simp only [write_chunk, payload_chunk, h]
    rfl
  | .coils [value] =>
    have h := (encode_write_error hstart 0 value [] []).1
    simp only [write_chunk, payload_chunk, h]
    rfl
  | .coils [] =>
    have h := (encode_write_error hstart 0 true [] []).2.2.1
    simp only [write_chunk, payload_chunk, h]
    rfl
  | .coils (v :: w :: rest) =>
    have h := (encode_write_error hstart 0 true [] (v :: w :: rest)).2.2.1
    simp only [write_chunk, payload_chunk, h]
    rfl

end Sending

/-! ## One item -/

section Items

variable {F : Type} [FloatOps F]

/-- What an item writes: its registers, or its coils. -/
def item_payload : WriteItem F → Except PyError Payload
  | .WriteHolding _ values dtype word_order byte_order =>
    (encode_registers values dtype word_order byte_order).map .registers
  | .WriteCoils _ values => .ok (.coils values)

def item_start : WriteItem F → Int
  | .WriteHolding start _ _ _ _ => start
  | .WriteCoils start _ => start

/-- The pieces of a payload, each with its address. -/
def pieces (start : Int) : Payload → List (Int × Payload)
  | .registers values =>
    (split_values 123 values values.length 0 start).map fun p => (p.1, .registers p.2)
  | .coils values =>
    (split_values 1968 values values.length 0 start).map fun p => (p.1, .coils p.2)

/-- The plan of an item that passes its check and is encoded. -/
theorem plan_write_ok {idx : Nat} {item : WriteItem F} {payload : Payload}
    (hvalid : validate_write_item item = .ok ()) (hpayload : item_payload item = .ok payload) :
    plan_write idx item =
      .ok ((pieces (item_start item) payload).map fun p => payload_chunk idx p.1 p.2) := by
  unfold plan_write
  rw [hvalid]
  cases item with
  | WriteHolding start values dtype word_order byte_order =>
    simp only [item_payload] at hpayload
    cases he : encode_registers values dtype word_order byte_order with
    | error e => rw [he] at hpayload; cases hpayload
    | ok regs =>
      rw [he] at hpayload
      cases hpayload
      simp only [bind, Except.bind, he, pieces, List.map_map]
      rfl
  | WriteCoils start values =>
    cases hpayload
    simp only [bind, Except.bind, pieces, List.map_map]
    rfl

/-- The item is empty, or one of its values is not one of its type. -/
def Unplannable (item : WriteItem F) : Prop :=
  (∃ e, validate_write_item item = .error e) ∨ ∃ e, item_payload item = .error e

theorem plan_write_error (idx : Nat) {item : WriteItem F} (h : Unplannable item) :
    ∃ e, plan_write idx item = .error e := by
  unfold plan_write
  rcases h with ⟨e, h⟩ | ⟨e, h⟩
  · exact ⟨e, by rw [h]; rfl⟩
  · cases hv : validate_write_item item with
    | error e' => exact ⟨e', rfl⟩
    | ok u =>
      cases item with
      | WriteHolding start values dtype word_order byte_order =>
        simp only [item_payload] at h
        cases he : encode_registers values dtype word_order byte_order with
        | error e' => exact ⟨e', by simp only [bind, Except.bind, he]⟩
        | ok regs => rw [he] at h; cases h
      | WriteCoils start values => cases h

theorem plannable_cases (item : WriteItem F) :
    Unplannable item ∨
      validate_write_item item = .ok () ∧ ∃ payload, item_payload item = .ok payload := by
  cases hv : validate_write_item item with
  | error e => exact Or.inl (Or.inl ⟨e, hv⟩)
  | ok u =>
    cases hp : item_payload item with
    | error e => exact Or.inl (Or.inr ⟨e, hp⟩)
    | ok payload => exact Or.inr ⟨rfl, payload, rfl⟩

theorem pieces_legal {item : WriteItem F} {payload : Payload} {start : Int}
    (hpayload : item_payload item = .ok payload) : ∀ p ∈ pieces start payload, p.2.Legal := by
  intro p hp
  cases item with
  | WriteHolding start' values dtype word_order byte_order =>
    simp only [item_payload] at hpayload
    cases he : encode_registers values dtype word_order byte_order with
    | error e => rw [he] at hpayload; cases hpayload
    | ok regs =>
      rw [he] at hpayload
      cases hpayload
      obtain ⟨q, hq, rfl⟩ := List.mem_map.mp hp
      obtain ⟨_, hflat, hlen⟩ :=
        split_values.spec (by omega : 0 < 123) regs regs.length 0 start (by omega)
      refine ⟨(hlen q hq).1, (hlen q hq).2, ?_⟩
      intro v hv
      apply (encode_registers_legal he).2 v
      rw [← List.drop_zero (l := regs), ← hflat]
      exact List.mem_flatten.mpr ⟨q.2, List.mem_map_of_mem hq, hv⟩
  | WriteCoils start' values =>
    cases hpayload
    obtain ⟨q, hq, rfl⟩ := List.mem_map.mp hp
    obtain ⟨_, _, hlen⟩ :=
      split_values.spec (by omega : 0 < 1968) values values.length 0 start (by omega)
    exact hlen q hq

/-- Where the requests of an item start: at its first address, and at every multiple of the
limit after it that still has a value. -/
def WriteStart (item : WriteItem F) (x : Int) : Prop :=
  match item with
  | .WriteHolding start values dtype _ _ =>
    ∃ k : Nat, k * 123 < values.length * regs_per_item dtype ∧ x = start + (k * 123 : Nat)
  | .WriteCoils start values =>
    ∃ k : Nat, k * 1968 < values.length ∧ x = start + (k * 1968 : Nat)

theorem pieces_starts {item : WriteItem F} {payload : Payload} (x : Int)
    (hpayload : item_payload item = .ok payload) :
    (∃ p ∈ pieces (item_start item) payload, p.1 = x) ↔ WriteStart item x := by
  cases item with
  | WriteHolding start values dtype word_order byte_order =>
    simp only [item_payload] at hpayload
    cases he : encode_registers values dtype word_order byte_order with
    | error e => rw [he] at hpayload; cases hpayload
    | ok regs =>
      rw [he] at hpayload
      cases hpayload
      have hstarts := split_values_starts (by omega : 0 < 123) regs regs.length 0 start x
        (by omega)
      have hlen := (encode_registers_legal he).1
      simpa [pieces, item_start, WriteStart, ← hlen] using hstarts
  | WriteCoils start values =>
    cases hpayload
    have hstarts := split_values_starts (by omega : 0 < 1968) values values.length 0 start x
      (by omega)
    simpa [pieces, item_start, WriteStart] using hstarts

/-- The pieces of an item that is planned. -/
def item_pieces (item : WriteItem F) : List (Int × Payload) :=
  match item_payload item with
  | .ok payload => pieces (item_start item) payload
  | .error _ => []

theorem item_pieces_legal (item : WriteItem F) : ∀ p ∈ item_pieces item, p.2.Legal := by
  intro p hp
  unfold item_pieces at hp
  cases hi : item_payload item with
  | ok payload => rw [hi] at hp; exact pieces_legal hi p hp
  | error e => simp [hi] at hp

/-- The plan of a batch whose items all pass: the pieces of each item, in order. -/
theorem plan_writes_ok {items : List (WriteItem F)} (h : ∀ item ∈ items, ¬ Unplannable item) :
    plan_writes items = .ok (items.zipIdx.flatMap fun q =>
      (item_pieces q.1).map fun p => payload_chunk q.2 p.1 p.2) := by
  have hall : items.zipIdx.mapM (fun q => plan_write q.2 q.1) =
      .ok (items.zipIdx.map fun q =>
        (item_pieces q.1).map fun p => payload_chunk q.2 p.1 p.2) := by
    apply mapM_ok
    rintro ⟨item, idx⟩ hq
    have hitem : item ∈ items := List.fst_mem_of_mem_zipIdx hq
    obtain ⟨hvalid, payload, hp⟩ := (plannable_cases item).resolve_left (h item hitem)
    simp only [item_pieces, hp]
    exact plan_write_ok hvalid hp
  unfold plan_writes
  rw [hall, List.flatMap_def]
  rfl

theorem plan_writes_error {items : List (WriteItem F)} {item : WriteItem F} (hitem : item ∈ items)
    (h : Unplannable item) : ∃ e, plan_writes items = .error e := by
  obtain ⟨idx, hidx⟩ : ∃ idx, (item, idx) ∈ items.zipIdx := by
    obtain ⟨i, hi, rfl⟩ := List.mem_iff_getElem.mp hitem
    exact ⟨i, by simp [List.mem_zipIdx_iff_getElem?, hi]⟩
  obtain ⟨e, he⟩ := plan_write_error idx h
  obtain ⟨e', he'⟩ := mapM_error (f := fun q : WriteItem F × Nat => plan_write q.2 q.1) hidx he
  refine ⟨e', ?_⟩
  unfold plan_writes
  rw [he']
  rfl

/-- What a plan that was made consists of. -/
theorem plan_writes_eq {items : List (WriteItem F)} {chunks : List WriteChunk}
    (hplan : plan_writes items = .ok chunks) : (∀ item ∈ items, ¬ Unplannable item) ∧
      chunks = items.zipIdx.flatMap fun q =>
        (item_pieces q.1).map fun p => payload_chunk q.2 p.1 p.2 := by
  have hall : ∀ item ∈ items, ¬ Unplannable item := by
    intro item hmem hbad
    obtain ⟨e, he⟩ := plan_writes_error hmem hbad
    rw [he] at hplan
    cases hplan
  rw [plan_writes_ok hall] at hplan
  cases hplan
  exact ⟨hall, rfl⟩

@[simp] theorem payload_chunk_item_idx (idx : Nat) (start : Int) (payload : Payload) :
    (payload_chunk idx start payload).item_idx = idx := by
  cases payload <;> rfl

@[simp] theorem payload_chunk_start (idx : Nat) (start : Int) (payload : Payload) :
    (payload_chunk idx start payload).start = start := by
  cases payload <;> rfl

/-- The chunks of one item in the plan of a batch. -/
theorem mem_plan_writes {items : List (WriteItem F)} {chunks : List WriteChunk}
    (hplan : plan_writes items = .ok chunks) {i : Nat} {item : WriteItem F}
    (hitem : items[i]? = some item) (c : WriteChunk) :
    (c ∈ chunks ∧ c.item_idx = i) ↔ ∃ p ∈ item_pieces item, c = payload_chunk i p.1 p.2 := by
  obtain ⟨-, rfl⟩ := plan_writes_eq hplan
  constructor
  · rintro ⟨hc, hi⟩
    obtain ⟨⟨item', i'⟩, hq, hc⟩ := List.mem_flatMap.mp hc
    obtain ⟨p, hp, rfl⟩ := List.mem_map.mp hc
    rw [payload_chunk_item_idx] at hi
    subst hi
    rw [List.mem_zipIdx_iff_getElem?] at hq
    have hsame : item' = item := Option.some.inj (hq.symm.trans hitem)
    subst hsame
    exact ⟨p, hp, rfl⟩
  · rintro ⟨p, hp, rfl⟩
    refine ⟨List.mem_flatMap.mpr ⟨(item, i), ?_, List.mem_map.mpr ⟨p, hp, rfl⟩⟩,
      payload_chunk_item_idx _ _ _⟩
    rw [List.mem_zipIdx_iff_getElem?]
    exact hitem

omit [FloatOps F] in
/-- Chunks without an error leave the results as they are. -/
theorem foldl_apply_error_none {crs : List WriteChunkResult} (results : List (WriteResult F))
    (h : ∀ cr ∈ crs, cr.error = none) : crs.foldl apply_error results = results := by
  induction crs with
  | nil => rfl
  | cons cr crs ih =>
    have hcr : apply_error results cr = results := by simp only [apply_error, h cr (by simp)]
    rw [List.foldl_cons, hcr]
    exact ih fun c hc => h c (by simp [hc])

theorem item_pieces_starts {item : WriteItem F} (h : ¬ Unplannable item) (x : Int) :
    (∃ p ∈ item_pieces item, p.1 = x) ↔ WriteStart item x := by
  obtain ⟨_, payload, hp⟩ := (plannable_cases item).resolve_left h
  simp only [item_pieces, hp]
  exact pieces_starts x hp

end Items

end pymod.planner
