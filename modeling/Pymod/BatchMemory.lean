-- What a batch of writes leaves in the memory of a slave: its items one after the other,
-- and for items apart from each other the same in every order of the requests.
import Pymod.BatchIsolation
import Pymod.ReadBack

namespace pymod.planner

open errors codec pdu types data_model server Ranges Slices

/-! ## Stretches of a memory -/

/-- What stands at the addresses of each area. -/
abbrev Memory := Area → Int → Option Cell

def Payload.area : Payload → Area
  | .registers _ => .HOLDING_REGISTER
  | .coils _ => .COIL

def Payload.cells : Payload → List Cell
  | .registers values => values.map .int
  | .coils values => values.map .bool

theorem length_cells (payload : Payload) : payload.cells.length = payload.length := by
  cases payload <;> exact List.length_map _

/-- The memory with these cells from an address of an area on. -/
def store_cells (mem : Memory) (area : Area) (start : Int) (cells : List Cell) : Memory :=
  Function.update mem area (overwrite (mem area) start cells)

def store_payload (mem : Memory) (start : Int) (payload : Payload) : Memory :=
  store_cells mem payload.area start payload.cells

theorem overwrite_comm {α : Type} (mem : Int → Option α) {a b : Int} {xs ys : List α}
    (h : a + xs.length ≤ b ∨ b + ys.length ≤ a) :
    overwrite (overwrite mem a xs) b ys = overwrite (overwrite mem b ys) a xs := by
  funext x
  by_cases hx : a ≤ x ∧ x < a + xs.length
  · have hy : ¬ (b ≤ x ∧ x < b + ys.length) := by omega
    rw [overwrite_outside hy]
    simp only [overwrite, if_pos hx]
  · rw [@overwrite_outside _ (overwrite mem b ys) _ _ _ hx]
    simp only [overwrite, if_neg hx]

/-- Stretches that have no address in common are stored in any order. -/
theorem store_payload_comm (mem : Memory) {a b : Int} {p q : Payload}
    (h : p.area = q.area → a + p.length ≤ b ∨ b + q.length ≤ a) :
    store_payload (store_payload mem a p) b q = store_payload (store_payload mem b q) a p := by
  unfold store_payload store_cells
  by_cases harea : p.area = q.area
  · have hapart := h harea
    rw [← length_cells, ← length_cells] at hapart
    rw [harea, Function.update_self, Function.update_self, Function.update_idem,
      Function.update_idem, overwrite_comm _ hapart]
  · rw [Function.update_of_ne (Ne.symm harea), Function.update_of_ne harea,
      Function.update_comm harea]

/-- Consecutive pieces store what all of them together store. -/
theorem foldl_store_cells {α : Type} (f : α → Cell) (area : Area) {start : Int}
    {l : List (Int × List α)} (hcons : Consecutive start l) (mem : Memory) :
    l.foldl (fun mem p => store_cells mem area p.1 (p.2.map f)) mem =
      store_cells mem area start ((l.map Prod.snd).flatten.map f) := by
  induction l generalizing start mem with
  | nil =>
    unfold store_cells
    rw [List.map_nil, List.flatten_nil, List.map_nil, overwrite_nil, Function.update_eq_self]
    rfl
  | cons p l ih =>
    obtain ⟨haddr, hrest⟩ := hcons
    rw [List.foldl_cons, ih hrest, List.map_cons, List.flatten_cons, List.map_append, haddr]
    unfold store_cells
    have happend := overwrite_append (mem area) start (p.2.map f)
      ((l.map Prod.snd).flatten.map f)
    rw [List.length_map] at happend
    rw [Function.update_self, Function.update_idem, happend]

/-- The pieces of a payload store the payload. -/
theorem foldl_store_pieces (mem : Memory) (start : Int) (payload : Payload) :
    (pieces start payload).foldl (fun mem p => store_payload mem p.1 p.2) mem =
      store_payload mem start payload := by
  cases payload with
  | registers values =>
    obtain ⟨hcons, hflat, -⟩ :=
      split_values.spec (by omega : 0 < 123) values values.length 0 start (by omega)
    have hfold := foldl_store_cells Cell.int .HOLDING_REGISTER hcons mem
    rw [hflat, List.drop_zero] at hfold
    rw [pieces, List.foldl_map]
    exact hfold
  | coils values =>
    obtain ⟨hcons, hflat, -⟩ :=
      split_values.spec (by omega : 0 < 1968) values values.length 0 start (by omega)
    have hfold := foldl_store_cells Cell.bool .COIL hcons mem
    rw [hflat, List.drop_zero] at hfold
    rw [pieces, List.foldl_map]
    exact hfold

/-! ## The slave -/

def store_write (area : Area) (address : Int) (values : List Cell) : Py Memory Unit := fun mem =>
  (.ok (), store_cells mem area address values)

/-- A server that stores what it is sent, whatever it answers to reads. -/
def slave (on_read : Area → Int → Int → Py Memory (List Cell)) (unit_id : Option Int) :
    Server Memory where
  on_read := on_read
  on_write := some store_write
  unit_id := unit_id

section

variable {on_read : Area → Int → Int → Py Memory (List Cell)} {unit_id : Option Int} {uid : Int}

theorem dispatch_handled {fc : UInt8} {rest resp : Bytes} {mem mem' : Memory}
    (haccept : Accepts unit_id uid)
    (h : handle (slave on_read unit_id) fc (fc :: rest) mem = (.ok resp, mem')) :
    dispatch (slave on_read unit_id) uid (fc :: rest) mem = (.ok resp, mem') := by
  have hunit : ¬ ((slave on_read unit_id).unit_id ≠ none ∧
      some uid ≠ (slave on_read unit_id).unit_id) := by
    rcases haccept with h | h
    · exact fun hc => hc.1 h
    · exact fun hc => hc.2 h.symm
  unfold dispatch
  simp only
  rw [if_neg hunit, Py.except_with, h]

theorem handle_slave {fc : UInt8} (pdu : Bytes) (h : fc ∈ write_codes) :
    handle (slave on_read unit_id) fc pdu = handle_write store_write fc pdu := by
  simp only [write_codes, List.mem_cons, List.not_mem_nil, or_false] at h
  rcases h with rfl | rfl | rfl | rfl <;> rfl

/-- The slave stores what the request of a payload carries, and answers with the echo. -/
theorem dispatch_payload (haccept : Accepts unit_id uid) {start : Int} {payload : Payload}
    (hstart : IsRegister start) (hlegal : payload.Legal) (mem : Memory) :
    dispatch (slave on_read unit_id) uid (payload_request start payload) mem =
      (.ok (payload_echo start payload), store_payload mem start payload) := by
  match payload, hlegal with
  | .registers [value], ⟨_, _, hv⟩ =>
    have hvalue := hv value (by simp)
    have hu := unpack_HH_words' FC_WRITE_SINGLE_REGISTER hstart hvalue
    have hdec := decode_request_write_single_register_ok
      (length_words FC_WRITE_SINGLE_REGISTER start value)
    have hresp : encode_response_write_single_register start value =
        .ok (words FC_WRITE_SINGLE_REGISTER start value) := pack_BHH_ok _ hstart hvalue
    rw [hu] at hdec
    refine dispatch_handled haccept ?_
    change handle _ 0x06 (words FC_WRITE_SINGLE_REGISTER start value) mem = _
    rw [handle_slave _ (by decide), handle_write_single_register, hdec,
      Py.bind_ok (Py.lift_run _ _)]
    simp only
    rw [hresp]
    rfl
  | .registers [], ⟨h0, _, _⟩ => simp at h0
  | .registers (v :: w :: rest), ⟨h0, h1, hv⟩ =>
    have hlen : IsRegister ((v :: w :: rest).length : Int) := ⟨by omega, by omega⟩
    have hdec := decode_write_registers_request FC_WRITE_MULTIPLE_REGISTERS hstart h0 h1 hv
    have hresp : encode_response_write_multiple_registers start (v :: w :: rest).length =
        .ok (words FC_WRITE_MULTIPLE_REGISTERS start (v :: w :: rest).length) :=
      pack_BHH_ok _ hstart hlen
    refine dispatch_handled haccept ?_
    change handle _ 0x10 (write_request FC_WRITE_MULTIPLE_REGISTERS start
      (v :: w :: rest).length (register_data (v :: w :: rest))) mem = _
    rw [handle_slave _ (by decide), handle_write_multiple_registers, hdec, Py.bind_ok (Py.lift_run _ _)]
    simp only
    rw [hresp]
    rfl
  | .coils [value], _ =>
    have hword := isRegister_coil_word value
    have hu := unpack_HH_words' FC_WRITE_SINGLE_COIL hstart hword
    have hdec := decode_request_write_single_coil_ok
      (length_words FC_WRITE_SINGLE_COIL start (coil_word value)) (by rw [hu])
    have hresp : encode_response_write_single_coil start value =
        .ok (words FC_WRITE_SINGLE_COIL start (coil_word value)) := pack_BHH_ok _ hstart hword
    rw [hu] at hdec
    refine dispatch_handled haccept ?_
    change handle _ 0x05 (words FC_WRITE_SINGLE_COIL start (coil_word value)) mem = _
    rw [handle_slave _ (by decide), handle_write_single_coil, hdec, Py.bind_ok (Py.lift_run _ _)]
    simp only
    rw [hresp]
    rfl
  | .coils [], ⟨h0, _⟩ => simp at h0
  | .coils (v :: w :: rest), ⟨h0, h1⟩ =>
    have hlen : IsRegister ((v :: w :: rest).length : Int) := ⟨by omega, by omega⟩
    have hdec := decode_write_coils_request FC_WRITE_MULTIPLE_COILS hstart h0 h1
      (BitStrings.length_pack (v :: w :: rest))
    have hresp : encode_response_write_multiple_coils start (v :: w :: rest).length =
        .ok (words FC_WRITE_MULTIPLE_COILS start (v :: w :: rest).length) :=
      pack_BHH_ok _ hstart hlen
    rw [BitStrings.unpack_pack] at hdec
    refine dispatch_handled haccept ?_
    change handle _ 0x0F (write_request FC_WRITE_MULTIPLE_COILS start
      (v :: w :: rest).length (BitStrings.pack (v :: w :: rest))) mem = _
    rw [handle_slave _ (by decide), handle_write_multiple_coils, hdec, Py.bind_ok (Py.lift_run _ _)]
    simp only
    rw [hresp]
    rfl

/-! ## The requests of a plan -/

variable {F : Type} [FloatOps F]

/-- What an item writes, stored at its address. -/
def store_item (mem : Memory) (item : WriteItem F) : Memory :=
  match item_payload item with
  | .ok payload => store_payload mem (item_start item) payload
  | .error _ => mem

def store_chunk (mem : Memory) (c : WriteChunk) : Memory := store_payload mem c.start c.payload

theorem foldl_store_item_pieces (mem : Memory) (item : WriteItem F) :
    (item_pieces item).foldl (fun mem p => store_payload mem p.1 p.2) mem = store_item mem item := by
  unfold item_pieces store_item
  cases item_payload item with
  | ok payload => exact foldl_store_pieces mem (item_start item) payload
  | error e => rfl

/-- In the order of the plan, the chunks store the items one after the other. -/
theorem foldl_store_chunk {items : List (WriteItem F)} {chunks : List WriteChunk}
    (hplan : plan_writes items = .ok chunks) (mem : Memory) :
    chunks.foldl store_chunk mem = items.foldl store_item mem := by
  obtain ⟨-, rfl⟩ := plan_writes_eq hplan
  have hitem : ∀ (mem : Memory) (q : WriteItem F × Nat),
      ((item_pieces q.1).map fun p => payload_chunk q.2 p.1 p.2).foldl store_chunk mem =
        store_item mem q.1 := by
    intro mem q
    rw [List.foldl_map, ← foldl_store_item_pieces]
    refine List.foldl_ext _ _ _ fun mem p _ => ?_
    rw [store_chunk, payload_chunk_start, payload_chunk_payload]
  have hfst : items.zipIdx.map Prod.fst = items := List.zipIdx_map_fst 0 items
  rw [List.foldl_flatMap, List.foldl_ext _ _ _ fun mem q _ => hitem mem q]
  conv_rhs => rw [← hfst]
  rw [List.foldl_map]

/-- What a chunk of the plan is. -/
theorem plan_writes_chunk {items : List (WriteItem F)} {chunks : List WriteChunk}
    (hplan : plan_writes items = .ok chunks)
    (hrange : ∀ item ∈ items, InAddressSpace (write_range item)) {c : WriteChunk}
    (hc : c ∈ chunks) : IsRegister c.start ∧ c.payload.Legal := by
  refine ⟨plan_writes_starts hplan hrange c hc, ?_⟩
  obtain ⟨-, rfl⟩ := plan_writes_eq hplan
  obtain ⟨⟨item, idx⟩, hq, hc⟩ := List.mem_flatMap.mp hc
  obtain ⟨p, hp, rfl⟩ := List.mem_map.mp hc
  rw [payload_chunk_payload]
  exact item_pieces_legal item p hp

def write_area (item : WriteItem F) : Area :=
  match item with
  | .WriteHolding _ _ _ _ _ => .HOLDING_REGISTER
  | .WriteCoils _ _ => .COIL

/-- Two items write no address of one area both. -/
def ApartItems (a b : WriteItem F) : Prop :=
  write_area a = write_area b →
    (write_range a).2 ≤ (write_range b).1 ∨ (write_range b).2 ≤ (write_range a).1

theorem area_of_item_pieces (item : WriteItem F) :
    ∀ p ∈ item_pieces item, p.2.area = write_area item := by
  intro p hp
  unfold item_pieces at hp
  cases item with
  | WriteHolding start values dtype word_order byte_order =>
    simp only [item_payload] at hp
    cases he : encode_registers values dtype word_order byte_order with
    | error e => simp [he, Except.map] at hp
    | ok regs =>
      simp only [he, Except.map, pieces] at hp
      obtain ⟨q, -, rfl⟩ := List.mem_map.mp hp
      rfl
  | WriteCoils start values =>
    simp only [item_payload, pieces] at hp
    obtain ⟨q, -, rfl⟩ := List.mem_map.mp hp
    rfl

/-- Two chunks of items that are apart are the same one, or have no address in common. -/
theorem chunks_apart {items : List (WriteItem F)} {chunks : List WriteChunk}
    (hplan : plan_writes items = .ok chunks) (hapart : items.Pairwise ApartItems)
    {c d : WriteChunk} (hc : c ∈ chunks) (hd : d ∈ chunks) (hne : c ≠ d)
    (harea : c.payload.area = d.payload.area) :
    c.start + c.payload.length ≤ d.start ∨ d.start + d.payload.length ≤ c.start := by
  obtain ⟨-, rfl⟩ := plan_writes_eq hplan
  obtain ⟨⟨a, i⟩, hi, hc⟩ := List.mem_flatMap.mp hc
  obtain ⟨⟨b, j⟩, hj, hd⟩ := List.mem_flatMap.mp hd
  obtain ⟨p, hp, rfl⟩ := List.mem_map.mp hc
  obtain ⟨q, hq, rfl⟩ := List.mem_map.mp hd
  rw [List.mem_zipIdx_iff_getElem?] at hi hj
  simp only [payload_chunk_payload, payload_chunk_start] at harea hp hq hne hi hj ⊢
  rw [area_of_item_pieces a p hp, area_of_item_pieces b q hq] at harea
  obtain ⟨hinside, hsorted⟩ := item_pieces_inside a
  by_cases hij : i = j
  · subst hij
    obtain rfl : a = b := Option.some.inj (hi.symm.trans hj)
    have hsymm : Std.Symm fun p q : Int × Payload =>
        p.1 + (p.2.length : Int) ≤ q.1 ∨ q.1 + (q.2.length : Int) ≤ p.1 := ⟨fun _ _ h => h.symm⟩
    have hpieces : (item_pieces a).Pairwise fun p q : Int × Payload =>
        p.1 + (p.2.length : Int) ≤ q.1 ∨ q.1 + (q.2.length : Int) ≤ p.1 :=
      hsorted.imp fun h => Or.inl h
    refine hpieces.forall hp hq fun hpq => ?_
    rw [hpq] at hne
    exact hne rfl
  · have hitems : ApartItems a b := by
      obtain ⟨hi', hgi⟩ := List.getElem?_eq_some_iff.mp hi
      obtain ⟨hj', hgj⟩ := List.getElem?_eq_some_iff.mp hj
      have hpair := List.pairwise_iff_getElem.mp hapart
      rcases Nat.lt_or_gt_of_ne hij with h | h
      · rw [← hgi, ← hgj]
        exact hpair i j hi' hj' h
      · intro hab
        have := hpair j i hj' hi' h
        rw [hgi, hgj] at this
        exact (this hab.symm).symm
    have hbounds := hinside p hp
    have hbounds' := (item_pieces_inside b).1 q hq
    rcases hitems harea with h | h <;> omega

/-! ## The batch -/

variable {on_read : Area → Int → Int → Py Memory (List Cell)} {unit_id : Option Int} {uid : Int}

/-- The memory after the slave has served the requests, one after the other. -/
def served (on_read : Area → Int → Int → Py Memory (List Cell)) (unit_id : Option Int) (uid : Int)
    (mem : Memory) (requests : List Bytes) : Memory :=
  requests.foldl (fun mem req => (dispatch (slave on_read unit_id) uid req mem).2) mem

theorem dispatch_chunk (haccept : Accepts unit_id uid) {items : List (WriteItem F)}
    {chunks : List WriteChunk} (hplan : plan_writes items = .ok chunks)
    (hrange : ∀ item ∈ items, InAddressSpace (write_range item)) {c : WriteChunk} (hc : c ∈ chunks)
    (mem : Memory) : dispatch (slave on_read unit_id) uid (write_chunk_request c) mem =
      (.ok (payload_echo c.start c.payload), store_chunk mem c) := by
  obtain ⟨hstart, hlegal⟩ := plan_writes_chunk hplan hrange hc
  exact dispatch_payload haccept hstart hlegal mem

/-- Tasks that all return, and what they do to the state in list order. -/
theorem gather_foldl {σ ι α : Type} {task : ι → Py σ α} {val : ι → α} {step : σ → ι → σ}
    {is : List ι} (h : ∀ i ∈ is, ∀ s, task i s = (.ok (val i), step s i)) (s : σ) :
    Py.gather (is.map task) s = (.ok (is.map val), is.foldl step s) := by
  induction is generalizing s with
  | nil => rfl
  | cons i is ih =>
    have hrest := ih (fun j hj => h j (List.mem_cons_of_mem i hj)) (step s i)
    simp only [List.map_cons, Py.gather, h i (by simp) s, hrest, List.foldl_cons]
    rfl

/-- A batch over a slave that serves each request as it is sent. -/
theorem writes_in_order (haccept : Accepts unit_id uid) {items : List (WriteItem F)}
    {chunks : List WriteChunk} (hplan : plan_writes items = .ok chunks)
    (hrange : ∀ item ∈ items, InAddressSpace (write_range item)) (mem : Memory) :
    plan_and_execute_writes items (dispatch (slave on_read unit_id) uid) mem =
      (.ok (items.map fun item => { item, ok := true, error := none }),
        items.foldl store_item mem) := by
  obtain ⟨-, hchunks⟩ := plan_writes_eq hplan
  have htask : ∀ c ∈ chunks, ∀ mem,
      execute_write_chunk c (dispatch (slave on_read unit_id) uid) mem =
        (.ok { chunk := c, error := none }, store_chunk mem c) := by
    intro c hc mem
    obtain ⟨hstart, hlegal⟩ := plan_writes_chunk hplan hrange hc
    have hdispatch := @dispatch_chunk F _ on_read _ _ haccept _ _ hplan hrange _ hc mem
    have hform : ∃ idx, c = payload_chunk idx c.start c.payload := by
      rw [hchunks] at hc
      obtain ⟨⟨item, idx⟩, -, hc⟩ := List.mem_flatMap.mp hc
      obtain ⟨p, -, rfl⟩ := List.mem_map.mp hc
      exact ⟨idx, by rw [payload_chunk_start, payload_chunk_payload]⟩
    obtain ⟨idx, hform⟩ := hform
    have hrun := @execute_write_chunk_ok _ _ idx _ c.payload _ _ _ hlegal hstart hdispatch
      (payload_response_echo hstart hlegal)
    rw [← hform] at hrun
    exact hrun
  have hgather := gather_foldl htask mem
  rw [foldl_store_chunk hplan] at hgather
  cases items with
  | nil =>
    subst hchunks
    rfl
  | cons first others =>
    unfold plan_and_execute_writes
    rw [if_neg (by simp), hplan, Py.bind_ok (Py.lift_run _ _), Py.bind_ok hgather, Py.pure_run,
      foldl_apply_error_none]
    intro cr hcr
    obtain ⟨c, -, rfl⟩ := List.mem_map.mp hcr
    rfl

/-- Any executor that answers each request as the slave does: every item succeeds, with one call
for each chunk. -/
theorem writes_answered (haccept : Accepts unit_id uid) {items : List (WriteItem F)}
    {chunks : List WriteChunk} (hplan : plan_writes items = .ok chunks)
    (hrange : ∀ item ∈ items, InAddressSpace (write_range item)) {σ : Type}
    {execute : Bytes → Py σ Bytes}
    (hanswer : ∀ c ∈ chunks, ∀ s, ∃ mem, (execute (write_chunk_request c) s).1 =
      (dispatch (slave on_read unit_id) uid (write_chunk_request c) mem).1) (s : σ) :
    ∃ calls t, plan_and_execute_writes items (recorded execute) ([], s) =
        (.ok (items.map fun item => { item, ok := true, error := none }), (calls, t)) ∧
      calls.map Prod.fst = chunks.map write_chunk_request := by
  have hend : ∀ c ∈ chunks, ∀ s,
      (execute (write_chunk_request c) s).1.bind (payload_response c.payload) = .ok () := by
    intro c hc s
    obtain ⟨hstart, hlegal⟩ := plan_writes_chunk hplan hrange hc
    obtain ⟨mem, hmem⟩ := hanswer c hc s
    rw [hmem, dispatch_chunk haccept hplan hrange hc mem]
    exact payload_response_echo hstart hlegal
  have hmodbus : ∀ c ∈ chunks, ∀ s e,
      (execute (write_chunk_request c) s).1.bind (payload_response c.payload) = .error e →
        IsModbus e := by
    intro c hc s e he
    rw [hend c hc s] at he
    cases he
  obtain ⟨outcomes, t, hall, hrun⟩ := plan_and_execute_writes_recorded hplan
    (plan_writes_starts hplan hrange) hmodbus s
  have hlen : (chunks.map write_chunk_request).length = outcomes.length := by
    rw [List.length_map, hall.length_eq]
  have hnone : ∀ cr ∈ List.zipWith write_chunk_result chunks outcomes, cr.error = none := by
    intro cr hcr
    rw [← List.map_uncurry_zip_eq_zipWith, List.mem_map] at hcr
    obtain ⟨p, hp, rfl⟩ := hcr
    obtain ⟨s, hs⟩ := (List.forall₂_iff_zip.mp hall).2 hp
    have hok := hend p.1 (List.of_mem_zip hp).1 s
    simp only [Function.uncurry, write_chunk_result, write_chunk_failure]
    rw [hs, hok]
    rfl
  rw [foldl_apply_error_none _ hnone] at hrun
  exact ⟨_, t, hrun, List.map_fst_zip (by omega)⟩

theorem served_plan (haccept : Accepts unit_id uid) {items : List (WriteItem F)}
    {chunks : List WriteChunk} (hplan : plan_writes items = .ok chunks)
    (hrange : ∀ item ∈ items, InAddressSpace (write_range item)) (mem : Memory) :
    served on_read unit_id uid mem (chunks.map write_chunk_request) =
      items.foldl store_item mem := by
  unfold served
  rw [List.foldl_map, ← foldl_store_chunk hplan]
  refine List.foldl_ext _ _ _ fun mem c hc => ?_
  rw [dispatch_chunk haccept hplan hrange hc]

/-- In whatever order the requests of items that are apart arrive, they leave one memory. -/
theorem served_perm (haccept : Accepts unit_id uid) {items : List (WriteItem F)}
    {chunks : List WriteChunk} (hplan : plan_writes items = .ok chunks)
    (hrange : ∀ item ∈ items, InAddressSpace (write_range item)) (hapart : items.Pairwise ApartItems)
    {order : List Bytes} (horder : order.Perm (chunks.map write_chunk_request)) (mem : Memory) :
    served on_read unit_id uid mem order = items.foldl store_item mem := by
  have hchunk : ∀ req ∈ order, ∃ c ∈ chunks, req = write_chunk_request c := by
    intro req hreq
    obtain ⟨c, hc, hcreq⟩ := List.mem_map.mp (horder.mem_iff.mp hreq)
    exact ⟨c, hc, hcreq.symm⟩
  have hcomm : ∀ x ∈ order, ∀ y ∈ order, ∀ mem : Memory,
      (dispatch (slave on_read unit_id) uid y (dispatch (slave on_read unit_id) uid x mem).2).2 =
        (dispatch (slave on_read unit_id) uid x (dispatch (slave on_read unit_id) uid y mem).2).2 := by
    intro x hx y hy mem
    obtain ⟨c, hc, rfl⟩ := hchunk x hx
    obtain ⟨d, hd, rfl⟩ := hchunk y hy
    by_cases hcd : c = d
    · rw [hcd]
    · rw [dispatch_chunk haccept hplan hrange hc, dispatch_chunk haccept hplan hrange hd,
        dispatch_chunk haccept hplan hrange hc, dispatch_chunk haccept hplan hrange hd]
      exact store_payload_comm mem (chunks_apart hplan hapart hc hd hcd)
  rw [← served_plan haccept hplan hrange]
  exact horder.foldl_eq' hcomm mem

/-- A batch of writes does what its items say: over a slave that serves the requests as they are
sent, one item after the other; and for items that are apart, in every order of the requests. -/
theorem a_batch_stores_its_items (haccept : Accepts unit_id uid) {items : List (WriteItem F)}
    {chunks : List WriteChunk} (hplan : plan_writes items = .ok chunks)
    (hrange : ∀ item ∈ items, InAddressSpace (write_range item)) :
    (∀ mem, plan_and_execute_writes items (dispatch (slave on_read unit_id) uid) mem =
      (.ok (items.map fun item => { item, ok := true, error := none }),
        items.foldl store_item mem)) ∧
    ∀ (σ : Type) (execute : Bytes → Py σ Bytes),
      (∀ c ∈ chunks, ∀ s, ∃ mem, (execute (write_chunk_request c) s).1 =
        (dispatch (slave on_read unit_id) uid (write_chunk_request c) mem).1) →
      ∀ s, ∃ calls t, plan_and_execute_writes items (recorded execute) ([], s) =
          (.ok (items.map fun item => { item, ok := true, error := none }), (calls, t)) ∧
        (∀ mem, served on_read unit_id uid mem (calls.map Prod.fst) =
          items.foldl store_item mem) ∧
        (items.Pairwise ApartItems → ∀ order, order.Perm (calls.map Prod.fst) →
          ∀ mem, served on_read unit_id uid mem order = items.foldl store_item mem) := by
  refine ⟨writes_in_order haccept hplan hrange, ?_⟩
  intro σ execute hanswer s
  obtain ⟨calls, t, hrun, hcalls⟩ := writes_answered haccept hplan hrange hanswer s
  refine ⟨calls, t, hrun, ?_, ?_⟩
  · rw [hcalls]
    exact served_plan haccept hplan hrange
  · intro hapart order horder mem
    rw [hcalls] at horder
    exact served_perm haccept hplan hrange hapart horder mem

end

/-- The slave of an example, which reads nothing. -/
def write_only (_ : Area) (_ _ : Int) : Py Memory (List Cell) :=
  Py.raise (ExceptionClass.IllegalFunction.new "")

/-- Two writes of registers that are apart, the second of which takes two requests. -/
def writes_apart : List (WriteItem Float) :=
  [.WriteHolding 130 [.int 7] .uint16 .big .big,
    .WriteHolding 0 (List.replicate 124 (.int 1)) .uint16 .big .big]

set_option maxRecDepth 8000 in
/-- They are stored in every order of their three requests. -/
theorem two_writes_are_stored :
    (∃ chunks, plan_writes writes_apart = .ok chunks ∧
      chunks.map (fun c => (c.item_idx, c.start, c.payload.length)) =
        [(0, 130, 1), (1, 0, 123), (1, 123, 1)]) ∧
    (∀ mem, plan_and_execute_writes writes_apart (dispatch (slave write_only none) 1) mem =
      (.ok (writes_apart.map fun item => { item, ok := true, error := none }),
        writes_apart.foldl store_item mem)) ∧
    ∃ calls t, plan_and_execute_writes writes_apart
        (recorded (dispatch (slave write_only none) 1)) ([], fun _ _ => none) =
          (.ok (writes_apart.map fun item => { item, ok := true, error := none }), (calls, t)) ∧
      ∀ order, order.Perm (calls.map Prod.fst) →
        ∀ mem, served write_only none 1 mem order = writes_apart.foldl store_item mem := by
  have hstores := @a_batch_stores_its_items Float _ write_only none 1 (Or.inl rfl) writes_apart _
    rfl (by simp [InAddressSpace, writes_apart, write_range, regs_per_item])
  refine ⟨⟨_, rfl, rfl⟩, hstores.1, ?_⟩
  obtain ⟨calls, t, hrun, -, hperm⟩ := hstores.2 Memory (dispatch (slave write_only none) 1)
    (fun _ _ mem => ⟨mem, rfl⟩) fun _ _ => none
  exact ⟨calls, t, hrun,
    hperm (by simp [writes_apart, ApartItems, write_area, write_range, regs_per_item])⟩

end pymod.planner
