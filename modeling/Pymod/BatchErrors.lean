-- When a batch raises: what was sent by then, for batches of reads and of writes.
import Pymod.DeviceMemory
import Pymod.WritePlan

namespace pymod.planner

open errors codec pdu types Ranges Slices

/-! ## Executors and what they were called with -/

section

variable {σ : Type}

/-- An executor that returns bytes or raises `ModbusError`. -/
def OnlyModbus (execute : Bytes → Py σ Bytes) : Prop :=
  ∀ req s e s', execute req s = (.error e, s') → IsModbus e

/-- The executor with a list of the PDUs that it was called with. -/
def logged (execute : Bytes → Py σ Bytes) (req : Bytes) : Py (List Bytes × σ) Bytes :=
  fun (sent, s) =>
    let (r, s') := execute req s
    (r, (sent ++ [req], s'))

/-- Every call of such an executor, decoded, is a value or a `ModbusError`. -/
theorem isModbus_of_outcome {α : Type} {execute : Bytes → Py σ Bytes} (hexec : OnlyModbus execute)
    {decode : Bytes → Except PyError α} (hdec : ∀ resp e, decode resp = .error e → IsModbus e)
    (q : Bytes) (s : σ) {e : PyError} (h : (execute q s).1.bind decode = .error e) :
    IsModbus e := by
  cases hr : (execute q s).1 with
  | error e' =>
    rw [hr] at h
    cases h
    exact hexec q s e (execute q s).2 (Prod.ext hr rfl)
  | ok resp =>
    rw [hr] at h
    exact hdec resp e h

/-- `execute` is called once with the request, and what comes of it is a value or `ModbusError`. -/
theorem exchange_logged {α : Type} {execute : Bytes → Py σ Bytes} (hexec : OnlyModbus execute)
    (decode : Bytes → Except PyError α) (hdec : ∀ resp e, decode resp = .error e → IsModbus e)
    (q : Bytes) (sent : List Bytes) (s : σ) :
    ∃ r s', exchange (.ok q) (logged execute) decode (sent, s) = (r, (sent ++ [q], s')) ∧
      ∀ e, r = .error e → IsModbus e := by
  have hcall : logged execute q (sent, s) = ((execute q s).1, (sent ++ [q], (execute q s).2)) := rfl
  exact ⟨_, _, exchange_run hcall, fun _ => isModbus_of_outcome hexec hdec q s⟩

/-- Tasks of which some raise at once, with nothing sent, and the others send one PDU each and
return. Every task is started, also after one that raised. -/
theorem gather_mixed {ι α : Type} {task : ι → Py (List Bytes × σ) α} {bad : ι → Prop}
    [DecidablePred bad] {q : ι → α → Prop} {is : List ι}
    (hbad : ∀ i ∈ is, bad i → ∀ st, ∃ e, task i st = (.error e, st))
    (hgood : ∀ i ∈ is, ¬ bad i → ∀ sent s, ∃ v s' req, task i (sent, s) = (.ok v, (sent ++ [req], s'))
      ∧ q i v) (sent : List Bytes) (s : σ) :
    ∃ r sent' s', Py.gather (is.map task) (sent, s) = (r, (sent', s')) ∧
      sent'.length = sent.length + (is.filter fun i => ¬ bad i).length ∧
      ((∃ i ∈ is, bad i) → ∃ e, r = .error e) ∧
      ((∀ i ∈ is, ¬ bad i) → ∃ vs, r = .ok vs ∧ List.Forall₂ q is vs) := by
  induction is generalizing sent s with
  | nil => exact ⟨_, sent, s, rfl, by simp, by simp, fun _ => ⟨[], rfl, .nil⟩⟩
  | cons i is ih =>
    have hbad' : ∀ j ∈ is, bad j → ∀ st, ∃ e, task j st = (.error e, st) := fun j hj =>
      hbad j (by simp [hj])
    have hgood' := fun j hj => hgood j (List.mem_cons_of_mem i hj)
    simp only [List.map_cons, Py.gather]
    by_cases hi : bad i
    · obtain ⟨e, he⟩ := hbad i (by simp) hi (sent, s)
      obtain ⟨r, sent', s', hrun, hlen, _, _⟩ := ih hbad' hgood' sent s
      refine ⟨.error e, sent', s', by rw [he, hrun]; rfl, ?_, fun _ => ⟨e, rfl⟩, ?_⟩
      · rw [hlen, List.filter_cons, if_neg (by simpa using hi)]
      · intro hall
        exact absurd hi (hall i (by simp))
    · obtain ⟨v, s₁, req, hv, hq⟩ := hgood i (by simp) hi sent s
      obtain ⟨r, sent', s', hrun, hlen, herr, hok⟩ := ih hbad' hgood' (sent ++ [req]) s₁
      refine ⟨r.map fun vs => v :: vs, sent', s', by rw [hv, hrun]; rfl, ?_, ?_, ?_⟩
      · rw [hlen, List.filter_cons, if_pos (by simpa using hi), List.length_append,
          List.length_singleton, List.length_cons]
        omega
      · rintro ⟨j, hj, hbj⟩
        rcases List.mem_cons.mp hj with rfl | hj
        · exact absurd hbj hi
        · obtain ⟨e, rfl⟩ := herr ⟨j, hj, hbj⟩
          exact ⟨e, rfl⟩
      · intro hall
        obtain ⟨vs, rfl, hvs⟩ := hok fun j hj => hall j (by simp [hj])
        exact ⟨v :: vs, rfl, .cons hq hvs⟩

/-! ## Batches of reads -/

/-- A chunk that starts outside of the address space raises before it calls the executor. -/
theorem execute_read_chunk_bad {c : ReadChunk} {execute : Bytes → Py σ Bytes}
    (hstart : ¬ IsRegister c.start) (s : σ) :
    ∃ e, execute_read_chunk c execute s = (.error e, s) := by
  obtain ⟨name, hname⟩ := read_request_eq c.area
  have hread : read_chunk c execute s =
      (.error (.ValueError s!"address out of range: {c.start}"), s) := by
    rw [read_chunk_eq, exchange, hname, encode_read_error hstart]
    exact Py.bind_error (Py.lift_run _ s)
  exact ⟨_, execute_read_chunk_run hread⟩

theorem except_map_error {α β : Type} {f : α → β} {x : Except PyError α} {e : PyError}
    (h : x.map f = .error e) : x = .error e := by
  cases x with
  | error e' => cases h; rfl
  | ok a => cases h

theorem read_cells_modbus {area : Area} {count : Int} {resp : Bytes} {e : PyError}
    (h0 : 0 ≤ count) (h : read_cells area count resp = .error e) : IsModbus e := by
  cases area with
  | COIL => exact decode_bit_response_modbus (except_map_error h)
  | DISCRETE_INPUT => exact decode_bit_response_modbus (except_map_error h)
  | HOLDING_REGISTER => exact decode_register_response_modbus h0 (except_map_error h)
  | INPUT_REGISTER => exact decode_register_response_modbus h0 (except_map_error h)

/-- The result of a chunk has values, or an error. -/
def Settled (c : ReadChunk) (cr : ReadChunkResult) : Prop :=
  cr.chunk = c ∧ (cr.values = none → cr.error ≠ none)

/-- Any other chunk sends one request and returns. -/
theorem execute_read_chunk_good {c : ReadChunk} {execute : Bytes → Py σ Bytes}
    (hexec : OnlyModbus execute) (hstart : IsRegister c.start) (h0 : 1 ≤ c.count)
    (h1 : c.count ≤ READ_LIMITS c.area) (sent : List Bytes) (s : σ) :
    ∃ cr s' req, execute_read_chunk c (logged execute) (sent, s) = (.ok cr, (sent ++ [req], s')) ∧
      Settled c cr := by
  obtain ⟨r, s', hrun, hmodbus⟩ := exchange_logged hexec
    (read_cells c.area c.count) (fun _ _ => read_cells_modbus (by omega))
    (words (read_code c.area) c.start c.count) sent s
  rw [← read_request_ok c.area hstart h0 h1, ← read_chunk_eq] at hrun
  cases r with
  | ok values => exact ⟨_, s', _, execute_read_chunk_run hrun, rfl, fun h => by cases h⟩
  | error e =>
    obtain ⟨m, rfl⟩ := hmodbus e rfl
    exact ⟨_, s', _, execute_read_chunk_run hrun, rfl, fun _ h => by cases h⟩

section Decoding

variable {F : Type} [FloatOps F]

/-- A validated item is decoded out of settled chunks without an exception. -/
theorem decode_read_item_settled {item : ReadItem} {chunk_results : List ReadChunkResult}
    (hvalid : validate_read_item item = .ok ())
    (hsettled : ∀ cr ∈ chunk_results, cr.values = none → cr.error ≠ none) :
    ∃ r : ReadResult F, decode_read_item item chunk_results = .ok r ∧ item = r.item := by
  have hpos := validate_read_item_count hvalid
  have hregister : ∀ (i : RegisterItem) (cells : List Cell), validate_bit_fields i = .ok () →
      ∃ r : ReadResult F, decode_register_item item i cells = .ok r ∧ item = r.item := by
    intro i cells hi
    unfold decode_register_item
    cases hd : decode_raw_registers (F := F) i (cells.map Cell.as_int) with
    | ok values => exact ⟨_, rfl, rfl⟩
    | error e =>
      obtain ⟨m, rfl⟩ := decode_raw_registers_error hi hd
      exact ⟨_, rfl, rfl⟩
  have hmem : ∀ cr ∈ covering_chunks item chunk_results, cr ∈ chunk_results := by
    intro cr hcr
    exact (List.mem_filter.mp ((List.mem_insertionSort _).mp hcr)).1
  unfold decode_read_item
  cases hcov : covering_chunks item chunk_results with
  | nil => exact ⟨_, rfl, rfl⟩
  | cons first others =>
    simp only
    cases herr : (first :: others).findSome? fun cr => cr.error with
    | some e => exact ⟨_, rfl, rfl⟩
    | none =>
      have hvalues : ∀ cr ∈ first :: others, chunk_values cr = .ok (cr.values.getD []) := by
        intro cr hcr
        have hnone := (List.findSome?_eq_none_iff.mp herr) cr hcr
        have hcr' := hmem cr (hcov ▸ hcr)
        cases hv : cr.values with
        | none => exact absurd hnone (hsettled cr hcr' hv)
        | some values => simp [chunk_values, hv]; rfl
      simp only [flat_values, mapM_ok hvalues]
      unfold validate_read_item at hvalid
      rw [if_neg (by omega)] at hvalid
      cases item with
      | Holding i => exact hregister i _ hvalid
      | Input i => exact hregister i _ hvalid
      | Coil start count => exact ⟨_, rfl, rfl⟩
      | Discrete start count => exact ⟨_, rfl, rfl⟩

/-! ## Batches that are rejected as a whole -/

/-- Nothing was sent when the batch raised; otherwise there is one result for each item. -/
def RejectedWhole {ι ρ : Type} (items : List ι) (item_of : ρ → ι)
    (outcome : Except PyError (List ρ) × (List Bytes × σ)) : Prop :=
  match outcome.1 with
  | .error _ => outcome.2.1 = []
  | .ok results => results.map item_of = items

/-- Some item fails its check, or the requests all start inside of `0..0xFFFF`, or all
outside of it. -/
def ReadsStandTogether (items : List ReadItem) : Prop :=
  (∃ item ∈ items, ∃ e, validate_read_item item = .error e) ∨
    (∀ area x, ReadStart area items x → IsRegister x) ∨
    ∀ area x, ReadStart area items x → ¬ IsRegister x

def WritesStandTogether (items : List (WriteItem F)) : Prop :=
  (∃ item ∈ items, Unplannable item) ∨
    (∀ item ∈ items, ∀ x, WriteStart item x → IsRegister x) ∨
    ∀ item ∈ items, ∀ x, WriteStart item x → ¬ IsRegister x

/-- Tasks that send or raise, in a list that holds both kinds: the batch raises after it sent
something. In a list of one kind, nothing was sent or nothing was raised. -/
theorem rejectedWhole_of_gather {ι α κ ρ : Type} {task : ι → Py (List Bytes × σ) α}
    (bad : ι → Prop) [DecidablePred bad] (q : ι → α → Prop) {is : List ι} {items : List κ}
    {item_of : ρ → κ} {finish : List α → Except PyError (List ρ)}
    (hbad : ∀ i ∈ is, bad i → ∀ st, ∃ e, task i st = (.error e, st))
    (hgood : ∀ i ∈ is, ¬ bad i → ∀ sent s, ∃ v s' req, task i (sent, s) = (.ok v, (sent ++ [req], s'))
      ∧ q i v)
    (hfinish : ∀ vs, List.Forall₂ q is vs → ∃ rs, finish vs = .ok rs ∧ rs.map item_of = items)
    (s : σ) :
    RejectedWhole items item_of
        ((Py.gather (is.map task) >>= fun vs => (finish vs : Except PyError (List ρ)))
          ([], s) : Except PyError (List ρ) × (List Bytes × σ)) ↔
      (∀ i ∈ is, ¬ bad i) ∨ ∀ i ∈ is, bad i := by
  obtain ⟨r, sent, s', hrun, hlen, herr, hok⟩ := gather_mixed hbad hgood [] s
  rw [List.length_nil, Nat.zero_add] at hlen
  by_cases hall : ∀ i ∈ is, ¬ bad i
  · obtain ⟨vs, rfl, hvs⟩ := hok hall
    obtain ⟨rs, hrs, hitems⟩ := hfinish vs hvs
    rw [Py.bind_ok hrun, hrs]
    exact ⟨fun _ => Or.inl hall, fun _ => hitems⟩
  · obtain ⟨i, hi, hb⟩ : ∃ i ∈ is, bad i := by
      by_contra hn
      exact hall fun i hi hb => hn ⟨i, hi, hb⟩
    obtain ⟨e, rfl⟩ := herr ⟨i, hi, hb⟩
    rw [Py.bind_error hrun]
    simp only [RejectedWhole]
    rw [← List.length_eq_zero_iff, hlen, List.length_eq_zero_iff, List.filter_eq_nil_iff]
    simp only [decide_not, Bool.not_eq_true', decide_eq_false_iff_not, not_not]
    exact ⟨Or.inr, fun h => h.resolve_left hall⟩

theorem forall₂_settled {cs : List ReadChunk} {crs : List ReadChunkResult}
    (h : List.Forall₂ Settled cs crs) : ∀ cr ∈ crs, cr.values = none → cr.error ≠ none :=
  forall₂_right h fun _ _ hs => hs.2

theorem plan_and_execute_reads_invalid {items : List ReadItem} (execute : Bytes → Py σ Bytes)
    {item : ReadItem} {e : PyError} (hitem : item ∈ items) (he : validate_read_item item = .error e)
    (s : σ) : ∃ e', plan_and_execute_reads (F := F) items execute s = (.error e', s) := by
  have hforM : ∀ l : List ReadItem, item ∈ l → ∃ e', l.forM validate_read_item = .error e' := by
    intro l hl
    induction l with
    | nil => simp at hl
    | cons x l ih =>
      change ∃ e', (validate_read_item x >>= fun _ => l.forM validate_read_item) = .error e'
      cases hx : validate_read_item x with
      | error e' => exact ⟨e', rfl⟩
      | ok u =>
        rcases List.mem_cons.mp hl with rfl | hl
        · rw [he] at hx; cases hx
        · exact ih hl
  obtain ⟨e', he'⟩ := hforM items hitem
  refine ⟨e', ?_⟩
  unfold plan_and_execute_reads
  rw [if_neg (by simpa using List.ne_nil_of_mem hitem), he']
  rfl

theorem reads_rejectedWhole_iff {execute : Bytes → Py σ Bytes} (hexec : OnlyModbus execute)
    (items : List ReadItem) (s : σ) :
    RejectedWhole items ReadResult.item
        (plan_and_execute_reads (F := F) items (logged execute) ([], s)) ↔
      ReadsStandTogether items := by
  by_cases hvalid : ∀ item ∈ items, validate_read_item item = .ok ()
  · have hpos : ∀ item ∈ items, 0 < item.count := fun item hitem =>
      validate_read_item_count (hvalid item hitem)
    have hrun : plan_and_execute_reads (F := F) items (logged execute) ([], s) =
        (Py.gather ((plan_read_chunks items).map fun c => execute_read_chunk c (logged execute)) >>=
          fun crs => ((items.mapM fun item => decode_read_item item crs :
            Except PyError (List (ReadResult F))) : Py (List Bytes × σ) _)) ([], s) := by
      cases items with
      | nil => rfl
      | cons first others =>
        unfold plan_and_execute_reads
        rw [if_neg (by simp), forM_ok hvalid]
        rfl
    rw [hrun, rejectedWhole_of_gather (fun c : ReadChunk => ¬ IsRegister c.start) Settled
      (fun c _ hc st => execute_read_chunk_bad hc st)]
    · have hstarts : ∀ p : Int → Prop, (∀ c ∈ plan_read_chunks items, p c.start) ↔
          ∀ area x, ReadStart area items x → p x := by
        intro p
        simp only [← plan_read_chunks_starts hpos]
        exact ⟨fun h area x ⟨c, hc, _, hx⟩ => hx ▸ h c hc, fun h c hc => h c.area _ ⟨c, hc, rfl, rfl⟩⟩
      simp only [not_not]
      rw [hstarts IsRegister, hstarts fun x => ¬ IsRegister x]
      constructor
      · exact fun h => Or.inr h
      · rintro (⟨item, hitem, e, he⟩ | h)
        · rw [hvalid item hitem] at he
          cases he
        · exact h
    · intro c hc hstart sent s
      obtain ⟨_, h0, h1, _⟩ := plan_read_chunks.spec hpos hc
      exact execute_read_chunk_good hexec (not_not.mp hstart) h0 h1 sent s
    · intro crs hcrs
      have hsettled := forall₂_settled hcrs
      obtain ⟨rs, hrs, hitems⟩ := mapM_forall₂ (r := fun item (r : ReadResult F) => id item = r.item)
        fun item hitem => decode_read_item_settled (hvalid item hitem) hsettled
      exact ⟨rs, hrs, by rw [← map_eq_map_of_forall₂ hitems, List.map_id]⟩
  · obtain ⟨item, hitem, he⟩ : ∃ item ∈ items, validate_read_item item ≠ .ok () := by
      by_contra hn
      exact hvalid fun item hitem => by
        by_contra hne
        exact hn ⟨item, hitem, hne⟩
    obtain ⟨e, he⟩ : ∃ e, validate_read_item item = .error e := by
      cases hv : validate_read_item item with
      | error e => exact ⟨e, rfl⟩
      | ok u => exact absurd hv he
    obtain ⟨e', hrun⟩ := plan_and_execute_reads_invalid (F := F) (logged execute) hitem he
      ([], s)
    rw [hrun]
    exact ⟨fun _ => Or.inl ⟨item, hitem, e, he⟩, fun _ => rfl⟩

/-! ## Batches of writes -/

theorem execute_write_chunk_bad {idx : Nat} {start : Int} {payload : Payload}
    {execute : Bytes → Py σ Bytes} (hstart : ¬ IsRegister start) (s : σ) :
    ∃ e, execute_write_chunk (payload_chunk idx start payload) execute s = (.error e, s) := by
  exact ⟨_, execute_write_chunk_run (write_chunk_error hstart s)⟩

theorem execute_write_chunk_good (idx : Nat) {start : Int} {payload : Payload}
    {execute : Bytes → Py σ Bytes} (hexec : OnlyModbus execute) (hstart : IsRegister start)
    (hlegal : payload.Legal) (sent : List Bytes) (s : σ) :
    ∃ cr s' req, execute_write_chunk (payload_chunk idx start payload) (logged execute) (sent, s) =
      (.ok cr, (sent ++ [req], s')) := by
  obtain ⟨r, s', hrun, hmodbus⟩ := exchange_logged hexec (payload_response payload)
    (fun _ _ h => payload_response_modbus h) (payload_request start payload) sent s
  rw [← write_chunk_payload idx hlegal hstart] at hrun
  cases r with
  | ok u => exact ⟨_, s', _, execute_write_chunk_run hrun⟩
  | error e =>
    obtain ⟨m, rfl⟩ := hmodbus e rfl
    exact ⟨_, s', _, execute_write_chunk_run hrun⟩

omit [FloatOps F] in
/-- An error changes the result of one item, and no result's item. -/
theorem foldl_apply_error_items (crs : List WriteChunkResult) (results : List (WriteResult F)) :
    (crs.foldl apply_error results).map WriteResult.item = results.map WriteResult.item := by
  induction crs generalizing results with
  | nil => rfl
  | cons cr crs ih =>
    rw [List.foldl_cons, ih]
    unfold apply_error
    cases cr.error with
    | none => rfl
    | some e =>
      apply List.ext_getElem?
      intro i
      simp only [List.getElem?_map, List.getElem?_modify]
      cases results[i]? with
      | none => rfl
      | some r => by_cases hi : cr.chunk.item_idx = i <;> by_cases hr : r.ok = true <;> simp [hi, hr]

theorem writes_rejectedWhole_iff {execute : Bytes → Py σ Bytes} (hexec : OnlyModbus execute)
    (items : List (WriteItem F)) (s : σ) :
    RejectedWhole items WriteResult.item
        (plan_and_execute_writes items (logged execute) ([], s)) ↔ WritesStandTogether items := by
  by_cases hplan : ∀ item ∈ items, ¬ Unplannable item
  · let chunks := items.zipIdx.flatMap fun q =>
      (item_pieces q.1).map fun p => payload_chunk q.2 p.1 p.2
    have hmem : ∀ c ∈ chunks, ∃ item ∈ items, ∃ idx, ∃ p ∈ item_pieces item,
        c = payload_chunk idx p.1 p.2 := by
      intro c hc
      obtain ⟨⟨item, idx⟩, hq, hc⟩ := List.mem_flatMap.mp hc
      obtain ⟨p, hp, rfl⟩ := List.mem_map.mp hc
      exact ⟨item, List.fst_mem_of_mem_zipIdx hq, idx, p, hp, rfl⟩
    have hrun : plan_and_execute_writes items (logged execute) ([], s) =
        (Py.gather (chunks.map fun c => execute_write_chunk c (logged execute)) >>=
          fun crs => ((.ok (crs.foldl apply_error
            (items.map fun item => { item, ok := true, error := none })) :
            Except PyError (List (WriteResult F))) : Py (List Bytes × σ) _)) ([], s) := by
      cases items with
      | nil => rfl
      | cons first others =>
        unfold plan_and_execute_writes
        rw [if_neg (by simp), plan_writes_ok hplan]
        rfl
    rw [hrun, rejectedWhole_of_gather (fun c : WriteChunk => ¬ IsRegister c.start)
      (fun _ _ => True)]
    · have hstarts : ∀ p : Int → Prop, (∀ c ∈ chunks, p c.start) ↔
          ∀ item ∈ items, ∀ x, WriteStart item x → p x := by
        intro p
        constructor
        · intro h item hitem x hx
          obtain ⟨q, hq, rfl⟩ := (item_pieces_starts (hplan item hitem) x).mpr hx
          obtain ⟨i, hi, rfl⟩ := List.mem_iff_getElem.mp hitem
          have hidx : (items[i], i) ∈ items.zipIdx := by
            simp [List.mem_zipIdx_iff_getElem?, hi]
          have hc : payload_chunk i q.1 q.2 ∈ chunks :=
            List.mem_flatMap.mpr ⟨_, hidx, List.mem_map.mpr ⟨q, hq, rfl⟩⟩
          simpa using h _ hc
        · intro h c hc
          obtain ⟨item, hitem, idx, q, hq, rfl⟩ := hmem c hc
          rw [payload_chunk_start]
          exact h item hitem q.1 ((item_pieces_starts (hplan item hitem) q.1).mp ⟨q, hq, rfl⟩)
      simp only [not_not]
      rw [hstarts IsRegister, hstarts fun x => ¬ IsRegister x]
      constructor
      · exact fun h => Or.inr h
      · rintro (⟨item, hitem, hbad⟩ | h)
        · exact absurd hbad (hplan item hitem)
        · exact h
    · intro c hc hbad st
      obtain ⟨_, _, idx, p, _, rfl⟩ := hmem c hc
      rw [payload_chunk_start] at hbad
      exact execute_write_chunk_bad hbad st
    · intro c hc hgood sent s
      obtain ⟨item, _, idx, p, hp, rfl⟩ := hmem c hc
      rw [payload_chunk_start, not_not] at hgood
      obtain ⟨cr, s', req, hcr⟩ := execute_write_chunk_good idx hexec hgood
        (item_pieces_legal item p hp) sent s
      exact ⟨cr, s', req, hcr, trivial⟩
    · intro crs _
      refine ⟨_, rfl, ?_⟩
      rw [foldl_apply_error_items, List.map_map]
      exact List.map_id _
  · obtain ⟨item, hitem, hbad⟩ : ∃ item ∈ items, Unplannable item := by
      by_contra hn
      exact hplan fun item hitem hb => hn ⟨item, hitem, hb⟩
    obtain ⟨e, he⟩ := plan_writes_error hitem hbad
    have hrun : plan_and_execute_writes items (logged execute) ([], s) = (.error e, ([], s)) := by
      unfold plan_and_execute_writes
      rw [if_neg (by simpa using List.ne_nil_of_mem hitem), he]
      rfl
    rw [hrun]
    exact ⟨fun _ => Or.inl ⟨item, hitem, hbad⟩, fun _ => rfl⟩

/-- A batch is rejected before anything is sent, or runs to its end, exactly when an item fails
the checks of the plan or its requests start all inside or all outside of the address space. -/
theorem a_batch_is_rejected_whole_iff {execute : Bytes → Py σ Bytes} (hexec : OnlyModbus execute)
    (reads : List ReadItem) (writes : List (WriteItem F)) (s : σ) :
    (RejectedWhole reads ReadResult.item
        (plan_and_execute_reads (F := F) reads (logged execute) ([], s)) ↔
      ReadsStandTogether reads) ∧
    (RejectedWhole writes WriteResult.item
        (plan_and_execute_writes writes (logged execute) ([], s)) ↔
      WritesStandTogether writes) :=
  ⟨reads_rejectedWhole_iff hexec reads s, writes_rejectedWhole_iff hexec writes s⟩

end Decoding

end

/-- A device that answers every request with exception 0x02. -/
def refusing_device (req : Bytes) : Py Unit Bytes := fun s =>
  (.ok [req.headD 0 ||| EXCEPTION_BIT, 0x02], s)

theorem onlyModbus_refusing_device : OnlyModbus refusing_device := by
  intro req s e s' h
  cases h

/-- One register that exists and one that does not. -/
def split_reads : List ReadItem := [.Holding { start := 0, count := 1 },
  .Holding { start := 70000, count := 1 }]

def split_writes : List (WriteItem Float) := [.WriteHolding 0 [.int 1] .uint16 .big .big,
  .WriteHolding 70000 [.int 1] .uint16 .big .big]

theorem a_batch_of_one_valid_item_is_rejected_whole :
    (RejectedWhole [ReadItem.Coil 3 5] ReadResult.item
        (plan_and_execute_reads (F := Float) [.Coil 3 5] (logged refusing_device) ([], ())) ↔
      ReadsStandTogether [.Coil 3 5]) ∧
    (RejectedWhole split_writes WriteResult.item
        (plan_and_execute_writes split_writes (logged refusing_device) ([], ())) ↔
      WritesStandTogether split_writes) :=
  a_batch_is_rejected_whole_iff onlyModbus_refusing_device [.Coil 3 5] split_writes ()

set_option maxRecDepth 8000 in
/-- The first request of each batch is on the wire when the second one raises. -/
theorem a_batch_raises_after_it_sent_a_request :
    OnlyModbus refusing_device ∧
      ¬ RejectedWhole split_reads ReadResult.item
        (plan_and_execute_reads (F := Float) split_reads (logged refusing_device) ([], ())) ∧
      ¬ RejectedWhole split_writes WriteResult.item
        (plan_and_execute_writes split_writes (logged refusing_device) ([], ())) := by
  have hreads : plan_and_execute_reads (F := Float) split_reads (logged refusing_device) ([], ()) =
      (.error (.ValueError "address out of range: 70000"), ([[0x03, 0, 0, 0, 1]], ())) := rfl
  have hwrites : plan_and_execute_writes split_writes (logged refusing_device) ([], ()) =
      (.error (.ValueError "address out of range: 70000"), ([[0x06, 0, 0, 0, 1]], ())) := rfl
  refine ⟨onlyModbus_refusing_device, ?_, ?_⟩
  · rw [hreads]
    exact List.cons_ne_nil _ _
  · rw [hwrites]
    exact List.cons_ne_nil _ _

end pymod.planner
