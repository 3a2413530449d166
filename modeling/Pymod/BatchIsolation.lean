-- Which item of a batch gets which error: an item fails with the first failure of its own
-- requests, and what comes of another item's requests does not change its result.
import Pymod.BatchErrors

namespace pymod.planner

open errors codec pdu types Ranges Slices

/-! ## Calls and what came of them -/

/-- What one call of the executor ended with. -/
abbrev Outcome := Except PyError Bytes

section Calls

variable {σ : Type}

/-- The executor with a list of its calls, each with its outcome. -/
def recorded (execute : Bytes → Py σ Bytes) (req : Bytes) : Py (List (Bytes × Outcome) × σ) Bytes :=
  fun (calls, s) =>
    let (r, s') := execute req s
    (r, (calls ++ [(req, r)], s'))

/-- The `ModbusError` that a step ended with. -/
def modbus_error {α : Type} : Except PyError α → Option ModbusError
  | .error (.modbus e) => some e
  | _ => none

theorem exchange_recorded {α : Type} (execute : Bytes → Py σ Bytes)
    (decode : Bytes → Except PyError α) (q : Bytes) (calls : List (Bytes × Outcome)) (s : σ) :
    exchange (.ok q) (recorded execute) decode (calls, s) =
      ((execute q s).1.bind decode, (calls ++ [(q, (execute q s).1)], (execute q s).2)) := by
  have hcall : recorded execute q (calls, s) =
      ((execute q s).1, (calls ++ [(q, (execute q s).1)], (execute q s).2)) := rfl
  exact exchange_run hcall

/-- Tasks of one call each: the outcomes of the calls, in list order, give the values. -/
theorem gather_recorded {ι α : Type} {execute : Bytes → Py σ Bytes}
    {task : ι → Py (List (Bytes × Outcome) × σ) α} {request : ι → Bytes} {value : ι → Outcome → α}
    {is : List ι}
    (htask : ∀ i ∈ is, ∀ calls s, task i (calls, s) =
      (.ok (value i (execute (request i) s).1),
        (calls ++ [(request i, (execute (request i) s).1)], (execute (request i) s).2)))
    (calls : List (Bytes × Outcome)) (s : σ) :
    ∃ outcomes s', List.Forall₂ (fun i o => ∃ s, o = (execute (request i) s).1) is outcomes ∧
      Py.gather (is.map task) (calls, s) =
        (.ok (List.zipWith value is outcomes), (calls ++ (is.map request).zip outcomes, s')) := by
  induction is generalizing calls s with
  | nil => exact ⟨[], s, .nil, by simp [Py.gather]⟩
  | cons i is ih =>
    have hi := htask i (by simp) calls s
    obtain ⟨outcomes, s', hall, hrest⟩ := ih (fun j hj => htask j (List.mem_cons_of_mem i hj))
      (calls ++ [(request i, (execute (request i) s).1)]) (execute (request i) s).2
    refine ⟨(execute (request i) s).1 :: outcomes, s', .cons ⟨s, rfl⟩ hall, ?_⟩
    simp only [List.map_cons, Py.gather, hi, hrest, List.zipWith_cons_cons, List.zip_cons_cons,
      List.append_assoc, List.singleton_append]
    rfl

end Calls

/-- Calls of the same requests that agree have outcomes that agree. -/
theorem outcomes_agree {requests : List Bytes} {outcomes outcomes' : List Outcome}
    (hlen : outcomes.length = requests.length) (hlen' : outcomes'.length = requests.length)
    {k : Nat} (h : (requests.zip outcomes)[k]? = (requests.zip outcomes')[k]?) :
    outcomes[k]? = outcomes'[k]? := by
  have hsnd := congrArg (Option.map Prod.snd) h
  rw [← List.getElem?_map, ← List.getElem?_map, List.map_snd_zip (by omega),
    List.map_snd_zip (by omega)] at hsnd
  exact hsnd

/-- Outcomes that agree on the chunks of an item give it the same calls. -/
theorem filter_zip_congr {κ : Type} {p : κ → Prop} [DecidablePred p] {chunks : List κ}
    {outcomes outcomes' : List Outcome} (hlen : outcomes.length = outcomes'.length)
    (hsame : ∀ (k : Nat) c, chunks[k]? = some c → p c → outcomes[k]? = outcomes'[k]?) :
    (chunks.zip outcomes).filter (fun q => p q.1) =
      (chunks.zip outcomes').filter fun q => p q.1 := by
  induction chunks generalizing outcomes outcomes' with
  | nil => rfl
  | cons c chunks ih =>
    cases outcomes with
    | nil =>
      obtain rfl := List.length_eq_zero_iff.mp hlen.symm
      rfl
    | cons o outcomes =>
      cases outcomes' with
      | nil => cases hlen
      | cons o' outcomes' =>
        have hrest := ih (Nat.succ.inj hlen) fun k d hk => hsame (k + 1) d hk
        rw [List.zip_cons_cons, List.zip_cons_cons, List.filter_cons, List.filter_cons, hrest]
        by_cases hown : p c
        · have ho := hsame 0 c rfl hown
          simp only [List.getElem?_cons_zero, Option.some.injEq] at ho
          rw [ho]
        · rw [if_neg (by simpa using hown), if_neg (by simpa using hown)]

theorem forall₂_getElem {α β : Type} {r : α → β → Prop} {l : List α} {m : List β}
    (h : List.Forall₂ r l m) {i : Nat} {a : α} {b : β} (ha : l[i]? = some a) (hb : m[i]? = some b) :
    r a b := by
  induction h generalizing i with
  | nil => cases ha
  | cons hr _ ih =>
    cases i with
    | zero =>
      cases ha
      cases hb
      exact hr
    | succ i => exact ih ha hb

theorem exists_of_forall₂ {α β : Type} {r : α → β → Prop} {l : List α} {m : List β}
    (h : List.Forall₂ r l m) {i : Nat} {a : α} (ha : l[i]? = some a) : ∃ b, m[i]? = some b := by
  have hlt := (List.getElem?_eq_some_iff.mp ha).1
  rw [h.length_eq] at hlt
  exact ⟨m[i], List.getElem?_eq_getElem hlt⟩

/-- Of the requests that belong to an item, the one that starts lowest among those that failed
ended with `e`. -/
def FailsFirst {κ : Type} (start : κ → Int) (failed : κ → Option ModbusError) (own : List κ)
    (e : ModbusError) : Prop :=
  ∃ c ∈ own, failed c = some e ∧ ∀ d ∈ own, failed d ≠ none → start c ≤ start d

/-- In the order of the starts, the first failure found is the lowest one. -/
theorem failsFirst_of_findSome {κ : Type} {start : κ → Int} {failed : κ → Option ModbusError}
    {own : List κ} (hsorted : own.Pairwise fun c d => start c ≤ start d) {e : ModbusError}
    (h : own.findSome? failed = some e) : FailsFirst start failed own e := by
  induction own with
  | nil => cases h
  | cons c own ih =>
    obtain ⟨hc, hrest⟩ := List.pairwise_cons.mp hsorted
    rw [List.findSome?_cons] at h
    cases hf : failed c with
    | some e' =>
      rw [hf] at h
      cases h
      refine ⟨c, by simp, hf, ?_⟩
      intro d hd _
      rcases List.mem_cons.mp hd with hd | hd
      · rw [hd]
      · exact hc d hd
    | none =>
      rw [hf] at h
      obtain ⟨d, hd, hfd, hleast⟩ := ih hrest h
      refine ⟨d, List.mem_cons_of_mem c hd, hfd, ?_⟩
      intro d' hd' hne
      rcases List.mem_cons.mp hd' with hd' | hd'
      · rw [hd'] at hne
        exact absurd hf hne
      · exact hleast d' hd' hne

/-! ## Reads -/

/-- The chunk reads a part of the item's range. -/
def Overlaps (item : ReadItem) (c : ReadChunk) : Prop :=
  c.area = item_area item ∧ c.start < item.start + item.count ∧ item.start < c.start + c.count

instance (item : ReadItem) (c : ReadChunk) : Decidable (Overlaps item c) :=
  inferInstanceAs (Decidable (_ ∧ _))

def chunk_request (c : ReadChunk) : Bytes := words (read_code c.area) c.start c.count

/-- What the client reads in the outcome of a chunk's request. -/
def chunk_cells (p : ReadChunk × Outcome) : Except PyError (List Cell) :=
  p.2.bind (read_cells p.1.area p.1.count)

/-- The request failed: the executor raised, or the response is an exception, or malformed. -/
def chunk_failure (p : ReadChunk × Outcome) : Option ModbusError :=
  modbus_error (chunk_cells p)

/-- The result of `_execute_read_chunk`. -/
def chunk_result (c : ReadChunk) (outcome : Outcome) : ReadChunkResult :=
  { chunk := c, values := (chunk_cells (c, outcome)).toOption, error := chunk_failure (c, outcome) }

theorem chunk_result_of_cells {c : ReadChunk} {outcome : Outcome}
    (hmodbus : ∀ e, chunk_cells (c, outcome) = .error e → IsModbus e) :
    Py.handled (fun values => { chunk := c, values := some values, error := none })
      (fun e => { chunk := c, values := none, error := some e }) (chunk_cells (c, outcome)) =
      .ok (chunk_result c outcome) := by
  unfold chunk_result chunk_failure
  cases hcells : chunk_cells (c, outcome) with
  | ok cells => rfl
  | error e =>
    obtain ⟨m, rfl⟩ := hmodbus e hcells
    rfl

theorem execute_read_chunk_recorded {σ : Type} {c : ReadChunk} {execute : Bytes → Py σ Bytes}
    (hexec : OnlyModbus execute) (hstart : IsRegister c.start) (h0 : 1 ≤ c.count)
    (h1 : c.count ≤ READ_LIMITS c.area) (calls : List (Bytes × Outcome)) (s : σ) :
    execute_read_chunk c (recorded execute) (calls, s) =
      (.ok (chunk_result c (execute (chunk_request c) s).1),
        (calls ++ [(chunk_request c, (execute (chunk_request c) s).1)],
          (execute (chunk_request c) s).2)) := by
  have hread : read_chunk c (recorded execute) (calls, s) =
      (chunk_cells (c, (execute (chunk_request c) s).1),
        (calls ++ [(chunk_request c, (execute (chunk_request c) s).1)],
          (execute (chunk_request c) s).2)) := by
    rw [read_chunk_eq, read_request_ok c.area hstart h0 h1]
    exact exchange_recorded execute (read_cells c.area c.count) (chunk_request c) calls s
  have hcount : 0 ≤ c.count := by omega
  have hmodbus : ∀ e, chunk_cells (c, (execute (chunk_request c) s).1) = .error e → IsModbus e :=
    fun e => isModbus_of_outcome hexec (fun _ _ => read_cells_modbus hcount) _ s
  rw [execute_read_chunk_run hread, chunk_result_of_cells hmodbus]

/-- The requests that read a part of the item's range. -/
def own_reads (item : ReadItem) (l : List (ReadChunk × Outcome)) : List (ReadChunk × Outcome) :=
  l.filter fun p => Overlaps item p.1

/-- The results that cover an item are those of its own requests, from the lowest start on. -/
theorem covering_chunks_eq (item : ReadItem) (chunks : List ReadChunk) (outcomes : List Outcome) :
    covering_chunks item (List.zipWith chunk_result chunks outcomes) =
      ((own_reads item (chunks.zip outcomes)).map fun p =>
        chunk_result p.1 p.2).insertionSort fun a b => a.chunk.start ≤ b.chunk.start := by
  have hzip : List.zipWith chunk_result chunks outcomes =
      (chunks.zip outcomes).map fun p => chunk_result p.1 p.2 :=
    (List.map_uncurry_zip_eq_zipWith ..).symm
  unfold covering_chunks
  simp only
  rw [hzip, List.filter_map]
  rfl

theorem own_reads_congr {item : ReadItem} {chunks : List ReadChunk}
    {outcomes outcomes' : List Outcome} (hlen : outcomes.length = outcomes'.length)
    (hsame : ∀ (k : Nat) c, chunks[k]? = some c → Overlaps item c → outcomes[k]? = outcomes'[k]?) :
    own_reads item (chunks.zip outcomes) = own_reads item (chunks.zip outcomes') :=
  filter_zip_congr hlen hsame

/-- The result of an item is made of what its own requests ended with. -/
theorem decode_read_item_congr {F : Type} [FloatOps F] {item : ReadItem}
    {chunks chunks' : List ReadChunk} {outcomes outcomes' : List Outcome}
    (h : own_reads item (chunks.zip outcomes) = own_reads item (chunks'.zip outcomes')) :
    decode_read_item (F := F) item (List.zipWith chunk_result chunks outcomes) =
      decode_read_item item (List.zipWith chunk_result chunks' outcomes') := by
  unfold decode_read_item
  rw [covering_chunks_eq, covering_chunks_eq, h]

/-- The failure of an item's own request that starts lowest is the item's. -/
theorem decode_read_item_failed {F : Type} [FloatOps F] {item : ReadItem}
    {chunks : List ReadChunk} {outcomes : List Outcome} {p : ReadChunk × Outcome}
    (hp : p ∈ own_reads item (chunks.zip outcomes)) (hfailed : chunk_failure p ≠ none) :
    ∃ e, FailsFirst (fun p : ReadChunk × Outcome => p.1.start) chunk_failure
        (own_reads item (chunks.zip outcomes)) e ∧
      decode_read_item (F := F) item (List.zipWith chunk_result chunks outcomes) =
        .ok { item, values := [], ok := false, error := some e } := by
  have hcover := covering_chunks_eq item chunks outcomes
  have hsorted := List.pairwise_insertionSort
    (fun a b : ReadChunkResult => a.chunk.start ≤ b.chunk.start)
    ((own_reads item (chunks.zip outcomes)).map fun p => chunk_result p.1 p.2)
  have hmem : ∀ cr, cr ∈ covering_chunks item (List.zipWith chunk_result chunks outcomes) ↔
      ∃ q ∈ own_reads item (chunks.zip outcomes), chunk_result q.1 q.2 = cr := by
    intro cr
    rw [hcover, List.mem_insertionSort, List.mem_map]
  rw [← hcover] at hsorted
  have hcr := (hmem _).mpr ⟨p, hp, rfl⟩
  cases hfind : (covering_chunks item (List.zipWith chunk_result chunks outcomes)).findSome?
      fun cr => cr.error with
  | none => exact absurd (List.findSome?_eq_none_iff.mp hfind _ hcr) hfailed
  | some e =>
    refine ⟨e, ?_, ?_⟩
    · obtain ⟨cr, hmemcr, herr, hleast⟩ := failsFirst_of_findSome hsorted hfind
      obtain ⟨q, hq, rfl⟩ := (hmem cr).mp hmemcr
      exact ⟨q, hq, herr, fun d hd hne => hleast _ ((hmem _).mpr ⟨d, hd, rfl⟩) hne⟩
    · unfold decode_read_item
      cases hcov : covering_chunks item (List.zipWith chunk_result chunks outcomes) with
      | nil =>
        rw [hcov] at hcr
        cases hcr
      | cons first others =>
        rw [hcov] at hfind
        simp only [hfind]
        rfl

/-! ## Reads that all succeed -/

/-- A list whose elements of each key stand in a relation. -/
theorem pairwise_of_filters {α κ : Type} [DecidableEq κ] {key : α → κ} {r : α → α → Prop}
    {l : List α} (h : ∀ k, (l.filter fun a => key a = k).Pairwise r) :
    l.Pairwise fun a b => key a = key b → r a b := by
  induction l with
  | nil => exact .nil
  | cons a l ih =>
    refine List.pairwise_cons.mpr ⟨?_, ih fun k => (h k).sublist ((List.sublist_cons_self a l).filter _)⟩
    intro b hb hkey
    have hk := h (key a)
    rw [List.filter_cons, if_pos (by simp)] at hk
    exact (List.pairwise_cons.mp hk).1 b (List.mem_filter.mpr ⟨hb, by simpa using hkey.symm⟩)

/-- Two chunks of one area have no register in common. -/
def Apart (c d : ReadChunk) : Prop :=
  c.area = d.area → c.start + c.count ≤ d.start ∨ d.start + d.count ≤ c.start

theorem plan_read_chunks_apart {items : List ReadItem} (hpos : ∀ item ∈ items, 0 < item.count) :
    (plan_read_chunks items).Pairwise Apart := by
  have hordered : ∀ area, ((plan_read_chunks items).filter fun c => c.area = area).Pairwise
      fun c d => c.start + c.count ≤ d.start := by
    intro area
    rw [filter_plan_read_chunks]
    exact List.pairwise_map.mp (area_chunks.spec area hpos).1.ordered
  exact (pairwise_of_filters hordered).imp fun h harea => Or.inl (h harea)

/-- A response that is read has as many cells as were asked for. -/
theorem length_read_cells {area : Area} {count : Int} {resp : Bytes} {cells : List Cell}
    (h : read_cells area count resp = .ok cells) : cells.length = count.toNat := by
  have hbits : ∀ fc, (decode_bit_response resp count fc).map (fun l => l.map Cell.bool) = .ok cells →
      cells.length = count.toNat := by
    intro fc h
    cases hdec : decode_bit_response resp count fc with
    | error e => rw [hdec] at h; cases h
    | ok values =>
      rw [hdec] at h
      cases h
      obtain ⟨_, _, hdec⟩ := bind_eq_ok hdec
      obtain ⟨_, _, hdec⟩ := bind_eq_ok hdec
      cases hdec
      rw [List.length_map, BitStrings.length_unpack]
  have hregs : ∀ fc, (decode_register_response resp count fc).map (fun l => l.map Cell.int) =
      .ok cells → cells.length = count.toNat := by
    intro fc h
    cases hdec : decode_register_response resp count fc with
    | error e => rw [hdec] at h; cases h
    | ok values =>
      rw [hdec] at h
      cases h
      obtain ⟨_, _, hdec⟩ := bind_eq_ok hdec
      obtain ⟨_, _, hdec⟩ := bind_eq_ok hdec
      rw [List.length_map, length_unpack_H hdec]
  cases area with
  | COIL => exact hbits _ h
  | DISCRETE_INPUT => exact hbits _ h
  | HOLDING_REGISTER => exact hregs _ h
  | INPUT_REGISTER => exact hregs _ h

/-- The cell at an address, as the outcomes of a batch's requests give it. -/
def read_cell (l : List (ReadChunk × Outcome)) (area : Area) (x : Int) : Cell :=
  match l.find? fun p => p.1.area = area ∧ p.1.start ≤ x ∧ x < p.1.start + p.1.count with
  | some p => ((chunk_cells p).toOption.getD []).getD (x - p.1.start).toNat (.int 0)
  | none => .int 0

theorem slice_read_cell {l : List (ReadChunk × Outcome)}
    (hapart : l.Pairwise fun p q => Apart p.1 q.1) {p : ReadChunk × Outcome} (hp : p ∈ l)
    {cells : List Cell} (hcells : chunk_cells p = .ok cells) :
    slice (read_cell l p.1.area) p.1.start p.1.count.toNat = cells := by
  have hlen : cells.length = p.1.count.toNat := by
    obtain ⟨resp, -, hresp⟩ := bind_eq_ok hcells
    exact length_read_cells hresp
  have hsymm : Std.Symm fun p q : ReadChunk × Outcome => Apart p.1 q.1 :=
    ⟨fun p q h harea => (h harea.symm).symm⟩
  have hcell : ∀ j < p.1.count.toNat,
      read_cell l p.1.area (p.1.start + j) = cells.getD j (.int 0) := by
    intro j hj
    have hholds : p.1.area = p.1.area ∧ p.1.start ≤ p.1.start + j ∧
        p.1.start + j < p.1.start + p.1.count := ⟨rfl, by omega, by omega⟩
    unfold read_cell
    cases hfind : l.find? fun q => q.1.area = p.1.area ∧ q.1.start ≤ p.1.start + j ∧
        p.1.start + j < q.1.start + q.1.count with
    | none =>
      have := List.find?_eq_none.mp hfind p hp
      simp only [decide_eq_true_eq] at this
      exact absurd ⟨trivial, hholds.2⟩ this
    | some q =>
      have hq := List.find?_some hfind
      simp only [decide_eq_true_eq] at hq
      -- Only the chunk itself has the address.
      have hsame : q = p := by
        by_contra hne
        rcases hapart.forall (List.mem_of_find?_eq_some hfind) hp hne hq.1 with h | h <;> omega
      have hj' : (p.1.start + (j : Int) - p.1.start).toNat = j := by omega
      subst hsame
      simp only [hcells, Except.toOption, Option.getD_some, hj']
  apply List.ext_getElem
  · rw [length_slice, hlen]
  · intro j h1 h2
    rw [length_slice] at h1
    have hj := hcell j h1
    simp only [slice, List.getElem_map, List.getElem_range]
    rw [hj, List.getD_eq_getElem _ _ h2]

/-- An item whose own requests all succeed is decoded from the cells that they read. -/
theorem decode_read_item_read {F : Type} [FloatOps F] {items : List ReadItem}
    (hpos : ∀ item ∈ items, 0 < item.count) {item : ReadItem} (hitem : item ∈ items)
    {outcomes : List Outcome} (hlen : outcomes.length = (plan_read_chunks items).length)
    (hok : ∀ p ∈ own_reads item ((plan_read_chunks items).zip outcomes),
      ∃ cells, chunk_cells p = .ok cells) :
    ∃ cell : Int → Cell,
      (∀ p ∈ own_reads item ((plan_read_chunks items).zip outcomes),
        chunk_cells p = .ok (slice cell p.1.start p.1.count.toNat)) ∧
      decode_read_item (F := F) item (List.zipWith chunk_result (plan_read_chunks items) outcomes) =
        decode_cells item (slice cell item.start item.count.toNat) := by
  let l := (plan_read_chunks items).zip outcomes
  have hfst : l.map Prod.fst = plan_read_chunks items := List.map_fst_zip (by omega)
  have hapart : l.Pairwise fun p q => Apart p.1 q.1 := by
    rw [← List.pairwise_map (f := Prod.fst) (R := Apart), hfst]
    exact plan_read_chunks_apart hpos
  have hcell : ∀ p ∈ own_reads item l,
      chunk_cells p = .ok (slice (read_cell l p.1.area) p.1.start p.1.count.toNat) := by
    intro p hp
    obtain ⟨cells, hcells⟩ := hok p hp
    rw [slice_read_cell hapart (List.mem_filter.mp hp).1 hcells, hcells]
  refine ⟨read_cell l (item_area item), ?_, ?_⟩
  · intro p hp
    have harea : Overlaps item p.1 := by simpa using (List.mem_filter.mp hp).2
    rw [← harea.1]
    exact hcell p hp
  · rw [← decode_read_item_slice_result (read_cell l) hpos hitem]
    have hcover : covering_chunks item ((plan_read_chunks items).map (slice_result (read_cell l))) =
        covering_chunks item (List.zipWith chunk_result (plan_read_chunks items) outcomes) := by
      have hsame : (own_reads item l).map (fun p => slice_result (read_cell l) p.1) =
          (own_reads item l).map fun p => chunk_result p.1 p.2 := by
        apply List.map_congr_left
        intro p hp
        simp only [chunk_result, chunk_failure, hcell p hp, slice_result, modbus_error,
          Except.toOption]
      rw [covering_chunks_eq]
      change _ = ((own_reads item l).map fun p => chunk_result p.1 p.2).insertionSort _
      rw [← hsame, ← hfst]
      unfold covering_chunks
      simp only
      rw [List.map_map, List.filter_map]
      rfl
    unfold decode_read_item
    rw [hcover]

/-! ## A batch of reads -/

/-- The range lies inside of the address space. -/
def InAddressSpace (r : Range) : Prop := 0 ≤ r.1 ∧ r.2 ≤ 0x10000

/-- What an item of a batch comes to by its own requests: the error of the lowest one that
failed, or what the item makes of the cells that they read. -/
structure ReadOutcome {F : Type} [FloatOps F] (item : ReadItem) (own : List (ReadChunk × Outcome))
    (r : ReadResult F) : Prop where
  failed : (∃ p ∈ own, chunk_failure p ≠ none) →
    ∃ e, FailsFirst (fun p : ReadChunk × Outcome => p.1.start) chunk_failure own e ∧
      r = { item, values := [], ok := false, error := some e }
  read : (∀ p ∈ own, chunk_failure p = none) → ∃ cell : Int → Cell,
    (∀ p ∈ own, chunk_cells p = .ok (slice cell p.1.start p.1.count.toNat)) ∧
      decode_cells item (slice cell item.start item.count.toNat) = .ok r

section

variable {F : Type} [FloatOps F] {σ : Type}

/-- When the calls end with values and `ModbusError`, every chunk has values or an error. -/
theorem settled_of_isModbus {chunks : List ReadChunk} {outcomes : List Outcome}
    (hmodbus : ∀ p ∈ chunks.zip outcomes, ∀ e, chunk_cells p = .error e → IsModbus e) :
    ∀ cr ∈ List.zipWith chunk_result chunks outcomes, cr.values = none → cr.error ≠ none := by
  intro cr hcr
  rw [← List.map_uncurry_zip_eq_zipWith, List.mem_map] at hcr
  obtain ⟨p, hp, rfl⟩ := hcr
  intro hnone
  simp only [Function.uncurry, chunk_result, chunk_failure] at hnone ⊢
  cases hcells : chunk_cells (p.1, p.2) with
  | ok cells =>
    rw [hcells] at hnone
    cases hnone
  | error e =>
    obtain ⟨m, rfl⟩ := hmodbus p hp e hcells
    exact Option.some_ne_none m

/-- A batch of reads calls the executor once for each chunk, and makes the results of what the
calls ended with. -/
theorem plan_and_execute_reads_recorded {items : List ReadItem} {execute : Bytes → Py σ Bytes}
    (hvalid : ∀ item ∈ items, validate_read_item item = .ok ())
    (hrange : ∀ item ∈ items, InAddressSpace (item_range item)) (hexec : OnlyModbus execute)
    (s : σ) : ∃ (results : List (ReadResult F)) (outcomes : List Outcome) (s' : σ),
      plan_and_execute_reads items (recorded execute) ([], s) =
        (.ok results, (((plan_read_chunks items).map chunk_request).zip outcomes, s')) ∧
      outcomes.length = (plan_read_chunks items).length ∧
      (∀ p ∈ (plan_read_chunks items).zip outcomes, ∀ e, chunk_cells p = .error e → IsModbus e) ∧
      List.Forall₂ (fun item r =>
        decode_read_item item (List.zipWith chunk_result (plan_read_chunks items) outcomes) = .ok r ∧
          item = r.item) items results := by
  have hpos : ∀ item ∈ items, 0 < item.count := fun item hitem =>
    validate_read_item_count (hvalid item hitem)
  have htask : ∀ c ∈ plan_read_chunks items, ∀ calls s,
      execute_read_chunk c (recorded execute) (calls, s) =
        (.ok (chunk_result c (execute (chunk_request c) s).1),
          (calls ++ [(chunk_request c, (execute (chunk_request c) s).1)],
            (execute (chunk_request c) s).2)) := by
    intro c hc calls s
    obtain ⟨_, h0, h1, hrequested⟩ := plan_read_chunks.spec hpos hc
    obtain ⟨item, hitem, _, hlow, hhigh⟩ := hrequested c.start (Int.le_refl _) (by omega)
    obtain ⟨hzero, htop⟩ := hrange item hitem
    simp only [item_range] at hzero htop
    exact execute_read_chunk_recorded hexec ⟨by omega, by omega⟩ h0 h1 calls s
  obtain ⟨outcomes, s', hall, hgather⟩ := gather_recorded htask [] s
  obtain ⟨hlen, hzip⟩ := List.forall₂_iff_zip.mp hall
  have hmodbus : ∀ p ∈ (plan_read_chunks items).zip outcomes, ∀ e, chunk_cells p = .error e →
      IsModbus e := by
    intro p hp e he
    obtain ⟨s, hs⟩ := hzip hp
    obtain ⟨_, h0, _⟩ := plan_read_chunks.spec hpos (List.of_mem_zip hp).1
    have hcount : 0 ≤ p.1.count := by omega
    unfold chunk_cells at he
    rw [hs] at he
    exact isModbus_of_outcome hexec (fun _ _ => read_cells_modbus hcount) _ s he
  have hsettled := settled_of_isModbus hmodbus
  obtain ⟨results, hresults, hitems⟩ := mapM_forall₂
    (f := fun item => decode_read_item (F := F) item
      (List.zipWith chunk_result (plan_read_chunks items) outcomes))
    (r := fun item r => decode_read_item item
      (List.zipWith chunk_result (plan_read_chunks items) outcomes) = .ok r ∧ item = r.item)
    (l := items) fun item hitem => by
      obtain ⟨r, hr, hsame⟩ := decode_read_item_settled (F := F) (hvalid item hitem) hsettled
      exact ⟨r, hr, hr, hsame⟩
  refine ⟨results, outcomes, s', ?_, hlen.symm, hmodbus, hitems⟩
  rw [List.nil_append] at hgather
  cases items with
  | nil =>
    cases hitems
    cases hgather
    rfl
  | cons first others =>
    unfold plan_and_execute_reads
    rw [if_neg (by simp), forM_ok hvalid]
    simp only [bind, Py.lift_run, hgather, hresults]

theorem readOutcome_of_decoded {items : List ReadItem} (hpos : ∀ item ∈ items, 0 < item.count)
    {item : ReadItem} (hitem : item ∈ items) {outcomes : List Outcome}
    (hlen : outcomes.length = (plan_read_chunks items).length)
    (hmodbus : ∀ p ∈ (plan_read_chunks items).zip outcomes, ∀ e, chunk_cells p = .error e →
      IsModbus e) {r : ReadResult F}
    (hr : decode_read_item item (List.zipWith chunk_result (plan_read_chunks items) outcomes) =
      .ok r) : ReadOutcome item (own_reads item ((plan_read_chunks items).zip outcomes)) r := by
  constructor
  · intro ⟨p, hp, hfailed⟩
    obtain ⟨e, hfirst, hdecode⟩ := decode_read_item_failed (F := F) hp hfailed
    rw [hdecode] at hr
    cases hr
    exact ⟨e, hfirst, rfl⟩
  · intro hnone
    have hok : ∀ p ∈ own_reads item ((plan_read_chunks items).zip outcomes),
        ∃ cells, chunk_cells p = .ok cells := by
      intro p hp
      cases hcells : chunk_cells p with
      | ok cells => exact ⟨cells, rfl⟩
      | error e =>
        obtain ⟨m, rfl⟩ := hmodbus p (List.mem_filter.mp hp).1 e hcells
        have := hnone p hp
        rw [chunk_failure, hcells] at this
        cases this
    obtain ⟨cell, hcell, hdecode⟩ := decode_read_item_read (F := F) hpos hitem hlen hok
    exact ⟨cell, hcell, hdecode ▸ hr⟩

end

/-! ## Writes -/

/-- What the chunk carries. -/
def WriteChunk.payload (c : WriteChunk) : Payload :=
  match c.register_values with
  | some values => .registers values
  | none => .coils (c.coil_values.getD [])

@[simp] theorem payload_chunk_payload (idx : Nat) (start : Int) (payload : Payload) :
    (payload_chunk idx start payload).payload = payload := by
  cases payload <;> rfl

def write_chunk_request (c : WriteChunk) : Bytes := payload_request c.start c.payload

/-- The request failed: the executor raised, or the response is an exception, or no echo. -/
def write_chunk_failure (p : WriteChunk × Outcome) : Option ModbusError :=
  modbus_error (p.2.bind (payload_response p.1.payload))

/-- The result of `_execute_write_chunk`. -/
def write_chunk_result (c : WriteChunk) (outcome : Outcome) : WriteChunkResult :=
  { chunk := c, error := write_chunk_failure (c, outcome) }

theorem write_result_of_response {idx : Nat} {start : Int} {payload : Payload} {outcome : Outcome}
    (hmodbus : ∀ e, outcome.bind (payload_response payload) = .error e → IsModbus e) :
    Py.handled (fun _ => { chunk := payload_chunk idx start payload, error := none })
      (fun e => { chunk := payload_chunk idx start payload, error := some e })
      (outcome.bind (payload_response payload)) =
      .ok (write_chunk_result (payload_chunk idx start payload) outcome) := by
  unfold write_chunk_result write_chunk_failure
  rw [payload_chunk_payload]
  cases hend : outcome.bind (payload_response payload) with
  | ok u => rfl
  | error e =>
    obtain ⟨m, rfl⟩ := hmodbus e hend
    rfl

theorem execute_write_chunk_recorded {σ : Type} (idx : Nat) {start : Int} {payload : Payload}
    {execute : Bytes → Py σ Bytes} (hstart : IsRegister start) (hlegal : payload.Legal)
    (calls : List (Bytes × Outcome)) (s : σ)
    (hmodbus : ∀ e, (execute (payload_request start payload) s).1.bind (payload_response payload) =
      .error e → IsModbus e) :
    execute_write_chunk (payload_chunk idx start payload) (recorded execute) (calls, s) =
      (.ok (write_chunk_result (payload_chunk idx start payload)
          (execute (payload_request start payload) s).1),
        (calls ++ [(payload_request start payload, (execute (payload_request start payload) s).1)],
          (execute (payload_request start payload) s).2)) := by
  have hwrite := exchange_recorded execute (payload_response payload)
    (payload_request start payload) calls s
  rw [← write_chunk_payload idx hlegal hstart] at hwrite
  rw [execute_write_chunk_run hwrite, write_result_of_response (by simpa using hmodbus)]

/-- The requests of one item. -/
def own_writes (idx : Nat) (l : List (WriteChunk × Outcome)) : List (WriteChunk × Outcome) :=
  l.filter fun p => p.1.item_idx = idx

theorem own_writes_congr {i : Nat} {chunks : List WriteChunk} {outcomes outcomes' : List Outcome}
    (hlen : outcomes.length = outcomes'.length)
    (hsame : ∀ (k : Nat) c, chunks[k]? = some c → c.item_idx = i → outcomes[k]? = outcomes'[k]?) :
    own_writes i (chunks.zip outcomes) = own_writes i (chunks.zip outcomes') :=
  filter_zip_congr (p := fun c : WriteChunk => c.item_idx = i) hlen hsame

/-- Of the errors of an item the first one stays. -/
theorem foldl_apply_error_at {F : Type} (crs : List WriteChunkResult)
    (results : List (WriteResult F)) {i : Nat} {r : WriteResult F} (hr : results[i]? = some r)
    (hok : r.ok = true) :
    (crs.foldl apply_error results)[i]? =
      match (crs.filter fun cr => cr.chunk.item_idx = i).findSome? fun cr => cr.error with
      | some e => some { item := r.item, ok := false, error := some e }
      | none => some r := by
  have hfailed : ∀ (crs : List WriteChunkResult) (results : List (WriteResult F)) (r : WriteResult F),
      results[i]? = some r → r.ok = false → (crs.foldl apply_error results)[i]? = some r := by
    intro crs
    induction crs with
    | nil => exact fun _ _ h _ => h
    | cons cr crs ih =>
      intro results r hr hok
      refine ih _ r ?_ hok
      unfold apply_error
      cases cr.error with
      | none => exact hr
      | some e =>
        by_cases hi : cr.chunk.item_idx = i <;> simp [hr, hi, hok]
  induction crs generalizing results r with
  | nil => exact hr
  | cons cr crs ih =>
    rw [List.foldl_cons, List.filter_cons]
    cases herr : cr.error with
    | none =>
      have hsame : apply_error results cr = results := by simp only [apply_error, herr]
      rw [hsame, ih results hr hok]
      by_cases hi : cr.chunk.item_idx = i
      · rw [if_pos (by simpa using hi), List.findSome?_cons, herr]
      · rw [if_neg (by simpa using hi)]
    | some e =>
      by_cases hi : cr.chunk.item_idx = i
      · have hnow : (apply_error results cr)[i]? =
            some { item := r.item, ok := false, error := some e } := by
          simp [apply_error, herr, hr, hi, hok]
        rw [hfailed crs _ _ hnow rfl, if_pos (by simpa using hi), List.findSome?_cons, herr]
      · have hsame : (apply_error results cr)[i]? = some r := by
          simp [apply_error, herr, hr, hi]
        rw [ih _ hsame hok, if_neg (by simpa using hi)]

/-- What an item of a write batch comes to by its own requests. -/
structure WriteOutcome {F : Type} (item : WriteItem F) (own : List (WriteChunk × Outcome))
    (r : WriteResult F) : Prop where
  failed : (∃ p ∈ own, write_chunk_failure p ≠ none) →
    ∃ e, FailsFirst (fun p : WriteChunk × Outcome => p.1.start) write_chunk_failure own e ∧
      r = { item, ok := false, error := some e }
  written : (∀ p ∈ own, write_chunk_failure p = none) → r = { item, ok := true, error := none }

/-- Pieces with consecutive addresses lie inside of the whole, one behind the other. -/
theorem consecutive_starts {α : Type} {a : Int} {l : List (Int × List α)} (h : Consecutive a l) :
    (∀ p ∈ l, a ≤ p.1 ∧ p.1 + p.2.length ≤ a + (l.map Prod.snd).flatten.length) ∧
      l.Pairwise fun p q => p.1 + (p.2.length : Int) ≤ q.1 := by
  induction l generalizing a with
  | nil => exact ⟨by simp, .nil⟩
  | cons p l ih =>
    obtain ⟨hp, hrest⟩ := h
    obtain ⟨hinside, hsorted⟩ := ih hrest
    rw [List.map_cons, List.flatten_cons, List.length_append]
    refine ⟨?_, List.pairwise_cons.mpr ⟨?_, hsorted⟩⟩
    · intro q hq
      rcases List.mem_cons.mp hq with hq | hq
      · rw [hq, hp]
        omega
      · have := hinside q hq
        omega
    · intro q hq
      have := hinside q hq
      omega

section

variable {F : Type} [FloatOps F]

/-- The addresses that an item writes. -/
def write_range (item : WriteItem F) : Range :=
  match item with
  | .WriteHolding start values dtype _ _ =>
    (start, start + (values.length * regs_per_item dtype : Nat))
  | .WriteCoils start values => (start, start + values.length)

def Payload.length : Payload → Nat
  | .registers values => values.length
  | .coils values => values.length

/-- The pieces of a payload lie inside of its stretch, one behind the other. -/
theorem pieces_inside (start : Int) (payload : Payload) :
    (∀ p ∈ pieces start payload, start ≤ p.1 ∧ p.1 + p.2.length ≤ start + payload.length) ∧
      (pieces start payload).Pairwise fun p q => p.1 + (p.2.length : Int) ≤ q.1 := by
  cases payload with
  | registers values =>
    obtain ⟨hcons, hflat, -⟩ :=
      split_values.spec (by omega : 0 < 123) values values.length 0 start (by omega)
    obtain ⟨hinside, hsorted⟩ := consecutive_starts hcons
    rw [hflat, List.drop_zero] at hinside
    exact ⟨List.forall_mem_map.mpr hinside, List.pairwise_map.mpr hsorted⟩
  | coils values =>
    obtain ⟨hcons, hflat, -⟩ :=
      split_values.spec (by omega : 0 < 1968) values values.length 0 start (by omega)
    obtain ⟨hinside, hsorted⟩ := consecutive_starts hcons
    rw [hflat, List.drop_zero] at hinside
    exact ⟨List.forall_mem_map.mpr hinside, List.pairwise_map.mpr hsorted⟩

/-- The pieces of an item lie inside of its range, one behind the other. -/
theorem item_pieces_inside (item : WriteItem F) :
    (∀ p ∈ item_pieces item,
      (write_range item).1 ≤ p.1 ∧ p.1 + p.2.length ≤ (write_range item).2) ∧
      (item_pieces item).Pairwise fun p q => p.1 + (p.2.length : Int) ≤ q.1 := by
  unfold item_pieces
  cases hp : item_payload item with
  | error e => exact ⟨by simp, .nil⟩
  | ok payload =>
    obtain ⟨hinside, hsorted⟩ := pieces_inside (item_start item) payload
    refine ⟨?_, hsorted⟩
    have hrange : write_range item = (item_start item, item_start item + payload.length) := by
      cases item with
      | WriteHolding start values dtype word_order byte_order =>
        simp only [item_payload] at hp
        cases he : encode_registers values dtype word_order byte_order with
        | error e => rw [he] at hp; cases hp
        | ok regs =>
          rw [he] at hp
          cases hp
          rw [write_range, ← (encode_registers_legal he).1]
          rfl
      | WriteCoils start values =>
        cases hp
        rfl
    rw [hrange]
    exact hinside

theorem isRegister_of_write_range {item : WriteItem F} (hplan : ¬ Unplannable item)
    (hrange : InAddressSpace (write_range item)) : ∀ p ∈ item_pieces item, IsRegister p.1 := by
  intro p hp
  have hstart := (item_pieces_starts hplan p.1).mp ⟨p, hp, rfl⟩
  obtain ⟨h0, h1⟩ := hrange
  cases item with
  | WriteHolding start values dtype word_order byte_order =>
    obtain ⟨k, hk, hx⟩ := hstart
    simp only [write_range] at h0 h1
    exact ⟨by omega, by omega⟩
  | WriteCoils start values =>
    obtain ⟨k, hk, hx⟩ := hstart
    simp only [write_range] at h0 h1
    exact ⟨by omega, by omega⟩

/-- Chunks of items inside of the address space start inside of it. -/
theorem plan_writes_starts {items : List (WriteItem F)} {chunks : List WriteChunk}
    (hplan : plan_writes items = .ok chunks)
    (hrange : ∀ item ∈ items, InAddressSpace (write_range item)) :
    ∀ c ∈ chunks, IsRegister c.start := by
  obtain ⟨hplannable, rfl⟩ := plan_writes_eq hplan
  intro c hc
  obtain ⟨⟨item, idx⟩, hq, hc⟩ := List.mem_flatMap.mp hc
  obtain ⟨p, hp, rfl⟩ := List.mem_map.mp hc
  have hitem := List.fst_mem_of_mem_zipIdx hq
  rw [payload_chunk_start]
  exact isRegister_of_write_range (hplannable item hitem) (hrange item hitem) p hp

theorem plan_writes_sorted {items : List (WriteItem F)} {chunks : List WriteChunk}
    (hplan : plan_writes items = .ok chunks) :
    chunks.Pairwise fun c d => c.item_idx = d.item_idx → c.start ≤ d.start := by
  obtain ⟨-, rfl⟩ := plan_writes_eq hplan
  refine List.pairwise_flatMap.mpr ⟨?_, ?_⟩
  · intro q _
    refine List.pairwise_map.mpr ((item_pieces_inside q.1).2.imp fun h _ => ?_)
    rw [payload_chunk_start, payload_chunk_start]
    omega
  · have hdistinct : (items.zipIdx.map Prod.snd).Pairwise (· ≠ ·) := by
      rw [List.zipIdx_map_snd]
      exact List.nodup_range'
    refine (List.pairwise_map.mp hdistinct).imp fun hne => ?_
    intro c hc d hd hidx
    obtain ⟨p, _, rfl⟩ := List.mem_map.mp hc
    obtain ⟨p', _, rfl⟩ := List.mem_map.mp hd
    rw [payload_chunk_item_idx, payload_chunk_item_idx] at hidx
    exact absurd hidx hne

variable {σ : Type}

/-- A batch of writes calls the executor once for each chunk, and makes the results of what the
calls ended with. -/
theorem plan_and_execute_writes_recorded {items : List (WriteItem F)} {chunks : List WriteChunk}
    {execute : Bytes → Py σ Bytes} (hplan : plan_writes items = .ok chunks)
    (hstart : ∀ c ∈ chunks, IsRegister c.start)
    (hmodbus : ∀ c ∈ chunks, ∀ s e,
      (execute (write_chunk_request c) s).1.bind (payload_response c.payload) = .error e →
        IsModbus e) (s : σ) : ∃ (outcomes : List Outcome) (s' : σ),
      List.Forall₂ (fun c o => ∃ s, o = (execute (write_chunk_request c) s).1) chunks outcomes ∧
      plan_and_execute_writes items (recorded execute) ([], s) =
        (.ok ((List.zipWith write_chunk_result chunks outcomes).foldl apply_error
          (items.map fun item => { item, ok := true, error := none })),
          ((chunks.map write_chunk_request).zip outcomes, s')) := by
  obtain ⟨-, hchunks⟩ := plan_writes_eq hplan
  have htask : ∀ c ∈ chunks, ∀ calls s, execute_write_chunk c (recorded execute) (calls, s) =
      (.ok (write_chunk_result c (execute (write_chunk_request c) s).1),
        (calls ++ [(write_chunk_request c, (execute (write_chunk_request c) s).1)],
          (execute (write_chunk_request c) s).2)) := by
    intro c hc calls s
    have hend := hmodbus c hc s
    have hreg := hstart c hc
    rw [hchunks] at hc
    obtain ⟨⟨item, idx⟩, -, hc⟩ := List.mem_flatMap.mp hc
    obtain ⟨p, hp, rfl⟩ := List.mem_map.mp hc
    rw [write_chunk_request, payload_chunk_start, payload_chunk_payload] at hend ⊢
    rw [payload_chunk_start] at hreg
    exact execute_write_chunk_recorded idx hreg (item_pieces_legal item p hp) calls s hend
  obtain ⟨outcomes, s', hall, hgather⟩ := gather_recorded htask [] s
  refine ⟨outcomes, s', hall, ?_⟩
  rw [List.nil_append] at hgather
  cases items with
  | nil =>
    subst hchunks
    cases hall
    cases hgather
    rfl
  | cons first others =>
    unfold plan_and_execute_writes
    rw [if_neg (by simp), hplan]
    simp only [bind, Py.lift_run, hgather]
    rfl

omit [FloatOps F] in
/-- The result of one item of the batch, by what its own requests ended with. -/
theorem written_item (items : List (WriteItem F)) (chunks : List WriteChunk)
    (outcomes : List Outcome) {i : Nat} {item : WriteItem F} (hitem : items[i]? = some item) :
    ((List.zipWith write_chunk_result chunks outcomes).foldl apply_error
        (items.map fun item => { item, ok := true, error := none }))[i]? =
      match (own_writes i (chunks.zip outcomes)).findSome? write_chunk_failure with
      | some e => some { item, ok := false, error := some e }
      | none => some { item, ok := true, error := none } := by
  have hzip : List.zipWith write_chunk_result chunks outcomes =
      (chunks.zip outcomes).map fun p => write_chunk_result p.1 p.2 :=
    (List.map_uncurry_zip_eq_zipWith ..).symm
  have hinit : (items.map fun item => ({ item, ok := true, error := none } : WriteResult F))[i]? =
      some { item, ok := true, error := none } := by
    rw [List.getElem?_map, hitem]
    rfl
  rw [foldl_apply_error_at _ _ hinit rfl, hzip, List.filter_map, List.findSome?_map]
  rfl

theorem writeOutcome_of_written {items : List (WriteItem F)} {chunks : List WriteChunk}
    (hplan : plan_writes items = .ok chunks) {outcomes : List Outcome}
    (hlen : outcomes.length = chunks.length) {i : Nat} {item : WriteItem F}
    (hitem : items[i]? = some item) {r : WriteResult F}
    (hr : ((List.zipWith write_chunk_result chunks outcomes).foldl apply_error
      (items.map fun item => { item, ok := true, error := none }))[i]? = some r) :
    WriteOutcome item (own_writes i (chunks.zip outcomes)) r := by
  rw [written_item items chunks outcomes hitem] at hr
  have hsorted : (own_writes i (chunks.zip outcomes)).Pairwise fun p q => p.1.start ≤ q.1.start := by
    have hzip : (chunks.zip outcomes).Pairwise fun p q =>
        p.1.item_idx = q.1.item_idx → p.1.start ≤ q.1.start := by
      rw [← List.pairwise_map (f := Prod.fst)
        (R := fun c d : WriteChunk => c.item_idx = d.item_idx → c.start ≤ d.start),
        List.map_fst_zip (by omega)]
      exact plan_writes_sorted hplan
    refine (hzip.filter _).imp_of_mem ?_
    intro p q hp hq h
    have hp' := (List.mem_filter.mp hp).2
    have hq' := (List.mem_filter.mp hq).2
    simp only [decide_eq_true_eq] at hp' hq'
    exact h (hp'.trans hq'.symm)
  cases hfind : (own_writes i (chunks.zip outcomes)).findSome? write_chunk_failure with
  | some e =>
    rw [hfind] at hr
    have hfirst := failsFirst_of_findSome hsorted hfind
    refine ⟨fun _ => ⟨e, hfirst, (Option.some.inj hr).symm⟩, ?_⟩
    intro hnone
    obtain ⟨p, hp, hfailed, _⟩ := hfirst
    rw [hnone p hp] at hfailed
    cases hfailed
  | none =>
    rw [hfind] at hr
    refine ⟨?_, fun _ => (Option.some.inj hr).symm⟩
    intro ⟨p, hp, hfailed⟩
    exact absurd (List.findSome?_eq_none_iff.mp hfind p hp) hfailed

/-! ## Isolation -/

variable {σ' : Type}

/-- The batch returns one result for each item, after one call for each chunk of the plan, and
every item comes to what its own calls ended with. -/
def ReadsIsolated (F : Type) [FloatOps F] (items : List ReadItem) (execute : Bytes → Py σ Bytes)
    (s : σ) : Prop :=
  ∃ (results : List (ReadResult F)) (calls : List (Bytes × Outcome)) (t : σ),
    plan_and_execute_reads items (recorded execute) ([], s) = (.ok results, (calls, t)) ∧
    results.map ReadResult.item = items ∧
    calls.map Prod.fst = (plan_read_chunks items).map chunk_request ∧
    ∀ (i : Nat) item r, items[i]? = some item → results[i]? = some r →
      ReadOutcome item (own_reads item ((plan_read_chunks items).zip (calls.map Prod.snd))) r

/-- Two runs of the batch give an item the same result when its own calls ended the same way. -/
def ReadsAgree (F : Type) [FloatOps F] (items : List ReadItem) (execute : Bytes → Py σ Bytes)
    (execute' : Bytes → Py σ' Bytes) (s : σ) (s' : σ') : Prop :=
  ∀ (results results' : List (ReadResult F)) calls calls' t t',
    plan_and_execute_reads items (recorded execute) ([], s) = (.ok results, (calls, t)) →
    plan_and_execute_reads items (recorded execute') ([], s') = (.ok results', (calls', t')) →
    ∀ (i : Nat) item, items[i]? = some item →
      (∀ (k : Nat) c, (plan_read_chunks items)[k]? = some c → Overlaps item c →
        calls[k]? = calls'[k]?) →
      results[i]? = results'[i]?

def WritesIsolated (items : List (WriteItem F)) (chunks : List WriteChunk)
    (execute : Bytes → Py σ Bytes) (s : σ) : Prop :=
  ∃ (results : List (WriteResult F)) (calls : List (Bytes × Outcome)) (t : σ),
    plan_and_execute_writes items (recorded execute) ([], s) = (.ok results, (calls, t)) ∧
    results.map WriteResult.item = items ∧
    calls.map Prod.fst = chunks.map write_chunk_request ∧
    ∀ (i : Nat) item r, items[i]? = some item → results[i]? = some r →
      WriteOutcome item (own_writes i (chunks.zip (calls.map Prod.snd))) r

def WritesAgree (items : List (WriteItem F)) (chunks : List WriteChunk)
    (execute : Bytes → Py σ Bytes) (execute' : Bytes → Py σ' Bytes) (s : σ) (s' : σ') : Prop :=
  ∀ (results results' : List (WriteResult F)) calls calls' t t',
    plan_and_execute_writes items (recorded execute) ([], s) = (.ok results, (calls, t)) →
    plan_and_execute_writes items (recorded execute') ([], s') = (.ok results', (calls', t')) →
    ∀ (i : Nat) item, items[i]? = some item →
      (∀ (k : Nat) c, chunks[k]? = some c → c.item_idx = i → calls[k]? = calls'[k]?) →
      results[i]? = results'[i]?

theorem reads_isolated {items : List ReadItem} {execute : Bytes → Py σ Bytes}
    (hvalid : ∀ item ∈ items, validate_read_item item = .ok ())
    (hrange : ∀ item ∈ items, InAddressSpace (item_range item)) (hexec : OnlyModbus execute)
    (s : σ) : ReadsIsolated F items execute s := by
  have hpos : ∀ item ∈ items, 0 < item.count := fun item hitem =>
    validate_read_item_count (hvalid item hitem)
  obtain ⟨results, outcomes, t, hrun, hlen, hmodbus, hitems⟩ :=
    plan_and_execute_reads_recorded (F := F) hvalid hrange hexec s
  have hlen' : outcomes.length = ((plan_read_chunks items).map chunk_request).length := by
    rw [List.length_map, hlen]
  refine ⟨results, _, t, hrun, ?_, List.map_fst_zip (by omega), ?_⟩
  · have hsame := map_eq_map_of_forall₂ (f := id) (g := ReadResult.item)
      (hitems.imp fun _ _ h => h.2)
    rw [← hsame, List.map_id]
  · intro i item r hitem hr
    rw [List.map_snd_zip (by omega)]
    have hdecode := forall₂_getElem hitems hitem hr
    exact readOutcome_of_decoded hpos (List.mem_of_getElem? hitem) hlen hmodbus hdecode.1

theorem reads_agree {items : List ReadItem} {execute : Bytes → Py σ Bytes}
    {execute' : Bytes → Py σ' Bytes} (hvalid : ∀ item ∈ items, validate_read_item item = .ok ())
    (hrange : ∀ item ∈ items, InAddressSpace (item_range item)) (hexec : OnlyModbus execute)
    (hexec' : OnlyModbus execute') (s : σ) (s' : σ') :
    ReadsAgree F items execute execute' s s' := by
  intro results results' calls calls' t t' hrun hrun' i item hitem hagree
  obtain ⟨rs, outcomes, _, hrs, hlen, _, hitems⟩ :=
    plan_and_execute_reads_recorded (F := F) hvalid hrange hexec s
  obtain ⟨rs', outcomes', _, hrs', hlen', _, hitems'⟩ :=
    plan_and_execute_reads_recorded (F := F) hvalid hrange hexec' s'
  cases hrun.symm.trans hrs
  cases hrun'.symm.trans hrs'
  have hoth : ∀ (k : Nat) c, (plan_read_chunks items)[k]? = some c → Overlaps item c →
      outcomes[k]? = outcomes'[k]? := by
    intro k c hk hover
    exact outcomes_agree (by rw [List.length_map, hlen]) (by rw [List.length_map, hlen'])
      (hagree k c hk hover)
  have hsame : decode_read_item (F := F) item
        (List.zipWith chunk_result (plan_read_chunks items) outcomes) =
      decode_read_item item (List.zipWith chunk_result (plan_read_chunks items) outcomes') :=
    decode_read_item_congr (own_reads_congr (hlen.trans hlen'.symm) hoth)
  obtain ⟨r, hr⟩ := exists_of_forall₂ hitems hitem
  obtain ⟨r', hr'⟩ := exists_of_forall₂ hitems' hitem
  have hdecode := (forall₂_getElem hitems hitem hr).1
  have hdecode' := (forall₂_getElem hitems' hitem hr').1
  rw [hsame, hdecode'] at hdecode
  rw [hr, hr', Except.ok.inj hdecode]

theorem writes_isolated {items : List (WriteItem F)} {chunks : List WriteChunk}
    {execute : Bytes → Py σ Bytes} (hplan : plan_writes items = .ok chunks)
    (hrange : ∀ item ∈ items, InAddressSpace (write_range item)) (hexec : OnlyModbus execute)
    (s : σ) : WritesIsolated items chunks execute s := by
  obtain ⟨outcomes, t, hall, hrun⟩ := plan_and_execute_writes_recorded hplan
    (plan_writes_starts hplan hrange)
    (fun _ _ s _ => isModbus_of_outcome hexec (fun _ _ => payload_response_modbus) _ s) s
  have hlen := hall.length_eq.symm
  have hlen' : outcomes.length = (chunks.map write_chunk_request).length := by
    rw [List.length_map, hlen]
  refine ⟨_, _, t, hrun, ?_, List.map_fst_zip (by omega), ?_⟩
  · rw [foldl_apply_error_items, List.map_map]
    exact List.map_id _
  · intro i item r hitem hr
    rw [List.map_snd_zip (by omega)]
    exact writeOutcome_of_written hplan hlen hitem hr

theorem writes_agree {items : List (WriteItem F)} {chunks : List WriteChunk}
    {execute : Bytes → Py σ Bytes} {execute' : Bytes → Py σ' Bytes}
    (hplan : plan_writes items = .ok chunks)
    (hrange : ∀ item ∈ items, InAddressSpace (write_range item)) (hexec : OnlyModbus execute)
    (hexec' : OnlyModbus execute') (s : σ) (s' : σ') :
    WritesAgree items chunks execute execute' s s' := by
  intro results results' calls calls' t t' hrun hrun' i item hitem hagree
  obtain ⟨outcomes, _, hall, hrs⟩ := plan_and_execute_writes_recorded hplan
    (plan_writes_starts hplan hrange)
    (fun _ _ s _ => isModbus_of_outcome hexec (fun _ _ => payload_response_modbus) _ s) s
  obtain ⟨outcomes', _, hall', hrs'⟩ := plan_and_execute_writes_recorded hplan
    (plan_writes_starts hplan hrange)
    (fun _ _ s _ => isModbus_of_outcome hexec' (fun _ _ => payload_response_modbus) _ s) s'
  have hlen := hall.length_eq.symm
  have hlen' := hall'.length_eq.symm
  cases hrun.symm.trans hrs
  cases hrun'.symm.trans hrs'
  have hown : ∀ (k : Nat) c, chunks[k]? = some c → c.item_idx = i → outcomes[k]? = outcomes'[k]? := by
    intro k c hk hidx
    exact outcomes_agree (by rw [List.length_map, hlen]) (by rw [List.length_map, hlen'])
      (hagree k c hk hidx)
  rw [written_item items chunks outcomes hitem, written_item items chunks outcomes' hitem,
    own_writes_congr (hlen.trans hlen'.symm) hown]

/-- Failures stay with their items: in every batch of valid items inside of the address space,
over every executor that raises nothing but `ModbusError`. -/
theorem failures_stay_with_their_items :
    (∀ items : List ReadItem, (∀ item ∈ items, validate_read_item item = .ok ()) →
      (∀ item ∈ items, InAddressSpace (item_range item)) →
      (∀ (σ : Type) (execute : Bytes → Py σ Bytes) (s : σ), OnlyModbus execute →
        ReadsIsolated F items execute s) ∧
      ∀ (σ σ' : Type) (execute : Bytes → Py σ Bytes) (execute' : Bytes → Py σ' Bytes) (s : σ)
        (s' : σ'), OnlyModbus execute → OnlyModbus execute' →
        ReadsAgree F items execute execute' s s') ∧
    ∀ (items : List (WriteItem F)) (chunks : List WriteChunk), plan_writes items = .ok chunks →
      (∀ item ∈ items, InAddressSpace (write_range item)) →
      (∀ (σ : Type) (execute : Bytes → Py σ Bytes) (s : σ), OnlyModbus execute →
        WritesIsolated items chunks execute s) ∧
      ∀ (σ σ' : Type) (execute : Bytes → Py σ Bytes) (execute' : Bytes → Py σ' Bytes) (s : σ)
        (s' : σ'), OnlyModbus execute → OnlyModbus execute' →
        WritesAgree items chunks execute execute' s s' := by
  constructor
  · intro items hvalid hrange
    exact ⟨fun _ execute s hexec => reads_isolated hvalid hrange hexec s,
      fun _ _ execute execute' s s' hexec hexec' => reads_agree hvalid hrange hexec hexec' s s'⟩
  · intro items chunks hplan hrange
    exact ⟨fun _ execute s hexec => writes_isolated hplan hrange hexec s,
      fun _ _ execute execute' s s' hexec hexec' => writes_agree hplan hrange hexec hexec' s s'⟩

end

/-- A device that does not answer, whatever it is asked. -/
def silent_device (_ : Bytes) : Py Unit Bytes := fun s =>
  (.error (.modbus (.ModbusTimeoutError "no response")), s)

theorem onlyModbus_silent_device : OnlyModbus silent_device := by
  intro req s e s' h
  cases h
  exact ⟨_, rfl⟩

/-- A register and two coils. -/
def two_writes : List (WriteItem Float) :=
  [.WriteHolding 0 [.int 1] .uint16 .big .big, .WriteCoils 7 [true, false]]

/-- Two batches over a device that refuses and over one that is silent. -/
theorem refused_and_unanswered_items_are_isolated :
    ReadsIsolated Float [.Coil 3 5, .Holding { start := 0, count := 1 }] refusing_device () ∧
      ReadsAgree Float [.Coil 3 5, .Holding { start := 0, count := 1 }] refusing_device
        silent_device () () ∧
      ∃ chunks, plan_writes two_writes = .ok chunks ∧
        WritesIsolated two_writes chunks refusing_device () ∧
        WritesAgree two_writes chunks refusing_device silent_device () () := by
  have hreads := (failures_stay_with_their_items (F := Float)).1
    [.Coil 3 5, .Holding { start := 0, count := 1 }] (by decide)
    (by simp [InAddressSpace, item_range, ReadItem.start, ReadItem.count])
  have hwrites := (failures_stay_with_their_items (F := Float)).2 two_writes _ rfl
    (by simp [InAddressSpace, two_writes, write_range, regs_per_item])
  exact ⟨hreads.1 _ _ _ onlyModbus_refusing_device,
    hreads.2 _ _ _ _ _ _ onlyModbus_refusing_device onlyModbus_silent_device, _, rfl,
    hwrites.1 _ _ _ onlyModbus_refusing_device,
    hwrites.2 _ _ _ _ _ _ onlyModbus_refusing_device onlyModbus_silent_device⟩

end pymod.planner
