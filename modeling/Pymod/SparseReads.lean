-- Reading from a store that does not map every address: a chunk is refused as a whole, and with it
-- every item that it reads for, also the items that are mapped.
import Pymod.RemoteCalls

namespace pymod.planner

open errors codec pdu types data_model server Ranges Slices

variable {unit_id : Option Int} {uid : Int}

/-! ## One chunk -/

/-- An address of the chunk is not mapped. -/
def Unread (m : DataModel) (c : ReadChunk) : Prop := m.unmapped c.area c.start c.count.toNat

/-- What comes of a chunk: its cells when all of them are mapped, and else `IllegalDataAddress`. -/
structure ChunkOutcome (m : DataModel) (c : ReadChunk) (cr : ReadChunkResult) : Prop where
  refused : Unread m c → cr = { chunk := c, values := none, error := some (refusal 0x02) }
  read : ¬ Unread m c → cr = slice_result (device_memory m).cells c

theorem execute_read_chunk_sparse (readonly : Bool) (haccept : Accepts unit_id uid) (m : DataModel)
    {c : ReadChunk} (hstart : IsRegister c.start) (hend : c.start + c.count ≤ 65536)
    (h0 : 1 ≤ c.count) (h1 : c.count ≤ READ_LIMITS c.area) :
    ∃ cr, execute_read_chunk c (dispatch (sim_server unit_id readonly) uid) (concrete m) =
      (.ok cr, concrete m) ∧ ChunkOutcome m c cr := by
  by_cases hmap : Unread m c
  · have hcode : (read_code_limit c.area).1 = read_code c.area := by cases c.area <;> rfl
    have hdispatch := dispatch_of_answers readonly
      (Answers.unmapped haccept (carries_read c.area hstart h0 h1) hmap)
    rw [hcode] at hdispatch
    refine ⟨{ chunk := c, values := none, error := some (refusal 0x02) }, ?_, fun _ => rfl,
      fun h => absurd hmap h⟩
    rw [execute_read_chunk_answered hstart h0 h1 hdispatch, read_cells_refused]
    rfl
  · obtain ⟨data, hdata⟩ := (holds_or_unmapped m c.area c.start c.count.toNat).resolve_right hmap
    have hanswer : ∀ req resp s, s = concrete m → read_request c.area c.start c.count = .ok req →
        (device_memory m).response c.area c.start c.count.toNat = .ok resp →
        ∃ s', dispatch (sim_server unit_id readonly) uid req s = (.ok resp, s') ∧
          s' = concrete m := by
      rintro req resp s rfl hreq hresp
      exact ⟨_, dispatch_reads_memory haccept hdata hreq hresp, rfl⟩
    obtain ⟨s', hrun, rfl⟩ := execute_read_chunk_slice hstart.1 hend h0 h1 hanswer rfl
    exact ⟨_, hrun, fun h => absurd h hmap, fun _ => rfl⟩

theorem ChunkOutcome.chunk {m : DataModel} {c : ReadChunk} {cr : ReadChunkResult}
    (h : ChunkOutcome m c cr) : cr.chunk = c := by
  by_cases hmap : Unread m c
  · rw [h.refused hmap]
  · rw [h.read hmap]
    rfl

/-- A chunk fails in one way only. -/
theorem ChunkOutcome.error {m : DataModel} {c : ReadChunk} {cr : ReadChunkResult}
    (h : ChunkOutcome m c cr) {e : ModbusError} (herror : cr.error = some e) :
    e = refusal 0x02 := by
  by_cases hmap : Unread m c
  · rw [h.refused hmap] at herror
    exact (Option.some.inj herror).symm
  · rw [h.read hmap] at herror
    cases herror

/-! ## The items of a batch -/

theorem filter_overlaps {item : ReadItem} {chunks : List ReadChunk}
    {f : ReadChunk → ReadChunkResult} (hf : ∀ c ∈ chunks, (f c).chunk = c) :
    (chunks.map f).filter (fun cr => cr.chunk.area = item_area item ∧
      cr.chunk.start < item.start + item.count ∧ cr.chunk.start + cr.chunk.count > item.start) =
      (chunks.filter fun c => Overlaps item c).map f := by
  rw [List.filter_map]
  congr 1
  apply List.filter_congr
  intro c hc
  simp only [Function.comp_apply, hf c hc]
  rfl

/-- The results that cover an item are those of the chunks that it overlaps. -/
theorem mem_covering_chunks {item : ReadItem} {chunks : List ReadChunk}
    {f : ReadChunk → ReadChunkResult} (hf : ∀ c ∈ chunks, (f c).chunk = c) (cr : ReadChunkResult) :
    cr ∈ covering_chunks item (chunks.map f) ↔ ∃ c ∈ chunks, Overlaps item c ∧ f c = cr := by
  unfold covering_chunks
  simp only
  rw [List.mem_insertionSort, filter_overlaps hf, List.mem_map]
  simp only [List.mem_filter, decide_eq_true_eq, and_assoc]

theorem covering_chunks_congr {item : ReadItem} {chunks : List ReadChunk}
    {f g : ReadChunk → ReadChunkResult} (hf : ∀ c ∈ chunks, (f c).chunk = c)
    (hg : ∀ c ∈ chunks, (g c).chunk = c) (h : ∀ c ∈ chunks, Overlaps item c → f c = g c) :
    covering_chunks item (chunks.map f) = covering_chunks item (chunks.map g) := by
  unfold covering_chunks
  simp only
  rw [filter_overlaps hf, filter_overlaps hg]
  congr 1
  apply List.map_congr_left
  intro c hc
  obtain ⟨hmem, hoverlaps⟩ := List.mem_filter.mp hc
  exact h c hmem (of_decide_eq_true hoverlaps)

section

variable {F : Type} [FloatOps F]

/-- What an item comes to: `IllegalDataAddress` when one of the chunks that it overlaps is not
mapped throughout, and else what its own slice decodes to. -/
structure SparseOutcome (m : DataModel) (items : List ReadItem) (item : ReadItem)
    (r : ReadResult F) : Prop where
  refused : (∃ c ∈ plan_read_chunks items, Overlaps item c ∧ Unread m c) →
    r = { item, values := [], ok := false, error := some (refusal 0x02) }
  read : (∀ c ∈ plan_read_chunks items, Overlaps item c → ¬ Unread m c) →
    OwnReading (device_memory m) item r

theorem decode_refused_item {m : DataModel} {chunks : List ReadChunk} {item : ReadItem}
    {f : ReadChunk → ReadChunkResult} (hf : ∀ c ∈ chunks, ChunkOutcome m c (f c))
    (h : ∃ c ∈ chunks, Overlaps item c ∧ Unread m c) :
    decode_read_item (F := F) item (chunks.map f) =
      .ok { item, values := [], ok := false, error := some (refusal 0x02) } := by
  obtain ⟨c, hc, hoverlaps, hmap⟩ := h
  have hchunk : ∀ c ∈ chunks, (f c).chunk = c := fun c hc => (hf c hc).chunk
  have hmem := (mem_covering_chunks hchunk (f c)).mpr ⟨c, hc, hoverlaps, rfl⟩
  have herror : (f c).error = some (refusal 0x02) := by rw [(hf c hc).refused hmap]
  unfold decode_read_item
  cases hcov : covering_chunks item (chunks.map f) with
  | nil =>
    rw [hcov] at hmem
    cases hmem
  | cons first others =>
    simp only
    rw [← hcov]
    cases hfind : (covering_chunks item (chunks.map f)).findSome? fun cr => cr.error with
    | none =>
      have := List.findSome?_eq_none_iff.mp hfind _ hmem
      rw [herror] at this
      cases this
    | some e =>
      obtain ⟨cr, hcr, he⟩ := List.exists_of_findSome?_eq_some hfind
      obtain ⟨d, hd, -, rfl⟩ := (mem_covering_chunks hchunk cr).mp hcr
      rw [(hf d hd).error he]
      rfl

theorem decode_read_own {m : DataModel} {items : List ReadItem} {item : ReadItem}
    {f : ReadChunk → ReadChunkResult} (hvalid : ∀ item ∈ items, validate_read_item item = .ok ())
    (hf : ∀ c ∈ plan_read_chunks items, ChunkOutcome m c (f c)) (hitem : item ∈ items)
    (h : ∀ c ∈ plan_read_chunks items, Overlaps item c → ¬ Unread m c) :
    ∃ r : ReadResult F, decode_read_item item ((plan_read_chunks items).map f) = .ok r ∧
      OwnReading (device_memory m) item r := by
  have hpos : ∀ item ∈ items, 0 < item.count := fun item hitem =>
    validate_read_item_count (hvalid item hitem)
  have hcover := covering_chunks_congr (f := f) (g := slice_result (device_memory m).cells)
    (fun c hc => (hf c hc).chunk) (fun _ _ => rfl)
    fun c hc hoverlaps => (hf c hc).read (h c hc hoverlaps)
  obtain ⟨r, hr, hown⟩ := decode_cells_own (F := F) (device_memory m) (hvalid item hitem)
  refine ⟨r, ?_, hown⟩
  rw [← hr, ← decode_read_item_slice_result _ hpos hitem]
  unfold decode_read_item
  rw [hcover]

/-- Over a store that maps what it maps, each register to 16 bits, and answers the unit: of valid
items in the address space one is refused exactly when one of the chunks that it overlaps touches an
address that is not mapped, be it another item's, and else it reads its own slice. No other item is
concerned, and nothing is changed. -/
theorem a_sparse_store_refuses_whole_chunks (haccept : Accepts unit_id uid) (readonly : Bool)
    (m : DataModel) (items : List ReadItem)
    (hvalid : ∀ item ∈ items, validate_read_item item = .ok ())
    (hrange : ∀ item ∈ items, InAddressSpace (item_range item)) :
    ∃ results : List (ReadResult F),
      plan_and_execute_reads items (dispatch (sim_server unit_id readonly) uid) (concrete m) =
        (.ok results, concrete m) ∧
      List.Forall₂ (SparseOutcome m items) items results := by
  have hpos : ∀ item ∈ items, 0 < item.count := fun item hitem =>
    validate_read_item_count (hvalid item hitem)
  have hchunks : ∀ c ∈ plan_read_chunks items, ∃ cr,
      execute_read_chunk c (dispatch (sim_server unit_id readonly) uid) (concrete m) =
        (.ok cr, concrete m) ∧ ChunkOutcome m c cr := by
    intro c hc
    obtain ⟨_, h0, h1, hreq⟩ := plan_read_chunks.spec hpos hc
    -- A chunk asks for nothing that no item asks for, so it stays in the address space.
    obtain ⟨a, ha, _, hfirst, _⟩ := hreq c.start (Int.le_refl _) (by omega)
    obtain ⟨b, hb, _, _, hlast⟩ := hreq (c.start + c.count - 1) (by omega) (by omega)
    have hlow := (hrange a ha).1
    have hhigh := (hrange b hb).2
    simp only [item_range] at hlow hhigh
    exact execute_read_chunk_sparse readonly haccept m ⟨by omega, by omega⟩ (by omega) h0 h1
  have : Nonempty ReadChunkResult := ⟨{ chunk := ⟨.COIL, 0, 0⟩, values := none, error := none }⟩
  choose! f hrun hf using hchunks
  have htask : ∀ c ∈ plan_read_chunks items, ∀ s, s = concrete m →
      ∃ s', execute_read_chunk c (dispatch (sim_server unit_id readonly) uid) s = (.ok (f c), s') ∧
        s' = concrete m := by
    rintro c hc s rfl
    exact ⟨_, hrun c hc, rfl⟩
  obtain ⟨s', hgather, rfl⟩ := Py.gather_all_ok f htask rfl
  obtain ⟨results, hresults, hall⟩ := mapM_forall₂ (l := items)
    (f := fun item => decode_read_item (F := F) item ((plan_read_chunks items).map f))
    (r := SparseOutcome m items) fun item hitem => by
      by_cases h : ∃ c ∈ plan_read_chunks items, Overlaps item c ∧ Unread m c
      · exact ⟨_, decode_refused_item hf h, fun _ => rfl, fun hall => by
          obtain ⟨c, hc, hoverlaps, hmap⟩ := h
          exact absurd hmap (hall c hc hoverlaps)⟩
      · obtain ⟨r, hr, hown⟩ := decode_read_own (F := F) hvalid hf hitem
          fun c hc hoverlaps hmap => h ⟨c, hc, hoverlaps, hmap⟩
        exact ⟨r, hr, fun h' => absurd h' h, fun _ => hown⟩
  refine ⟨results, ?_, hall⟩
  cases items with
  | nil =>
    cases hall
    rfl
  | cons first others =>
    unfold plan_and_execute_reads
    rw [if_neg (by simp), forM_ok hvalid]
    simp only [bind, Py.lift_run, hgather, hresults]

end

theorem isRegister_seven : IsRegister 7 := by
  decide

/-- Register 1 is missing between its neighbours. -/
def gapped_model : DataModel where
  coil := fun _ => none
  discrete_input := fun _ => none
  holding_register := fun x => if x = 1 then none else some ⟨7, isRegister_seven⟩
  input_register := fun _ => none

def gapped_items : List ReadItem :=
  [.Holding { start := 0, count := 2 }, .Holding { start := 2, count := 1 },
    .Holding { start := 9, count := 1 }]

/-- Register 2 is mapped, but it is read together with its neighbours. -/
theorem a_mapped_register_is_refused_with_its_neighbour : ∃ results : List (ReadResult Float),
    plan_and_execute_reads gapped_items (dispatch (sim_server none false) 1)
      (concrete gapped_model) = (.ok results, concrete gapped_model) ∧
    results[1]? = some { item := .Holding { start := 2, count := 1 }, values := [], ok := false,
                         error := some (refusal 0x02) } := by
  obtain ⟨results, hrun, hall⟩ := a_sparse_store_refuses_whole_chunks (F := Float)
    (Or.inl rfl : Accepts none 1) false gapped_model gapped_items (by decide)
    (by simp [gapped_items, InAddressSpace, item_range, ReadItem.start, ReadItem.count])
  refine ⟨results, hrun, ?_⟩
  obtain ⟨r, hr⟩ := exists_of_forall₂ hall (i := 1) rfl
  have hone : SparseOutcome gapped_model gapped_items _ r := forall₂_getElem hall (i := 1) rfl hr
  rw [hr, hone.refused ⟨⟨.HOLDING_REGISTER, 0, 3⟩, by decide, by decide, 1, by decide, by decide, rfl⟩]

end pymod.planner
