-- What a batch of reads returns: when every chunk reads its slice of a memory,
-- every item gets what its own slice decodes to.
import Pymod.ReadPlan

namespace pymod.planner

open errors codec pdu types Ranges Slices

/-! ## One item out of the chunks -/

/-- What a chunk read out of the memory. -/
def slice_result (mem : Area → Int → Cell) (c : ReadChunk) : ReadChunkResult :=
  { chunk := c, values := some (slice (mem c.area) c.start c.count.toNat), error := none }

theorem valuesOn_chunk_range (mem : Int → Cell) (c : ReadChunk) :
    valuesOn mem (chunk_range c) = slice mem c.start c.count.toNat := by
  have : (c.start + c.count - c.start).toNat = c.count.toNat := by omega
  simp only [valuesOn, chunk_range, this]

/-- The chunks that cover an item are the chunks of its area that meet its range. -/
theorem covering_chunks_slice_result (mem : Area → Int → Cell) {items : List ReadItem}
    (hpos : ∀ item ∈ items, 0 < item.count) (item : ReadItem) :
    covering_chunks item ((plan_read_chunks items).map (slice_result mem)) =
      ((area_chunks (item_area item) items).filter fun c =>
        meets (chunk_range c) (item_range item)).map (slice_result mem) := by
  obtain ⟨hasc, _, _⟩ := area_chunks.spec (item_area item) hpos
  have hfilter : ((plan_read_chunks items).map (slice_result mem)).filter (fun cr =>
        cr.chunk.area = item_area item ∧ cr.chunk.start < item.start + item.count ∧
          cr.chunk.start + cr.chunk.count > item.start) =
      ((area_chunks (item_area item) items).filter fun c =>
        meets (chunk_range c) (item_range item)).map (slice_result mem) := by
    rw [List.filter_map, ← filter_plan_read_chunks, List.filter_filter]
    congr 1
    apply List.filter_congr
    intro c _
    rw [Bool.eq_iff_iff, Bool.and_eq_true, meets_iff, Function.comp_apply, decide_eq_true_iff,
      decide_eq_true_iff]
    exact ⟨fun ⟨h1, h2, h3⟩ => ⟨⟨h2, h3⟩, h1⟩, fun ⟨⟨h2, h3⟩, h1⟩ => ⟨h1, h2, h3⟩⟩
  unfold covering_chunks
  simp only
  rw [hfilter]
  -- The chunks of one area stand in the order of their starts, so the sort keeps them.
  apply List.Pairwise.insertionSort_eq
  rw [List.pairwise_map]
  have hsorted : (area_chunks (item_area item) items).Pairwise fun c d => c.start ≤ d.start := by
    have hord := List.pairwise_map.mp hasc.ordered
    refine List.Pairwise.imp_of_mem ?_ hord
    intro c d hc _ hcd
    have := hasc.nonempty (chunk_range c) (List.mem_map_of_mem hc)
    simp only [chunk_range] at this hcd
    omega
  exact hsorted.filter _

theorem flat_values_slice_result (mem : Area → Int → Cell) (cs : List ReadChunk) :
    flat_values (cs.map (slice_result mem)) =
      .ok (cs.flatMap fun c => slice (mem c.area) c.start c.count.toNat) := by
  have hall : cs.mapM (chunk_values ∘ slice_result mem) =
      .ok (cs.map fun c => slice (mem c.area) c.start c.count.toNat) := mapM_ok fun _ _ => rfl
  rw [flat_values, List.mapM_map, hall]
  simp [Except.map, List.flatMap_def]

/-- A slice of a list whose bounds lie in the list. -/
theorem py_slice_of_bounds {α : Type} (l : List α) {a : Int} {n : Nat} (h0 : 0 ≤ a)
    (h1 : a + n ≤ l.length) : py_slice l a (a + n) = (l.drop a.toNat).take n := by
  have ha : slice_index l.length a = a.toNat := by unfold slice_index; split <;> omega
  have hb : slice_index l.length (a + n) = a.toNat + n := by unfold slice_index; split <;> omega
  unfold py_slice
  rw [ha, hb, Nat.add_sub_cancel_left]

section

variable {F : Type} [FloatOps F]

/-- The end of `_decode_read_item`: what the item makes of its own cells. -/
def decode_cells (item : ReadItem) (cells : List Cell) : Except PyError (ReadResult F) :=
  match item with
  | .Coil _ _ => pure { item, values := cells.map Cell.value, ok := true }
  | .Discrete _ _ => pure { item, values := cells.map Cell.value, ok := true }
  | .Holding i => decode_register_item item i cells
  | .Input i => decode_register_item item i cells

/-- An item of the batch decodes its own slice of the memory. -/
theorem decode_read_item_slice_result (mem : Area → Int → Cell) {items : List ReadItem}
    (hpos : ∀ item ∈ items, 0 < item.count) {item : ReadItem} (hitem : item ∈ items) :
    decode_read_item (F := F) item ((plan_read_chunks items).map (slice_result mem)) =
      decode_cells item (slice (mem (item_area item)) item.start item.count.toNat) := by
  have hcount := hpos item hitem
  obtain ⟨hasc, hcov, harea⟩ := area_chunks.spec (item_area item) hpos
  obtain ⟨c, cs, stop, hmeet, hfirst, hlast, hvalues⟩ :=
    values_on_meeting (mem (item_area item)) chunk_range (area_chunks (item_area item) items)
      item.start (item.start + item.count) hasc (by omega)
      fun x h1 h2 => (hcov x).mpr ⟨item, hitem, rfl, h1, h2⟩
  have hareas : ∀ d ∈ c :: cs, d.area = item_area item := by
    intro d hd
    rw [← hmeet] at hd
    exact (harea d (List.mem_filter.mp hd).1).1
  have hflat : (c :: cs).flatMap (fun d => slice (mem d.area) d.start d.count.toNat) =
      slice (mem (item_area item)) c.start (stop - c.start).toNat := by
    have hsame : ∀ d ∈ c :: cs, slice (mem d.area) d.start d.count.toNat =
        valuesOn (mem (item_area item)) (chunk_range d) := by
      intro d hd
      rw [valuesOn_chunk_range, hareas d hd]
    rw [List.flatMap_congr hsame, hvalues]
    rfl
  have hno : ((c :: cs).map (slice_result mem)).findSome? (fun cr => cr.error) = none := by
    rw [List.findSome?_eq_none_iff]
    intro cr hcr
    obtain ⟨d, _, rfl⟩ := List.mem_map.mp hcr
    rfl
  have hcut : py_slice (slice (mem (item_area item)) c.start (stop - c.start).toNat)
      (item.start - c.start) (item.start - c.start + item.count) =
      slice (mem (item_area item)) item.start item.count.toNat := by
    simp only [chunk_range] at hfirst
    have hlen : item.count = (item.count.toNat : Int) := by omega
    have hbound : item.start - c.start + (item.count.toNat : Int) ≤
        (slice (mem (item_area item)) c.start (stop - c.start).toNat).length := by
      rw [length_slice]
      omega
    rw [hlen, py_slice_of_bounds _ (by omega) hbound]
    exact cut_slice _ hfirst (by omega)
  unfold decode_read_item
  rw [covering_chunks_slice_result mem hpos item, item_range, hmeet, List.map_cons]
  simp only
  rw [← List.map_cons, hno]
  simp only [flat_values_slice_result, hflat, bind, Except.bind]
  rw [show (slice_result mem c).chunk.start = c.start from rfl, hcut]
  cases item <;> rfl

/-! ## The whole batch -/

theorem validate_read_item_count {item : ReadItem} (h : validate_read_item item = .ok ()) :
    0 < item.count := by
  unfold validate_read_item at h
  by_cases hc : item.count ≤ 0
  · rw [if_pos hc] at h
    cases h
  · omega

theorem forM_ok {α : Type} {f : α → Except PyError Unit} {l : List α}
    (h : ∀ x ∈ l, f x = .ok ()) : l.forM f = .ok () := by
  induction l with
  | nil => rfl
  | cons x l ih =>
    change (f x >>= fun _ => l.forM f) = .ok ()
    rw [h x (by simp)]
    exact ih fun y hy => h y (by simp [hy])

/-- When every chunk of the plan reads its slice of the memory, the batch returns what the
items make of their own slices. -/
theorem reads_of_slices {σ : Type} (mem : Area → Int → Cell) {items : List ReadItem}
    {execute : Bytes → Py σ Bytes} {p : σ → Prop}
    (hvalid : ∀ item ∈ items, validate_read_item item = .ok ())
    (hexec : ∀ c ∈ plan_read_chunks items, ∀ s, p s →
      ∃ s', execute_read_chunk c execute s = (.ok (slice_result mem c), s') ∧ p s')
    {s : σ} (hs : p s) :
    ∃ s', plan_and_execute_reads (F := F) items execute s =
      (items.mapM fun item =>
        decode_cells item (slice (mem (item_area item)) item.start item.count.toNat), s') ∧
      p s' := by
  have hpos : ∀ item ∈ items, 0 < item.count := fun item hitem =>
    validate_read_item_count (hvalid item hitem)
  cases items with
  | nil => exact ⟨s, rfl, hs⟩
  | cons first others =>
    obtain ⟨s', hgather, hs'⟩ := Py.gather_all_ok (slice_result mem) hexec hs
    refine ⟨s', ?_, hs'⟩
    have hdecode : ∀ item ∈ first :: others,
        decode_read_item (F := F) item
            ((plan_read_chunks (first :: others)).map (slice_result mem)) =
          decode_cells item (slice (mem (item_area item)) item.start item.count.toNat) :=
      fun item hitem => decode_read_item_slice_result mem hpos hitem
    unfold plan_and_execute_reads
    rw [if_neg (by simp), forM_ok hvalid]
    simp only [bind, Py.lift_run, hgather]
    exact Prod.ext (mapM_congr hdecode) rfl

end

end pymod.planner
