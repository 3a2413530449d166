-- The plan of a batch of writes is the smallest there is for its items: each value of an item is
-- carried once and to its own address, item by item in their order, and no fewer requests within
-- the limits could reach the addresses of an item.
import Pymod.BatchMemory

namespace pymod.planner

open errors codec pdu types Ranges Slices

section

variable {F : Type} [FloatOps F]

/-! ## The chunks of one item -/

/-- The chunks of the plan that belong to an item. -/
def own_chunks (chunks : List WriteChunk) (i : Nat) : List WriteChunk :=
  chunks.filter fun c => c.item_idx = i

/-- The pieces of an item, as chunks. -/
def chunks_of (i : Nat) (item : WriteItem F) : List WriteChunk :=
  (item_pieces item).map fun p => payload_chunk i p.1 p.2

theorem item_idx_chunks_of {i : Nat} {item : WriteItem F} :
    ∀ c ∈ chunks_of i item, c.item_idx = i := by
  intro c hc
  obtain ⟨p, -, rfl⟩ := List.mem_map.mp hc
  exact payload_chunk_item_idx i p.1 p.2

theorem own_chunks_same (i : Nat) (item : WriteItem F) :
    own_chunks (chunks_of i item) i = chunks_of i item := by
  apply List.filter_eq_self.mpr
  intro c hc
  simpa using item_idx_chunks_of c hc

theorem own_chunks_other {i j : Nat} (h : j ≠ i) (item : WriteItem F) :
    own_chunks (chunks_of j item) i = [] := by
  apply List.filter_eq_nil_iff.mpr
  intro c hc
  simpa [item_idx_chunks_of c hc] using h

/-- Of the items from a number on, the item with that number has its own chunks, and the items
before have none. -/
theorem own_chunks_zipIdx (items : List (WriteItem F)) (k : Nat) :
    (∀ i, i < k → own_chunks ((items.zipIdx k).flatMap fun q => chunks_of q.2 q.1) i = []) ∧
      ∀ i item, items[i]? = some item →
        own_chunks ((items.zipIdx k).flatMap fun q => chunks_of q.2 q.1) (k + i) =
          chunks_of (k + i) item := by
  induction items generalizing k with
  | nil => simp [own_chunks]
  | cons first others ih =>
    obtain ⟨hbefore, hown⟩ := ih (k + 1)
    have hsplit : ∀ i, own_chunks (((first :: others).zipIdx k).flatMap fun q =>
        chunks_of q.2 q.1) i = own_chunks (chunks_of k first) i ++
          own_chunks ((others.zipIdx (k + 1)).flatMap fun q => chunks_of q.2 q.1) i := by
      intro i
      rw [List.zipIdx_cons, List.flatMap_cons]
      exact List.filter_append _ _
    constructor
    · intro i hi
      rw [hsplit, own_chunks_other (by omega), hbefore i (by omega)]
      rfl
    · intro i item hitem
      cases i with
      | zero =>
        cases hitem
        rw [hsplit, Nat.add_zero, own_chunks_same, hbefore k (by omega), List.append_nil]
      | succ i =>
        have hrest := hown i item hitem
        rw [Nat.add_right_comm] at hrest
        rw [hsplit, own_chunks_other (by omega), List.nil_append]
        exact hrest

theorem own_chunks_plan {items : List (WriteItem F)} {chunks : List WriteChunk}
    (hplan : plan_writes items = .ok chunks) {i : Nat} {item : WriteItem F}
    (hitem : items[i]? = some item) : own_chunks chunks i = chunks_of i item := by
  obtain ⟨-, rfl⟩ := plan_writes_eq hplan
  have hown := (own_chunks_zipIdx items 0).2 i item hitem
  rw [Nat.zero_add] at hown
  exact hown

/-- The chunks of an item stand before those of the items behind it. -/
theorem item_idx_sorted {items : List (WriteItem F)} {chunks : List WriteChunk}
    (hplan : plan_writes items = .ok chunks) :
    chunks.Pairwise fun c d => c.item_idx ≤ d.item_idx := by
  obtain ⟨-, rfl⟩ := plan_writes_eq hplan
  refine List.pairwise_flatMap.mpr ⟨fun q _ => ?_, ?_⟩
  · refine List.pairwise_map.mpr (List.pairwise_of_forall fun p p' => ?_)
    rw [payload_chunk_item_idx, payload_chunk_item_idx]
  · have hascending : (items.zipIdx.map Prod.snd).Pairwise (· < ·) := by
      rw [List.zipIdx_map_snd]
      exact List.pairwise_lt_range'
    refine (List.pairwise_map.mp hascending).imp fun hlt c hc d hd => ?_
    rw [item_idx_chunks_of c hc, item_idx_chunks_of d hd]
    exact Nat.le_of_lt hlt

/-! ## What they carry -/

/-- The pieces of a payload carry its cells, one behind the other. -/
theorem pieces_cells (start : Int) (payload : Payload) :
    Consecutive start ((pieces start payload).map fun p => (p.1, p.2.cells)) ∧
      ((pieces start payload).map fun p => p.2.cells).flatten = payload.cells := by
  have hsplit : ∀ {α : Type} (f : α → Cell) (maximum : Nat) (values : List α), 0 < maximum →
      Consecutive start ((split_values maximum values values.length 0 start).map fun p =>
        (p.1, p.2.map f)) ∧
      ((split_values maximum values values.length 0 start).map fun p => p.2.map f).flatten =
        values.map f := by
    intro α f maximum values hmax
    obtain ⟨hcons, hflat, -⟩ := split_values.spec hmax (values.map f) values.length 0 start
      (by simp)
    rw [split_values_map] at hcons hflat
    rw [List.map_map, List.drop_zero] at hflat
    exact ⟨hcons, hflat⟩
  cases payload with
  | registers values =>
    obtain ⟨hcons, hflat⟩ := hsplit Cell.int 123 values (by omega)
    simp only [pieces, List.map_map]
    exact ⟨hcons, hflat⟩
  | coils values =>
    obtain ⟨hcons, hflat⟩ := hsplit Cell.bool 1968 values (by omega)
    simp only [pieces, List.map_map]
    exact ⟨hcons, hflat⟩

/-! ## How few there are -/

/-- The most values that one request of the item can carry. -/
def write_limit : WriteItem F → Int
  | .WriteHolding _ _ _ _ _ => MAX_WRITE_REGISTERS
  | .WriteCoils _ _ => MAX_WRITE_COILS

theorem length_piece_le (item : WriteItem F) : ∀ p ∈ item_pieces item,
    1 ≤ p.2.length ∧ p.2.length ≤ write_limit item := by
  intro p hp
  have hlegal := item_pieces_legal item p hp
  have harea := area_of_item_pieces item p hp
  obtain ⟨x, payload⟩ := p
  cases item with
  | WriteHolding start values dtype word_order byte_order =>
    cases payload with
    | registers regs => exact ⟨hlegal.1, Int.ofNat_le.mpr hlegal.2.1⟩
    | coils bits => cases harea
  | WriteCoils start values =>
    cases payload with
    | registers regs => cases harea
    | coils bits => exact ⟨hlegal.1, Int.ofNat_le.mpr hlegal.2⟩

omit [FloatOps F] in
/-- Two starts of requests that lie within one limit are the same. -/
theorem one_start_in_limit {item : WriteItem F} {x y : Int} (hx : WriteStart item x)
    (hy : WriteStart item y) {r : Range} (hlimit : r.2 - r.1 ≤ write_limit item) (hrx : Holds r x)
    (hry : Holds r y) : x = y := by
  obtain ⟨hrx, hxr⟩ := hrx
  obtain ⟨hry, hyr⟩ := hry
  cases item with
  | WriteHolding start values dtype word_order byte_order =>
    obtain ⟨k, -, rfl⟩ := hx
    obtain ⟨j, -, rfl⟩ := hy
    simp only [write_limit, MAX_WRITE_REGISTERS] at hlimit
    have hsame : k = j := by omega
    rw [hsame]
  | WriteCoils start values =>
    obtain ⟨k, -, rfl⟩ := hx
    obtain ⟨j, -, rfl⟩ := hy
    simp only [write_limit, MAX_WRITE_COILS] at hlimit
    have hsame : k = j := by omega
    rw [hsame]

/-- No fewer ranges within the limit reach every address of the item. -/
theorem no_fewer_writes {item : WriteItem F} (hplannable : ¬ Unplannable item)
    {family : List Range} (hlimit : ∀ r ∈ family, r.2 - r.1 ≤ write_limit item)
    (hreached : ∀ x, Holds (write_range item) x → ∃ r ∈ family, Holds r x) :
    (item_pieces item).length ≤ family.length := by
  have hlen := length_piece_le item
  obtain ⟨hinside, happart⟩ := item_pieces_inside item
  have hnodup : ((item_pieces item).map Prod.fst).Nodup := by
    refine List.pairwise_map.mpr (happart.imp_of_mem fun hp _ h => ?_)
    have hpos := (hlen _ hp).1
    omega
  have hstart : ∀ x ∈ (item_pieces item).map Prod.fst, WriteStart item x := by
    intro x hx
    obtain ⟨p, hp, rfl⟩ := List.mem_map.mp hx
    exact (item_pieces_starts hplannable p.1).mp ⟨p, hp, rfl⟩
  rw [← List.length_map (f := Prod.fst)]
  apply length_le_of_each_holds_one Holds hnodup
  · intro x hx
    obtain ⟨p, hp, rfl⟩ := List.mem_map.mp hx
    have hpos := (hlen p hp).1
    obtain ⟨hlow, hhigh⟩ := hinside p hp
    exact hreached p.1 ⟨hlow, by omega⟩
  · intro r hr x hx y hy hrx hry
    exact one_start_in_limit (hstart x hx) (hstart y hy) (hlimit r hr) hrx hry

/-- The chunks of a plan belong to its items, in their order. Those of an item carry its cells one
behind the other from its first address on, within the limit, and no family of ranges within the
limit that reaches every address of the item is smaller. -/
theorem the_write_plan_is_minimal {items : List (WriteItem F)} {chunks : List WriteChunk}
    (hplan : plan_writes items = .ok chunks) :
    chunks.Pairwise (fun c d => c.item_idx ≤ d.item_idx) ∧
    (∀ c ∈ chunks, c.item_idx < items.length) ∧
    ∀ i item, items[i]? = some item →
      (∃ payload, item_payload item = .ok payload ∧
        Consecutive (item_start item)
          ((own_chunks chunks i).map fun c => (c.start, c.payload.cells)) ∧
        ((own_chunks chunks i).map fun c => c.payload.cells).flatten = payload.cells) ∧
      (∀ c ∈ own_chunks chunks i, 1 ≤ c.payload.length ∧ c.payload.length ≤ write_limit item) ∧
      ∀ family : List Range, (∀ r ∈ family, r.2 - r.1 ≤ write_limit item) →
        (∀ x, Holds (write_range item) x → ∃ r ∈ family, Holds r x) →
        (own_chunks chunks i).length ≤ family.length := by
  refine ⟨item_idx_sorted hplan, fun c hc => ?_, fun i item hitem => ?_⟩
  · obtain ⟨-, rfl⟩ := plan_writes_eq hplan
    obtain ⟨q, hq, hc⟩ := List.mem_flatMap.mp hc
    rw [item_idx_chunks_of c hc]
    exact List.snd_lt_of_mem_zipIdx hq
  · have hplannable : ¬ Unplannable item :=
      (plan_writes_eq hplan).1 item (List.mem_of_getElem? hitem)
    rw [own_chunks_plan hplan hitem]
    refine ⟨?_, ?_, fun family hlimit hreached => ?_⟩
    · obtain ⟨-, payload, hpayload⟩ := (plannable_cases item).resolve_left hplannable
      obtain ⟨hcons, hflat⟩ := pieces_cells (item_start item) payload
      refine ⟨payload, hpayload, ?_⟩
      simp only [chunks_of, item_pieces, hpayload, List.map_map, Function.comp_def,
        payload_chunk_start, payload_chunk_payload]
      exact ⟨hcons, hflat⟩
    · intro c hc
      obtain ⟨p, hp, rfl⟩ := List.mem_map.mp hc
      rw [payload_chunk_payload]
      exact length_piece_le item p hp
    · rw [chunks_of, List.length_map]
      exact no_fewer_writes hplannable hlimit hreached

end

/-- Registers for more than one request, and a coil. -/
def registers_and_coil : List (WriteItem Float) :=
  [.WriteHolding 7 (List.replicate 124 (.int 1)) .uint16 .big .big, .WriteCoils 0 [true]]

set_option maxRecDepth 8000 in
theorem two_requests_for_124_registers : ∃ chunks, plan_writes registers_and_coil = .ok chunks ∧
    chunks.map (fun c => (c.item_idx, c.start, c.payload.length)) =
      [(0, 7, 123), (0, 130, 1), (1, 0, 1)] ∧
    ∀ family : List Range, (∀ r ∈ family, r.2 - r.1 ≤ 123) →
      (∀ x, Holds (7, 131) x → ∃ r ∈ family, Holds r x) → 2 ≤ family.length := by
  obtain ⟨-, -, hitems⟩ := @the_write_plan_is_minimal Float _ registers_and_coil _ rfl
  obtain ⟨-, -, hleast⟩ := hitems 0 _ rfl
  refine ⟨_, rfl, rfl, ?_⟩
  intro family hlimit hreached
  exact hleast family hlimit hreached

end pymod.planner
