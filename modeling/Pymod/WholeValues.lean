-- When a value of more than one register is read, or written, by one request: the
-- plan cuts at the limits of the protocol, wherever a value ends.
import Pymod.BatchErrors

namespace pymod.planner

open errors codec pdu types Ranges Slices

/-! ## Reads -/

/-- One request of the plan reads the `r` registers from `a` on. -/
def ReadWhole (items : List ReadItem) (area : Area) (a : Int) (r : Nat) : Prop :=
  ∃ c ∈ plan_read_chunks items, c.area = area ∧ c.start ≤ a ∧ a + r ≤ c.start + c.count

/-- The stretch that the plan cuts an item of the batch out of. -/
theorem exists_run_of_item {items : List ReadItem} (hpos : ∀ item ∈ items, 0 < item.count)
    {item : ReadItem} (hitem : item ∈ items) :
    ∃ m ∈ merge_ranges (area_ranges (item_area item) items),
      IsRun (Requested (item_area item) items) m ∧ m.1 ≤ item.start ∧
        item.start + item.count ≤ m.2 := by
  have hcount := hpos item hitem
  obtain ⟨hsep, hcov⟩ := merge_ranges.spec _ (area_ranges_nonempty (item_area item) hpos)
  have hset : Covered (merge_ranges (area_ranges (item_area item) items)) =
      Requested (item_area item) items := by
    funext x
    exact propext ((hcov x).trans (covered_area_ranges _ _ x))
  have hin : ∀ x, item.start ≤ x → x < item.start + item.count →
      Requested (item_area item) items x := fun x h1 h2 => ⟨item, hitem, rfl, h1, h2⟩
  have hfirst := hin item.start (Int.le_refl _) (by omega)
  rw [← hset] at hfirst
  obtain ⟨m, hm, hholds⟩ := hfirst
  have hrun := (hsep.mem_iff_isRun m).mp hm
  rw [hset] at hrun
  exact ⟨m, hm, hrun, hholds.1, hrun.holds_range hholds hin⟩

/-- The registers of a stretch in a run are read by one request when no cut falls inside. -/
theorem readWhole_iff {items : List ReadItem} (hpos : ∀ item ∈ items, 0 < item.count)
    {area : Area} {m : Range} (hm : m ∈ merge_ranges (area_ranges area items)) {a : Int} {r : Nat}
    (hr : 0 < r) (h0 : m.1 ≤ a) (h1 : a + r ≤ m.2) :
    ReadWhole items area a r ↔
      (a - m.1).toNat % (READ_LIMITS area).toNat + r ≤ (READ_LIMITS area).toNat := by
  have hlimit := read_limits_pos area
  obtain ⟨hsep, -⟩ := merge_ranges.spec _ (area_ranges_nonempty area hpos)
  have hplan : ∀ c, (c ∈ plan_read_chunks items ∧ c.area = area) ↔ c ∈ area_chunks area items := by
    intro c
    rw [← filter_plan_read_chunks, List.mem_filter, decide_eq_true_iff]
  obtain ⟨n, hn⟩ : ∃ n : Nat, READ_LIMITS area = n := ⟨_, (Int.toNat_of_nonneg (by omega)).symm⟩
  rw [hn, Int.toNat_natCast, ← in_one_window_iff hr]
  constructor
  · rintro ⟨c, hc, harea, hstart, hend⟩
    obtain ⟨q, hq, hcq⟩ := List.mem_flatMap.mp ((hplan c).mp ⟨hc, harea⟩)
    have hinside := (split_range.spec area q).1.inside (chunk_range c) (List.mem_map_of_mem hcq)
    simp only [chunk_range] at hinside
    -- Only the run that holds the stretch has a chunk that meets it.
    obtain rfl : q = m := by
      rcases hsep.apart_or_eq hq hm with h | h | h
      · exact h
      · omega
      · omega
    obtain ⟨j, hj, rfl⟩ := (mem_split_loop area q.2 _ q.1 c (by omega)).mp hcq
    rw [hn] at hstart hend
    simp only at hstart hend
    refine ⟨j, ?_, ?_⟩
    · zify
      omega
    · zify
      omega
  · rintro ⟨j, hj, hend⟩
    zify at hj hend
    have hsplit : (⟨area, m.1 + j * READ_LIMITS area,
        min (READ_LIMITS area) (m.2 - (m.1 + j * READ_LIMITS area))⟩ : ReadChunk) ∈
          split_range area m := by
      refine (mem_split_loop area m.2 _ m.1 _ (by omega)).mpr ⟨j, ?_, rfl⟩
      rw [hn]
      omega
    obtain ⟨hc, harea⟩ := (hplan _).mpr (List.mem_flatMap.mpr ⟨m, hm, hsplit⟩)
    refine ⟨_, hc, harea, ?_, ?_⟩
    · simp only [hn]
      omega
    · simp only [hn]
      omega

/-! ## Writes -/

/-- The chunk writes the `r` registers from `a` on. -/
def WriteChunk.Writes (c : WriteChunk) (a : Int) (r : Nat) : Prop :=
  match c.register_values with
  | some values => c.start ≤ a ∧ a + r ≤ c.start + values.length
  | none => False

instance (c : WriteChunk) (a : Int) (r : Nat) : Decidable (c.Writes a r) := by
  unfold WriteChunk.Writes
  split <;> infer_instance

/-- One request of an item writes the `r` registers from `a` on. -/
def WriteWhole (chunks : List WriteChunk) (idx : Nat) (a : Int) (r : Nat) : Prop :=
  ∃ c ∈ chunks, c.item_idx = idx ∧ c.Writes a r

instance (chunks : List WriteChunk) (idx : Nat) (a : Int) (r : Nat) :
    Decidable (WriteWhole chunks idx a r) := inferInstanceAs (Decidable (∃ c ∈ chunks, _ ∧ _))

section

variable {F : Type} [FloatOps F]

theorem writeWhole_iff {items : List (WriteItem F)} {chunks : List WriteChunk}
    (hplan : plan_writes items = .ok chunks) {i : Nat} {start : Int} {values : List (Value F)}
    {dtype : NumericDType} {word_order byte_order : Order}
    (hitem : items[i]? = some (.WriteHolding start values dtype word_order byte_order))
    {a r : Nat} (hr : 0 < r) (hin : a + r ≤ values.length * regs_per_item dtype) :
    WriteWhole chunks i (start + a) r ↔ a % 123 + r ≤ 123 := by
  have hmem := mem_plan_writes hplan hitem
  have hpos : ¬ Unplannable (.WriteHolding start values dtype word_order byte_order) := by
    intro hbad
    obtain ⟨e, he⟩ := plan_writes_error (List.mem_of_getElem? hitem) hbad
    rw [he] at hplan
    cases hplan
  obtain ⟨-, payload, hpayload⟩ := (plannable_cases _).resolve_left hpos
  simp only [item_payload] at hpayload
  cases hregs : encode_registers values dtype word_order byte_order with
  | error e =>
    rw [hregs] at hpayload
    cases hpayload
  | ok regs =>
    have hlen := (encode_registers_legal hregs).1
    have hpieces : item_pieces (.WriteHolding start values dtype word_order byte_order) =
        (split_values 123 regs regs.length 0 start).map fun p => (p.1, .registers p.2) := by
      simp only [item_pieces, item_payload, hregs, Except.map, pieces, item_start]
    rw [← in_one_window_iff hr]
    constructor
    · rintro ⟨c, hc, hi, hwrites⟩
      obtain ⟨p, hp, rfl⟩ := (hmem c).mp ⟨hc, hi⟩
      rw [hpieces] at hp
      obtain ⟨q, hq, rfl⟩ := List.mem_map.mp hp
      obtain ⟨j, hj, h1, h2⟩ :=
        (mem_split_values (by omega) regs _ 0 start q (by omega)).mp hq
      have hq2 : q.2.length ≤ 123 := by
        rw [h2]
        exact List.length_take_le _ _
      simp only [WriteChunk.Writes, payload_chunk] at hwrites
      rw [h1] at hwrites
      exact ⟨j, by omega, by omega⟩
    · rintro ⟨j, hj, hend⟩
      have hq : (start + ((j * 123 : Nat) : Int), (regs.drop (0 + j * 123)).take 123) ∈
          split_values 123 regs regs.length 0 start :=
        (mem_split_values (by omega) regs _ 0 start _ (by omega)).mpr ⟨j, by omega, rfl, rfl⟩
      obtain ⟨hc, hi⟩ := (hmem _).mpr ⟨_, hpieces ▸ List.mem_map_of_mem hq, rfl⟩
      refine ⟨_, hc, hi, ?_⟩
      simp only [WriteChunk.Writes, payload_chunk, List.length_take, List.length_drop]
      omega

/-- The type of the values that a register item is read as. -/
def numeric_dtype : ReadItem → Option NumericDType
  | .Holding { dtype := .numeric dtype, .. } => some dtype
  | .Input { dtype := .numeric dtype, .. } => some dtype
  | _ => none

theorem read_limit_of_numeric {item : ReadItem} {dtype : NumericDType}
    (h : numeric_dtype item = some dtype) : READ_LIMITS (item_area item) = 125 := by
  cases item with
  | Holding i => rfl
  | Input i => rfl
  | Coil start count => cases h
  | Discrete start count => cases h

/-- Which values are read, and written, by one request: those that no cut of the plan falls
into. Reads are cut at the multiples of 125 registers after the start of a run of requested
registers, and writes at the multiples of 123 registers after the start of the item. -/
theorem values_carried_whole_iff :
    (∀ items : List ReadItem, (∀ item ∈ items, validate_read_item item = .ok ()) →
      ∀ item ∈ items, ∀ dtype, numeric_dtype item = some dtype →
      ∀ k : Nat, ((k + 1) * regs_per_item dtype : Nat) ≤ item.count →
      ∃ m, IsRun (Requested (item_area item) items) m ∧ m.1 ≤ item.start ∧
        item.start + item.count ≤ m.2 ∧
        (ReadWhole items (item_area item) (item.start + (k * regs_per_item dtype : Nat))
            (regs_per_item dtype) ↔
          (item.start + (k * regs_per_item dtype : Nat) - m.1).toNat % 125 +
            regs_per_item dtype ≤ 125)) ∧
    ∀ (items : List (WriteItem F)) (chunks : List WriteChunk), plan_writes items = .ok chunks →
      ∀ (i : Nat) (start : Int) (values : List (Value F)) (dtype : NumericDType)
        (word_order byte_order : Order),
      items[i]? = some (.WriteHolding start values dtype word_order byte_order) →
      ∀ k < values.length,
      (WriteWhole chunks i (start + (k * regs_per_item dtype : Nat)) (regs_per_item dtype) ↔
        k * regs_per_item dtype % 123 + regs_per_item dtype ≤ 123) := by
  constructor
  · intro items hvalid item hitem dtype hdtype k hk
    have hpos : ∀ item ∈ items, 0 < item.count := fun item hitem =>
      validate_read_item_count (hvalid item hitem)
    obtain ⟨m, hm, hrun, h0, h1⟩ := exists_run_of_item hpos hitem
    refine ⟨m, hrun, h0, h1, ?_⟩
    rw [Nat.succ_mul] at hk
    have hwhole := readWhole_iff hpos hm (regs_per_item_pos dtype)
      (a := item.start + (k * regs_per_item dtype : Nat)) (by omega) (by omega)
    rw [read_limit_of_numeric hdtype] at hwhole
    exact hwhole
  · intro items chunks hplan i start values dtype word_order byte_order hitem k hk
    refine writeWhole_iff hplan hitem (regs_per_item_pos dtype) ?_
    calc k * regs_per_item dtype + regs_per_item dtype
        = (k + 1) * regs_per_item dtype := (Nat.succ_mul _ _).symm
      _ ≤ values.length * regs_per_item dtype := Nat.mul_le_mul_right _ hk

end

/-- 63 values of two registers each, from an address on. -/
def long_read : List ReadItem := [.Holding { start := 0, count := 126, dtype := .numeric .uint32 }]

def long_write : List (WriteItem Float) :=
  [.WriteHolding 0 (List.replicate 62 (.int 1)) .uint32 .big .big]

instance (items : List ReadItem) (area : Area) (a : Int) (r : Nat) :
    Decidable (ReadWhole items area a r) :=
  inferInstanceAs (Decidable (∃ c ∈ plan_read_chunks items, _ ∧ _ ∧ _))

/-- The second value is read and written whole. -/
theorem the_second_value_is_carried_whole :
    ReadWhole long_read .HOLDING_REGISTER (0 + (1 * 2 : Nat)) 2 ∧
      ∃ chunks, plan_writes long_write = .ok chunks ∧ WriteWhole chunks 0 (0 + (1 * 2 : Nat)) 2 := by
  constructor
  · have hread := (values_carried_whole_iff (F := Float)).1 long_read (by decide)
      (.Holding { start := 0, count := 126, dtype := .numeric .uint32 }) (by decide) .uint32 rfl 1
      (by decide)
    obtain ⟨m, hrun, h0, h1, hiff⟩ := hread
    obtain ⟨item, hitem, -, hfirst, -⟩ := hrun.inside m.1 (Int.le_refl _) hrun.nonempty
    obtain rfl := List.mem_singleton.mp hitem
    simp only [ReadItem.start] at h0 hfirst
    have hm : m.1 = 0 := by omega
    rw [hm] at hiff
    exact hiff.mpr (by decide)
  · refine ⟨_, rfl, ?_⟩
    exact ((values_carried_whole_iff (F := Float)).2 long_write _ rfl 0 0
      (List.replicate 62 (.int 1)) .uint32 .big .big rfl 1 (by decide)).mpr (by decide)

/-- The last value of the read stands in two requests, and so does the last one of the write. -/
theorem a_value_is_torn :
    (∀ item ∈ long_read, validate_read_item item = .ok ()) ∧
      ¬ ReadWhole long_read .HOLDING_REGISTER (0 + (62 * 2 : Nat)) 2 ∧
      ∃ chunks, plan_writes long_write = .ok chunks ∧
        ¬ WriteWhole chunks 0 (0 + (61 * 2 : Nat)) 2 := by
  refine ⟨by decide, by decide +kernel, _, rfl, by decide +kernel⟩

end pymod.planner
