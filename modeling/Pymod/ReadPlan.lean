-- The plan of a batch of reads: the chunks of an area are the maximal runs of
-- what its items ask for, cut at the limit of the area.
import Pymod.Planner
import Pymod.PduLaws
import Mathlib.Tactic.Positivity

namespace pymod.planner

open errors codec pdu types Ranges Slices

/-! ## `_merge_ranges` -/

theorem merge_into.spec (last : Range) (rest : List Range) (hlast : last.1 < last.2)
    (hne : ∀ r ∈ rest, r.1 < r.2) (hsorted : (last :: rest).Pairwise fun r q => r.1 ≤ q.1) :
    Separated (merge_into last rest) ∧ (∀ q ∈ merge_into last rest, last.1 ≤ q.1) ∧
      ∀ x, Covered (merge_into last rest) x ↔ Covered (last :: rest) x := by
  fun_induction merge_into last rest with
  | case1 last =>
    refine ⟨⟨by simpa using hlast, by simp⟩, by simp, fun x => Iff.rfl⟩
  | case2 last r rest hle ih =>
    have hr := hne r (by simp)
    have hfirst := (List.pairwise_cons.mp hsorted).1
    have hrest := (List.pairwise_cons.mp hsorted).2
    have hlr := hfirst r (by simp)
    obtain ⟨hsep, hstart, hcov⟩ := ih (by simp only; omega) (fun q hq => hne q (by simp [hq]))
      (List.pairwise_cons.mpr ⟨fun q hq => hfirst q (by simp [hq]), (List.pairwise_cons.mp hrest).2⟩)
    refine ⟨hsep, hstart, fun x => ?_⟩
    rw [hcov x, covered_cons, covered_cons, covered_cons, ← or_assoc]
    refine or_congr_left ?_
    simp only [Holds]
    omega
  | case3 last r rest hlt ih =>
    have hfirst := (List.pairwise_cons.mp hsorted).1
    have hrest := (List.pairwise_cons.mp hsorted).2
    obtain ⟨hsep, hstart, hcov⟩ := ih (hne r (by simp)) (fun q hq => hne q (by simp [hq])) hrest
    refine ⟨⟨?_, ?_⟩, ?_, ?_⟩
    · intro q hq
      rcases List.mem_cons.mp hq with rfl | hq
      · exact hlast
      · exact hsep.nonempty q hq
    · refine List.pairwise_cons.mpr ⟨fun q hq => ?_, hsep.apart⟩
      have := hstart q hq
      omega
    · intro q hq
      rcases List.mem_cons.mp hq with rfl | hq
      · exact Int.le_refl _
      · have := hstart q hq
        have := hfirst r (by simp)
        omega
    · intro x
      rw [covered_cons, covered_cons, hcov x]

instance : Std.Total pair_le := ⟨fun r q => by unfold pair_le; omega⟩

instance : IsTrans Range pair_le := ⟨fun r q p => by unfold pair_le; omega⟩

/-- The merged ranges cover what the ranges covered, with a gap after each. -/
theorem merge_ranges.spec (ranges : List Range) (hne : ∀ r ∈ ranges, r.1 < r.2) :
    Separated (merge_ranges ranges) ∧
      ∀ x, Covered (merge_ranges ranges) x ↔ Covered ranges x := by
  have hperm := List.perm_insertionSort pair_le ranges
  have hpair := List.pairwise_insertionSort pair_le ranges
  have hmem : ∀ r, r ∈ ranges.insertionSort pair_le ↔ r ∈ ranges := fun r => hperm.mem_iff
  have hcov : ∀ x, Covered (ranges.insertionSort pair_le) x ↔ Covered ranges x := by
    intro x
    simp only [Covered, hmem]
  unfold merge_ranges
  cases hs : ranges.insertionSort pair_le with
  | nil =>
    rw [hs] at hcov
    exact ⟨⟨by simp, by simp⟩, hcov⟩
  | cons r rest =>
    rw [hs] at hcov hpair hmem
    have hsorted : (r :: rest).Pairwise fun r q => r.1 ≤ q.1 :=
      hpair.imp fun h => by unfold pair_le at h; omega
    obtain ⟨hsep, _, hsame⟩ := merge_into.spec r rest (hne r ((hmem r).mp (by simp)))
      (fun q hq => hne q ((hmem q).mp (by simp [hq]))) hsorted
    exact ⟨hsep, fun x => (hsame x).trans (hcov x)⟩

/-! ## The split at the limit -/

theorem read_limits_pos (area : Area) : 1 ≤ READ_LIMITS area := by
  cases area <;> decide

theorem read_limits_le (area : Area) : READ_LIMITS area ≤ 2000 := by
  cases area <;> decide

/-- Where a chunk starts, and where it ends. -/
def chunk_range (c : ReadChunk) : Range := (c.start, c.start + c.count)

theorem split_loop.spec (area : Area) (e : Int) (fuel : Nat) (cur : Int)
    (hfuel : e - cur ≤ fuel) :
    Cuts (cur, e) ((split_loop area e fuel cur).map chunk_range) ∧
      ∀ c ∈ split_loop area e fuel cur, c.area = area ∧ 1 ≤ c.count ∧ c.count ≤ READ_LIMITS area
        := by
  have hempty : ∀ cur : Int, e ≤ cur → Cuts (cur, e) [] := by
    intro cur hle
    refine ⟨⟨by simp, by simp⟩, fun x => ?_⟩
    simp only [Covered, Holds, List.not_mem_nil, false_and, exists_false, false_iff]
    omega
  induction fuel generalizing cur with
  | zero => exact ⟨hempty cur (by omega), by simp [split_loop]⟩
  | succ fuel ih =>
    have hlimit := read_limits_pos area
    unfold split_loop
    by_cases hlt : cur < e
    · rw [if_pos hlt]
      simp only
      obtain ⟨hcuts, hall⟩ := ih (min (cur + READ_LIMITS area) e) (by omega)
      refine ⟨⟨⟨?_, ?_⟩, ?_⟩, ?_⟩
      · intro r hr
        rcases List.mem_cons.mp hr with rfl | hr
        · simp only [chunk_range]; omega
        · exact hcuts.ascending.nonempty r hr
      · refine List.pairwise_cons.mpr ⟨fun q hq => ?_, hcuts.ascending.ordered⟩
        have := (hcuts.inside q hq).1
        simp only [chunk_range]
        omega
      · intro x
        rw [List.map_cons, covered_cons, hcuts.covered x]
        simp only [chunk_range, Holds]
        omega
      · intro c hc
        rcases List.mem_cons.mp hc with rfl | hc
        · exact ⟨rfl, by simp only; omega, by simp only; omega⟩
        · exact hall c hc
    · rw [if_neg hlt]
      exact ⟨hempty cur (by omega), by simp⟩

theorem split_range.spec (area : Area) (r : Range) :
    Cuts r ((split_range area r).map chunk_range) ∧
      ∀ c ∈ split_range area r, c.area = area ∧ 1 ≤ c.count ∧ c.count ≤ READ_LIMITS area :=
  split_loop.spec area r.2 _ r.1 (by omega)

/-- The chunks of a range: one at every multiple of the limit that is left in it. -/
theorem mem_split_loop (area : Area) (e : Int) (fuel : Nat) (cur : Int) (c : ReadChunk)
    (hfuel : e - cur ≤ fuel) :
    c ∈ split_loop area e fuel cur ↔ ∃ j : Nat, cur + j * READ_LIMITS area < e ∧
      c = ⟨area, cur + j * READ_LIMITS area,
        min (READ_LIMITS area) (e - (cur + j * READ_LIMITS area))⟩ := by
  have hlimit := read_limits_pos area
  have hpast : ∀ k : Nat, 0 ≤ k * READ_LIMITS area := fun k => by positivity
  induction fuel generalizing cur with
  | zero =>
    simp only [split_loop, List.not_mem_nil, false_iff]
    rintro ⟨j, hj, _⟩
    have := hpast j
    omega
  | succ fuel ih =>
    unfold split_loop
    by_cases hlt : cur < e
    · have hrest := ih (min (cur + READ_LIMITS area) e) (by omega)
      rw [if_pos hlt]
      simp only
      refine List.mem_cons.trans ((or_congr_right hrest).trans ?_)
      clear hrest ih
      constructor
      · rintro (rfl | ⟨j, hj, rfl⟩)
        · refine ⟨0, by simpa using hlt, ?_⟩
          simp only [ReadChunk.mk.injEq, true_and]
          omega
        · have := hpast j
          have hmin : min (cur + READ_LIMITS area) e = cur + READ_LIMITS area := by omega
          have hnext : cur + READ_LIMITS area + j * READ_LIMITS area =
              cur + ((j + 1 : Nat) : Int) * READ_LIMITS area := by
            push_cast
            ring
          rw [hmin, hnext] at hj ⊢
          exact ⟨j + 1, hj, rfl⟩
      · rintro ⟨j, hj, rfl⟩
        rcases j with _ | j
        · refine Or.inl ?_
          simp only [ReadChunk.mk.injEq, true_and]
          omega
        · have := hpast j
          have hnext : cur + ((j + 1 : Nat) : Int) * READ_LIMITS area =
              cur + READ_LIMITS area + j * READ_LIMITS area := by
            push_cast
            ring
          rw [hnext] at hj ⊢
          have hmin : min (cur + READ_LIMITS area) e = cur + READ_LIMITS area := by omega
          rw [hmin]
          exact Or.inr ⟨j, hj, rfl⟩
    · rw [if_neg hlt]
      simp only [List.not_mem_nil, false_iff]
      rintro ⟨j, hj, _⟩
      have := hpast j
      omega

/-! ## The groups -/

/-- The ranges that the items of an area ask for. -/
def area_ranges (area : Area) (items : List ReadItem) : List Range :=
  (items.filter fun item => item_area item = area).map item_range

/-- The ranges under a key of the dict. -/
def ranges_at (area : Area) (by_area : List (Area × List Range)) : List Range :=
  (by_area.lookup area).getD []

theorem ranges_at_cons (a b : Area) (ranges : List Range) (rest : List (Area × List Range)) :
    ranges_at a ((b, ranges) :: rest) = if b = a then ranges else ranges_at a rest := by
  by_cases h : b = a
  · subst h
    simp [ranges_at]
  · have h' : (a == b) = false := beq_false_of_ne fun hab => h hab.symm
    simp [ranges_at, List.lookup_cons, h, h']

theorem ranges_at_add_range (a area : Area) (r : Range) (by_area : List (Area × List Range)) :
    ranges_at a (add_range area r by_area) =
      ranges_at a by_area ++ if area = a then [r] else [] := by
  induction by_area with
  | nil => exact ranges_at_cons a area [r] []
  | cons p rest ih =>
    obtain ⟨b, ranges⟩ := p
    unfold add_range
    by_cases hb : b = area
    · subst hb
      rw [if_pos rfl, ranges_at_cons, ranges_at_cons]
      by_cases h : b = a <;> simp [h]
    · rw [if_neg hb, ranges_at_cons, ranges_at_cons, ih]
      by_cases h : b = a
      · have ha : ¬ area = a := fun hc => hb (h.trans hc.symm)
        simp [h, ha]
      · simp [h]

theorem mem_keys_add_range (a area : Area) (r : Range) (by_area : List (Area × List Range)) :
    a ∈ (add_range area r by_area).map Prod.fst ↔ a = area ∨ a ∈ by_area.map Prod.fst := by
  induction by_area with
  | nil => simp [add_range]
  | cons p rest ih =>
    obtain ⟨b, ranges⟩ := p
    unfold add_range
    by_cases hb : b = area
    · subst hb; simp
    · rw [if_neg hb, List.map_cons, List.mem_cons, ih, List.map_cons, List.mem_cons]
      tauto

theorem nodup_keys_add_range {area : Area} {r : Range} {by_area : List (Area × List Range)}
    (h : (by_area.map Prod.fst).Nodup) : ((add_range area r by_area).map Prod.fst).Nodup := by
  induction by_area with
  | nil => simp [add_range]
  | cons p rest ih =>
    obtain ⟨b, ranges⟩ := p
    rw [List.map_cons, List.nodup_cons] at h
    unfold add_range
    by_cases hb : b = area
    · rw [if_pos hb, List.map_cons, List.nodup_cons]
      exact h
    · rw [if_neg hb, List.map_cons, List.nodup_cons, mem_keys_add_range]
      refine ⟨?_, ih h.2⟩
      rintro (h1 | h1)
      · exact hb h1
      · exact h.1 h1

theorem group_by_area.spec (items : List ReadItem) :
    ((group_by_area items).map Prod.fst).Nodup ∧
      ∀ a, ranges_at a (group_by_area items) = area_ranges a items := by
  induction items using List.reverseRecOn with
  | nil => exact ⟨by simp [group_by_area], fun a => by simp [group_by_area, ranges_at, area_ranges]⟩
  | append_singleton items item ih =>
    have hstep : group_by_area (items ++ [item]) =
        add_range (item_area item) (item_range item) (group_by_area items) := by
      simp [group_by_area]
    rw [hstep]
    refine ⟨nodup_keys_add_range ih.1, fun a => ?_⟩
    rw [ranges_at_add_range, ih.2 a]
    by_cases h : item_area item = a <;> simp [area_ranges, h]

/-! ## The plan -/

/-- The chunks of one area, in the order of the plan. -/
def area_chunks (area : Area) (items : List ReadItem) : List ReadChunk :=
  (merge_ranges (area_ranges area items)).flatMap (split_range area)

theorem area_of_mem_split {area : Area} {ranges : List Range} {c : ReadChunk}
    (h : c ∈ ranges.flatMap (split_range area)) : c.area = area := by
  obtain ⟨r, _, hc⟩ := List.mem_flatMap.mp h
  exact ((split_range.spec area r).2 c hc).1

/-- The chunks of the plan that are of one area. -/
theorem filter_plan_read_chunks (a : Area) (items : List ReadItem) :
    (plan_read_chunks items).filter (fun c => c.area = a) = area_chunks a items := by
  have hlocal : ∀ d : List (Area × List Range), (d.map Prod.fst).Nodup →
      (d.flatMap fun p => (merge_ranges p.2).flatMap (split_range p.1)).filter
          (fun c => c.area = a) =
        (merge_ranges (ranges_at a d)).flatMap (split_range a) := by
    intro d hd
    induction d with
    | nil => rfl
    | cons p rest ih =>
      obtain ⟨b, ranges⟩ := p
      rw [List.map_cons, List.nodup_cons] at hd
      rw [List.flatMap_cons, List.filter_append, ih hd.2]
      by_cases hb : b = a
      · subst hb
        have hnone : ranges_at b rest = [] := by
          have : rest.lookup b = none := by
            rw [List.lookup_eq_none_iff]
            intro q hq
            have hkey : q.1 ∈ rest.map Prod.fst := List.mem_map_of_mem hq
            have hne : b ≠ q.1 := fun h => hd.1 (h ▸ hkey)
            simpa using hne
          rw [ranges_at, this]
          rfl
        have hall : ((merge_ranges ranges).flatMap (split_range b)).filter
            (fun c => decide (c.area = b)) = (merge_ranges ranges).flatMap (split_range b) := by
          rw [List.filter_eq_self]
          exact fun c hc => by simpa using area_of_mem_split hc
        rw [hall, hnone, ranges_at_cons, if_pos rfl]
        simp [merge_ranges]
      · have hnone : ((merge_ranges ranges).flatMap (split_range b)).filter
            (fun c => decide (c.area = a)) = [] := by
          rw [List.filter_eq_nil_iff]
          intro c hc h
          have := area_of_mem_split hc
          simp only [decide_eq_true_eq] at h
          exact hb (this.symm.trans h)
        rw [hnone, List.nil_append, ranges_at_cons, if_neg hb]
  obtain ⟨hnodup, hranges⟩ := group_by_area.spec items
  rw [area_chunks, ← hranges a]
  exact hlocal (group_by_area items) hnodup

/-- What the items of an area ask for. -/
def Requested (area : Area) (items : List ReadItem) (x : Int) : Prop :=
  ∃ item ∈ items, item_area item = area ∧ item.start ≤ x ∧ x < item.start + item.count

theorem covered_area_ranges (area : Area) (items : List ReadItem) (x : Int) :
    Covered (area_ranges area items) x ↔ Requested area items x := by
  simp only [Covered, Holds, area_ranges, Requested, List.mem_map, List.mem_filter,
    decide_eq_true_eq]
  constructor
  · rintro ⟨_, ⟨item, ⟨hmem, harea⟩, rfl⟩, h⟩
    exact ⟨item, hmem, harea, h⟩
  · rintro ⟨item, hmem, harea, h⟩
    exact ⟨_, ⟨item, ⟨hmem, harea⟩, rfl⟩, h⟩

theorem area_ranges_nonempty (area : Area) {items : List ReadItem}
    (hpos : ∀ item ∈ items, 0 < item.count) : ∀ r ∈ area_ranges area items, r.1 < r.2 := by
  intro r hr
  obtain ⟨item, hitem, rfl⟩ := List.mem_map.mp hr
  have := hpos item (List.mem_filter.mp hitem).1
  simp only [item_range]
  omega

/-- The chunks of an area are ascending, and cover what its items ask for and no more. -/
theorem area_chunks.spec (area : Area) {items : List ReadItem}
    (hpos : ∀ item ∈ items, 0 < item.count) :
    Ascending ((area_chunks area items).map chunk_range) ∧
      (∀ x, Covered ((area_chunks area items).map chunk_range) x ↔ Requested area items x) ∧
      ∀ c ∈ area_chunks area items, c.area = area ∧ 1 ≤ c.count ∧ c.count ≤ READ_LIMITS area
        := by
  obtain ⟨hsep, hmerge⟩ := merge_ranges.spec _ (area_ranges_nonempty area hpos)
  obtain ⟨hasc, hcov⟩ := cuts_flatMap (fun r => (split_range area r).map chunk_range)
    hsep.ascending fun r _ => (split_range.spec area r).1
  rw [area_chunks, List.map_flatMap]
  refine ⟨hasc, fun x => ?_, fun c hc => ?_⟩
  · rw [hcov x, hmerge x, covered_area_ranges]
  · obtain ⟨r, _, hc⟩ := List.mem_flatMap.mp hc
    exact (split_range.spec area r).2 c hc

/-- Every chunk of the plan is one of its area's, and fits into one request. -/
theorem plan_read_chunks.spec {items : List ReadItem} (hpos : ∀ item ∈ items, 0 < item.count)
    {c : ReadChunk} (hc : c ∈ plan_read_chunks items) :
    c ∈ area_chunks c.area items ∧ 1 ≤ c.count ∧ c.count ≤ READ_LIMITS c.area ∧
      ∀ x, c.start ≤ x → x < c.start + c.count → Requested c.area items x := by
  have hmem : c ∈ area_chunks c.area items := by
    rw [← filter_plan_read_chunks, List.mem_filter]
    exact ⟨hc, by simp⟩
  obtain ⟨_, hcov, hall⟩ := area_chunks.spec c.area hpos
  obtain ⟨_, h0, h1⟩ := hall c hmem
  refine ⟨hmem, h0, h1, fun x hx hx' => (hcov x).mp ?_⟩
  exact ⟨chunk_range c, List.mem_map_of_mem hmem, hx, hx'⟩

/-- Where the requests of an area start: at the first address of each maximal run of what its
items ask for, and at every multiple of the limit after it that is still in the run. -/
def ReadStart (area : Area) (items : List ReadItem) (x : Int) : Prop :=
  ∃ r, IsRun (Requested area items) r ∧ ∃ k : Nat, x = r.1 + k * READ_LIMITS area ∧ x < r.2

/-- The plan holds a chunk for each such address, up to the limit or to the end of the run. -/
theorem mem_plan_read_chunks {items : List ReadItem} (hpos : ∀ item ∈ items, 0 < item.count)
    (c : ReadChunk) :
    c ∈ plan_read_chunks items ↔ ∃ r, IsRun (Requested c.area items) r ∧
      ∃ k : Nat, r.1 + k * READ_LIMITS c.area < r.2 ∧
        c = ⟨c.area, r.1 + k * READ_LIMITS c.area,
          min (READ_LIMITS c.area) (r.2 - (r.1 + k * READ_LIMITS c.area))⟩ := by
  obtain ⟨hsep, hmerge⟩ := merge_ranges.spec _ (area_ranges_nonempty c.area hpos)
  have hcov : Covered (merge_ranges (area_ranges c.area items)) = Requested c.area items := by
    funext y
    exact propext ((hmerge y).trans (covered_area_ranges c.area items y))
  have hmem : c ∈ plan_read_chunks items ↔ c ∈ area_chunks c.area items := by
    rw [← filter_plan_read_chunks, List.mem_filter]
    simp
  rw [hmem, area_chunks, List.mem_flatMap, ← hcov]
  simp only [← hsep.mem_iff_isRun]
  refine exists_congr fun r => and_congr_right fun _ => ?_
  exact mem_split_loop c.area r.2 _ r.1 c (by omega)

theorem plan_read_chunks_starts {items : List ReadItem} (hpos : ∀ item ∈ items, 0 < item.count)
    (area : Area) (x : Int) :
    (∃ c ∈ plan_read_chunks items, c.area = area ∧ c.start = x) ↔ ReadStart area items x := by
  constructor
  · rintro ⟨c, hc, rfl, rfl⟩
    obtain ⟨r, hr, k, hk, hck⟩ := (mem_plan_read_chunks hpos c).mp hc
    have hstart : c.start = r.1 + k * READ_LIMITS c.area := congrArg ReadChunk.start hck
    exact ⟨r, hr, k, hstart, by omega⟩
  · rintro ⟨r, hr, k, rfl, hk⟩
    let c : ReadChunk := ⟨area, r.1 + k * READ_LIMITS area,
      min (READ_LIMITS area) (r.2 - (r.1 + k * READ_LIMITS area))⟩
    exact ⟨c, (mem_plan_read_chunks hpos c).mpr ⟨r, hr, k, hk, rfl⟩, rfl, rfl⟩

end pymod.planner
