-- The plan of a batch of reads is the smallest there is: each address that is
-- asked for is read once, and no fewer requests within the limits could read them
-- all. It depends on the addresses alone, not on the items that ask for them.
import Pymod.ReadPlan
import Mathlib.Logic.Relation

namespace pymod.planner

open errors codec pdu types Ranges

/-- Whether a request reads the unit at an address of an area. -/
def reads (area : Area) (x : Int) (c : ReadChunk) : Bool :=
  decide (Holds (chunk_range c) x) && decide (c.area = area)

theorem reads_iff (area : Area) (x : Int) (c : ReadChunk) :
    reads area x c = true ↔ Holds (chunk_range c) x ∧ c.area = area := by
  simp [reads]

/-! ## Each address once -/

theorem countP_reads (area : Area) (x : Int) (items : List ReadItem) :
    (plan_read_chunks items).countP (reads area x) =
      ((area_chunks area items).map chunk_range).countP fun r => decide (Holds r x) := by
  rw [← filter_plan_read_chunks, List.countP_map, List.countP_filter]
  rfl

theorem each_address_is_read_once {items : List ReadItem} (hpos : ∀ item ∈ items, 0 < item.count)
    {area : Area} {x : Int} (hx : Requested area items x) :
    (plan_read_chunks items).countP (reads area x) = 1 := by
  obtain ⟨hasc, hcov, _⟩ := area_chunks.spec area hpos
  rw [countP_reads]
  exact hasc.countP_holds ((hcov x).mpr hx)

theorem no_other_address_is_read {items : List ReadItem} (hpos : ∀ item ∈ items, 0 < item.count)
    {area : Area} {x : Int} (hx : ¬ Requested area items x) :
    (plan_read_chunks items).countP (reads area x) = 0 := by
  rw [List.countP_eq_zero]
  intro c hc hread
  obtain ⟨⟨h1, h2⟩, rfl⟩ := (reads_iff area x c).mp hread
  exact hx ((plan_read_chunks.spec hpos hc).2.2.2 x h1 h2)

theorem nodup_plan_read_chunks {items : List ReadItem} (hpos : ∀ item ∈ items, 0 < item.count) :
    (plan_read_chunks items).Nodup := by
  rw [List.nodup_iff_count_le_one]
  intro c
  have hnodup : (area_chunks c.area items).Nodup :=
    List.Nodup.of_map chunk_range (area_chunks.spec c.area hpos).1.nodup
  rw [← filter_plan_read_chunks] at hnodup
  have hcount := List.nodup_iff_count_le_one.mp hnodup c
  rwa [List.count_filter (by simp)] at hcount

/-! ## No fewer requests -/

/-- Requests, none of them above the limit of its area, that read what the items ask for
and nothing else. -/
structure Covers (items : List ReadItem) (family : List ReadChunk) : Prop where
  limits : ∀ c ∈ family, c.count ≤ READ_LIMITS c.area
  union : ∀ area x, (∃ c ∈ family, reads area x c = true) ↔ Requested area items x

/-- A chunk is as large as its area allows, or the address after it is not asked for. -/
theorem full_or_last {items : List ReadItem} (hpos : ∀ item ∈ items, 0 < item.count)
    {c : ReadChunk} (hc : c ∈ plan_read_chunks items) :
    c.count = READ_LIMITS c.area ∨ ¬ Requested c.area items (c.start + c.count) := by
  obtain ⟨r, hrun, k, hk, hck⟩ := (mem_plan_read_chunks hpos c).mp hc
  have hstart : c.start = r.1 + k * READ_LIMITS c.area := congrArg ReadChunk.start hck
  have hcount : c.count = min (READ_LIMITS c.area) (r.2 - (r.1 + k * READ_LIMITS c.area)) :=
    congrArg ReadChunk.count hck
  rcases Int.le_total (READ_LIMITS c.area) (r.2 - (r.1 + k * READ_LIMITS c.area)) with hle | hle
  · left
    omega
  · right
    have hend : c.start + c.count = r.2 := by omega
    rw [hend]
    exact hrun.after

/-- The chunks of an area do not overlap. -/
theorem read_chunks_apart {items : List ReadItem} (hpos : ∀ item ∈ items, 0 < item.count)
    {c d : ReadChunk} (hc : c ∈ plan_read_chunks items) (hd : d ∈ plan_read_chunks items)
    (harea : c.area = d.area) (hle : c.start ≤ d.start) : c = d ∨ c.start + c.count ≤ d.start := by
  by_contra hnot
  rw [not_or] at hnot
  obtain ⟨hne, hlt⟩ := hnot
  have hdc := (plan_read_chunks.spec hpos hd).2.1
  have hreq : Requested c.area items d.start :=
    (plan_read_chunks.spec hpos hc).2.2.2 d.start hle (by omega)
  have honce := each_address_is_read_once hpos hreq
  have hboth : [c, d].Subperm ((plan_read_chunks items).filter (reads c.area d.start)) := by
    apply List.Nodup.subperm
    · simpa using hne
    · intro e he
      rw [List.mem_filter, reads_iff]
      rcases List.mem_pair.mp he with rfl | rfl
      · exact ⟨hc, ⟨hle, by simp only [chunk_range]; omega⟩, rfl⟩
      · exact ⟨hd, ⟨Int.le_refl _, by simp only [chunk_range]; omega⟩, harea.symm⟩
  have htwo := hboth.length_le
  rw [← List.countP_eq_length_filter, honce] at htwo
  simp at htwo

/-- A request that reads nothing else than what is asked for holds the start of one chunk at
most: a chunk that starts before another one in it would be full, or end in it. -/
theorem one_start_in_a_request {items : List ReadItem} (hpos : ∀ item ∈ items, 0 < item.count)
    {q c d : ReadChunk} (hlimit : q.count ≤ READ_LIMITS q.area)
    (hin : ∀ x, Holds (chunk_range q) x → Requested q.area items x)
    (hc : c ∈ plan_read_chunks items) (hd : d ∈ plan_read_chunks items)
    (hqc : reads c.area c.start q = true) (hqd : reads d.area d.start q = true) : c = d := by
  rw [reads_iff] at hqc hqd
  obtain ⟨hc1, hca⟩ := hqc
  obtain ⟨hd1, hda⟩ := hqd
  have hkey : ∀ {c d : ReadChunk}, c ∈ plan_read_chunks items → d ∈ plan_read_chunks items →
      q.area = c.area → q.area = d.area → Holds (chunk_range q) c.start →
      Holds (chunk_range q) d.start → c.start ≤ d.start → c = d := by
    intro c d hc hd hca hda hqc hqd hle
    rcases read_chunks_apart hpos hc hd (hca.symm.trans hda) hle with heq | hbefore
    · exact heq
    · have hcount := (plan_read_chunks.spec hpos hc).2.1
      simp only [Holds, chunk_range] at hqc hqd
      rcases full_or_last hpos hc with hfull | hlast
      · rw [hca] at hlimit
        omega
      · rw [← hca] at hlast
        exact absurd (hin (c.start + c.count) (by simp only [Holds, chunk_range]; omega)) hlast
  rcases Int.le_total c.start d.start with hle | hle
  · exact hkey hc hd hca hda hc1 hd1 hle
  · exact (hkey hd hc hda hca hd1 hc1 hle).symm

theorem no_fewer_requests {items : List ReadItem} (hpos : ∀ item ∈ items, 0 < item.count)
    {family : List ReadChunk} (hcov : Covers items family) :
    (plan_read_chunks items).length ≤ family.length := by
  apply length_le_of_each_holds_one (fun q c : ReadChunk => reads c.area c.start q = true)
    (nodup_plan_read_chunks hpos)
  · intro c hc
    obtain ⟨_, hcount, _, hin⟩ := plan_read_chunks.spec hpos hc
    exact (hcov.union c.area c.start).mpr (hin c.start (Int.le_refl _) (by omega))
  · intro q hq c hc d hd hqc hqd
    refine one_start_in_a_request hpos (hcov.limits q hq) (fun x hx => ?_) hc hd hqc hqd
    exact (hcov.union q.area x).mp ⟨q, hq, (reads_iff q.area x q).mpr ⟨hx, rfl⟩⟩

/-! ## The addresses alone -/

theorem plan_perm_of_requested {items items' : List ReadItem}
    (hpos : ∀ item ∈ items, 0 < item.count) (hpos' : ∀ item ∈ items', 0 < item.count)
    (hsame : ∀ area x, Requested area items' x ↔ Requested area items x) :
    (plan_read_chunks items').Perm (plan_read_chunks items) := by
  rw [List.perm_ext_iff_of_nodup (nodup_plan_read_chunks hpos') (nodup_plan_read_chunks hpos)]
  intro c
  have hset : Requested c.area items' = Requested c.area items := by
    funext x
    exact propext (hsame c.area x)
  rw [mem_plan_read_chunks hpos', mem_plan_read_chunks hpos, hset]

/-- The items in another order, with an item twice, or with an item cut in two that meet or
overlap. -/
inductive Regrouped : List ReadItem → List ReadItem → Prop
  | permute {items items' : List ReadItem} (h : items.Perm items') : Regrouped items items'
  | duplicate {item : ReadItem} {items : List ReadItem} (h : item ∈ items) :
      Regrouped items (item :: items)
  | split {item first second : ReadItem} {items : List ReadItem}
      (hfirst : item_area first = item_area item) (hsecond : item_area second = item_area item)
      (hpos1 : 0 < first.count) (hpos2 : 0 < second.count) (hstart : first.start = item.start)
      (hend : second.start + second.count = item.start + item.count)
      (hmeet : second.start ≤ first.start + first.count) (hle1 : item.start ≤ second.start)
      (hle2 : first.start + first.count ≤ item.start + item.count) :
      Regrouped (item :: items) (first :: second :: items)

theorem requested_cons (area : Area) (item : ReadItem) (items : List ReadItem) (x : Int) :
    Requested area (item :: items) x ↔
      item_area item = area ∧ Holds (item_range item) x ∨ Requested area items x := by
  simp only [Requested, List.mem_cons, exists_eq_or_imp]
  rfl

theorem Regrouped.requested {items items' : List ReadItem} (h : Regrouped items items')
    (area : Area) (x : Int) : Requested area items' x ↔ Requested area items x := by
  cases h with
  | permute h => simp only [Requested, h.mem_iff]
  | @duplicate item items h =>
    rw [requested_cons, or_iff_right_iff_imp]
    rintro ⟨harea, hx⟩
    exact ⟨item, h, harea, hx⟩
  | split hfirst hsecond hpos1 hpos2 hstart hend hmeet hle1 hle2 =>
    rw [requested_cons, requested_cons, requested_cons, hfirst, hsecond, ← or_assoc, ← and_or_left]
    refine or_congr_left (and_congr_right fun _ => ?_)
    simp only [Holds, item_range]
    omega

theorem Regrouped.pos_iff {items items' : List ReadItem} (h : Regrouped items items') :
    (∀ item ∈ items, 0 < item.count) ↔ ∀ item ∈ items', 0 < item.count := by
  cases h with
  | permute h => simp only [h.mem_iff]
  | duplicate h =>
    rw [List.forall_mem_cons]
    exact ⟨fun hpos => ⟨hpos _ h, hpos⟩, fun hpos => hpos.2⟩
  | split hfirst hsecond hpos1 hpos2 hstart hend hmeet hle1 hle2 =>
    rw [List.forall_mem_cons, List.forall_mem_cons, List.forall_mem_cons]
    constructor
    · rintro ⟨_, hpos⟩
      exact ⟨hpos1, hpos2, hpos⟩
    · rintro ⟨_, _, hpos⟩
      exact ⟨by omega, hpos⟩

/-- What any number of regroupings, there and back, leave as it was. -/
theorem regrouped_invariant {items items' : List ReadItem}
    (h : Relation.EqvGen Regrouped items items') :
    ((∀ item ∈ items, 0 < item.count) ↔ ∀ item ∈ items', 0 < item.count) ∧
      ∀ area x, Requested area items' x ↔ Requested area items x := by
  induction h with
  | rel _ _ h => exact ⟨h.pos_iff, h.requested⟩
  | refl _ => exact ⟨Iff.rfl, fun _ _ => Iff.rfl⟩
  | symm _ _ _ ih => exact ⟨ih.1.symm, fun area x => (ih.2 area x).symm⟩
  | trans _ _ _ _ _ ih1 ih2 =>
    exact ⟨ih1.1.trans ih2.1, fun area x => (ih2.2 area x).trans (ih1.2 area x)⟩

/-- The chunks of a batch read each address that is asked for once and no other, within the
limits, with as few requests as that takes. Batches that ask for the same addresses have the
same chunks: items in another order, given twice, cut or joined change nothing. -/
theorem the_plan_is_minimal {items : List ReadItem} (hpos : ∀ item ∈ items, 0 < item.count) :
    (∀ area x, (Requested area items x → (plan_read_chunks items).countP (reads area x) = 1) ∧
      (¬ Requested area items x → (plan_read_chunks items).countP (reads area x) = 0)) ∧
    (∀ c ∈ plan_read_chunks items, 1 ≤ c.count ∧ c.count ≤ READ_LIMITS c.area) ∧
    (∀ family, Covers items family → (plan_read_chunks items).length ≤ family.length) ∧
    (∀ items', (∀ item ∈ items', 0 < item.count) →
      (∀ area x, Requested area items' x ↔ Requested area items x) →
      (plan_read_chunks items').Perm (plan_read_chunks items)) ∧
    ∀ items', Relation.EqvGen Regrouped items items' →
      (plan_read_chunks items').Perm (plan_read_chunks items) := by
  refine ⟨fun area x => ⟨?_, ?_⟩, fun c hc => ?_, fun family hcov => ?_, fun items' => ?_,
    fun items' h => ?_⟩
  · exact each_address_is_read_once hpos
  · exact no_other_address_is_read hpos
  · obtain ⟨_, h1, h2, _⟩ := plan_read_chunks.spec hpos hc
    exact ⟨h1, h2⟩
  · exact no_fewer_requests hpos hcov
  · exact plan_perm_of_requested hpos
  · obtain ⟨hpos', hsame⟩ := regrouped_invariant h
    exact plan_perm_of_requested hpos (hpos'.mp hpos) hsame

/-- Two items that overlap and ask for 130 registers in all take two requests, in either order. -/
theorem two_requests_for_130_registers :
    (plan_read_chunks [.Holding { start := 0, count := 100 },
      .Holding { start := 60, count := 70 }]).length = 2 ∧
    (plan_read_chunks [.Holding { start := 60, count := 70 },
      .Holding { start := 0, count := 100 }]).Perm
      (plan_read_chunks [.Holding { start := 0, count := 100 },
        .Holding { start := 60, count := 70 }]) := by
  have hpos : ∀ item ∈ [ReadItem.Holding { start := 0, count := 100 },
      .Holding { start := 60, count := 70 }], 0 < item.count := by decide
  obtain ⟨_, _, _, _, hregrouped⟩ := the_plan_is_minimal hpos
  refine ⟨by decide, ?_⟩
  exact hregrouped _ (.rel _ _ (.permute (.swap _ _ _)))

end pymod.planner
