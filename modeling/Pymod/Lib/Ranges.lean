-- Lists of half-open ranges of integers, in ascending order: which integers
-- they cover, which of them meet a given range, and the maximal runs of a set.
import Pymod.Lib.Slices
import Mathlib.Order.Basic
import Mathlib.Data.List.Pairwise
import Mathlib.Data.List.Nodup
import Mathlib.Data.List.Perm.Subperm
import Mathlib.Tactic.Choose

namespace Ranges

open Slices

/-- A first integer, and the integer after the last one. -/
abbrev Range := Int × Int

def Holds (r : Range) (x : Int) : Prop := r.1 ≤ x ∧ x < r.2

instance (r : Range) (x : Int) : Decidable (Holds r x) := inferInstanceAs (Decidable (_ ∧ _))

def Covered (l : List Range) (x : Int) : Prop := ∃ r ∈ l, Holds r x

def meets (r q : Range) : Bool := decide (r.1 < q.2) && decide (q.1 < r.2)

theorem meets_iff (r q : Range) : meets r q = true ↔ r.1 < q.2 ∧ q.1 < r.2 := by
  simp [meets]

/-- Each range ends before the next one starts, or where it starts. -/
structure Ascending (l : List Range) : Prop where
  nonempty : ∀ r ∈ l, r.1 < r.2
  ordered : l.Pairwise fun r q => r.2 ≤ q.1

/-- An integer lies between each range and the next one. -/
structure Separated (l : List Range) : Prop where
  nonempty : ∀ r ∈ l, r.1 < r.2
  apart : l.Pairwise fun r q => r.2 < q.1

theorem Separated.ascending {l : List Range} (h : Separated l) : Ascending l :=
  ⟨h.nonempty, h.apart.imp fun hr => Int.le_of_lt hr⟩

theorem Ascending.tail {r : Range} {l : List Range} (h : Ascending (r :: l)) : Ascending l :=
  ⟨fun q hq => h.nonempty q (List.mem_cons_of_mem r hq), (List.pairwise_cons.mp h.ordered).2⟩

theorem Ascending.after {r : Range} {l : List Range} (h : Ascending (r :: l)) :
    ∀ q ∈ l, r.2 ≤ q.1 := (List.pairwise_cons.mp h.ordered).1

theorem covered_cons {r : Range} {l : List Range} {x : Int} :
    Covered (r :: l) x ↔ Holds r x ∨ Covered l x := by
  simp [Covered]

theorem covered_append {l m : List Range} {x : Int} :
    Covered (l ++ m) x ↔ Covered l x ∨ Covered m x := by
  simp only [Covered, List.mem_append, or_and_right, exists_or]

theorem Ascending.nodup {l : List Range} (h : Ascending l) : l.Nodup := by
  refine h.ordered.imp_of_mem fun {r q} hr _ hle => ?_
  rintro rfl
  have := h.nonempty r hr
  omega

/-- No integer is covered twice. -/
theorem Ascending.countP_holds {l : List Range} (h : Ascending l) {x : Int} (hx : Covered l x) :
    l.countP (fun r => decide (Holds r x)) = 1 := by
  induction l with
  | nil =>
    obtain ⟨r, hr, _⟩ := hx
    simp at hr
  | cons r l ih =>
    have hafter := h.after
    rcases covered_cons.mp hx with hr | hl
    · have hnone : l.countP (fun q => decide (Holds q x)) = 0 := by
        rw [List.countP_eq_zero]
        intro q hq hqx
        have h1 := hafter q hq
        have h2 := (decide_eq_true_eq.mp hqx).1
        have h3 := hr.2
        omega
      rw [List.countP_cons, hnone, if_pos (decide_eq_true hr)]
    · have hr : ¬ Holds r x := by
        rintro ⟨_, h2⟩
        obtain ⟨q, hq, h1, _⟩ := hl
        have := hafter q hq
        omega
      rw [List.countP_cons, ih h.tail hl, if_neg (by simpa using hr)]

/-! ## Ranges cut into pieces -/

/-- The pieces are ascending and cover the range, and nothing else. -/
structure Cuts (r : Range) (pieces : List Range) : Prop where
  ascending : Ascending pieces
  covered : ∀ x, Covered pieces x ↔ Holds r x

theorem Cuts.inside {r : Range} {pieces : List Range} (h : Cuts r pieces) :
    ∀ p ∈ pieces, r.1 ≤ p.1 ∧ p.2 ≤ r.2 := by
  intro p hp
  have hne := h.ascending.nonempty p hp
  have hfirst := (h.covered p.1).mp ⟨p, hp, Int.le_refl _, hne⟩
  have hlast := (h.covered (p.2 - 1)).mp ⟨p, hp, by omega, by omega⟩
  exact ⟨hfirst.1, by have := hlast.2; omega⟩

/-- The pieces of ascending ranges, put in one list. -/
theorem cuts_flatMap {l : List Range} (cut : Range → List Range) (hl : Ascending l)
    (hcut : ∀ r ∈ l, Cuts r (cut r)) :
    Ascending (l.flatMap cut) ∧ ∀ x, Covered (l.flatMap cut) x ↔ Covered l x := by
  induction l with
  | nil => exact ⟨⟨by simp, by simp⟩, by simp [Covered]⟩
  | cons r l ih =>
    obtain ⟨hasc, hcov⟩ := ih hl.tail fun q hq => hcut q (by simp [hq])
    have hr := hcut r (by simp)
    rw [List.flatMap_cons]
    refine ⟨⟨?_, ?_⟩, ?_⟩
    · intro p hp
      rcases List.mem_append.mp hp with hp | hp
      · exact hr.ascending.nonempty p hp
      · exact hasc.nonempty p hp
    · rw [List.pairwise_append]
      refine ⟨hr.ascending.ordered, hasc.ordered, ?_⟩
      intro p hp q hq
      obtain ⟨t, ht, hqt⟩ := List.mem_flatMap.mp hq
      have h1 := (hr.inside p hp).2
      have h2 := ((hcut t (by simp [ht])).inside q hqt).1
      have h3 := hl.after t ht
      omega
    · intro x
      rw [covered_append, covered_cons, hr.covered x, hcov x]

/-! ## How few can hold a list of points -/

/-- No fewer than the points, when each holds one of them at most. -/
theorem length_le_of_each_holds_one {α β : Type} (holds : β → α → Prop) {points : List α}
    {family : List β} (hnodup : points.Nodup) (hheld : ∀ p ∈ points, ∃ b ∈ family, holds b p)
    (hone : ∀ b ∈ family, ∀ p ∈ points, ∀ q ∈ points, holds b p → holds b q → p = q) :
    points.length ≤ family.length := by
  rcases Nat.eq_zero_or_pos points.length with hnone | hsome
  · omega
  obtain ⟨p₀, hp₀⟩ := List.exists_mem_of_length_pos hsome
  obtain ⟨b₀, _, _⟩ := hheld p₀ hp₀
  have : Nonempty β := ⟨b₀⟩
  choose! holder hmem hholds using hheld
  have hdistinct : (points.map holder).Nodup := by
    apply hnodup.map_on
    intro p hp q hq hpq
    exact hone (holder p) (hmem p hp) p hp q hq (hholds p hp) (hpq ▸ hholds q hq)
  have hsub : points.map holder ⊆ family := by
    intro b hb
    obtain ⟨p, hp, rfl⟩ := List.mem_map.mp hb
    exact hmem p hp
  have hle := (hdistinct.subperm hsub).length_le
  rwa [List.length_map] at hle

/-! ## The ranges that meet a covered range -/

section Meeting

variable {α β : Type} (mem : Int → α) (rng : β → Range)

/-- The values of `mem` on a range. -/
def valuesOn (r : Range) : List α := slice mem r.1 (r.2 - r.1).toNat

theorem valuesOn_append {a b c : Int} (h1 : a ≤ b) (h2 : b ≤ c) :
    valuesOn mem (a, b) ++ valuesOn mem (b, c) = valuesOn mem (a, c) := by
  have hlen : (c - a).toNat = (b - a).toNat + (c - b).toNat := by omega
  have hb : a + ((b - a).toNat : Int) = b := by omega
  simp only [valuesOn, hlen, slice_add, hb]

/-- A range whose integers are all covered lies in the ranges that meet it, and
these stand next to each other: the values on them, in order, are the values
from the first of them on. -/
theorem values_on_meeting (l : List β) (a b : Int) (hasc : Ascending (l.map rng)) (hab : a < b)
    (hcov : ∀ x, a ≤ x → x < b → Covered (l.map rng) x) :
    ∃ c cs stop, l.filter (fun d => meets (rng d) (a, b)) = c :: cs ∧
      (rng c).1 ≤ a ∧ b ≤ stop ∧
      (c :: cs).flatMap (fun d => valuesOn mem (rng d)) = valuesOn mem ((rng c).1, stop) := by
  induction l generalizing a with
  | nil =>
    obtain ⟨r, hr, _⟩ := hcov a (Int.le_refl a) hab
    simp at hr
  | cons d l ih =>
    have hnext := hasc.after
    have htail := hasc.tail
    have hd := hasc.nonempty (rng d) (by simp)
    have hrest : ∀ x, a ≤ x → x < b → ¬ Holds (rng d) x → Covered (l.map rng) x := by
      intro x h1 h2 hx
      exact (covered_cons.mp (hcov x h1 h2)).resolve_left hx
    rcases Int.lt_or_le a (rng d).2 with had | hda
    · -- `d` holds `a`, since every later range starts after `d`.
      have hstart : (rng d).1 ≤ a := by
        by_contra hlt
        obtain ⟨q, hq, hqa⟩ := hrest a (Int.le_refl a) hab fun h => hlt h.1
        have := hnext q hq
        have := hqa.1
        omega
      have hmeets : meets (rng d) (a, b) = true := by rw [meets_iff]; constructor <;> omega
      rcases Int.lt_or_le (rng d).2 b with hdb | hbd
      · obtain ⟨c, cs, stop, hf, hc, hstop, hval⟩ := ih (rng d).2 htail hdb fun x h1 h2 =>
          hrest x (by omega) h2 fun h => by have := h.2; omega
        have hmem : c ∈ l := List.mem_of_mem_filter (hf ▸ List.mem_cons_self)
        have hbase : (rng c).1 = (rng d).2 := by
          have := hnext (rng c) (List.mem_map_of_mem hmem)
          omega
        have hsame : l.filter (fun e => meets (rng e) (a, b)) =
            l.filter fun e => meets (rng e) ((rng d).2, b) := by
          apply List.filter_congr
          intro e he
          have h1 := hnext (rng e) (List.mem_map_of_mem he)
          have h2 := htail.nonempty (rng e) (List.mem_map_of_mem he)
          rw [Bool.eq_iff_iff, meets_iff, meets_iff]
          constructor <;> rintro ⟨h3, _⟩ <;> exact ⟨h3, by simp only; omega⟩
        refine ⟨d, c :: cs, stop, ?_, hstart, hstop, ?_⟩
        · rw [List.filter_cons, if_pos hmeets, hsame, hf]
        · rw [List.flatMap_cons, hval, hbase]
          exact valuesOn_append mem (by omega) (by omega)
      · refine ⟨d, [], (rng d).2, ?_, hstart, hbd, by simp⟩
        rw [List.filter_cons, if_pos hmeets, List.filter_eq_nil_iff.mpr]
        intro e he h
        have h1 := hnext (rng e) (List.mem_map_of_mem he)
        have h2 := ((meets_iff _ _).mp h).1
        simp only at h2
        omega
    · have hskip : ¬ meets (rng d) (a, b) = true := by
        rw [meets_iff]
        rintro ⟨_, h⟩
        simp only at h
        omega
      obtain ⟨c, cs, stop, hf, hrest⟩ := ih a htail hab fun x h1 h2 =>
        hrest x h1 h2 fun h => by have := h.2; omega
      exact ⟨c, cs, stop, by rw [List.filter_cons, if_neg hskip, hf], hrest⟩

end Meeting

/-! ## Maximal runs -/

/-- The integers from `r.1` to `r.2 - 1` are in the set, and its neighbours are not. -/
structure IsRun (s : Int → Prop) (r : Range) : Prop where
  nonempty : r.1 < r.2
  inside : ∀ x, r.1 ≤ x → x < r.2 → s x
  before : ¬ s (r.1 - 1)
  after : ¬ s r.2

/-- A run that holds the first integer of a range inside of the set holds the whole range. -/
theorem IsRun.holds_range {s : Int → Prop} {r : Range} (h : IsRun s r) {a b : Int}
    (ha : Holds r a) (hin : ∀ x, a ≤ x → x < b → s x) : b ≤ r.2 := by
  by_contra hlt
  exact h.after (hin r.2 (by have := ha.2; omega) (by omega))

/-- Two ranges of a separated list are the same, or an integer lies between them. -/
theorem Separated.apart_or_eq {l : List Range} (h : Separated l) {r q : Range} (hr : r ∈ l)
    (hq : q ∈ l) : r = q ∨ r.2 < q.1 ∨ q.2 < r.1 := by
  have hfwd : l.Pairwise fun r q : Range => r = q ∨ r.2 < q.1 ∨ q.2 < r.1 :=
    h.apart.imp fun hlt => Or.inr (Or.inl hlt)
  have hbwd : l.Pairwise (flip fun r q : Range => r = q ∨ r.2 < q.1 ∨ q.2 < r.1) :=
    h.apart.imp fun hlt => Or.inr (Or.inr hlt)
  have hrefl : ∀ p ∈ l, p = p ∨ p.2 < p.1 ∨ p.2 < p.1 := fun p _ => Or.inl rfl
  exact List.Pairwise.forall_of_forall_of_flip hrefl hfwd hbwd hr hq

/-- A separated list holds the maximal runs of what it covers. -/
theorem Separated.mem_iff_isRun {l : List Range} (h : Separated l) (r : Range) :
    r ∈ l ↔ IsRun (Covered l) r := by
  constructor
  · intro hr
    refine ⟨h.nonempty r hr, fun x h1 h2 => ⟨r, hr, h1, h2⟩, ?_, ?_⟩
    · rintro ⟨q, hq, h1, h2⟩
      have := h.nonempty r hr
      have := h.nonempty q hq
      rcases h.apart_or_eq hr hq with rfl | h3 | h3 <;> omega
    · rintro ⟨q, hq, h1, h2⟩
      have := h.nonempty r hr
      rcases h.apart_or_eq hr hq with rfl | h3 | h3 <;> omega
  · rintro ⟨h0, hin, hbefore, hafter⟩
    obtain ⟨q, hq, hq1, hq2⟩ := hin r.1 (Int.le_refl _) h0
    have hfst : q.1 = r.1 := by
      by_contra hne
      exact hbefore ⟨q, hq, by omega, by omega⟩
    have hsnd : q.2 = r.2 := by
      by_contra hne
      rcases Int.lt_or_le q.2 r.2 with hlt | hle
      · obtain ⟨p, hp, hp1, hp2⟩ := hin q.2 (by omega) hlt
        rcases h.apart_or_eq hq hp with rfl | h3 | h3 <;> omega
      · exact hafter ⟨q, hq, by omega, by omega⟩
    exact Prod.ext hfst hsnd ▸ hq

end Ranges
