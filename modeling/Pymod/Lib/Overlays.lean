-- Partial writes laid over a store, one after the other: what stands at a key is what the
-- last one that writes the key has written there. Writers that come in another order, or
-- several times, leave the same store when the last one at each key stays the last one.
import Mathlib.Data.List.Induction

namespace Overlays

variable {κ α ι : Type}

/-- The store under what is written over it. -/
def overlay (store write : κ → Option α) : κ → Option α := fun k => (write k).or (store k)

/-- The store after the writers have come, one after the other. -/
def overlays (write : ι → κ → Option α) (store : κ → Option α) (writers : List ι) : κ → Option α :=
  writers.foldl (fun store i => overlay store (write i)) store

variable {write : ι → κ → Option α} {store : κ → Option α} {k : κ}

theorem overlays_append (before after : List ι) :
    overlays write store (before ++ after) = overlays write (overlays write store before) after :=
  List.foldl_append

/-- A key that no writer writes. -/
theorem overlays_unwritten {writers : List ι} (h : ∀ i ∈ writers, write i k = none) :
    overlays write store writers k = store k := by
  induction writers generalizing store with
  | nil => rfl
  | cons i writers ih =>
    have hi : overlay store (write i) k = store k := by
      rw [overlay, h i List.mem_cons_self, Option.none_or]
    change overlays write (overlay store (write i)) writers k = store k
    rw [ih fun j hj => h j (List.mem_cons_of_mem i hj), hi]

/-- A key has what its last writer has written there. -/
theorem overlays_last {before after : List ι} {i : ι} (hi : write i k ≠ none)
    (hafter : ∀ j ∈ after, write j k = none) :
    overlays write store (before ++ i :: after) k = write i k := by
  rw [overlays_append]
  change overlays write (overlay _ (write i)) after k = write i k
  rw [overlays_unwritten hafter, overlay]
  cases hv : write i k with
  | none => exact absurd hv hi
  | some v => rfl

/-- The last element of a list with a property. -/
theorem exists_last {p : ι → Prop} {l : List ι} (h : ∃ i ∈ l, p i) :
    ∃ before i after, l = before ++ i :: after ∧ p i ∧ ∀ j ∈ after, ¬ p j := by
  induction l using List.reverseRecOn with
  | nil =>
    obtain ⟨i, hi, -⟩ := h
    cases hi
  | append_singleton l x ih =>
    by_cases hx : p x
    · exact ⟨l, x, [], rfl, hx, by simp⟩
    · obtain ⟨i, hi, hpi⟩ := h
      rcases List.mem_append.mp hi with hi | hi
      · obtain ⟨before, y, after, rfl, hy, hafter⟩ := ih ⟨i, hi, hpi⟩
        refine ⟨before, y, after ++ [x], by simp, hy, fun j hj => ?_⟩
        rcases List.mem_append.mp hj with hj | hj
        · exact hafter j hj
        · rwa [List.mem_singleton.mp hj]
      · rw [List.mem_singleton.mp hi] at hpi
        exact absurd hpi hx

/-- Behind each element come all the ones that have to come behind it. -/
def FollowedUp (r : ι → ι → Prop) : List ι → Prop
  | [] => True
  | i :: l => (∀ j, r i j → j ∈ l) ∧ FollowedUp r l

theorem FollowedUp.behind {r : ι → ι → Prop} {before after : List ι} {i : ι}
    (h : FollowedUp r (before ++ i :: after)) {j : ι} (hj : r i j) : j ∈ after := by
  induction before with
  | nil => exact h.1 j hj
  | cons x before ih => exact ih h.2

/-- In an ascending list everything is followed up, when nothing has to come behind itself or
behind something greater. -/
theorem followedUp_of_pairwise {r lt : ι → ι → Prop} {l : List ι} (hl : l.Pairwise lt)
    (hr : ∀ i j, r i j → j ≠ i ∧ ¬ lt j i) (hmem : ∀ i j, r i j → j ∈ l) : FollowedUp r l := by
  suffices h : ∀ before after, before ++ after = l → FollowedUp r after from h [] l rfl
  intro before after
  induction after generalizing before with
  | nil => exact fun _ => trivial
  | cons i after ih =>
    intro hsplit
    refine ⟨fun j hj => ?_, ih (before ++ [i]) (by simpa using hsplit)⟩
    obtain ⟨hne, hlt⟩ := hr i j hj
    have hin := hmem i j hj
    rw [← hsplit] at hin hl
    rcases List.mem_append.mp hin with hbefore | hbehind
    · exact absurd ((List.pairwise_append.mp hl).2.2 j hbefore i List.mem_cons_self) hlt
    · exact (List.mem_cons.mp hbehind).resolve_left hne

/-- Two lists of the same writers leave the same store, when in both of them each writer is
followed up by those that write one of its keys after it. -/
theorem overlays_congr {r : ι → ι → Prop} {l l' : List ι} (hl : FollowedUp r l)
    (hl' : FollowedUp r l') (hmem : ∀ i, i ∈ l ↔ i ∈ l')
    (htotal : ∀ i ∈ l, ∀ j ∈ l, i ≠ j → ∀ k, write i k ≠ none → write j k ≠ none → r i j ∨ r j i) :
    overlays write store l = overlays write store l' := by
  funext k
  by_cases hk : ∃ i ∈ l, write i k ≠ none
  · have hk' : ∃ i ∈ l', write i k ≠ none := by
      obtain ⟨i, hi, hw⟩ := hk
      exact ⟨i, (hmem i).mp hi, hw⟩
    obtain ⟨before, i, after, rfl, hi, hafter⟩ := exists_last hk
    obtain ⟨before', j, after', rfl, hj, hafter'⟩ := exists_last hk'
    have hil : i ∈ before ++ i :: after := by simp
    have hjl : j ∈ before ++ i :: after := (hmem j).mpr (by simp)
    have hij : i = j := by
      by_contra hne
      rcases htotal i hil j hjl hne k hi hj with h | h
      · exact hafter j (hl.behind h) hj
      · exact hafter' i (hl'.behind h) hi
    subst hij
    rw [overlays_last hi fun j hj => by simpa using hafter j hj,
      overlays_last hi fun j hj => by simpa using hafter' j hj]
  · have hnone : ∀ i ∈ l, write i k = none := fun i hi => by
      by_contra hw
      exact hk ⟨i, hi, hw⟩
    rw [overlays_unwritten hnone,
      overlays_unwritten fun i hi => hnone i ((hmem i).mpr hi)]

end Overlays
