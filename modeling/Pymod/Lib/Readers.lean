-- Programs that read a stream by exact counts: each read waits until the stream
-- has as many items as it asks for, and the program goes on with these items.
import Mathlib.Data.List.Basic
import Mathlib.Order.Lattice.Nat

namespace Readers

inductive Reader (β ε α : Type)
  | done (a : α)
  | raised (e : ε)
  | read_exactly (n : Nat) (k : List β → Reader β ε α)

variable {β ε α : Type}

/-- How the program ends on a stream, with the items left unread; `none` when it has to wait. -/
def run : Reader β ε α → List β → Option (Except ε α × List β)
  | .done a, s => some (.ok a, s)
  | .raised e, s => some (.error e, s)
  | .read_exactly n k, s => if n ≤ s.length then run (k (s.take n)) (s.drop n) else none

@[simp] theorem run_done (a : α) (s : List β) :
    run (.done a : Reader β ε α) s = some (.ok a, s) := rfl

@[simp] theorem run_raised (e : ε) (s : List β) :
    run (.raised e : Reader β ε α) s = some (.error e, s) := rfl

theorem run_read (k : List β → Reader β ε α) (xs ys : List β) :
    run (.read_exactly xs.length k) (xs ++ ys) = run (k xs) ys := by
  simp [run]

/-- The reader ends where it ends, whatever comes behind. -/
theorem run_append {r : Reader β ε α} {s rest : List β} {x : Except ε α}
    (h : run r s = some (x, rest)) (t : List β) : run r (s ++ t) = some (x, rest ++ t) := by
  induction r generalizing s with
  | done a => cases h; rfl
  | raised e => cases h; rfl
  | read_exactly n k ih =>
    rw [run] at h ⊢
    by_cases hn : n ≤ s.length
    · rw [if_pos hn] at h
      rw [if_pos (by rw [List.length_append]; omega), List.take_append_of_le_length hn,
        List.drop_append_of_le_length hn]
      exact ih _ h
    · rw [if_neg hn] at h
      cases h

/-! ## A reader that is under way -/

/-- The program `r` is what is left of `r₀` after its reads have taken `got`. -/
def After (r₀ : Reader β ε α) (got : List β) (r : Reader β ε α) : Prop :=
  ∀ xs, run r₀ (got ++ xs) = run r xs

theorem After.start (r₀ : Reader β ε α) : After r₀ [] r₀ := fun _ => rfl

theorem After.read {r₀ : Reader β ε α} {got xs : List β} {n : Nat} {k : List β → Reader β ε α}
    (h : After r₀ got (.read_exactly n k)) (hn : xs.length = n) : After r₀ (got ++ xs) (k xs) := by
  subst hn
  intro ys
  rw [List.append_assoc, h, run_read]

/-- The reader that has ended has taken all that it takes. -/
theorem After.done {r₀ : Reader β ε α} {got : List β} {a : α} (h : After r₀ got (.done a)) :
    run r₀ got = some (.ok a, []) := by
  simpa using h []

theorem After.raised {r₀ : Reader β ε α} {got : List β} {e : ε} (h : After r₀ got (.raised e)) :
    run r₀ got = some (.error e, []) := by
  simpa using h []

/-! ## How often a reader reads -/

/-- The program reads at most `n` times, whatever comes. -/
def Within : Nat → Reader β ε α → Prop
  | 0, .read_exactly _ _ => False
  | n + 1, .read_exactly _ k => ∀ xs, Within n (k xs)
  | _, _ => True

def Bounded (r : Reader β ε α) : Prop := ∃ n, Within n r

/-- The number of reads that the program may still make. -/
noncomputable def reads (r : Reader β ε α) : Nat := sInf {n | Within n r}

theorem within_reads {r : Reader β ε α} (h : Bounded r) : Within (reads r) r := Nat.sInf_mem h

theorem reads_le {r : Reader β ε α} {n : Nat} (h : Within n r) : reads r ≤ n := Nat.sInf_le h

/-- A read is one read less. -/
theorem reads_lt {n : Nat} {k : List β → Reader β ε α} (h : Bounded (.read_exactly n k))
    (xs : List β) : Bounded (k xs) ∧ reads (k xs) < reads (.read_exactly n k) := by
  have hw := within_reads h
  cases hm : reads (.read_exactly n k) with
  | zero =>
    rw [hm] at hw
    exact hw.elim
  | succ m =>
    rw [hm] at hw
    have := reads_le (hw xs)
    exact ⟨⟨m, hw xs⟩, by omega⟩

/-- The reader that ends inside of the items ends nowhere before their end. -/
def Fits (r : Reader β ε α) (s : List β) : Prop := ∀ x rest, run r s = some (x, rest) → rest = []

instance (r : Reader β ε α) (s : List β) [DecidableEq β] : Decidable (Fits r s) :=
  match h : run r s with
  | none => isTrue (by intro x rest hx; rw [h] at hx; cases hx)
  | some (x, rest) => decidable_of_iff (rest = []) (by simp [Fits, h])

end Readers
