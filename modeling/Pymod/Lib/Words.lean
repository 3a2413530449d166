-- Words that are written one behind the other, and a reader that has taken some of them off.
import Mathlib.Data.List.Nodup
import Mathlib.Data.List.Perm.Subperm
import Mathlib.Data.List.Infix

namespace Words

variable {α β : Type*}

/-- Two rows that stand to each other word by word do so in another way, when every word of the
first row does. -/
theorem forall₂_imp_mem {r p : α → β → Prop} {l : List α} {m : List β} (h : List.Forall₂ r l m)
    (himp : ∀ a ∈ l, ∀ b, r a b → p a b) : List.Forall₂ p l m := by
  induction h with
  | nil => exact .nil
  | cons hab _ ih =>
    refine .cons (himp _ List.mem_cons_self _ hab) (ih ?_)
    intro a ha
    exact himp a (List.mem_cons_of_mem _ ha)

end Words
