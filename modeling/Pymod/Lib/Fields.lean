-- Texts with separators: pieces that hold a field with blanks around it, or nothing but blanks,
-- and the fields that splitting and stripping finds in them.
import Mathlib.Data.List.DropRight

namespace Fields

variable {α : Type} {blank : α → Bool}

/-! ## Stripping -/

def Blanks (blank : α → Bool) (text : List α) : Prop := ∀ a ∈ text, blank a = true

/-- The text without the blanks at its ends. -/
def strip (blank : α → Bool) (text : List α) : List α :=
  (text.dropWhile blank).rdropWhile blank

/-- The text begins and ends with something that is not blank. -/
structure Stripped (blank : α → Bool) (text : List α) : Prop where
  nonempty : text ≠ []
  first : ∀ a ∈ text.head?, blank a = false
  last : ∀ a ∈ text.getLast?, blank a = false

theorem strip_blanks {text : List α} (h : Blanks blank text) : strip blank text = [] := by
  have hdrop : text.dropWhile blank = [] := List.dropWhile_eq_nil_iff.mpr h
  rw [strip, hdrop, List.rdropWhile_nil]

theorem Stripped.dropWhile_eq {text : List α} (h : Stripped blank text) (right : List α) :
    (text ++ right).dropWhile blank = text ++ right := by
  cases text with
  | nil => exact absurd rfl h.nonempty
  | cons a text => exact List.dropWhile_cons_of_neg (by simp [h.first a rfl])

theorem Stripped.rdropWhile_eq {text : List α} (h : Stripped blank text) :
    text.rdropWhile blank = text := by
  apply List.rdropWhile_eq_self_iff.mpr
  intro hne
  simpa using h.last _ (List.getLast?_eq_some_getLast hne)

theorem rdropWhile_append_blanks (text : List α) {right : List α} (h : Blanks blank right) :
    (text ++ right).rdropWhile blank = text.rdropWhile blank := by
  induction right using List.reverseRecOn with
  | nil => rw [List.append_nil]
  | append_singleton right a ih =>
    rw [← List.append_assoc, List.rdropWhile_concat_pos _ _ _ (h a (by simp))]
    exact ih fun b hb => h b (by simp [hb])

/-- The blanks around a stripped text go away. -/
theorem strip_padded {left text right : List α} (hleft : Blanks blank left)
    (h : Stripped blank text) (hright : Blanks blank right) :
    strip blank (left ++ text ++ right) = text := by
  have hdrop : (left ++ (text ++ right)).dropWhile blank = text ++ right := by
    rw [List.dropWhile_append_of_pos hleft, h.dropWhile_eq]
  rw [strip, List.append_assoc, hdrop, rdropWhile_append_blanks _ hright, h.rdropWhile_eq]

/-- What is stripped off a text is blank. -/
theorem padded_strip (blank : α → Bool) (text : List α) : ∃ left right,
    text = left ++ strip blank text ++ right ∧ Blanks blank left ∧ Blanks blank right := by
  refine ⟨text.takeWhile blank, (text.dropWhile blank).rtakeWhile blank, ?_, ?_, ?_⟩
  · rw [strip, List.append_assoc, List.rdropWhile_append_rtakeWhile, List.takeWhile_append_dropWhile]
  · exact fun a ha => List.mem_takeWhile_imp ha
  · exact fun a ha => List.mem_rtakeWhile_imp ha

theorem stripped_strip {text : List α} (h : strip blank text ≠ []) :
    Stripped blank (strip blank text) := by
  refine ⟨h, ?_, ?_⟩
  · intro a ha
    obtain ⟨right, hprefix⟩ := List.rdropWhile_prefix blank (text.dropWhile blank)
    have hhead : (text.dropWhile blank).head? = some a := by
      rw [← hprefix]
      exact List.head?_append_of_ne_nil _ h ▸ ha
    have hnot := List.head?_dropWhile_not blank text
    rw [hhead] at hnot
    simpa using hnot
  · intro a ha
    have hlast : ¬ blank ((strip blank text).getLast h) = true :=
      List.rdropWhile_last_not blank (text.dropWhile blank) h
    obtain ⟨_, rfl⟩ := List.mem_getLast?_eq_getLast ha
    simpa using hlast

theorem blanks_of_strip {text : List α} (h : strip blank text = []) : Blanks blank text := by
  obtain ⟨left, right, htext, hleft, hright⟩ := padded_strip blank text
  rw [h, List.append_nil] at htext
  intro a ha
  rw [htext] at ha
  exact (List.mem_append.mp ha).elim (hleft a) (hright a)

/-! ## Lists of fields -/

/-- A piece without a separator, and the field in it, if there is one. -/
inductive Piece (sep : α) (blank : α → Bool) : List α → List (List α) → Prop
  | empty {piece : List α} (h : Blanks blank piece) : Piece sep blank piece []
  | field {left text right : List α} (hleft : Blanks blank left) (h : Stripped blank text)
      (hsep : sep ∉ text) (hright : Blanks blank right) :
      Piece sep blank (left ++ text ++ right) [text]

/-- A text that lists the fields, in this order. -/
inductive Listing (sep : α) (blank : α → Bool) : List α → List (List α) → Prop
  | last {piece : List α} {fs : List (List α)} (h : Piece sep blank piece fs) :
      Listing sep blank piece fs
  | more {piece rest : List α} {fs fs' : List (List α)} (h : Piece sep blank piece fs)
      (hrest : Listing sep blank rest fs') : Listing sep blank (piece ++ sep :: rest) (fs ++ fs')

variable {sep : α}

theorem Blanks.not_mem (hsep : blank sep = false) {text : List α} (h : Blanks blank text) :
    sep ∉ text := by
  intro hmem
  have := h sep hmem
  rw [hsep] at this
  cases this

theorem Piece.not_mem (hsep : blank sep = false) {piece : List α} {fs : List (List α)}
    (h : Piece sep blank piece fs) : sep ∉ piece := by
  cases h with
  | empty h => exact h.not_mem hsep
  | field hleft h hno hright =>
    have hl := hleft.not_mem hsep
    have hr := hright.not_mem hsep
    simp [hl, hno, hr]

/-- What stripping makes of one piece. -/
def field_of [DecidableEq α] (blank : α → Bool) (piece : List α) : List (List α) :=
  if strip blank piece = [] then [] else [strip blank piece]

/-- The stripped pieces between separators that are not blank. -/
def fields [DecidableEq α] (sep : α) (blank : α → Bool) (text : List α) : List (List α) :=
  ((text.splitOn sep).filter fun piece => strip blank piece ≠ []).map (strip blank)

variable [DecidableEq α]

theorem piece_iff {piece : List α} {fs : List (List α)} (hno : sep ∉ piece) :
    Piece sep blank piece fs ↔ field_of blank piece = fs := by
  unfold field_of
  constructor
  · intro h
    cases h with
    | empty h => rw [if_pos (strip_blanks h)]
    | field hleft h _ hright => rw [strip_padded hleft h hright, if_neg h.nonempty]
  · intro h
    obtain ⟨left, right, hpiece, hleft, hright⟩ := padded_strip blank piece
    by_cases hblank : strip blank piece = []
    · rw [if_pos hblank] at h
      subst h
      exact .empty (blanks_of_strip hblank)
    · rw [if_neg hblank] at h
      subst h
      have hfield : sep ∉ strip blank piece := fun hmem => hno (by
        rw [hpiece]
        simp [hmem])
      have hfound := Piece.field hleft (stripped_strip hblank) hfield hright
      rwa [← hpiece] at hfound

theorem fields_of_piece {piece : List α} (h : sep ∉ piece) :
    fields sep blank piece = field_of blank piece := by
  unfold fields field_of
  rw [List.splitOn_eq_singleton h]
  by_cases hblank : strip blank piece = [] <;> simp [hblank]

theorem fields_of_append {piece : List α} (h : sep ∉ piece) (rest : List α) :
    fields sep blank (piece ++ sep :: rest) =
      field_of blank piece ++ fields sep blank rest := by
  unfold fields field_of
  rw [List.splitOn_append_cons_self_of_not_mem h]
  by_cases hblank : strip blank piece = [] <;> simp [hblank]

theorem listing_fields (text : List α) : Listing sep blank text (fields sep blank text) := by
  induction hn : text.length using Nat.strong_induction_on generalizing text with
  | _ n ih =>
    by_cases hmem : sep ∈ text
    · obtain ⟨piece, rest, rfl, hno⟩ := List.eq_append_cons_of_mem hmem
      rw [fields_of_append hno]
      refine .more ((piece_iff hno).mpr rfl) (ih rest.length ?_ rest rfl)
      simp only [List.length_append, List.length_cons] at hn
      omega
    · rw [fields_of_piece hmem]
      exact .last ((piece_iff hmem).mpr rfl)

/-- A text lists exactly the fields that are found in it. -/
theorem listing_iff (hsep : blank sep = false) {text : List α} {fs : List (List α)} :
    Listing sep blank text fs ↔ fields sep blank text = fs := by
  constructor
  · intro h
    induction h with
    | last h =>
      have hno := h.not_mem hsep
      rw [fields_of_piece hno, (piece_iff hno).mp h]
    | more h _ ih =>
      have hno := h.not_mem hsep
      rw [fields_of_append hno, (piece_iff hno).mp h, ih]
  · intro h
    exact h ▸ listing_fields text

end Fields
