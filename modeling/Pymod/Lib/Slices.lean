-- Lists cut into windows of one length, and the values of a function on a
-- stretch of consecutive integers.
import Mathlib.Data.List.Basic
import Mathlib.Data.List.Forall2

namespace Slices

variable {α β ε : Type}

/-! ## Lists of fallible results -/

theorem mapM_ok {f : α → Except ε β} {g : α → β} {l : List α} (h : ∀ x ∈ l, f x = .ok (g x)) :
    l.mapM f = .ok (l.map g) := by
  induction l with
  | nil => rfl
  | cons x l ih =>
    rw [List.mapM_cons, h x (by simp), ih fun y hy => h y (by simp [hy])]
    rfl

theorem mapM_congr {f g : α → Except ε β} {l : List α} (h : ∀ x ∈ l, f x = g x) :
    l.mapM f = l.mapM g := by
  induction l with
  | nil => rfl
  | cons x l ih =>
    rw [List.mapM_cons, List.mapM_cons, h x (by simp), ih fun y hy => h y (by simp [hy])]

theorem error_of_mapM {f : α → Except ε β} {l : List α} {e : ε} (h : l.mapM f = .error e) :
    ∃ x ∈ l, f x = .error e := by
  induction l with
  | nil => cases h
  | cons x l ih =>
    rw [List.mapM_cons] at h
    cases hx : f x with
    | error e' => rw [hx] at h; cases h; exact ⟨x, by simp, hx⟩
    | ok y =>
      cases hl : l.mapM f with
      | error e' =>
        rw [hx, hl] at h
        cases h
        obtain ⟨z, hz, he⟩ := ih hl
        exact ⟨z, by simp [hz], he⟩
      | ok ys => rw [hx, hl] at h; cases h

theorem forall₂_of_mapM_ok {f : α → Except ε β} {l : List α} {ys : List β}
    (h : l.mapM f = .ok ys) : List.Forall₂ (fun x y => f x = .ok y) l ys := by
  induction l generalizing ys with
  | nil => cases h; exact .nil
  | cons x l ih =>
    rw [List.mapM_cons] at h
    cases hx : f x with
    | error e => rw [hx] at h; cases h
    | ok y =>
      cases hl : l.mapM f with
      | error e => rw [hx, hl] at h; cases h
      | ok zs =>
        rw [hx, hl] at h
        cases h
        exact .cons hx (ih hl)

theorem map_eq_map_of_forall₂ {γ : Type} {f : α → γ} {g : β → γ} {l : List α} {ys : List β}
    (h : List.Forall₂ (fun x y => f x = g y) l ys) : l.map f = ys.map g := by
  induction h with
  | nil => rfl
  | cons hxy _ ih => rw [List.map_cons, List.map_cons, hxy, ih]

theorem exists_map_some {l : List (Option α)} (h : ∀ o ∈ l, o ≠ none) :
    ∃ ys : List α, l = ys.map some := by
  induction l with
  | nil => exact ⟨[], rfl⟩
  | cons o l ih =>
    obtain ⟨ys, rfl⟩ := ih fun p hp => h p (by simp [hp])
    cases o with
    | none => exact absurd rfl (h none (by simp))
    | some y => exact ⟨y :: ys, rfl⟩

theorem forall₂_of_mapM_some {f : α → Option β} {l : List α} {ys : List β}
    (h : l.mapM f = some ys) : List.Forall₂ (fun x y => f x = some y) l ys := by
  induction l generalizing ys with
  | nil => cases h; exact .nil
  | cons x l ih =>
    simp only [List.mapM_cons, Option.bind_eq_bind, Option.bind_eq_some_iff] at h
    obtain ⟨y, hy, ys', hys, hcons⟩ := h
    cases hcons
    exact .cons hy (ih hys)

theorem mapM_forall₂ {f : α → Except ε β} {r : α → β → Prop} {l : List α}
    (h : ∀ x ∈ l, ∃ y, f x = .ok y ∧ r x y) : ∃ ys, l.mapM f = .ok ys ∧ List.Forall₂ r l ys := by
  induction l with
  | nil => exact ⟨[], rfl, .nil⟩
  | cons x l ih =>
    obtain ⟨y, hy, hr⟩ := h x (by simp)
    obtain ⟨ys, hys, hrs⟩ := ih fun z hz => h z (by simp [hz])
    refine ⟨y :: ys, ?_, .cons hr hrs⟩
    rw [List.mapM_cons, hy, hys]
    rfl

theorem mapM_error {f : α → Except ε β} {l : List α} {x : α} {e : ε} (hx : x ∈ l)
    (he : f x = .error e) : ∃ e', l.mapM f = .error e' := by
  cases hm : l.mapM f with
  | error e' => exact ⟨e', rfl⟩
  | ok ys =>
    exfalso
    have hall := forall₂_of_mapM_ok hm
    clear hm
    induction hall with
    | nil => cases hx
    | cons hy _ ih =>
      rcases List.mem_cons.mp hx with rfl | hx
      · rw [he] at hy; cases hy
      · exact ih hx

/-! ## Windows -/

/-- The list cut into pieces of length `n`; the last one can be shorter. -/
def windows (n : Nat) (l : List α) : List (List α) :=
  (List.range ((l.length + n - 1) / n)).map fun k => (l.drop (k * n)).take n

theorem windows_cons {n : Nat} (w l : List α) (hn : 0 < n) (hw : w.length = n) :
    windows n (w ++ l) = w :: windows n l := by
  have hcount : ((w ++ l).length + n - 1) / n = (l.length + n - 1) / n + 1 := by
    rw [List.length_append, hw, ← Nat.add_div_right _ hn]
    congr 1
    omega
  unfold windows
  rw [hcount, List.range_succ_eq_map, List.map_cons, List.map_map]
  congr 1
  · simp [← hw]
  · apply List.map_congr_left
    intro k _
    have hk : (k + 1) * n = w.length + k * n := by rw [Nat.succ_mul, hw, Nat.add_comm]
    simp only [Function.comp_apply, Nat.succ_eq_add_one, hk, List.drop_append,
      List.drop_eq_nil_of_le (Nat.le_add_right _ _), List.nil_append, Nat.add_sub_cancel_left]

/-- Pieces of length `n` put together are cut back into the same pieces. -/
theorem windows_flatten {n : Nat} (ws : List (List α)) (hn : 0 < n)
    (hw : ∀ w ∈ ws, w.length = n) : windows n ws.flatten = ws := by
  induction ws with
  | nil =>
    have hzero : (0 + n - 1) / n = 0 := Nat.div_eq_of_lt (by omega)
    unfold windows
    rw [List.flatten_nil, List.length_nil, hzero, List.range_zero, List.map_nil]
  | cons w ws ih =>
    rw [List.flatten_cons, windows_cons w _ hn (hw w (by simp)),
      ih fun v hv => hw v (by simp [hv])]

theorem length_flatten_const {n : Nat} (ws : List (List α)) (hw : ∀ w ∈ ws, w.length = n) :
    ws.flatten.length = ws.length * n := by
  induction ws with
  | nil => simp
  | cons w ws ih =>
    rw [List.flatten_cons, List.length_append, hw w (by simp), ih fun v hv => hw v (by simp [hv]),
      List.length_cons, Nat.succ_mul, Nat.add_comm]

/-- A list as long as whole pieces take is such pieces put together. -/
theorem exists_pieces {n : Nat} {l : List α} (h : l.length % n = 0) :
    ∃ ws : List (List α), l = ws.flatten ∧ ∀ w ∈ ws, w.length = n := by
  obtain ⟨k, hk⟩ := Nat.dvd_of_mod_eq_zero h
  induction k generalizing l with
  | zero => exact ⟨[], List.eq_nil_of_length_eq_zero (by simpa using hk), by simp⟩
  | succ k ih =>
    rw [Nat.mul_succ] at hk
    have hrest : (l.drop n).length = n * k := by
      rw [List.length_drop]
      omega
    obtain ⟨ws, hflat, hws⟩ := ih (by rw [hrest, Nat.mul_mod_right]) hrest
    refine ⟨l.take n :: ws, ?_, ?_⟩
    · rw [List.flatten_cons, ← hflat, List.take_append_drop]
    · intro w hw
      rcases List.mem_cons.mp hw with rfl | hw
      · rw [List.length_take]
        omega
      · exact hws w hw

/-- A stretch of `r` positions from `a` on lies in one of the windows of length `n`, cut from 0
on, when it ends before its window does. -/
theorem in_one_window_iff {n r a : Nat} (hr : 0 < r) :
    (∃ j, j * n ≤ a ∧ a + r ≤ j * n + n) ↔ a % n + r ≤ n := by
  constructor
  · rintro ⟨j, hj, hend⟩
    obtain ⟨d, rfl⟩ := Nat.exists_eq_add_of_le hj
    rw [Nat.mul_add_mod', Nat.mod_eq_of_lt (by omega)]
    omega
  · intro h
    have hdiv := Nat.div_add_mod a n
    rw [Nat.mul_comm] at hdiv
    exact ⟨a / n, by omega, by omega⟩

/-! ## Pieces with addresses -/

/-- Each piece starts where the one before it ended. -/
def Consecutive : Int → List (Int × List α) → Prop
  | _, [] => True
  | a, p :: rest => p.1 = a ∧ Consecutive (a + p.2.length) rest

/-! ## Stretches -/

/-- The values of `mem` at `start`, `start + 1`, up to `n` of them. -/
def slice (mem : Int → α) (start : Int) (n : Nat) : List α :=
  (List.range n).map fun i : Nat => mem (start + i)

@[simp] theorem length_slice (mem : Int → α) (start : Int) (n : Nat) :
    (slice mem start n).length = n := by simp [slice]

theorem slice_inj {mem mem' : Int → α} {start : Int} {n : Nat} :
    slice mem start n = slice mem' start n ↔ ∀ i : Nat, i < n → mem (start + i) = mem' (start + i)
      := by
  unfold slice
  rw [List.map_inj_left]
  simp only [List.mem_range]

theorem slice_add (mem : Int → α) (start : Int) (m n : Nat) :
    slice mem start (m + n) = slice mem start m ++ slice mem (start + m) n := by
  unfold slice
  rw [List.range_add, List.map_append, List.map_map]
  congr 1
  apply List.map_congr_left
  intro i _
  simp only [Function.comp_apply]
  congr 1
  omega

theorem drop_slice (mem : Int → α) (start : Int) (k n : Nat) :
    (slice mem start (k + n)).drop k = slice mem (start + k) n := by
  rw [slice_add, List.drop_left' (length_slice ..)]

theorem take_slice (mem : Int → α) (start : Int) (k n : Nat) :
    (slice mem start (k + n)).take k = slice mem start k := by
  rw [slice_add, List.take_left' (length_slice ..)]

theorem map_slice (f : α → β) (mem : Int → α) (start : Int) (n : Nat) :
    (slice mem start n).map f = slice (fun x => f (mem x)) start n := by
  simp [slice, List.map_map, Function.comp_def]

/-- A stretch that lies in a longer one, cut out of it. -/
theorem cut_slice (mem : Int → α) {base a : Int} {n m : Nat} (h0 : base ≤ a)
    (h1 : a + m ≤ base + n) :
    ((slice mem base n).drop (a - base).toNat).take m = slice mem a m := by
  obtain ⟨k, hk⟩ : ∃ k : Nat, a = base + k := ⟨(a - base).toNat, by omega⟩
  obtain ⟨r, hr⟩ : ∃ r : Nat, n = k + (m + r) := ⟨n - k - m, by omega⟩
  subst hk hr
  have hdrop : (base + (k : Int) - base).toNat = k := by omega
  rw [hdrop, drop_slice, take_slice]

end Slices
