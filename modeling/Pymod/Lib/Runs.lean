-- Runs of a machine that takes one event at a time. An event that cannot happen
-- in a state has no next state.
import Mathlib.Data.List.Induction
import Mathlib.Algebra.BigOperators.Group.Finset.Basic

namespace Runs

variable {σ ε : Type} (step : σ → ε → Option σ)

/-- The state after the events, when each of them can happen in its turn. -/
def run : σ → List ε → Option σ
  | s, [] => some s
  | s, e :: es =>
    match step s e with
    | some s' => run s' es
    | none => none

/-- Each event happens in a state where the condition `g` holds of it. -/
def Guarded (g : σ → ε → Prop) : σ → List ε → Prop
  | _, [] => True
  | s, e :: es => g s e ∧ ∀ s', step s e = some s' → Guarded g s' es

/-- The property holds in the first state and after each event. -/
def Always (p : σ → Prop) : σ → List ε → Prop
  | s, [] => p s
  | s, e :: es => p s ∧ ∀ s', step s e = some s' → Always p s' es

variable {step}

theorem run_cons {s t : σ} {e : ε} {es : List ε} (h : run step s (e :: es) = some t) :
    ∃ s', step s e = some s' ∧ run step s' es = some t := by
  cases hs : step s e with
  | none => simp [run, hs] at h
  | some s' => exact ⟨s', rfl, by simpa [run, hs] using h⟩

theorem run_cons_of {s s' : σ} {e : ε} {es : List ε} (h : step s e = some s') :
    run step s (e :: es) = run step s' es := by
  simp [run, h]

theorem run_append (s : σ) (es fs : List ε) :
    run step s (es ++ fs) = (run step s es).bind fun t => run step t fs := by
  induction es generalizing s with
  | nil => rfl
  | cons e es ih =>
    cases hs : step s e with
    | none => simp [run, hs]
    | some s' => simp [run, hs, ih]

theorem guarded_append {g : σ → ε → Prop} {s t : σ} {es fs : List ε}
    (h : Guarded step g s (es ++ fs)) (ht : run step s es = some t) :
    Guarded step g s es ∧ Guarded step g t fs := by
  induction es generalizing s with
  | nil => cases ht; exact ⟨trivial, h⟩
  | cons e es ih =>
    obtain ⟨s', hs, hrun⟩ := run_cons ht
    obtain ⟨hg, hrest⟩ := ih (h.2 s' hs) hrun
    refine ⟨⟨h.1, ?_⟩, hrest⟩
    intro s'' hs'
    rw [hs] at hs'
    cases hs'
    exact hg

theorem guarded_append_of {g : σ → ε → Prop} {s : σ} {es fs : List ε}
    (hes : Guarded step g s es) (hfs : ∀ t, run step s es = some t → Guarded step g t fs) :
    Guarded step g s (es ++ fs) := by
  induction es generalizing s with
  | nil => exact hfs s rfl
  | cons e es ih =>
    refine ⟨hes.1, fun s' hs => ih (hes.2 s' hs) ?_⟩
    intro t ht
    exact hfs t ((run_cons_of hs).trans ht)

/-- Events that the guard lets pass in every state. -/
theorem guarded_of_forall {g : σ → ε → Prop} {es : List ε} (h : ∀ e ∈ es, ∀ s, g s e) (s : σ) :
    Guarded step g s es := by
  induction es generalizing s with
  | nil => trivial
  | cons e es ih =>
    exact ⟨h e (by simp) s, fun s' _ => ih (fun f hf => h f (by simp [hf])) s'⟩

instance decidableGuarded {g : σ → ε → Prop} [∀ s e, Decidable (g s e)] :
    ∀ (s : σ) (es : List ε), Decidable (Guarded step g s es)
  | _, [] => isTrue trivial
  | s, e :: es =>
    match h : step s e with
    | none => decidable_of_iff (g s e) (by simp [Guarded, h])
    | some s' =>
      have := decidableGuarded (g := g) s' es
      decidable_of_iff (g s e ∧ Guarded step g s' es) (by simp [Guarded, h])

/-- What every guarded step preserves holds at the end of every guarded run. -/
theorem invariant_run {g : σ → ε → Prop} {i : σ → Prop}
    (hstep : ∀ s e s', i s → g s e → step s e = some s' → i s') {s t : σ} {es : List ε}
    (hs : i s) (hg : Guarded step g s es) (hrun : run step s es = some t) : i t := by
  induction es generalizing s with
  | nil => cases hrun; exact hs
  | cons e es ih =>
    obtain ⟨s', he, hrest⟩ := run_cons hrun
    exact ih (hstep s e s' hs hg.1 he) (hg.2 s' he) hrest

theorem run_concat {s t : σ} {es : List ε} {e : ε} :
    run step s (es ++ [e]) = some t ↔ ∃ u, run step s es = some u ∧ step u e = some t := by
  rw [run_append, Option.bind_eq_some_iff]
  constructor
  · rintro ⟨u, hu, hlast⟩
    obtain ⟨v, hv, hnil⟩ := run_cons hlast
    cases hnil
    exact ⟨u, hu, hv⟩
  · rintro ⟨u, hu, hlast⟩
    exact ⟨u, hu, run_cons_of hlast⟩

/-- An invariant that looks back: what holds of the empty history and is preserved with each event
that is added to the history holds of every run and the state it ends in. -/
theorem invariant_history {i : List ε → σ → Prop} {s : σ} (hnew : i [] s)
    (hstep : ∀ es u e t, run step s es = some u → i es u → step u e = some t → i (es ++ [e]) t)
    {es : List ε} {t : σ} (hrun : run step s es = some t) : i es t := by
  induction es using List.reverseRecOn generalizing t with
  | nil => cases hrun; exact hnew
  | append_singleton es e ih =>
    obtain ⟨u, hu, hlast⟩ := run_concat.mp hrun
    exact hstep es u e t hu (ih hu) hlast

/-- What every guarded step preserves holds all along every guarded run of events of a kind. -/
theorem always_of_guarded_of {a : ε → Prop} {g : σ → ε → Prop} {i p : σ → Prop}
    (hstep : ∀ s e s', i s → a e → g s e → step s e = some s' → i s') (hip : ∀ s, i s → p s) {s : σ}
    {es : List ε} (hs : i s) (ha : ∀ e ∈ es, a e) (hg : Guarded step g s es) :
    Always step p s es := by
  induction es generalizing s with
  | nil => exact hip s hs
  | cons e es ih =>
    obtain ⟨hae, haes⟩ := List.forall_mem_cons.mp ha
    exact ⟨hip s hs, fun s' he => ih (hstep s e s' hs hae hg.1 he) haes (hg.2 s' he)⟩

/-- What every guarded step preserves holds all along every guarded run. -/
theorem always_of_guarded {g : σ → ε → Prop} {i p : σ → Prop}
    (hstep : ∀ s e s', i s → g s e → step s e = some s' → i s') (hip : ∀ s, i s → p s) {s : σ}
    {es : List ε} (hs : i s) (hg : Guarded step g s es) : Always step p s es :=
  always_of_guarded_of (a := fun _ => True) (fun s e s' hi _ => hstep s e s' hi) hip hs
    (fun _ _ => trivial) hg

/-- When the guarded steps preserve an invariant that gives the property, and a step that breaks
the guard breaks the property at once, the property holds all along exactly the guarded runs among
those whose events all are of a kind. -/
theorem always_iff_guarded_of {a : ε → Prop} {g : σ → ε → Prop} {i p : σ → Prop}
    (hstep : ∀ s e s', i s → a e → g s e → step s e = some s' → i s') (hip : ∀ s, i s → p s)
    (hbreak : ∀ s e s', i s → a e → ¬ g s e → step s e = some s' → ¬ p s') {s t : σ} {es : List ε}
    (hs : i s) (ha : ∀ e ∈ es, a e) (hrun : run step s es = some t) :
    Always step p s es ↔ Guarded step g s es := by
  induction es generalizing s with
  | nil => exact ⟨fun _ => trivial, fun _ => hip s hs⟩
  | cons e es ih =>
    obtain ⟨s', he, hrest⟩ := run_cons hrun
    obtain ⟨hae, haes⟩ := List.forall_mem_cons.mp ha
    have hnext : ∀ s'', step s e = some s'' → s'' = s' := fun s'' h => by
      rw [he] at h; cases h; rfl
    constructor
    · rintro ⟨_, hal⟩
      have hp : p s' := by
        cases es with
        | nil => exact hal s' he
        | cons f es => exact (hal s' he).1
      have hg : g s e := by
        by_contra hng
        exact hbreak s e s' hs hae hng he hp
      refine ⟨hg, fun s'' h => ?_⟩
      rw [hnext s'' h]
      exact (ih (hstep s e s' hs hae hg he) haes hrest).mp (hal s' he)
    · rintro ⟨hg, hgs⟩
      refine ⟨hip s hs, fun s'' h => ?_⟩
      rw [hnext s'' h]
      exact (ih (hstep s e s' hs hae hg he) haes hrest).mpr (hgs s' he)

/-- The same for runs of any events. -/
theorem always_iff_guarded {g : σ → ε → Prop} {i p : σ → Prop}
    (hstep : ∀ s e s', i s → g s e → step s e = some s' → i s') (hip : ∀ s, i s → p s)
    (hbreak : ∀ s e s', i s → ¬ g s e → step s e = some s' → ¬ p s') {s t : σ} {es : List ε}
    (hs : i s) (hrun : run step s es = some t) :
    Always step p s es ↔ Guarded step g s es :=
  always_iff_guarded_of (a := fun _ => True) (fun s e s' hi _ => hstep s e s' hi) hip
    (fun s e s' hi _ => hbreak s e s' hi) hs (fun _ _ => trivial) hrun

/-- Two guards that agree in every state of an invariant let the same runs pass. -/
theorem guarded_iff_of_invariant {g h : σ → ε → Prop} {i : σ → Prop}
    (hstep : ∀ s e s', i s → step s e = some s' → i s') (hgh : ∀ s e, i s → (g s e ↔ h s e)) {s : σ}
    (hs : i s) (es : List ε) : Guarded step g s es ↔ Guarded step h s es := by
  induction es generalizing s with
  | nil => exact Iff.rfl
  | cons e es ih =>
    apply and_congr (hgh s e hs)
    apply forall_congr'
    intro s'
    apply forall_congr'
    intro he
    exact ih (hstep s e s' hs he)

/-- A guard that every state of an invariant meets. -/
theorem guarded_of_invariant {g : σ → ε → Prop} {i : σ → Prop}
    (hstep : ∀ s e s', i s → step s e = some s' → i s') (hg : ∀ s e, i s → g s e) {s : σ} (hs : i s)
    (es : List ε) : Guarded step g s es := by
  have hall : Guarded step (fun _ _ => True) s es := guarded_of_forall (fun _ _ _ => trivial) s
  exact (guarded_iff_of_invariant hstep (fun s e h => iff_of_true trivial (hg s e h)) hs es).mp hall

/-! ## Runs that come to an end -/

/-- When every guarded step costs something, a guarded run is no longer than what there was to
spend. -/
theorem length_le_of_budget {g : σ → ε → Prop} {i : σ → Prop} {budget : σ → Nat}
    (hstep : ∀ s e s', i s → g s e → step s e = some s' → i s' ∧ budget s' < budget s) {s t : σ}
    {es : List ε} (hs : i s) (hg : Guarded step g s es) (hrun : run step s es = some t) :
    es.length + budget t ≤ budget s := by
  induction es generalizing s with
  | nil =>
    cases hrun
    simp
  | cons e es ih =>
    obtain ⟨s', he, hrest⟩ := run_cons hrun
    obtain ⟨hs', hless⟩ := hstep s e s' hs hg.1 he
    have hlen := ih hs' (hg.2 s' he) hrest
    rw [List.length_cons]
    omega

/-- When the runs of certain events cannot go on for ever, one of them leads to a state where none
of these events can happen. -/
theorem exists_rest {p : ε → Prop} {s : σ} {bound : Nat}
    (h : ∀ es t, (∀ e ∈ es, p e) → run step s es = some t → es.length ≤ bound) :
    ∃ es t, (∀ e ∈ es, p e) ∧ run step s es = some t ∧ ∀ e, p e → step t e = none := by
  by_contra hgoes
  have hlong : ∀ n, ∃ es t, es.length = n ∧ (∀ e ∈ es, p e) ∧ run step s es = some t := by
    intro n
    induction n with
    | zero => exact ⟨[], s, rfl, by simp, rfl⟩
    | succ n ih =>
      obtain ⟨es, t, hlen, hes, hrun⟩ := ih
      obtain ⟨e, he, hne⟩ : ∃ e, p e ∧ step t e ≠ none := by
        by_contra hstuck
        apply hgoes
        refine ⟨es, t, hes, hrun, fun e he => ?_⟩
        by_contra hne
        exact hstuck ⟨e, he, hne⟩
      obtain ⟨t', ht'⟩ := Option.ne_none_iff_exists'.mp hne
      refine ⟨es ++ [e], t', by simp [hlen], ?_, run_concat.mpr ⟨t, hrun, ht'⟩⟩
      intro f hf
      rcases List.mem_append.mp hf with hf | hf
      · exact hes f hf
      · rw [List.mem_singleton.mp hf]
        exact he
  obtain ⟨es, t, hlen, hes, hrun⟩ := hlong (bound + 1)
  have := h es t hes hrun
  omega

variable (step) in
/-- None of the events can happen. -/
def AtRest (p : ε → Prop) (s : σ) : Prop := ∀ e, p e → step s e = none

variable (step) in
/-- Under the events alone, in any order, the machine takes only so many steps; it can get to where
none of them can happen, and wherever that is, `q` holds. -/
def ComesToRest (p : ε → Prop) (q : σ → Prop) (s : σ) : Prop :=
  (∃ bound, ∀ es t, (∀ e ∈ es, p e) → run step s es = some t → es.length ≤ bound) ∧
    (∃ es t, (∀ e ∈ es, p e) ∧ run step s es = some t ∧ AtRest step p t) ∧
    ∀ es t, (∀ e ∈ es, p e) → run step s es = some t → AtRest step p t → q t

theorem comes_to_rest {p : ε → Prop} {q i : σ → Prop} {budget : σ → Nat}
    (hstep : ∀ s e s', i s → p e → step s e = some s' → i s' ∧ budget s' < budget s)
    (hrest : ∀ s, i s → AtRest step p s → q s) {s : σ} (hs : i s) : ComesToRest step p q s := by
  have hlength : ∀ es t, (∀ e ∈ es, p e) → run step s es = some t → es.length ≤ budget s := by
    intro es t hes hrun
    have hle := length_le_of_budget (g := fun _ e => p e) hstep hs
      (guarded_of_forall (fun e he _ => hes e he) s) hrun
    omega
  refine ⟨⟨budget s, hlength⟩, exists_rest hlength, ?_⟩
  intro es t hes hrun
  exact hrest t (invariant_run (g := fun _ e => p e) (fun s e s' hs he h => (hstep s e s' hs he h).1)
    hs (guarded_of_forall (fun e he _ => hes e he) s) hrun)

/-- A sum of which one summand changes. -/
theorem sum_change {n c : Nat} {f g : Nat → Nat} (hc : c < n) (h : ∀ d, d ≠ c → g d = f d) :
    ∑ d ∈ Finset.range n, g d + f c = ∑ d ∈ Finset.range n, f d + g c := by
  have hmem : c ∈ Finset.range n := Finset.mem_range.mpr hc
  have hrest : ∑ d ∈ (Finset.range n).erase c, g d = ∑ d ∈ (Finset.range n).erase c, f d :=
    Finset.sum_congr rfl fun d hd => h d (Finset.ne_of_mem_erase hd)
  rw [← Finset.add_sum_erase _ g hmem, ← Finset.add_sum_erase _ f hmem, hrest]
  omega

/-! ## Notes, and machines inside others -/

/-- The machine that writes down what `note` has to say about its steps. -/
def noting {α : Type} (step : σ → ε → Option σ) (note : σ → ε → σ → Option α) (s : σ × List α)
    (e : ε) : Option (σ × List α) :=
  (step s.1 e).map fun s' => (s', (note s.1 e s').toList ++ s.2)

theorem noting_eq_some {α : Type} {note : σ → ε → σ → Option α} {s t : σ × List α} {e : ε} :
    noting step note s e = some t ↔
      step s.1 e = some t.1 ∧ t.2 = (note s.1 e t.1).toList ++ s.2 := by
  simp only [noting, Option.map_eq_some_iff]
  constructor
  · rintro ⟨s', hs, rfl⟩
    exact ⟨hs, rfl⟩
  · rintro ⟨hs, ht⟩
    exact ⟨t.1, hs, by rw [← ht]⟩

/-- The events that a run hands to a machine inside. -/
def emitted {ε' : Type} (step : σ → ε → Option σ) (emit : σ → ε → Option ε') :
    σ → List ε → List ε'
  | _, [] => []
  | s, e :: es =>
    match step s e with
    | some s' => (emit s e).toList ++ emitted step emit s' es
    | none => []

theorem emitted_append {ε' : Type} {emit : σ → ε → Option ε'} {s t : σ} {es : List ε}
    (hrun : run step s es = some t) (fs : List ε) :
    emitted step emit s (es ++ fs) = emitted step emit s es ++ emitted step emit t fs := by
  induction es generalizing s with
  | nil =>
    cases hrun
    rfl
  | cons e es ih =>
    obtain ⟨s', he, hrest⟩ := run_cons hrun
    simp only [List.cons_append, emitted, he, ih hrest, List.append_assoc]

/-- The last step of a run adds what it hands on. -/
theorem emitted_concat {ε' : Type} {emit : σ → ε → Option ε'} {s u t : σ} {es : List ε} {e : ε}
    (hrun : run step s es = some u) (he : step u e = some t) :
    emitted step emit s (es ++ [e]) = emitted step emit s es ++ (emit u e).toList := by
  rw [emitted_append hrun]
  simp [emitted, he]

/-- A machine inside that takes the step of each event it is handed goes along with the run. -/
theorem run_emitted {σ' ε' : Type} {step' : σ' → ε' → Option σ'} {emit : σ → ε → Option ε'}
    (inner : σ → σ') (hstep : ∀ s e s', step s e = some s' →
      run step' (inner s) (emit s e).toList = some (inner s')) {s t : σ} {es : List ε}
    (hrun : run step s es = some t) :
    run step' (inner s) (emitted step emit s es) = some (inner t) := by
  induction es generalizing s with
  | nil =>
    cases hrun
    rfl
  | cons e es ih =>
    obtain ⟨s', he, hrest⟩ := run_cons hrun
    simp only [emitted, he]
    rw [run_append, hstep s e s' he]
    exact ih hrest

end Runs
