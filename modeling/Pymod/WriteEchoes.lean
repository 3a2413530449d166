-- What a write that is reported as done was answered with. Any normal response to a
-- request of the same kind will do: the address and the value or the count that the
-- device sends back are read, and not compared with those of the request.
import Pymod.BatchIsolation

namespace pymod.planner

open errors codec pdu types Ranges Slices

/-! ## One response -/

/-- The function code of the request that carries the values. -/
def payload_code : Payload → UInt8
  | .registers [_] => FC_WRITE_SINGLE_REGISTER
  | .registers _ => FC_WRITE_MULTIPLE_REGISTERS
  | .coils [_] => FC_WRITE_SINGLE_COIL
  | .coils _ => FC_WRITE_MULTIPLE_COILS

/-- Five bytes with the code of the request; for one coil the last two are on or off. -/
def NormalResponse (payload : Payload) (resp : Bytes) : Prop :=
  resp.length = 5 ∧ resp.head? = some (payload_code payload) ∧
    ∀ value, payload = .coils [value] → (unpack_HH resp).2 = COIL_ON ∨ (unpack_HH resp).2 = COIL_OFF

theorem decode_echo_iff (resp : Bytes) (fc : UInt8) (p : Int × Int) :
    decode_echo resp fc = .ok p ↔
      (resp.length = 5 ∧ resp.head? = some fc) ∧ p = unpack_HH resp := by
  constructor
  · intro h
    obtain ⟨_, hraise, hrest⟩ := bind_eq_ok h
    by_cases hlen : resp.length = 5
    · rw [if_neg (not_not.mpr hlen)] at hrest
      exact ⟨⟨hlen, head_of_raise_exception hraise⟩, (Except.ok.inj hrest).symm⟩
    · rw [if_pos hlen] at hrest
      cases hrest
  · rintro ⟨⟨hlen, hhead⟩, rfl⟩
    obtain ⟨rest, rfl⟩ := List.head?_eq_some_iff.mp hhead
    unfold decode_echo
    rw [raise_exception_ok]
    exact if_neg (not_not.mpr hlen)

theorem decode_write_single_coil_iff (resp : Bytes) :
    (∃ p, decode_write_single_coil resp = .ok p) ↔
      (resp.length = 5 ∧ resp.head? = some FC_WRITE_SINGLE_COIL) ∧
        ((unpack_HH resp).2 = COIL_ON ∨ (unpack_HH resp).2 = COIL_OFF) := by
  constructor
  · rintro ⟨p, h⟩
    obtain ⟨q, hecho, hrest⟩ := bind_eq_ok h
    obtain ⟨hform, rfl⟩ := (decode_echo_iff _ _ _).mp hecho
    refine ⟨hform, ?_⟩
    by_contra hneither
    rw [not_or] at hneither
    simp only [if_neg hneither.1, if_neg hneither.2] at hrest
    cases hrest
  · rintro ⟨hform, hcoil⟩
    have hecho := (decode_echo_iff resp FC_WRITE_SINGLE_COIL _).mpr ⟨hform, rfl⟩
    unfold decode_write_single_coil
    rw [hecho]
    rcases hcoil with hcoil | hcoil
    · exact ⟨((unpack_HH resp).1, true), by simp [bind, Except.bind, hcoil]; rfl⟩
    · exact ⟨((unpack_HH resp).1, false), by simp [bind, Except.bind, hcoil]; rfl⟩

/-- A step that reads a response and drops what it read. -/
theorem discard_iff {α : Type} (x : Except PyError α) :
    (x >>= fun _ => pure ()) = (.ok () : Except PyError Unit) ↔ ∃ a, x = .ok a := by
  cases x with
  | error e => simp [bind, Except.bind]
  | ok a => simp [bind, Except.bind, pure, Except.pure]

theorem payload_response_iff (payload : Payload) (resp : Bytes) :
    payload_response payload resp = .ok () ↔ NormalResponse payload resp := by
  have hwords : ∀ fc, (∃ p, decode_echo resp fc = .ok p) ↔
      resp.length = 5 ∧ resp.head? = some fc := by
    intro fc
    simp only [decode_echo_iff, exists_and_left, exists_eq, and_true]
  have hmany : ∀ fc, payload_code payload = fc → (∀ value, payload ≠ .coils [value]) →
      (resp.length = 5 ∧ resp.head? = some fc ↔ NormalResponse payload resp) := by
    rintro _ rfl hne
    exact ⟨fun h => ⟨h.1, h.2, fun value hv => absurd hv (hne value)⟩, fun h => ⟨h.1, h.2.1⟩⟩
  unfold payload_response
  split
  · refine (discard_iff _).trans ((hwords _).trans (hmany _ rfl ?_))
    simp
  · rename_i values hvalues
    refine (discard_iff _).trans ((hwords _).trans (hmany _ ?_ (by simp)))
    unfold payload_code
    split <;> simp_all
  · refine (discard_iff _).trans ((decode_write_single_coil_iff resp).trans ?_)
    simp [NormalResponse, payload_code, and_assoc]
  · rename_i values hvalues
    refine (discard_iff _).trans ((hwords _).trans (hmany _ ?_ ?_))
    · unfold payload_code
      split <;> simp_all
    · intro value hv
      exact hvalues value (Payload.coils.inj hv)

/-! ## A batch that returns -/

section

variable {F σ : Type} [FloatOps F]

/-- A batch that returned was planned, and all of its requests start in the address space. -/
theorem starts_of_returned {items : List (WriteItem F)} {execute : Bytes → Py σ Bytes} {s s' : σ}
    {results : List (WriteResult F)}
    (hrun : plan_and_execute_writes items execute s = (.ok results, s')) :
    ∃ chunks, plan_writes items = .ok chunks ∧ ∀ c ∈ chunks, IsRegister c.start := by
  cases items with
  | nil => exact ⟨[], rfl, by simp⟩
  | cons first others =>
    unfold plan_and_execute_writes at hrun
    rw [if_neg (by simp)] at hrun
    obtain ⟨chunks, s₁, hplan, hrun⟩ := Py.bind_eq_ok hrun
    obtain ⟨_, _, hgather, _⟩ := Py.bind_eq_ok hrun
    rw [Py.lift_run] at hplan
    have hplan := (Prod.mk.inj hplan).1
    refine ⟨chunks, hplan, fun c hc => ?_⟩
    by_contra hbad
    obtain ⟨_, hchunks⟩ := plan_writes_eq hplan
    have hraises : ∀ s, ∃ e s', execute_write_chunk c execute s = (.error e, s') := by
      intro s
      rw [hchunks] at hc
      obtain ⟨⟨item, idx⟩, _, hc⟩ := List.mem_flatMap.mp hc
      obtain ⟨p, _, rfl⟩ := List.mem_map.mp hc
      rw [payload_chunk_start] at hbad
      obtain ⟨e, he⟩ := execute_write_chunk_bad hbad s
      exact ⟨e, s, he⟩
    have hfails : ∃ e s', Py.gather (chunks.map fun c => execute_write_chunk c execute) s₁ =
        (.error e, s') := Py.gather_raises hc hraises s₁
    obtain ⟨e, s', hfails⟩ := hfails
    cases hfails.symm.trans hgather

/-- A call that ended without a failure returned a normal response. -/
theorem write_chunk_failure_eq_none {execute : Bytes → Py σ Bytes} (hexec : OnlyModbus execute)
    {c : WriteChunk} {o : Outcome} (ho : ∃ s, o = (execute (write_chunk_request c) s).1) :
    write_chunk_failure (c, o) = none ↔ ∃ resp, o = .ok resp ∧ NormalResponse c.payload resp := by
  unfold write_chunk_failure
  simp only [← payload_response_iff]
  cases hend : o.bind (payload_response c.payload) with
  | ok u =>
    obtain ⟨resp, rfl, hresp⟩ := bind_eq_ok hend
    simp only [modbus_error, Except.ok.injEq, exists_eq_left', hresp]
  | error e =>
    obtain ⟨s, rfl⟩ := ho
    obtain ⟨m, rfl⟩ := isModbus_of_outcome hexec (fun _ _ => payload_response_modbus) _ s hend
    simp only [modbus_error, reduceCtorEq, false_iff]
    rintro ⟨resp, hok, hresp⟩
    rw [hok] at hend
    change payload_response c.payload resp = _ at hend
    rw [hresp] at hend
    cases hend

/-- What the requests of an item were answered with. -/
def own_answers (i : Nat) (chunks : List WriteChunk) (calls : List (Bytes × Outcome)) :
    List (WriteChunk × Outcome) :=
  own_writes i (chunks.zip (calls.map Prod.snd))

/-- The response is the echo of the address and the value, or of the address and the count. -/
def Confirmed (p : WriteChunk × Outcome) : Prop :=
  p.2 = .ok (payload_echo p.1.start p.1.payload)

/-- A write is reported as done exactly when each of its requests got a normal response. -/
theorem a_write_is_done_iff {items : List (WriteItem F)} {execute : Bytes → Py σ Bytes}
    (hexec : OnlyModbus execute) {s t : σ} {results : List (WriteResult F)}
    {calls : List (Bytes × Outcome)}
    (hrun : plan_and_execute_writes items (recorded execute) ([], s) = (.ok results, (calls, t))) :
    ∃ chunks, plan_writes items = .ok chunks ∧
      calls.map Prod.fst = chunks.map write_chunk_request ∧
      ∀ (i : Nat) r, results[i]? = some r →
        (r.ok = true ↔ ∀ p ∈ own_answers i chunks calls,
          ∃ resp, p.2 = .ok resp ∧ NormalResponse p.1.payload resp) := by
  obtain ⟨chunks, hplan, hstart⟩ := starts_of_returned hrun
  obtain ⟨outcomes, t', hall, hrun'⟩ := plan_and_execute_writes_recorded hplan hstart
    (fun _ _ s _ => isModbus_of_outcome hexec (fun _ _ => payload_response_modbus) _ s) s
  cases hrun.symm.trans hrun'
  have hlen := hall.length_eq
  have hlen' : outcomes.length = (chunks.map write_chunk_request).length := by
    rw [List.length_map, hlen]
  refine ⟨chunks, hplan, List.map_fst_zip (by omega), fun i r hr => ?_⟩
  rw [own_answers, List.map_snd_zip (by omega)]
  obtain ⟨item, hitem⟩ : ∃ item, items[i]? = some item := by
    have hitems := foldl_apply_error_items (List.zipWith write_chunk_result chunks outcomes)
      (items.map fun item => ({ item, ok := true, error := none } : WriteResult F))
    have hsome := congrArg (fun l => l[i]?) hitems
    simp only [List.getElem?_map, hr] at hsome
    cases hi : items[i]? with
    | none => simp [hi] at hsome
    | some item => exact ⟨item, rfl⟩
  have hfailure : ∀ p ∈ own_writes i (chunks.zip outcomes), write_chunk_failure p = none ↔
      ∃ resp, p.2 = .ok resp ∧ NormalResponse p.1.payload resp := by
    intro p hp
    exact write_chunk_failure_eq_none hexec
      ((List.forall₂_iff_zip.mp hall).2 (List.mem_filter.mp hp).1)
  rw [written_item items chunks outcomes hitem] at hr
  have hdone : r.ok = true ↔ ∀ p ∈ own_writes i (chunks.zip outcomes),
      write_chunk_failure p = none := by
    rw [← List.findSome?_eq_none_iff]
    cases hfind : (own_writes i (chunks.zip outcomes)).findSome? write_chunk_failure with
    | none =>
      rw [hfind] at hr
      simp [← Option.some.inj hr]
    | some e =>
      rw [hfind] at hr
      simp [← Option.some.inj hr]
  rw [hdone]
  exact forall₂_congr hfailure

end

/-- A device whose answer belongs to another request, a write to register 9. -/
def stale_device (_ : Bytes) : Py Unit Bytes := fun s => (.ok [6, 0, 9, 0, 5], s)

theorem onlyModbus_stale_device : OnlyModbus stale_device := by
  intro req s e s' h
  cases h

def one_write : List (WriteItem Float) := [.WriteHolding 7 [.int 5] .uint16 .big .big]

/-- The one request of this batch, and its result. -/
theorem one_write_run : plan_and_execute_writes one_write (recorded stale_device) ([], ()) =
    (.ok [{ item := .WriteHolding 7 [.int 5] .uint16 .big .big, ok := true, error := none }],
      ([([6, 0, 7, 0, 5], .ok [6, 0, 9, 0, 5])], ())) := by
  have hchunk : execute_write_chunk (payload_chunk 0 7 (.registers [5])) (recorded stale_device)
      ([], ()) = (.ok ⟨payload_chunk 0 7 (.registers [5]), none⟩,
        ([([6, 0, 7, 0, 5], .ok [6, 0, 9, 0, 5])], ())) := rfl
  have hplan : plan_writes one_write = .ok [payload_chunk 0 7 (.registers [5])] := rfl
  unfold plan_and_execute_writes
  rw [if_neg (by simp [one_write]), hplan]
  simp only [bind, Py.lift_run, List.map_cons, List.map_nil, Py.gather, hchunk]
  rfl

/-- A write to register 7 is reported as done by an answer that belongs to register 9. -/
theorem a_write_is_done_by_another_answer : ∃ chunks, plan_writes one_write = .ok chunks ∧
    ∀ p ∈ own_answers 0 chunks [([6, 0, 7, 0, 5], .ok [6, 0, 9, 0, 5])],
      ∃ resp, p.2 = .ok resp ∧ NormalResponse p.1.payload resp := by
  obtain ⟨chunks, hplan, _, hdone⟩ := a_write_is_done_iff onlyModbus_stale_device one_write_run
  exact ⟨chunks, hplan, (hdone 0 _ rfl).mp rfl⟩

theorem a_write_is_done_unconfirmed :
    ¬ ∀ (items : List (WriteItem Float)) (chunks : List WriteChunk) (execute : Bytes → Py Unit Bytes)
      (results : List (WriteResult Float)) (calls : List (Bytes × Outcome)) (t : Unit),
      OnlyModbus execute → plan_writes items = .ok chunks →
      plan_and_execute_writes items (recorded execute) ([], ()) = (.ok results, (calls, t)) →
      ∀ (i : Nat) r, results[i]? = some r → r.ok = true →
        ∀ p ∈ own_answers i chunks calls, Confirmed p := by
  intro h
  have hconfirmed := h one_write _ stale_device _ _ () onlyModbus_stale_device rfl
    one_write_run 0 _ rfl rfl
    (payload_chunk 0 7 (.registers [5]), .ok [6, 0, 9, 0, 5]) (by decide)
  have hecho : ([6, 0, 9, 0, 5] : Bytes) = [6, 0, 7, 0, 5] := Except.ok.inj hconfirmed
  exact absurd hecho (by decide)

end pymod.planner
