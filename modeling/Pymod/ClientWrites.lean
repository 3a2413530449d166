-- What a write batch with retries leaves in the memory of its peer. Every chunk that reports
-- success has had its frame received, so the memory depends only on which frame was the last
-- one to arrive at each address.
import Pymod.Client
import Pymod.TcpReplies
import Pymod.Lib.Overlays

namespace pymod.client

open errors codec pdu adu_tcp types data_model planner server Function Overlays Session
open tcp (TcpTransport)

/-! ## The task of a chunk -/

/-- The request of a chunk fails when `execute` fails. -/
theorem write_chunk_raises {σ : Type} (chunk : WriteChunk) {execute : Bytes → Py σ Bytes}
    (hexec : ∀ req s, ∃ e s', execute req s = (.error e, s')) (s : σ) :
    ∃ e s', write_chunk chunk execute s = (.error e, s') := by
  have hexchange : ∀ {α : Type} (req : Except PyError Bytes) (decode : Bytes → Except PyError α),
      ∃ e s', exchange req execute decode s = (.error e, s') := by
    intro α req decode
    cases req with
    | ok pdu =>
      obtain ⟨e, s', h⟩ := hexec pdu s
      refine ⟨e, s', ?_⟩
      unfold exchange
      rw [Py.bind_ok (Py.lift_run _ _), Py.bind_error h]
    | error e => exact ⟨e, s, rfl⟩
  cases harea : chunk.area with
  | HOLDING_REGISTER =>
    simp only [write_chunk, harea]
    rcases chunk.register_values with _ | (_ | ⟨v, _ | ⟨w, rest⟩⟩)
    · exact ⟨_, s, rfl⟩
    · exact hexchange _ _
    · exact hexchange _ _
    · exact hexchange _ _
  | COIL =>
    simp only [write_chunk, harea]
    rcases chunk.coil_values with _ | (_ | ⟨v, _ | ⟨w, rest⟩⟩)
    · exact ⟨_, s, rfl⟩
    · exact hexchange _ _
    · exact hexchange _ _
    · exact hexchange _ _
  | DISCRETE_INPUT | INPUT_REGISTER =>
    simp only [write_chunk, harea]
    exact ⟨_, s, rfl⟩

/-- The result names the chunk, and reports an error when `execute` has raised one. -/
theorem result_ok {chunk : WriteChunk} {outcome : Except PyError Bytes} {cr : WriteChunkResult}
    (h : result chunk outcome = .ok cr) :
    cr.chunk = chunk ∧ (cr.error = none → ∃ pdu, outcome = .ok pdu) := by
  unfold result at h
  cases hwrite : write_chunk chunk (end_with outcome) () with
  | mk end_ s =>
    cases end_ with
    | ok u =>
      rw [execute_write_chunk_run hwrite] at h
      cases h
      refine ⟨rfl, fun _ => ?_⟩
      cases outcome with
      | ok pdu => exact ⟨pdu, rfl⟩
      | error e =>
        have hexec : ∀ req s, ∃ e' s', end_with (.error e) req s = (.error e', s') :=
          fun _ s => ⟨e, s, rfl⟩
        obtain ⟨e', s', he⟩ := write_chunk_raises chunk hexec ()
        rw [hwrite] at he
        cases he
    | error e =>
      rw [execute_write_chunk_run hwrite] at h
      cases e with
      | modbus m =>
        cases h
        exact ⟨rfl, fun hnone => by cases hnone⟩
      | _ => cases h

/-- What a chunk of a plan is, wherever it starts. -/
theorem plan_chunk_form {F : Type} [FloatOps F] {items : List (WriteItem F)}
    {chunks : List WriteChunk} (hplan : plan_writes items = .ok chunks) {c : WriteChunk}
    (hc : c ∈ chunks) : c = payload_chunk c.item_idx c.start c.payload ∧ c.payload.Legal ∧
      c.item_idx < items.length := by
  obtain ⟨-, rfl⟩ := plan_writes_eq hplan
  obtain ⟨⟨item, idx⟩, hq, hc⟩ := List.mem_flatMap.mp hc
  obtain ⟨p, hp, rfl⟩ := List.mem_map.mp hc
  rw [payload_chunk_item_idx, payload_chunk_start, payload_chunk_payload]
  refine ⟨rfl, item_pieces_legal item p hp, ?_⟩
  rw [List.mem_zipIdx_iff_getElem?] at hq
  exact (List.getElem?_eq_some_iff.mp hq).1

/-- A chunk of a plan that calls `execute` starts in the address space, and sends its request. -/
theorem request_some {F : Type} [FloatOps F] {items : List (WriteItem F)}
    {chunks : List WriteChunk} (hplan : plan_writes items = .ok chunks) {c : WriteChunk}
    (hc : c ∈ chunks) {pdu : Bytes} (h : request c = some pdu) :
    IsRegister c.start ∧ pdu = write_chunk_request c := by
  obtain ⟨hform, hlegal, -⟩ := plan_chunk_form hplan hc
  unfold request execute_write_chunk Py.except_modbus at h
  rw [hform] at h
  by_cases hstart : IsRegister c.start
  · refine ⟨hstart, ?_⟩
    rw [write_chunk_payload _ hlegal hstart] at h
    cases h
    rfl
  · rw [Py.bind_error (write_chunk_error hstart none)] at h
    cases h

/-! ## What a chunk writes -/

/-- What stands in the request at an address of an area. -/
def cells_written (c : WriteChunk) : Area × Int → Option Cell := fun k =>
  if k.1 = c.payload.area then overwrite (fun _ => none) c.start c.payload.cells k.2 else none

/-- The same, for a chunk that goes by its place in the plan. -/
def written (chunks : List WriteChunk) (j : Nat) : Area × Int → Option Cell :=
  match chunks[j]? with
  | some c => cells_written c
  | none => fun _ => none

theorem overwrite_or {α : Type} (mem : Int → Option α) (start : Int) (values : List α) (x : Int) :
    overwrite mem start values x = (overwrite (fun _ => none) start values x).or (mem x) := by
  by_cases hx : start ≤ x ∧ x < start + values.length
  · have hlt : (x - start).toNat < values.length := by omega
    simp only [overwrite, if_pos hx, List.getElem?_eq_getElem hlt, Option.some_or]
  · simp only [overwrite, if_neg hx, Option.none_or]

theorem store_chunk_overlay (mem : Memory) (c : WriteChunk) :
    uncurry (store_chunk mem c) = overlay (uncurry mem) (cells_written c) := by
  funext ⟨area, x⟩
  simp only [uncurry, overlay, cells_written, store_chunk, store_payload, store_cells]
  by_cases harea : area = c.payload.area
  · subst harea
    rw [update_self, if_pos rfl]
    exact overwrite_or _ _ _ _
  · rw [update_of_ne harea, if_neg harea, Option.none_or]

/-- Both chunks write an address of one area. -/
def Meet (c d : WriteChunk) : Prop :=
  c.payload.area = d.payload.area ∧ c.start < d.start + d.payload.length ∧
    d.start < c.start + c.payload.length

theorem cells_written_inside {c : WriteChunk} {k : Area × Int} (h : cells_written c k ≠ none) :
    k.1 = c.payload.area ∧ c.start ≤ k.2 ∧ k.2 < c.start + c.payload.length := by
  unfold cells_written at h
  split at h
  · rename_i harea
    rw [← length_cells]
    by_contra hout
    exact h (overwrite_outside fun hin => hout ⟨harea, hin⟩)
  · exact absurd rfl h

/-- The chunks of the plan, one after the other. -/
theorem foldl_store_chunk_overlays (chunks : List WriteChunk) (mem : Memory) :
    uncurry (chunks.foldl store_chunk mem) =
      overlays (written chunks) (uncurry mem) (List.range chunks.length) := by
  have hcurry : ∀ mem : Memory, ∀ l : List WriteChunk, uncurry (l.foldl store_chunk mem) =
      l.foldl (fun store c => overlay store (cells_written c)) (uncurry mem) := by
    intro mem l
    induction l generalizing mem with
    | nil => rfl
    | cons c l ih => rw [List.foldl_cons, ih, store_chunk_overlay, List.foldl_cons]
  have hget : (List.range chunks.length).map (written chunks) = chunks.map cells_written := by
    refine List.ext_getElem (by simp) fun i hi hi' => ?_
    have hlt : i < chunks.length := by simpa using hi
    simp [written, List.getElem?_eq_getElem hlt]
  have hfold : ∀ (l : List Nat) (m : List WriteChunk) (store : Area × Int → Option Cell),
      l.map (written chunks) = m.map cells_written →
      m.foldl (fun store c => overlay store (cells_written c)) store =
        l.foldl (fun store j => overlay store (written chunks j)) store := by
    intro l m store h
    rw [← @List.foldl_map _ _ _ cells_written overlay, ← @List.foldl_map _ _ _ (written chunks) overlay,
      h]
  rw [hcurry]
  exact hfold _ _ _ hget

/-- The second chunk is of a later item, and both write a common address. -/
def Precedes (chunks : List WriteChunk) (j k : Nat) : Prop :=
  ∃ c d, chunks[j]? = some c ∧ chunks[k]? = some d ∧ c.item_idx < d.item_idx ∧ Meet c d

section

variable {F : Type} [FloatOps F] {items : List (WriteItem F)} {chunks : List WriteChunk}

theorem plan_writes_ascending (hplan : plan_writes items = .ok chunks) :
    chunks.Pairwise fun c d => c.item_idx < d.item_idx ∨ c.item_idx = d.item_idx ∧ ¬ Meet c d := by
  obtain ⟨-, rfl⟩ := plan_writes_eq hplan
  refine List.pairwise_flatMap.mpr ⟨?_, ?_⟩
  · intro q _
    refine List.pairwise_map.mpr ((item_pieces_inside q.1).2.imp fun h => Or.inr ⟨?_, ?_⟩)
    · rw [payload_chunk_item_idx, payload_chunk_item_idx]
    · rintro ⟨-, -, hmeet⟩
      rw [payload_chunk_start, payload_chunk_start, payload_chunk_payload] at hmeet
      omega
  · have hascending : (items.zipIdx.map Prod.snd).Pairwise (· < ·) := by
      rw [List.zipIdx_map_snd]
      exact List.pairwise_lt_range'
    refine (List.pairwise_map.mp hascending).imp fun hlt => ?_
    intro c hc d hd
    obtain ⟨p, _, rfl⟩ := List.mem_map.mp hc
    obtain ⟨p', _, rfl⟩ := List.mem_map.mp hd
    rw [payload_chunk_item_idx, payload_chunk_item_idx]
    exact Or.inl hlt

theorem Precedes.lt (hplan : plan_writes items = .ok chunks) {j k : Nat}
    (h : Precedes chunks j k) : j < k := by
  obtain ⟨c, d, hc, hd, hidx, -⟩ := h
  obtain ⟨hj, rfl⟩ := List.getElem?_eq_some_iff.mp hc
  obtain ⟨hk, rfl⟩ := List.getElem?_eq_some_iff.mp hd
  by_contra hle
  rcases Nat.lt_or_eq_of_le (Nat.le_of_not_lt hle) with hlt | rfl
  · rcases List.pairwise_iff_getElem.mp (plan_writes_ascending hplan) k j hk hj hlt with h | h <;>
      omega
  · omega

/-- Two chunks that write one address are of items one of which precedes the other. -/
theorem precedes_total (hplan : plan_writes items = .ok chunks) {j k : Nat} (hne : j ≠ k)
    {at_ : Area × Int} (hj : written chunks j at_ ≠ none) (hk : written chunks k at_ ≠ none) :
    Precedes chunks j k ∨ Precedes chunks k j := by
  have hsome : ∀ {i : Nat}, written chunks i at_ ≠ none →
      ∃ c, chunks[i]? = some c ∧ cells_written c at_ ≠ none := by
    intro i hi
    unfold written at hi
    cases hc : chunks[i]? with
    | none => rw [hc] at hi; exact absurd rfl hi
    | some c => rw [hc] at hi; exact ⟨c, rfl, hi⟩
  obtain ⟨c, hc, hcw⟩ := hsome hj
  obtain ⟨d, hd, hdw⟩ := hsome hk
  obtain ⟨hca, hc0, hc1⟩ := cells_written_inside hcw
  obtain ⟨hda, hd0, hd1⟩ := cells_written_inside hdw
  have hmeet : Meet c d := ⟨hca.symm.trans hda, by omega, by omega⟩
  have hmeet' : Meet d c := ⟨hda.symm.trans hca, by omega, by omega⟩
  obtain ⟨hjl, hcj⟩ := List.getElem?_eq_some_iff.mp hc
  obtain ⟨hkl, hdk⟩ := List.getElem?_eq_some_iff.mp hd
  have hpair := List.pairwise_iff_getElem.mp (plan_writes_ascending hplan)
  rcases Nat.lt_or_gt_of_ne hne with hlt | hlt
  · have h := hpair j k hjl hkl hlt
    rw [hcj, hdk] at h
    exact Or.inl ⟨c, d, hc, hd, h.resolve_right fun h => h.2 hmeet, hmeet⟩
  · have h := hpair k j hkl hjl hlt
    rw [hcj, hdk] at h
    exact Or.inr ⟨d, c, hd, hc, h.resolve_right fun h => h.2 hmeet', hmeet'⟩

/-- Frames of every chunk leave what the items leave one after the other, when the frames of each
chunk are followed by frames of the later chunks that write one of its addresses. -/
theorem overlays_arrivals (hplan : plan_writes items = .ok chunks) {arrivals : List Nat}
    (hmem : ∀ j, j ∈ arrivals ↔ j < chunks.length)
    (hfollowed : FollowedUp (Precedes chunks) arrivals) (mem : Memory) :
    overlays (written chunks) (uncurry mem) arrivals = uncurry (items.foldl store_item mem) := by
  rw [← foldl_store_chunk hplan, foldl_store_chunk_overlays]
  have hlt : ∀ j k, Precedes chunks j k → k < chunks.length := by
    rintro j k ⟨c, d, -, hd, -⟩
    exact (List.getElem?_eq_some_iff.mp hd).1
  have hplanned : FollowedUp (Precedes chunks) (List.range chunks.length) := by
    refine followedUp_of_pairwise List.pairwise_lt_range (fun j k h => ?_) fun j k h => ?_
    · have := h.lt hplan
      omega
    · exact List.mem_range.mpr (hlt j k h)
  refine overlays_congr hfollowed hplanned (fun j => ?_) fun j _ k _ hne at_ hj hk => ?_
  · rw [hmem, List.mem_range]
  · exact precedes_total hplan hne hj hk

end

/-! ## What every run keeps in order -/

/-- The transport keeps its own invariants. The calls of the batch carry the requests of their
chunks, a call is answered only after its frame was received, a chunk without an error has had a
frame received, and the memory of the peer is what the received frames have left there. -/
structure Held (batch : WriteBatch) (mem : Memory) (s : Session) : Prop where
  sound : tcp.Tidy s.transport ∧ tcp.Accounts s.transport ∧ tcp.Answers s.transport
  owned : ∀ c j, s.owner c = some j → ∃ chunk, batch.chunks[j]? = some chunk ∧
    request chunk = some (s.transport.calls c).pdu ∧
    (s.transport.calls c).unit_id = batch.unit_id
  unanswered : ∀ c, s.responses c = none → (s.transport.calls c).answer = none
  responded : ∀ c, s.responses c ≠ none → ∃ j, s.owner c = some j ∧ j ∈ s.arrivals
  sending : ∀ j c, (s.tasks j).place = .sending c → s.owner c = some j
  done : ∀ j cr, (s.tasks j).place = .done (.ok cr) →
    batch.chunks[j]? = some cr.chunk ∧ (cr.error = none → j ∈ s.arrivals)
  arrived : ∀ j ∈ s.arrivals, j < batch.chunks.length
  memory : uncurry s.memory = overlays (written batch.chunks) (uncurry mem) s.arrivals

section

variable {batch : WriteBatch} {mem : Memory} {s : Session}

/-- A task goes on without a new call. -/
theorem Held.with_task (hs : Held batch mem s) {j : Nat} {task : Task}
    (hsending : ∀ c, task.place ≠ .sending c)
    (hdone : ∀ cr, task.place = .done (.ok cr) →
      batch.chunks[j]? = some cr.chunk ∧ (cr.error = none → j ∈ s.arrivals)) :
    Held batch mem { s with tasks := update s.tasks j task } := by
  refine { hs with sending := fun k c hk => ?_, done := fun k cr hk => ?_ }
  · by_cases hkj : k = j
    · subst hkj
      simp only [update_self] at hk
      exact absurd hk (hsending c)
    · simp only [update_of_ne hkj] at hk
      exact hs.sending k c hk
  · by_cases hkj : k = j
    · subst hkj
      simp only [update_self] at hk
      exact hdone cr hk
    · simp only [update_of_ne hkj] at hk
      exact hs.done k cr hk

theorem Held.end_task (hs : Held batch mem s) {j : Nat} {chunk : WriteChunk}
    {outcome : Except PyError Bytes} (hchunk : batch.chunks[j]? = some chunk)
    (hok : ∀ pdu, outcome = .ok pdu → j ∈ s.arrivals) :
    Held batch mem (s.end_task j chunk outcome) := by
  refine hs.with_task (fun c hc => by cases hc) fun cr hcr => ?_
  simp only [TaskAt.done.injEq] at hcr
  obtain ⟨hcrchunk, hnone⟩ := result_ok hcr
  rw [hcrchunk]
  refine ⟨hchunk, fun herror => ?_⟩
  obtain ⟨pdu, hpdu⟩ := hnone herror
  exact hok pdu hpdu

/-- A step of the transport that the peers have no other part in than their answers. -/
theorem sound_step {transport transport' : TcpTransport} {e : tcp.Event}
    (hs : tcp.Tidy transport ∧ tcp.Accounts transport ∧ tcp.Answers transport)
    (he : tcp.step transport e = some transport') (hreplies : e.only_replies)
    (htime : tcp.InTime transport e) :
    tcp.Tidy transport' ∧ tcp.Accounts transport' ∧ tcp.Answers transport' :=
  tcp.answers_step hs ⟨hreplies, htime⟩ he

theorem inTime_of_frame_of {transport : TcpTransport} {e : tcp.Event} (h : e.frame_of = none) :
    tcp.InTime transport e := by
  intro g hg
  rw [h] at hg
  cases hg

/-- A task sends its request. -/
theorem Held.send (hs : Held batch mem s) {j c : Nat} {attempt : Int} {chunk : WriteChunk}
    {pdu : Bytes} {t : Session} (hchunk : batch.chunks[j]? = some chunk)
    (hrequest : request chunk = some pdu) (ht : s.send batch j attempt c pdu = some t) :
    Held batch mem t := by
  unfold Session.send at ht
  split at ht
  · rename_i hfree
    obtain ⟨transport, hstep, rfl⟩ := Option.map_eq_some_iff.mp ht
    obtain ⟨call, hcarries, hanswer, hcall⟩ := tcp.start_carries hstep rfl
    obtain ⟨hpdu, hunit⟩ := hcall _ _ _ rfl
    have hnew := hcarries c
    simp only [TcpTransport.set_call, update_self] at hnew
    have hold : ∀ d, d ≠ c → tcp.Carried (s.transport.calls d) (transport.calls d) := by
      intro d hd
      refine tcp.step_carries hstep (fun heq => hd ?_) (fun heq => by cases heq)
      exact (Option.some.inj heq).symm
    refine ⟨?_, ?_, ?_, ?_, ?_, ?_, hs.arrived, hs.memory⟩
    · exact sound_step hs.sound hstep rfl (inTime_of_frame_of rfl)
    · intro d k hk
      by_cases hd : d = c
      · subst hd
        simp only [update_self, Option.some.injEq] at hk
        subst hk
        refine ⟨chunk, hchunk, ?_, hnew.unit_id.trans hunit⟩
        rw [hrequest, hnew.pdu, hpdu]
      · simp only [update_of_ne hd] at hk
        obtain ⟨chunk', hchunk', hreq, hun⟩ := hs.owned d k hk
        refine ⟨chunk', hchunk', ?_, (hold d hd).unit_id.trans hun⟩
        rw [hreq, (hold d hd).pdu]
    · intro d hd
      by_cases hdc : d = c
      · subst hdc
        exact hnew.unanswered hanswer
      · exact (hold d hdc).unanswered (hs.unanswered d hd)
    · intro d hd
      obtain ⟨k, hk, hin⟩ := hs.responded d hd
      have hdc : d ≠ c := fun heq => by
        rw [heq, hfree] at hk
        cases hk
      exact ⟨k, by simpa only [update_of_ne hdc] using hk, hin⟩
    · intro k d hk
      by_cases hkj : k = j
      · subst hkj
        simp only [update_self, TaskAt.sending.injEq] at hk
        subst hk
        exact update_self ..
      · simp only [update_of_ne hkj] at hk
        have hd := hs.sending k d hk
        have hdc : d ≠ c := fun heq => by
          rw [heq, hfree] at hd
          cases hd
        simpa only [update_of_ne hdc] using hd
    · intro k cr hk
      by_cases hkj : k = j
      · subst hkj
        simp only [update_self] at hk
        cases hk
      · simp only [update_of_ne hkj] at hk
        exact hs.done k cr hk
  · cases ht

/-- A step of the transport that is no part of the batch. -/
theorem Held.transport (hs : Held batch mem s) {e : tcp.Event} {transport : TcpTransport}
    (hambient : ambient s e = true) (he : tcp.step s.transport e = some transport)
    (htime : tcp.InTime s.transport e) : Held batch mem { s with transport } := by
  have hreplies : e.only_replies = true ∧ e.answers = none := by
    cases e <;> first | exact ⟨rfl, rfl⟩ | cases hambient
  have hfree : ∀ c, e.starts = some c → s.owner c = none := by
    intro c hc
    cases e with
    | start_connect d => cases hc; exact Option.isNone_iff_eq_none.mp hambient
    | start_close d => cases hc; exact Option.isNone_iff_eq_none.mp hambient
    | start_send d pdu unit_id timeout_s => cases hambient
    | _ => cases hc
  have hcarried : ∀ c, e.starts ≠ some c → tcp.Carried (s.transport.calls c) (transport.calls c) :=
    fun c hc => tcp.step_carries he hc (by simp [hreplies.2])
  refine { hs with
    sound := sound_step hs.sound he hreplies.1 htime
    owned := fun c j hc => ?_
    unanswered := fun c hc => ?_ }
  · obtain ⟨chunk, hchunk, hreq, hunit⟩ := hs.owned c j hc
    have hkeep := hcarried c fun hstart => by
      rw [hfree c hstart] at hc
      cases hc
    refine ⟨chunk, hchunk, ?_, hkeep.unit_id.trans hunit⟩
    rw [hreq, hkeep.pdu]
  · by_cases hstart : e.starts = some c
    · obtain ⟨call, hcarries, hanswer, -⟩ := tcp.start_carries he hstart
      have hnew := hcarries c
      simp only [TcpTransport.set_call, update_self] at hnew
      exact hnew.unanswered hanswer
    · exact (hcarried c hstart).unanswered (hs.unanswered c hc)

/-- The peer replies to a frame that it has received. -/
theorem Held.reply (hs : Held batch mem s) {c : Nat} {unit_id : Int} {pdu : Bytes}
    {transport : TcpTransport} (hresponse : s.responses c ≠ none)
    (he : tcp.step s.transport (.peer_replied c unit_id pdu) = some transport) :
    Held batch mem { s with transport } := by
  obtain ⟨g, tid, frame, -, -, -, -, hcalls, -⟩ := tcp.peer_reply_spec he
  have hcall : ∀ d, (transport.calls d).pdu = (s.transport.calls d).pdu ∧
      (transport.calls d).unit_id = (s.transport.calls d).unit_id := by
    intro d
    rw [hcalls]
    by_cases hd : d = c
    · subst hd; simp
    · rw [update_of_ne hd]; exact ⟨rfl, rfl⟩
  refine { hs with
    sound := sound_step hs.sound he rfl (inTime_of_frame_of rfl)
    owned := fun d j hd => ?_
    unanswered := fun d hd => ?_ }
  · obtain ⟨chunk, hchunk, hreq, hunit⟩ := hs.owned d j hd
    refine ⟨chunk, hchunk, ?_, (hcall d).2.trans hunit⟩
    rw [hreq, (hcall d).1]
  · have hdc : d ≠ c := fun heq => hresponse (heq ▸ hd)
    change (transport.calls d).answer = none
    rw [hcalls, update_of_ne hdc]
    exact hs.unanswered d hd

end

section

variable {F : Type} [FloatOps F] {items : List (WriteItem F)} {batch : WriteBatch}
  {on_read : Area → Int → Int → Py Memory (List Cell)} {slave_id : Option Int} {mem : Memory}
  {s : Session}

/-- The slave stores what the frame of a chunk carries. -/
theorem apply_chunk_frame (haccept : Accepts slave_id batch.unit_id)
    (hplan : plan_writes items = .ok batch.chunks) {c : WriteChunk} (hc : c ∈ batch.chunks)
    (hstart : IsRegister c.start) {tid : Nat} {frame : Bytes}
    (hframe : encode_mbap_frame tid batch.unit_id (write_chunk_request c) = .ok frame)
    (memory : Memory) :
    (apply_frame (slave on_read slave_id) frame memory).2 = store_chunk memory c := by
  obtain ⟨-, hlegal, -⟩ := plan_chunk_form hplan hc
  obtain ⟨-, uid, -, huid, -⟩ := encode_mbap_frame_eq hframe
  unfold apply_frame
  rw [decode_encode_mbap_frame hframe]
  have hnat : ((batch.unit_id.toNat : Nat) : Int) = batch.unit_id := by omega
  have hstored := @dispatch_payload on_read slave_id batch.unit_id haccept c.start c.payload hstart
    hlegal memory
  simp only [hnat]
  exact congrArg Prod.snd hstored

/-- The peer receives a frame. -/
theorem Held.receive (haccept : Accepts slave_id batch.unit_id)
    (hplan : plan_writes items = .ok batch.chunks) (hs : Held batch mem s) {c : Nat} {t : Session}
    (ht : s.receive (slave on_read slave_id) c = some t) : Held batch mem t := by
  unfold Session.receive at ht
  simp only [Option.bind_eq_bind, Option.bind_eq_some_iff] at ht
  obtain ⟨j, hj, g, -, tid, -, frame, hframe, ht⟩ := ht
  split at ht
  · rename_i hnext
    cases ht
    obtain ⟨chunk, hchunk, hreq, hunit⟩ := hs.owned c j hj
    have hin := List.mem_of_getElem? hchunk
    obtain ⟨hstart, hpdu⟩ := request_some hplan hin hreq
    have hencoded : encode_mbap_frame tid batch.unit_id (write_chunk_request chunk) = .ok frame := by
      rw [hpdu, hunit] at hframe
      cases hencode : encode_mbap_frame tid batch.unit_id (write_chunk_request chunk) with
      | ok frame' => rw [hencode] at hframe; cases hframe; rfl
      | error e => rw [hencode] at hframe; cases hframe
    refine { hs with
      unanswered := fun d hd => ?_
      responded := fun d hd => ?_
      done := fun k cr hk => ?_
      arrived := fun k hk => ?_
      memory := ?_ }
    · by_cases hdc : d = c
      · subst hdc
        exact hs.unanswered d hnext.2
      · simp only [update_of_ne hdc] at hd
        exact hs.unanswered d hd
    · by_cases hdc : d = c
      · subst hdc
        exact ⟨j, hj, by simp⟩
      · simp only [update_of_ne hdc] at hd
        obtain ⟨k, hk, hkin⟩ := hs.responded d hd
        exact ⟨k, hk, List.mem_append_left _ hkin⟩
    · obtain ⟨hcr, hnone⟩ := hs.done k cr hk
      exact ⟨hcr, fun herror => List.mem_append_left _ (hnone herror)⟩
    · rcases List.mem_append.mp hk with hk | hk
      · exact hs.arrived k hk
      · rw [List.mem_singleton.mp hk]
        exact (List.getElem?_eq_some_iff.mp hchunk).1
    · have hstored := @apply_chunk_frame F _ items batch on_read slave_id haccept hplan chunk hin hstart tid
        frame hencoded s.memory
      have hwritten : written batch.chunks j = cells_written chunk := by
        simp only [written, hchunk]
      change uncurry (apply_frame (slave on_read slave_id) frame s.memory).2 =
        overlays (written batch.chunks) (uncurry mem) (s.arrivals ++ [j])
      rw [hstored, store_chunk_overlay, overlays_append, ← hs.memory, ← hwritten]
      rfl
  · cases ht

/-- A reply that is read was asked for less than one round of the id counter ago. -/
def RepliesInTime (s : Session) : Event → Prop
  | .transport e => tcp.InTime s.transport e
  | _ => True

instance (s : Session) : DecidablePred (RepliesInTime s)
  | .transport e => inferInstanceAs (Decidable (tcp.InTime s.transport e))
  | .begun _ _ | .resumed _ | .slept _ _ | .received _ | .replied _ => isTrue trivial

theorem Held.step (haccept : Accepts slave_id batch.unit_id)
    (hplan : plan_writes items = .ok batch.chunks) {e : Event} {t : Session}
    (hs : Held batch mem s) (htime : RepliesInTime s e)
    (he : step batch (slave on_read slave_id) s e = some t) : Held batch mem t := by
  cases e with
  | begun j c =>
    simp only [client.step, Option.bind_eq_bind, Option.bind_eq_some_iff] at he
    obtain ⟨chunk, hchunk, he⟩ := he
    split at he
    · unfold begin_task at he
      split at he
      · cases he
        exact hs.end_task hchunk fun pdu hpdu => by cases hpdu
      · rename_i pdu hreq
        split at he
        · cases he
          exact hs.end_task hchunk fun pdu hpdu => by cases hpdu
        · exact hs.send hchunk hreq he
    · cases he
  | resumed j =>
    simp only [client.step, Option.bind_eq_bind, Option.bind_eq_some_iff] at he
    obtain ⟨chunk, hchunk, he⟩ := he
    split at he
    · rename_i c hplace
      unfold resume_task at he
      split at he
      · rename_i pdu hreturned
        cases he
        refine hs.end_task hchunk fun _ _ => ?_
        -- the call returned the answer to its own frame, which was received before
        obtain ⟨o, ho⟩ := hs.sound.2.2.returned c pdu hreturned
        have hanswer := (hs.sound.2.2.results c pdu o ho).2
        have hresponse : s.responses c ≠ none := fun hnone => by
          rw [hs.unanswered c hnone] at hanswer
          cases hanswer
        obtain ⟨k, hk, hin⟩ := hs.responded c hresponse
        rw [hs.sending j c hplace] at hk
        cases hk
        exact hin
      · split at he <;> cases he
        · exact hs.with_task (fun c hc => by cases hc) fun cr hcr => by cases hcr
        · exact hs.end_task hchunk fun pdu hpdu => by cases hpdu
      · cases he
    · cases he
  | slept j c =>
    simp only [client.step, Option.bind_eq_bind, Option.bind_eq_some_iff] at he
    obtain ⟨chunk, hchunk, he⟩ := he
    split at he
    · simp only [send_again, Option.bind_eq_bind, Option.bind_eq_some_iff] at he
      obtain ⟨pdu, hreq, he⟩ := he
      exact hs.send hchunk hreq he
    · cases he
  | transport e =>
    simp only [client.step] at he
    split at he
    · rename_i hambient
      obtain ⟨transport, hstep, rfl⟩ := Option.map_eq_some_iff.mp he
      exact hs.transport hambient hstep htime
    · cases he
  | received c => exact hs.receive haccept hplan he
  | replied c =>
    simp only [client.step] at he
    split at he
    · rename_i pdu hresponse
      obtain ⟨transport, hstep, rfl⟩ := Option.map_eq_some_iff.mp he
      exact hs.reply (by simp [hresponse]) hstep
    · cases he

theorem Held.new (host : String) (port : Int) (connect_timeout_s : String) (batch : WriteBatch)
    (mem : Memory) : Held batch mem (new host port connect_timeout_s mem) where
  sound := ⟨tcp.tidy_new host port true connect_timeout_s,
    tcp.accounts_new host port true connect_timeout_s,
    tcp.answers_new host port true connect_timeout_s⟩
  owned := fun c j h => by cases h
  unanswered := fun c h => rfl
  responded := fun c h => absurd rfl h
  sending := fun j c h => by cases h
  done := fun j cr h => by cases h
  arrived := fun j h => by cases h
  memory := rfl

omit [FloatOps F] in
/-- Every item reports ok only when every task has returned without an error. -/
theorem results_ok {rs : List (WriteResult F)} (hresults : results batch items s = some rs)
    (hok : ∀ r ∈ rs, r.ok = true) {j : Nat} (hj : j < batch.chunks.length) :
    ∃ cr, (s.tasks j).place = .done (.ok cr) ∧
      (cr.chunk.item_idx < items.length → cr.error = none) := by
  unfold results at hresults
  simp only [Option.bind_eq_bind, Option.bind_eq_some_iff] at hresults
  obtain ⟨crs, hcrs, hrs⟩ := hresults
  cases hrs
  have hall := Slices.forall₂_of_mapM_some hcrs
  have hlen : j < crs.length := by simpa [← hall.length_eq] using hj
  have hplace := (List.forall₂_iff_get.mp hall).2 j (by simpa using hj) hlen
  refine ⟨crs.get ⟨j, hlen⟩, ?_, fun hidx => ?_⟩
  · simp only [List.get_eq_getElem, List.getElem_range] at hplace ⊢
    split at hplace
    · rename_i cr hdone
      cases hplace
      exact hdone
    · cases hplace
  · let cr := crs.get ⟨j, hlen⟩
    have hinit : (items.map fun item => ({ item, ok := true, error := none } : WriteResult F))[
        cr.chunk.item_idx]? = some { item := items[cr.chunk.item_idx], ok := true, error := none } := by
      rw [List.getElem?_map, List.getElem?_eq_getElem hidx]
      rfl
    have hresult := foldl_apply_error_at crs _ hinit rfl
    cases hfind : (crs.filter fun cr' => cr'.chunk.item_idx = cr.chunk.item_idx).findSome?
        fun cr => cr.error with
    | none =>
      refine List.findSome?_eq_none_iff.mp hfind cr (List.mem_filter.mpr ⟨?_, by simp⟩)
      exact List.get_mem crs ⟨j, hlen⟩
    | some e =>
      rw [hfind] at hresult
      cases hok _ (List.mem_of_getElem? hresult)

/-- When every item reports ok, a frame of every chunk has been received. -/
theorem Held.all_arrived (hplan : plan_writes items = .ok batch.chunks) (hs : Held batch mem s)
    {rs : List (WriteResult F)} (hresults : results batch items s = some rs)
    (hok : ∀ r ∈ rs, r.ok = true) (j : Nat) : j ∈ s.arrivals ↔ j < batch.chunks.length := by
  refine ⟨hs.arrived j, fun hj => ?_⟩
  obtain ⟨cr, hdone, herror⟩ := results_ok hresults hok hj
  obtain ⟨hchunk, harrived⟩ := hs.done j cr hdone
  exact harrived (herror (plan_chunk_form hplan (List.mem_of_getElem? hchunk)).2.2)

/-- Whenever all items of a write batch report ok, the peer has them stored one after the other,
when behind each frame that it received there came a frame of every chunk of a later item that
writes one of the same addresses. -/
theorem a_batch_with_retries_stores_its_items (haccept : Accepts slave_id batch.unit_id)
    (hplan : plan_writes items = .ok batch.chunks) (host : String) (port : Int)
    (connect_timeout_s : String) (mem : Memory) {es : List Event} {rs : List (WriteResult F)}
    (htime : Runs.Guarded (step batch (slave on_read slave_id)) RepliesInTime
      (new host port connect_timeout_s mem) es)
    (hrun : Runs.run (step batch (slave on_read slave_id)) (new host port connect_timeout_s mem) es =
      some s)
    (hresults : results batch items s = some rs) (hok : ∀ r ∈ rs, r.ok = true)
    (horder : FollowedUp (Precedes batch.chunks) s.arrivals) :
    s.memory = items.foldl store_item mem := by
  have hs : Held batch mem s := by
    refine Runs.invariant_run (fun s e t hs hg he => ?_)
      (Held.new host port connect_timeout_s batch mem) htime hrun
    exact hs.step haccept hplan hg he
  have hstored := overlays_arrivals hplan (hs.all_arrived hplan hresults hok) horder mem
  rw [← hs.memory] at hstored
  funext area x
  exact congrFun hstored (area, x)

end

/-! ## Two writes of one coil -/

def coil_twice : List (WriteItem Float) := [.WriteCoils 0 [true], .WriteCoils 0 [false]]

def coil_batch : WriteBatch where
  chunks := [payload_chunk 0 0 (.coils [true]), payload_chunk 1 0 (.coils [false])]
  policy := {}
  unit_id := 1
  timeout_s := "1.0"

def coil_peer : Server Memory := slave (fun _ _ _ => Py.raise .CancelledError) none

def coil_client : Session := new "plc" 502 "3.0" fun _ _ => none

/-- Both frames go out on one connection and are received, and one of them is answered. -/
def both_sent (answered : Nat) : List Event :=
  [.begun 0 0, .begun 1 1, .transport (.lock_acquired 0), .transport (.opened 0),
    .transport (.lock_acquired 1), .transport (.read_started 0), .transport (.drained 0),
    .transport (.drained 1), .received 0, .received 1, .replied answered,
    .transport (.bytes_arrived 0 12), .transport (.frame_read 0), .transport (.resumed answered),
    .resumed answered]

/-- The other one times out, is sent again, and is answered then. -/
def sent_again (late : Nat) : List Event :=
  [.transport (.timed_out late), .transport (.resumed late), .resumed late, .slept late 2,
    .transport (.drained 2), .received 2, .replied 2, .transport (.bytes_arrived 0 12),
    .transport (.frame_read 0), .transport (.resumed 2), .resumed late]

theorem plan_coil_twice : plan_writes coil_twice = .ok coil_batch.chunks := rfl

theorem a_later_item_sent_again_is_no_harm :
    ∃ s rs, Runs.run (step coil_batch coil_peer) coil_client (both_sent 0 ++ sent_again 1) = some s ∧
      results coil_batch coil_twice s = some rs ∧ (∀ r ∈ rs, r.ok = true) ∧
      s.memory = coil_twice.foldl store_item fun _ _ => none := by
  have htime : Runs.Guarded (step coil_batch coil_peer) RepliesInTime coil_client
      (both_sent 0 ++ sent_again 1) := by
    decide +kernel
  obtain ⟨s, rs, hrun, hresults, hok, harrivals⟩ : ∃ s rs,
      Runs.run (step coil_batch coil_peer) coil_client (both_sent 0 ++ sent_again 1) = some s ∧
      results coil_batch coil_twice s = some rs ∧ (∀ r ∈ rs, r.ok = true) ∧
      s.arrivals = [0, 1, 1] :=
    ⟨_, _, rfl, rfl, by decide, rfl⟩
  refine ⟨s, rs, hrun, hresults, hok, ?_⟩
  refine a_batch_with_retries_stores_its_items (Or.inl rfl) plan_coil_twice "plc" 502 "3.0" _
    htime hrun hresults hok ?_
  rw [harrivals]
  have hlast : ∀ k, Precedes coil_batch.chunks 0 k → k = 1 := by
    intro k hk
    have hlt := hk.lt plan_coil_twice
    obtain ⟨c, d, -, hd, -⟩ := hk
    have hle : k < 2 := (List.getElem?_eq_some_iff.mp hd).1
    omega
  have hnone : ∀ k, ¬ Precedes coil_batch.chunks 1 k := by
    intro k hk
    have hlt := hk.lt plan_coil_twice
    obtain ⟨c, d, -, hd, -⟩ := hk
    have hle : k < 2 := (List.getElem?_eq_some_iff.mp hd).1
    omega
  refine ⟨fun k hk => ?_, fun k hk => absurd hk (hnone k), fun k hk => absurd hk (hnone k), trivial⟩
  rw [hlast k hk]
  exact List.mem_cons_self

/-- The first item is sent again after the second one was stored, and all items report ok. -/
theorem an_earlier_item_sent_again_survives :
    ∃ s rs, Runs.run (step coil_batch coil_peer) coil_client (both_sent 1 ++ sent_again 0) = some s ∧
      results coil_batch coil_twice s = some rs ∧ (∀ r ∈ rs, r.ok = true) ∧
      s.arrivals = [0, 1, 0] ∧ s.memory .COIL 0 = some (.bool true) ∧
      s.memory ≠ coil_twice.foldl store_item fun _ _ => none := by
  refine ⟨_, _, rfl, rfl, by decide, rfl, rfl, ?_⟩
  intro h
  have hcell : (some (.bool true) : Option Cell) = some (.bool false) :=
    congrFun (congrFun h .COIL) 0
  cases hcell

end pymod.client
