-- One connection of the server: its requests are answered one after the other, unless a
-- callback raises an exception response whose code is not a byte.
import Pymod.ServerCallbacks
import Pymod.MbapStream

namespace pymod.server

open errors codec pdu types data_model adu_tcp

/-! ## The loop of `_on_client` -/

section

variable {σ : Type}

/-- One turn of the loop behind the decoding of a frame; the state holds the frames written. -/
def serve_request (callbacks : Callbacks σ) (tid uid : Nat) (request_pdu : Bytes) :
    Py (σ × List Bytes) Unit := fun (s, written) =>
  match dispatch_callbacks callbacks uid request_pdu s with
  | (.error e, s') => (.error e, (s', written))
  | (.ok response_pdu, s') =>
    match encode_mbap_frame tid uid response_pdu with
    | .error e => (.error e, (s', written))
    | .ok response_frame => (.ok (), (s', written ++ [response_frame]))

/-- The `try` block of `_on_client` over the bytes that arrive. An exception out of it ends the
connection; otherwise the loop waits for more. -/
def on_client (callbacks : Callbacks σ) (turns : Nat) (unread : Bytes) :
    Py (σ × List Bytes) (Option Bytes) :=
  framing_loop (serve_request callbacks) turns unread

/-! ## Answers -/

/-- The frame is a well-formed MBAP frame that answers the request. -/
def AnswersRequest (request : Nat × Nat × Bytes) (frame : Bytes) : Prop :=
  ∃ fc rest pdu, request.2.2 = fc :: rest ∧
    decode_mbap_frame frame = .ok (request.1, request.2.1, pdu) ∧ IsResponse fc pdu

/-- The bounds of what a frame can carry. -/
structure IsRequest (request : Nat × Nat × Bytes) : Prop where
  tid_lt : request.1 < 0x10000
  uid_lt : request.2.1 < 0x100
  pdu_ne : request.2.2 ≠ []

theorem isRequest_of_frame {f : Frame} {request : Nat × Nat × Bytes} (h : f.request = some request) :
    IsRequest request := by
  unfold Frame.request at h
  split at h
  · split at h
    · cases h
      exact ⟨f.tid_lt, UInt8.toNat_lt _, List.cons_ne_nil _ _⟩
    · cases h
  · cases h

/-- Every callback that the requests reach, one after the other, ends well. -/
def AllEndWell (callbacks : Callbacks σ) : List (Nat × Nat × Bytes) → σ → Prop
  | [], _ => True
  | (_, uid, pdu) :: requests, s =>
    EndsWell callbacks uid pdu s ∧ AllEndWell callbacks requests (after callbacks uid pdu s)

theorem serve_request_spec (callbacks : Callbacks σ) {request : Nat × Nat × Bytes}
    (h : IsRequest request) (s : σ) (written : List Bytes) :
    (EndsWell callbacks request.2.1 request.2.2 s → ∃ frame,
      serve_request callbacks request.1 request.2.1 request.2.2 (s, written) =
        (.ok (), (after callbacks request.2.1 request.2.2 s, written ++ [frame])) ∧
        AnswersRequest request frame) ∧
    (¬ EndsWell callbacks request.2.1 request.2.2 s → ∃ e st,
      serve_request callbacks request.1 request.2.1 request.2.2 (s, written) = (.error e, st)) := by
  obtain ⟨tid, uid, pdu⟩ := request
  obtain ⟨htid, huid, hpdu⟩ := h
  simp only at htid huid hpdu ⊢
  obtain ⟨fc, rest, rfl⟩ := List.exists_cons_of_ne_nil hpdu
  obtain ⟨hwell, hbad⟩ := dispatch_callbacks_spec callbacks uid fc rest s
  constructor
  · intro hends
    obtain ⟨resp, hdispatch, hresp, hlen⟩ := hwell hends
    have hne : 1 ≤ resp.length := by
      rcases hresp with ⟨data, rfl⟩ | ⟨code, rfl⟩
      · simp
      · simp
    obtain ⟨frame, hframe⟩ : ∃ frame, encode_mbap_frame tid uid resp = .ok frame :=
      ⟨_, encode_mbap_frame_ok htid huid hne (by omega)⟩
    refine ⟨frame, ?_, fc, rest, resp, rfl, ?_, hresp⟩
    · unfold serve_request
      simp only [hdispatch, hframe]
    · have hdecode := decode_encode_mbap_frame hframe
      simpa using hdecode
  · intro hends
    obtain ⟨e, s', hdispatch⟩ := hbad hends
    refine ⟨e, (s', written), ?_⟩
    unfold serve_request
    simp only [hdispatch]

/-! ## A session -/

/-- Requests whose callbacks all end well are answered one after the other. -/
theorem hand_on_answered (callbacks : Callbacks σ) {requests : List (Nat × Nat × Bytes)}
    (hreq : ∀ r ∈ requests, IsRequest r) {s : σ} (h : AllEndWell callbacks requests s)
    (written : List Bytes) : ∃ frames s', List.Forall₂ AnswersRequest requests frames ∧
      hand_on (serve_request callbacks) requests (s, written) =
        (.ok (), (s', written ++ frames)) := by
  induction requests generalizing s written with
  | nil => exact ⟨[], s, .nil, by rw [List.append_nil]; rfl⟩
  | cons r requests ih =>
    obtain ⟨hends, hrest⟩ := h
    obtain ⟨frame, hserve, hanswers⟩ :=
      (serve_request_spec callbacks (hreq r (by simp)) s written).1 hends
    obtain ⟨frames, s', hall, hrun⟩ := ih (fun r' hr' => hreq r' (List.mem_cons_of_mem r hr'))
      hrest (written ++ [frame])
    refine ⟨frame :: frames, s', .cons hanswers hall, ?_⟩
    rw [List.append_assoc, List.singleton_append] at hrun
    unfold hand_on
    rw [Py.bind_ok hserve]
    exact hrun

/-- A callback that does not end well ends the connection. -/
theorem hand_on_raises (callbacks : Callbacks σ) {requests : List (Nat × Nat × Bytes)}
    (hreq : ∀ r ∈ requests, IsRequest r) {s : σ} (h : ¬ AllEndWell callbacks requests s)
    (written : List Bytes) : ∃ e st,
      hand_on (serve_request callbacks) requests (s, written) = (.error e, st) := by
  induction requests generalizing s written with
  | nil => exact absurd trivial h
  | cons r requests ih =>
    obtain ⟨hanswered, hraises⟩ := serve_request_spec callbacks (hreq r (by simp)) s written
    unfold hand_on
    by_cases hends : EndsWell callbacks r.2.1 r.2.2 s
    · obtain ⟨frame, hserve, -⟩ := hanswered hends
      rw [Py.bind_ok hserve]
      exact ih (fun r' hr' => hreq r' (List.mem_cons_of_mem r hr')) (fun hrest => h ⟨hends, hrest⟩) _
    · obtain ⟨e, st, hserve⟩ := hraises hends
      rw [Py.bind_error hserve]
      exact ⟨e, st, rfl⟩

/-- A session in which every request is answered: over the frames and the first bytes of a next
one, the loop writes one answer for each frame, in their order, and waits for the rest. -/
def Served (callbacks : Callbacks σ) (frames : List Frame) (tail : Bytes) (s : σ) : Prop :=
  ∃ written s', List.Forall₂ AnswersRequest (frames.filterMap Frame.request) written ∧
    ∀ turns, frames.length < turns →
      on_client callbacks turns ((frames.map Frame.bytes).flatten ++ tail) (s, []) =
        (.ok (some tail), (s', written))

/-- The loop over the frames hands on their requests, and waits with the tail. -/
theorem on_client_frames (callbacks : Callbacks σ) (frames : List Frame) {tail : Bytes}
    (htail : Incomplete tail) {turns : Nat} (hturns : frames.length < turns) :
    on_client callbacks turns ((frames.map Frame.bytes).flatten ++ tail) = (do
      hand_on (serve_request callbacks) (frames.filterMap Frame.request)
      pure (some tail)) :=
  framing_loop_frames (serve_request callbacks) frames htail turns hturns

theorem isRequest_of_frames (frames : List Frame) :
    ∀ r ∈ frames.filterMap Frame.request, IsRequest r := by
  intro r hr
  obtain ⟨f, -, hf⟩ := List.mem_filterMap.mp hr
  exact isRequest_of_frame hf

theorem all_end_well_of_served {callbacks : Callbacks σ} {frames : List Frame} {tail : Bytes}
    (htail : Incomplete tail) {s : σ} (h : Served callbacks frames tail s) :
    AllEndWell callbacks (frames.filterMap Frame.request) s := by
  obtain ⟨written, s', -, hrun⟩ := h
  by_contra hbad
  obtain ⟨e, st, hraises⟩ := hand_on_raises callbacks (isRequest_of_frames frames) hbad []
  have hlast := hrun (frames.length + 1) (Nat.lt_succ_self _)
  rw [on_client_frames callbacks frames htail (Nat.lt_succ_self _), Py.bind_error hraises] at hlast
  cases hlast

/-- A session is served exactly when every callback that it reaches ends well. -/
theorem served_iff_all_end_well (callbacks : Callbacks σ) (frames : List Frame) (tail : Bytes)
    (htail : Incomplete tail) (s : σ) :
    Served callbacks frames tail s ↔
      AllEndWell callbacks (frames.filterMap Frame.request) s := by
  constructor
  · exact all_end_well_of_served htail
  · intro hall
    obtain ⟨written, s', hanswers, hserve⟩ :=
      hand_on_answered callbacks (isRequest_of_frames frames) hall []
    refine ⟨written, s', hanswers, ?_⟩
    intro turns hturns
    rw [on_client_frames callbacks frames htail hturns, Py.bind_ok hserve]
    rfl

end

/-! ## A code that is no byte -/

/-- A callback that raises `ModbusExceptionResponse("", code)` for every read. -/
def raising_callbacks (code : Int) : Callbacks Unit where
  on_read := fun _ _ _ => Py.raise (.modbus (.ModbusExceptionResponse .ModbusExceptionResponse "" code))
  on_write := none
  unit_id := none

/-- A read of one holding register, as the frame of transaction 7 for unit 1. -/
def register_read : Frame :=
  ⟨7, 0, [1, 0x03, 0, 0, 0, 1], by decide, by decide, by decide⟩

set_option maxRecDepth 8000 in
theorem register_read_reaches (code : Int) : reached (raising_callbacks code) 1 [0x03, 0, 0, 0, 1] =
    some (.read .HOLDING_REGISTER 0 1) := rfl

/-- The code 0xFF is answered. -/
theorem a_byte_is_answered : Served (raising_callbacks 0xFF) [register_read] [] () := by
  refine (served_iff_all_end_well (raising_callbacks 0xFF) [register_read] [] (by decide) ()).mpr ?_
  refine ⟨?_, trivial⟩
  intro c hc e he
  have hcall := (register_read_reaches 0xFF).symm.trans hc
  cases hcall
  cases he
  decide

/-- The code 300 is not: the exception leaves the loop, and the connection ends. -/
theorem a_code_that_is_no_byte_ends_the_connection :
    ¬ Served (raising_callbacks 300) [register_read] [] () := by
  intro h
  obtain ⟨hends, -⟩ := all_end_well_of_served (by decide) h
  have hbad := hends _ (register_read_reaches 300) _ rfl
  revert hbad
  decide

end pymod.server
