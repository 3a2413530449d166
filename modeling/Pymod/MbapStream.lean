-- The framing loop that the server's handler of a connection and the client's
-- read loop share: it cuts every stream into its frames, hands on the frames that
-- carry a PDU, and drops the others.
import Pymod.AduTcp
import Mathlib.Data.List.Infix

namespace pymod.adu_tcp

open errors codec pdu Digits

/-! ## The loop -/

/-- The loop over the bytes that have arrived, with the rest of its body as `handle`. It gives
the bytes left when it waits for more, and `none` when it was not let run so far. -/
def framing_loop {σ : Type} (handle : Nat → Nat → Bytes → Py σ Unit) :
    Nat → Bytes → Py σ (Option Bytes)
  | 0, _ => pure none
  | turns + 1, unread => do
    match ← (read_frame unread : Py σ _) with
    | none => pure (some unread)
    | some (frame, behind) =>
      match decode_mbap_frame frame with
      | .error (.modbus (.ModbusProtocolError _)) => framing_loop handle turns behind
      | .error e => Py.raise e
      | .ok (tid, uid, pdu) => do
        handle tid uid pdu
        framing_loop handle turns behind

/-- The frames that the reads of the loop cut off, and the bytes left. -/
def cut : Nat → Bytes → List Bytes × Bytes
  | 0, unread => ([], unread)
  | turns + 1, unread =>
    match read_frame unread with
    | .ok (some (frame, behind)) =>
      let (frames, left) := cut turns behind
      (frame :: frames, left)
    | _ => ([], unread)

/-! ## Streams of frames -/

/-- A header of any ids, and as many bytes behind it as its length field says. -/
structure Frame where
  tid : Nat
  pid : Nat
  body : Bytes
  tid_lt : tid < 0x10000
  pid_lt : pid < 0x10000
  body_lt : body.length < 0x10000

namespace Frame

def header (f : Frame) : Bytes := toBytes 2 f.tid ++ toBytes 2 f.pid ++ toBytes 2 f.body.length

def bytes (f : Frame) : Bytes := f.header ++ f.body

/-- What the frame carries, when its protocol is Modbus and it has a unit id and a PDU. -/
def request (f : Frame) : Option (Nat × Nat × Bytes) :=
  match f.body with
  | uid :: fc :: rest => if f.pid = 0 then some (f.tid, uid.toNat, fc :: rest) else none
  | _ => none

@[simp] theorem length_header (f : Frame) : f.header.length = 6 := by
  simp [header]

theorem length_bytes (f : Frame) : f.bytes.length = 6 + f.body.length := by
  simp [bytes]

/-- The fields that `struct.unpack` finds in a frame. -/
theorem fields (f : Frame) (behind : Bytes) :
    ofBytes ((f.header ++ behind).take 2) = f.tid ∧
      ofBytes (((f.header ++ behind).drop 2).take 2) = f.pid ∧
      ofBytes (((f.header ++ behind).drop 4).take 2) = f.body.length := by
  have htwo : ∀ v, v < 0x10000 → ofBytes (toBytes 2 v) = v := by
    intro v hv
    rw [ofBytes_toBytes]
    exact Nat.mod_eq_of_lt hv
  have h2 : ∀ v, (toBytes 2 v).length = 2 := length_toBytes 2
  have hd2 : (f.header ++ behind).drop 2 =
      toBytes 2 f.pid ++ (toBytes 2 f.body.length ++ behind) := by
    simp [header, h2, List.append_assoc]
  have hd4 : (f.header ++ behind).drop 4 = toBytes 2 f.body.length ++ behind := by
    rw [← List.drop_drop (i := 2) (j := 2), hd2, List.drop_left' (h2 _)]
  refine ⟨?_, ?_, ?_⟩
  · simp only [header, List.append_assoc]
    rw [List.take_left' (h2 _), htwo _ f.tid_lt]
  · rw [hd2, List.take_left' (h2 _), htwo _ f.pid_lt]
  · rw [hd4, List.take_left' (h2 _), htwo _ f.body_lt]

end Frame

/-- No frame stands at the front of the bytes. -/
def Incomplete (tail : Bytes) : Prop := ∀ f : Frame, ¬ f.bytes <+: tail

/-! ## One turn -/

theorem readexactly_append_left {n : Nat} {got : Bytes} (h : got.length = n) (behind : Bytes) :
    readexactly n (got ++ behind) = some (got, behind) := by
  unfold readexactly
  rw [if_pos (by rw [List.length_append]; omega), List.take_left' h, List.drop_left' h]

theorem readexactly_eq_some {n : Nat} {unread got behind : Bytes}
    (h : readexactly n unread = some (got, behind)) : got.length = n ∧ got ++ behind = unread := by
  unfold readexactly at h
  by_cases hn : n ≤ unread.length
  · rw [if_pos hn] at h
    cases h
    exact ⟨by rw [List.length_take]; omega, List.take_append_drop n unread⟩
  · rw [if_neg hn] at h
    cases h

theorem expected_frame_length_header {header : Bytes} (h : header.length = MBAP_MIN_PEEK_BYTES) :
    expected_frame_length header =
      .ok (MBAP_MIN_PEEK_BYTES + ofBytes ((header.drop 4).take 2)) := by
  unfold expected_frame_length
  rw [if_neg (by omega)]
  rfl

/-- A stream that starts with a frame is cut right behind it. -/
theorem read_frame_of_frame (f : Frame) (behind : Bytes) :
    read_frame (f.bytes ++ behind) = .ok (some (f.bytes, behind)) := by
  have hlen := (f.fields []).2.2
  rw [List.append_nil] at hlen
  have htotal := expected_frame_length_header f.length_header
  rw [hlen] at htotal
  have hbody : readexactly f.body.length (f.body ++ behind) = some (f.body, behind) :=
    readexactly_append_left rfl behind
  have hhead : f.header.length = MBAP_MIN_PEEK_BYTES := f.length_header
  unfold read_frame
  rw [Frame.bytes, List.append_assoc, readexactly_append_left hhead]
  simp only [htotal, bind, Except.bind, Nat.add_sub_cancel_left, hbody]
  rfl

theorem toBytes_two_ofBytes {raw : Bytes} (h : raw.length = 2) : toBytes 2 (ofBytes raw) = raw := by
  have hback := toBytes_ofBytes raw
  rwa [h] at hback

/-- What is cut off a stream is a frame. -/
theorem frame_of_read_frame {unread frame behind : Bytes}
    (h : read_frame unread = .ok (some (frame, behind))) : ∃ f : Frame, frame = f.bytes := by
  unfold read_frame at h
  cases hhead : readexactly MBAP_MIN_PEEK_BYTES unread with
  | none =>
    rw [hhead] at h
    cases h
  | some p =>
    obtain ⟨header, rest⟩ := p
    obtain ⟨hlen, -⟩ := readexactly_eq_some hhead
    have hsix : header.length = 6 := hlen
    rw [hhead] at h
    simp only [expected_frame_length_header hlen, bind, Except.bind, Nat.add_sub_cancel_left] at h
    cases hrest : readexactly (ofBytes ((header.drop 4).take 2)) rest with
    | none =>
      rw [hrest] at h
      cases h
    | some q =>
      obtain ⟨body, last⟩ := q
      obtain ⟨hbody, -⟩ := readexactly_eq_some hrest
      rw [hrest] at h
      cases h
      have h0 : (header.take 2).length = 2 := by rw [List.length_take]; omega
      have h2 : ((header.drop 2).take 2).length = 2 := by
        rw [List.length_take, List.length_drop]; omega
      have h4 : ((header.drop 4).take 2).length = 2 := by
        rw [List.length_take, List.length_drop]; omega
      have hlt : ∀ {raw : Bytes}, raw.length = 2 → ofBytes raw < 0x10000 := by
        intro raw hraw
        have hb := ofBytes_lt raw
        rwa [hraw] at hb
      have hheader : header.take 2 ++ (header.drop 2).take 2 ++ (header.drop 4).take 2 = header := by
        have hlast : (header.drop 4).take 2 = (header.drop 2).drop 2 := by
          rw [List.drop_drop]
          exact List.take_of_length_le (by rw [List.length_drop]; omega)
        rw [List.append_assoc, hlast, List.take_append_drop, List.take_append_drop]
      refine ⟨⟨ofBytes (header.take 2), ofBytes ((header.drop 2).take 2), body, hlt h0, hlt h2,
        by rw [hbody]; exact hlt h4⟩, ?_⟩
      simp only [Frame.bytes, Frame.header, hbody, toBytes_two_ofBytes h0, toBytes_two_ofBytes h2,
        toBytes_two_ofBytes h4, hheader]

/-- Reading the length of a frame never fails in the loop. -/
theorem read_frame_ok (unread : Bytes) : ∃ r, read_frame unread = .ok r := by
  unfold read_frame
  cases hhead : readexactly MBAP_MIN_PEEK_BYTES unread with
  | none => exact ⟨none, rfl⟩
  | some p =>
    obtain ⟨header, rest⟩ := p
    obtain ⟨hlen, -⟩ := readexactly_eq_some hhead
    simp only [expected_frame_length_header hlen, bind, Except.bind]
    split
    · exact ⟨none, rfl⟩
    · exact ⟨_, rfl⟩

/-- On an incomplete tail the loop waits. -/
theorem read_frame_incomplete {tail : Bytes} (h : Incomplete tail) :
    read_frame tail = .ok none := by
  obtain ⟨r, hr⟩ := read_frame_ok tail
  rcases r with _ | ⟨frame, behind⟩
  · exact hr
  · obtain ⟨f, rfl⟩ := frame_of_read_frame hr
    exact absurd ⟨behind, read_frame_takes hr⟩ (h f)

/-- The bytes are incomplete when the header is, or when bytes of the body are missing. -/
theorem incomplete_iff (tail : Bytes) : Incomplete tail ↔
    tail.length < 6 ∨ tail.length < 6 + ofBytes ((tail.drop 4).take 2) := by
  constructor
  · intro h
    have hread := read_frame_incomplete h
    by_contra hn
    obtain ⟨h6, hbody⟩ := not_or.mp hn
    have hhead : readexactly MBAP_MIN_PEEK_BYTES tail = some (tail.take 6, tail.drop 6) :=
      if_pos (by simp only [MBAP_MIN_PEEK_BYTES, MBAP_LENGTH_FIELD_OFFSET,
        MBAP_LENGTH_FIELD_SIZE]; omega)
    have hlen : (tail.take 6).length = MBAP_MIN_PEEK_BYTES := by
      rw [List.length_take, Nat.min_eq_left (by omega)]
      rfl
    have hfield : ((tail.take 6).drop 4).take 2 = (tail.drop 4).take 2 := by
      rw [List.drop_take, List.take_take]
      rfl
    have hrest : ofBytes ((tail.drop 4).take 2) ≤ (tail.drop 6).length := by
      rw [List.length_drop]
      omega
    unfold read_frame at hread
    rw [hhead] at hread
    simp only [expected_frame_length_header hlen, hfield, bind, Except.bind,
      Nat.add_sub_cancel_left, readexactly, if_pos hrest] at hread
    cases hread
  · intro h f hf
    obtain ⟨behind, rfl⟩ := hf
    have hfield := (f.fields (f.body ++ behind)).2.2
    rw [← List.append_assoc, ← Frame.bytes] at hfield
    rw [hfield, List.length_append, f.length_bytes] at h
    omega

instance (tail : Bytes) : Decidable (Incomplete tail) :=
  decidable_of_iff _ (incomplete_iff tail).symm

/-! ## What a frame is decoded to -/

/-- A frame that the decoder accepts is what the encoder makes of its result. -/
theorem encode_of_decode_mbap_frame {frame pdu : Bytes} {tid uid : Nat}
    (h : decode_mbap_frame frame = .ok (tid, uid, pdu)) :
    encode_mbap_frame tid uid pdu = .ok frame := by
  unfold decode_mbap_frame at h
  by_cases hlong : frame.length < MBAP_HEADER_LENGTH
  · rw [if_pos hlong] at h
    cases h
  rw [if_neg hlong] at h
  simp only at h
  by_cases hpid : (ofBytes ((frame.drop 2).take 2) : Int) ≠ MBAP_PROTOCOL_ID
  · rw [if_pos hpid] at h
    cases h
  rw [if_neg hpid] at h
  by_cases hlen : (ofBytes ((frame.drop 4).take 2) : Int) - 1 ≠
      (frame.drop MBAP_HEADER_LENGTH).length
  · rw [if_pos hlen] at h
    cases h
  rw [if_neg hlen] at h
  by_cases hpdu : (frame.drop MBAP_HEADER_LENGTH).length = 0
  · rw [if_pos hpdu] at h
    cases h
  rw [if_neg hpdu] at h
  cases h
  simp only [MBAP_HEADER_LENGTH, MBAP_PROTOCOL_ID, not_lt, ne_eq, not_not] at *
  have h0 : (frame.take 2).length = 2 := by rw [List.length_take]; omega
  have h2 : ((frame.drop 2).take 2).length = 2 := by rw [List.length_take, List.length_drop]; omega
  have h4 : ((frame.drop 4).take 2).length = 2 := by rw [List.length_take, List.length_drop]; omega
  have h6 : ((frame.drop 6).take 1).length = 1 := by rw [List.length_take, List.length_drop]; omega
  have hb0 := ofBytes_lt (frame.take 2)
  have hb4 := ofBytes_lt ((frame.drop 4).take 2)
  have hb6 := ofBytes_lt ((frame.drop 6).take 1)
  rw [h0] at hb0
  rw [h4] at hb4
  rw [h6] at hb6
  have huid := toBytes_ofBytes ((frame.drop 6).take 1)
  rw [h6] at huid
  have hzero : (frame.drop 2).take 2 = toBytes 2 0 := by
    rw [← toBytes_two_ofBytes h2]
    congr 1
    omega
  have hfield : toBytes 2 (1 + (frame.drop 7).length) = (frame.drop 4).take 2 := by
    rw [← toBytes_two_ofBytes h4]
    congr 1
    omega
  rw [encode_mbap_frame_ok (by omega) (by omega) (by omega) (by omega), mbap_header,
    toBytes_two_ofBytes h0, hfield, huid, ← hzero]
  have hparts : frame.take 2 ++ ((frame.drop 2).take 2 ++ ((frame.drop 4).take 2 ++
      ((frame.drop 6).take 1 ++ frame.drop 7))) = frame := by
    rw [← List.drop_drop (i := 1) (j := 6), List.take_append_drop,
      ← List.drop_drop (i := 2) (j := 4), List.take_append_drop,
      ← List.drop_drop (i := 2) (j := 2), List.take_append_drop, List.take_append_drop]
  simp only [List.append_assoc, hparts]

/-- The error for a PDU that is not as long as the header says. -/
def length_mismatch_error (length : Nat) (expected : Int) (got : Nat) : PyError :=
  .modbus (.ModbusProtocolError
    s!"MBAP length mismatch: header says {length} (PDU expected {expected}), got {got} bytes")

theorem append_ne_append {p q : String} {n : Nat} (hp : n ≤ p.toList.length)
    (hq : n ≤ q.toList.length) (h : p.toList.take n ≠ q.toList.take n) (x y : String) :
    p ++ x ≠ q ++ y := by
  intro heq
  have htake := congrArg (fun s => s.toList.take n) heq
  simp only [String.toList_append, List.take_append_of_le_length hp,
    List.take_append_of_le_length hq] at htake
  exact h htake

theorem not_length_mismatch {p m : String} (hp : 6 ≤ p.toList.length)
    (h : p.toList.take 6 ≠ ['M', 'B', 'A', 'P', ' ', 'l']) (length : Nat) (expected : Int)
    (got : Nat) : PyError.modbus (.ModbusProtocolError (p ++ m)) ≠
      length_mismatch_error length expected got := by
  intro heq
  simp only [length_mismatch_error, PyError.modbus.injEq, ModbusError.ModbusProtocolError.injEq]
    at heq
  have htake : "MBAP length mismatch: header says ".toList.take 6 =
      ['M', 'B', 'A', 'P', ' ', 'l'] := by decide
  have hq : 6 ≤ "MBAP length mismatch: header says ".toList.length := by decide
  exact append_ne_append hp hq (by rw [htake]; exact h) _ _
    (heq.trans (by simp only [String.append_assoc]; rfl))

/-- A frame with a request is decoded to it, and any other frame is a protocol error, but not
for its length. -/
theorem decode_frame (f : Frame) :
    (∀ tid uid pdu, f.request = some (tid, uid, pdu) →
      decode_mbap_frame f.bytes = .ok (tid, uid, pdu)) ∧
    (f.request = none → ∃ m, decode_mbap_frame f.bytes = .error (.modbus (.ModbusProtocolError m)) ∧
      ∀ length expected got, PyError.modbus (.ModbusProtocolError m) ≠
        length_mismatch_error length expected got) := by
  obtain ⟨ft, fp, fl⟩ := f.fields f.body
  have hlen := f.length_bytes
  have hd6 : f.bytes.drop 6 = f.body := List.drop_left' f.length_header
  have hd7 : f.bytes.drop MBAP_HEADER_LENGTH = f.body.drop 1 := by
    rw [MBAP_HEADER_LENGTH, ← List.drop_drop (i := 1) (j := 6), hd6]
  rw [← Frame.bytes] at ft fp fl
  have hdecode : decode_mbap_frame f.bytes =
      if 6 + f.body.length < MBAP_HEADER_LENGTH then
        throw (.modbus (.ModbusProtocolError s!"MBAP frame too short: {f.bytes.length} bytes"))
      else if (f.pid : Int) ≠ MBAP_PROTOCOL_ID then
        throw (.modbus (.ModbusProtocolError s!"unexpected MBAP protocol id: {hex 4 f.pid}"))
      else if (f.body.length : Int) - 1 ≠ (f.body.drop 1).length then
        throw (length_mismatch_error f.body.length (f.body.length - 1) (f.body.drop 1).length)
      else if (f.body.drop 1).length = 0 then
        throw (.modbus (.ModbusProtocolError "empty PDU"))
      else
        pure (f.tid, ofBytes (f.body.take 1), f.body.drop 1) := by
    unfold decode_mbap_frame
    simp only [hlen, ft, fp, fl, hd6, hd7]
    rfl
  rw [hdecode]
  unfold Frame.request
  rcases f.body with _ | ⟨uid, _ | ⟨fc, rest⟩⟩
  · refine ⟨by simp, fun _ => ⟨_, if_pos (by decide), ?_⟩⟩
    simp only [String.append_assoc]
    exact not_length_mismatch (by decide) (by decide)
  · refine ⟨by simp, fun _ => ?_⟩
    rw [if_neg (by simp [MBAP_HEADER_LENGTH])]
    by_cases hpid : (f.pid : Int) ≠ MBAP_PROTOCOL_ID
    · refine ⟨_, if_pos hpid, ?_⟩
      exact not_length_mismatch (by decide) (by decide)
    · rw [if_neg hpid, if_neg (by simp), if_pos (by simp)]
      refine ⟨_, rfl, ?_⟩
      have hempty : "empty PDU" = "empty PDU" ++ "" := by decide
      rw [hempty]
      exact not_length_mismatch (by decide) (by decide)
  · have hlong : ¬ 6 + (uid :: fc :: rest).length < MBAP_HEADER_LENGTH := by
      simp only [MBAP_HEADER_LENGTH, List.length_cons]
      omega
    rw [if_neg hlong]
    by_cases hpid : f.pid = 0
    · have hone : ofBytes [uid] = uid.toNat := by simp [ofBytes]
      rw [if_neg (by simp [hpid, MBAP_PROTOCOL_ID]), if_neg (by simp), if_neg (by simp)]
      simp only [hpid, if_true, List.take_succ_cons, List.take_zero, List.drop_succ_cons,
        List.drop_zero, hone]
      refine ⟨?_, by simp⟩
      intro tid uid' pdu h
      cases h
      rfl
    · rw [if_pos (by simpa [MBAP_PROTOCOL_ID] using hpid)]
      simp only [if_neg hpid]
      refine ⟨by simp, fun _ => ⟨_, rfl, ?_⟩⟩
      exact not_length_mismatch (by decide) (by decide)

/-! ## The whole stream -/

theorem cut_frames (frames : List Frame) {tail : Bytes} (htail : Incomplete tail) (turns : Nat)
    (hturns : frames.length < turns) :
    cut turns ((frames.map Frame.bytes).flatten ++ tail) = (frames.map Frame.bytes, tail) := by
  induction frames generalizing turns with
  | nil =>
    obtain ⟨n, rfl⟩ : ∃ n, turns = n + 1 := ⟨turns - 1, by simp at hturns; omega⟩
    simp [cut, read_frame_incomplete htail]
  | cons f frames ih =>
    obtain ⟨n, rfl⟩ : ∃ n, turns = n + 1 := ⟨turns - 1, by simp at hturns; omega⟩
    rw [List.map_cons, List.flatten_cons, List.append_assoc, cut, read_frame_of_frame]
    simp only [ih n (by simp at hturns; omega)]

/-- The requests handed on one after the other. -/
def hand_on {σ : Type} (handle : Nat → Nat → Bytes → Py σ Unit) :
    List (Nat × Nat × Bytes) → Py σ Unit
  | [] => pure ()
  | (tid, uid, pdu) :: requests => do
    handle tid uid pdu
    hand_on handle requests

/-- The loop hands on the requests of the frames, in their order, and waits with the tail. -/
theorem framing_loop_frames {σ : Type} (handle : Nat → Nat → Bytes → Py σ Unit)
    (frames : List Frame) {tail : Bytes} (htail : Incomplete tail) (turns : Nat)
    (hturns : frames.length < turns) :
    framing_loop handle turns ((frames.map Frame.bytes).flatten ++ tail) = (do
      hand_on handle (frames.filterMap Frame.request)
      pure (some tail)) := by
  induction frames generalizing turns with
  | nil =>
    obtain ⟨n, rfl⟩ : ∃ n, turns = n + 1 := ⟨turns - 1, by simp at hturns; omega⟩
    funext s
    rw [List.map_nil, List.flatten_nil, List.nil_append, framing_loop,
      read_frame_incomplete htail]
    rfl
  | cons f frames ih =>
    obtain ⟨n, rfl⟩ : ∃ n, turns = n + 1 := ⟨turns - 1, by simp at hturns; omega⟩
    have hrest := ih n (by simp at hturns; omega)
    obtain ⟨hsome, hnone⟩ := decode_frame f
    rw [List.map_cons, List.flatten_cons, List.append_assoc, framing_loop, read_frame_of_frame]
    funext s
    rw [Py.bind_ok (Py.lift_run _ s)]
    simp only
    cases hr : f.request with
    | none =>
      obtain ⟨m, hm, -⟩ := hnone hr
      rw [hm, List.filterMap_cons_none hr]
      simp only [hrest]
    | some r =>
      obtain ⟨tid, uid, pdu⟩ := r
      rw [hsome tid uid pdu hr, List.filterMap_cons_some hr]
      simp only [hrest, hand_on, bind]
      rcases handle tid uid pdu s with ⟨e | a, s'⟩ <;> rfl

theorem request_eq_none_iff (f : Frame) :
    f.request = none ↔ ¬ (f.pid = 0 ∧ 2 ≤ f.body.length) := by
  unfold Frame.request
  rcases f.body with _ | ⟨uid, _ | ⟨fc, rest⟩⟩ <;> simp

theorem tid_of_request {f : Frame} {tid uid : Nat} {pdu : Bytes}
    (h : f.request = some (tid, uid, pdu)) : tid = f.tid := by
  unfold Frame.request at h
  split at h
  · split at h
    · cases h
      rfl
    · cases h
  · cases h

/-- The framing of a connection. A stream of frames and an incomplete tail is cut into these
frames; those of the protocol with a unit id and a PDU are handed on, as the arguments that are
encoded to the frame, and the others are dropped, but never for their length. And what the
encoder writes is cut and decoded to its arguments. -/
theorem mbap_framing (frames : List Frame) (tail : Bytes) (htail : Incomplete tail) :
    (∀ turns, frames.length < turns →
      cut turns ((frames.map Frame.bytes).flatten ++ tail) = (frames.map Frame.bytes, tail) ∧
      ∀ (σ : Type) (handle : Nat → Nat → Bytes → Py σ Unit),
        framing_loop handle turns ((frames.map Frame.bytes).flatten ++ tail) = (do
          hand_on handle (frames.filterMap Frame.request)
          pure (some tail))) ∧
    (∀ f ∈ frames,
      (f.pid = 0 ∧ 2 ≤ f.body.length → ∃ uid pdu, f.request = some (f.tid, uid, pdu) ∧
        decode_mbap_frame f.bytes = .ok (f.tid, uid, pdu) ∧
        encode_mbap_frame f.tid uid pdu = .ok f.bytes ∧
        ∀ (t u : Int) (p : Bytes), encode_mbap_frame t u p = .ok f.bytes →
          t = f.tid ∧ u = uid ∧ p = pdu) ∧
      (¬ (f.pid = 0 ∧ 2 ≤ f.body.length) → f.request = none ∧
        ∃ m, decode_mbap_frame f.bytes = .error (.modbus (.ModbusProtocolError m)) ∧
          ∀ length expected got, PyError.modbus (.ModbusProtocolError m) ≠
            length_mismatch_error length expected got)) ∧
    ∀ (tid uid : Int) (pdu frame : Bytes), encode_mbap_frame tid uid pdu = .ok frame →
      (∀ behind, read_frame (frame ++ behind) = .ok (some (frame, behind))) ∧
      ∃ t u : Nat, (t : Int) = tid ∧ (u : Int) = uid ∧
        decode_mbap_frame frame = .ok (t, u, pdu) := by
  refine ⟨?_, ?_, ?_⟩
  · intro turns hturns
    exact ⟨cut_frames frames htail turns hturns,
      fun σ handle => framing_loop_frames handle frames htail turns hturns⟩
  · intro f _
    obtain ⟨hsome, hnone⟩ := decode_frame f
    constructor
    · intro hcarries
      cases hr : f.request with
      | none => exact absurd hcarries ((request_eq_none_iff f).mp hr)
      | some r =>
        obtain ⟨tid, uid, pdu⟩ := r
        obtain rfl := tid_of_request hr
        have hdecode := hsome _ _ _ hr
        refine ⟨uid, pdu, rfl, hdecode, encode_of_decode_mbap_frame hdecode, ?_⟩
        intro t u p h
        obtain ⟨tid', uid', ht, hu, -⟩ := encode_mbap_frame_eq h
        have hsame := (decode_encode_mbap_frame h).symm.trans hdecode
        simp only [Except.ok.injEq, Prod.mk.injEq] at hsame
        obtain ⟨h1, h2, h3⟩ := hsame
        exact ⟨by omega, by omega, h3⟩
    · intro hdrop
      have hr := (request_eq_none_iff f).mpr hdrop
      exact ⟨hr, hnone hr⟩
  · intro tid uid pdu frame h
    refine ⟨read_frame_encoded h, tid.toNat, uid.toNat, ?_, ?_, decode_encode_mbap_frame h⟩
    · obtain ⟨t, u, rfl, rfl, -⟩ := encode_mbap_frame_eq h
      rfl
    · obtain ⟨t, u, rfl, rfl, -⟩ := encode_mbap_frame_eq h
      rfl

/-- A request, a frame of another protocol with no body, and the first bytes of a third one. -/
theorem mbap_framing_two_frames :
    cut 3 [0, 5, 0, 0, 0, 2, 0x11, 0x07, 0, 6, 0, 1, 0, 0, 0, 7] =
      ([[0, 5, 0, 0, 0, 2, 0x11, 0x07], [0, 6, 0, 1, 0, 0]], [0, 7]) := by
  have hcut := ((mbap_framing [⟨5, 0, [0x11, 0x07], by decide, by decide, by decide⟩,
    ⟨6, 1, [], by decide, by decide, by decide⟩] [0, 7] (by decide)).1 3 (by decide)).1
  simpa [Frame.bytes, Frame.header, toBytes] using hcut

end pymod.adu_tcp
