-- All connections of a server at once: bytes arrive on them in pieces of any size, their handlers
-- take turns at the awaits of `_on_client`, and all of them call the same callbacks. The server has
-- been started and is not stopped: what `stop()` does to the handlers is in `ServerStop`.
import Pymod.ServerSessions
import Pymod.Lib.Runs
import Mathlib.Data.Finset.Card
import Mathlib.Logic.Function.Basic

namespace pymod.serving

open errors codec pdu adu_tcp types data_model server Function Runs

/-! ## The handlers -/

/-- Where the handler of a connection stands in `_on_client`. It has read the header of the next
frame in `reading_rest`. -/
inductive Place
  | absent
  | created
  | rejecting
  | rejected
  | reading_header
  | reading_rest (header : Bytes)
  | draining
  | ended
  deriving DecidableEq, Repr

/-- The handler is in its loop. -/
def Place.Serving : Place → Prop
  | .reading_header | .reading_rest _ | .draining => True
  | .absent | .created | .rejecting | .rejected | .ended => False

/-- The bytes of the next frame that the handler holds. -/
def Place.held : Place → Bytes
  | .reading_rest header => header
  | _ => []

/-- A handler, the bytes of its connection that have arrived and are unread, and the frames that
it wrote. -/
structure Handler where
  place : Place := .absent
  closed : Bool := false
  unread : Bytes := []
  written : List Bytes := []
  deriving DecidableEq, Repr

structure Server (σ : Type) where
  max_connections : Nat
  state : σ
  connections : Finset Nat := ∅
  handlers : Nat → Handler := fun _ => {}
  accepted : Nat := 0

section

variable {σ : Type}

namespace Server

/-- A server that was started, over what its callbacks read and write. -/
def new (max_connections : Nat) (state : σ) : Server σ := { max_connections, state }

variable (s : Server σ)

def with_handler (h : Nat) (handler : Handler) : Server σ :=
  { s with handlers := update s.handlers h handler }

def move (h : Nat) (place : Place) : Server σ := s.with_handler h { s.handlers h with place }

def reject (h : Nat) : Server σ :=
  s.with_handler h { s.handlers h with place := .rejecting, closed := true }

def take_in (h : Nat) : Server σ :=
  { s.move h .reading_header with connections := insert h s.connections }

/-- The `finally` block. -/
def finish (h : Nat) : Server σ :=
  { s.with_handler h { s.handlers h with place := .ended, closed := true } with
    connections := s.connections.erase h }

/-- `header = await reader.readexactly(MBAP_MIN_PEEK_BYTES)` -/
def read_header (h : Nat) : Option (Server σ) :=
  let handler := s.handlers h
  (readexactly MBAP_MIN_PEEK_BYTES handler.unread).map fun (header, behind) =>
    s.with_handler h { handler with place := .reading_rest header, unread := behind }

variable (callbacks : Callbacks σ)

/-- What the loop does with a frame, up to the end of its turn or to `await writer.drain()`. -/
def handle_frame (h : Nat) (frame : Bytes) : Server σ :=
  match decode_mbap_frame frame with
  | .error (.modbus (.ModbusProtocolError _)) => s.move h .reading_header
  | .error _ => s.finish h
  | .ok (tid, uid, request_pdu) =>
    match serve_request callbacks tid uid request_pdu (s.state, (s.handlers h).written) with
    | (.ok (), (state, written)) =>
      { s with state }.with_handler h { s.handlers h with place := .draining, written }
    | (.error _, (state, written)) =>
      ({ s with state }.with_handler h { s.handlers h with written }).finish h

/-- `rest = await reader.readexactly(total - MBAP_MIN_PEEK_BYTES)`, and the rest of the turn. -/
def read_rest (h : Nat) (header : Bytes) : Option (Server σ) :=
  let handler := s.handlers h
  match expected_frame_length header with
  | .error _ => some (s.finish h)
  | .ok total =>
    (readexactly (total - MBAP_MIN_PEEK_BYTES) handler.unread).map fun (rest, behind) =>
      (s.with_handler h { handler with unread := behind }).handle_frame callbacks h (header ++ rest)

end Server

/-! ## The steps -/

/-- What happens next, as long as nobody calls `stop()`: a connection is accepted, its task gets its
first step, the close of a rejected one is over; bytes arrive; an await of the loop is over, or
raises. -/
inductive Event
  | accept
  | started (h : Nat)
  | closed (h : Nat)
  | arrived (h : Nat) (data : Bytes)
  | header_read (h : Nat)
  | rest_read (h : Nat)
  | drained (h : Nat)
  | raised (h : Nat)
  deriving DecidableEq, Repr

open Server

def step (callbacks : Callbacks σ) (s : Server σ) : Event → Option (Server σ)
  | .accept => some { s.move s.accepted .created with accepted := s.accepted + 1 }
  | .started h =>
    if (s.handlers h).place = .created then
      some (if s.max_connections ≤ s.connections.card then s.reject h else s.take_in h)
    else
      none
  | .closed h => if (s.handlers h).place = .rejecting then some (s.move h .rejected) else none
  | .arrived h data =>
    if h < s.accepted then
      some (s.with_handler h { s.handlers h with unread := (s.handlers h).unread ++ data })
    else
      none
  | .header_read h => if (s.handlers h).place = .reading_header then s.read_header h else none
  | .rest_read h =>
    match (s.handlers h).place with
    | .reading_rest header => s.read_rest callbacks h header
    | _ => none
  | .drained h => if (s.handlers h).place = .draining then some (s.move h .reading_header) else none
  | .raised h =>
    match (s.handlers h).place with
    | .reading_header | .reading_rest _ | .draining => some (s.finish h)
    | _ => none

/-! ## What was served -/

/-- A request, behind the number of its connection. -/
abbrev Entry := Nat × Nat × Nat × Bytes

/-- The request that a step hands to `_dispatch`. -/
def served (s : Server σ) : Event → Option Entry
  | .rest_read h =>
    match (s.handlers h).place with
    | .reading_rest header =>
      match read_frame (header ++ (s.handlers h).unread) with
      | .ok (some (frame, _)) =>
        match decode_mbap_frame frame with
        | .ok request => some (h, request)
        | .error _ => none
      | _ => none
    | _ => none
  | _ => none

/-- The requests of a run, in the order in which they were served. -/
def log (callbacks : Callbacks σ) : Server σ → List Event → List Entry :=
  emitted (step callbacks) served

/-- The requests that were served on a connection. -/
def requests_of (h : Nat) (entries : List Entry) : List (Nat × Nat × Bytes) :=
  entries.filterMap fun entry => if entry.1 = h then some entry.2 else none

/-- The bytes that have arrived on a connection. -/
def arrivals (h : Nat) (es : List Event) : Bytes :=
  (es.map fun | .arrived k data => if k = h then data else [] | _ => []).flatten

/-- What a server with one handler, that takes one request at a time, makes of a request. -/
def serve_entry (callbacks : Callbacks σ) (p : σ × (Nat → List Bytes)) (entry : Entry) :
    σ × (Nat → List Bytes) :=
  let (h, tid, uid, pdu) := entry
  let (state, written) := (serve_request callbacks tid uid pdu (p.1, p.2 h)).2
  (state, update p.2 h written)

/-- The store, and the frames on each connection. -/
def effects (s : Server σ) : σ × (Nat → List Bytes) := (s.state, fun h => (s.handlers h).written)

/-! ## The steps, case by case -/

section

variable {callbacks : Callbacks σ} {s t : Server σ}

@[simp] theorem handlers_with_handler (h : Nat) (x : Handler) :
    (s.with_handler h x).handlers h = x := by
  simp [with_handler]

theorem handlers_with_handler_ne {h k : Nat} (hk : k ≠ h) (x : Handler) :
    (s.with_handler h x).handlers k = s.handlers k := by
  simp [with_handler, hk]

@[simp] theorem state_with_handler (h : Nat) (x : Handler) :
    (s.with_handler h x).state = s.state := rfl

@[simp] theorem connections_with_handler (h : Nat) (x : Handler) :
    (s.with_handler h x).connections = s.connections := rfl

@[simp] theorem accepted_with_handler (h : Nat) (x : Handler) :
    (s.with_handler h x).accepted = s.accepted := rfl

@[simp] theorem max_connections_with_handler (h : Nat) (x : Handler) :
    (s.with_handler h x).max_connections = s.max_connections := rfl

/-- A turn of a handler that keeps the store and its frames has no effect. -/
theorem effects_unchanged {h : Nat} {x : Handler} (hstate : t.state = s.state)
    (hhandlers : t.handlers = update s.handlers h x) (hx : x.written = (s.handlers h).written) :
    effects t = effects s := by
  unfold effects
  rw [hstate, hhandlers]
  congr 1
  funext k
  by_cases hk : k = h
  · subst hk
    simpa using hx
  · simp [hk]

/-- The rest of a frame behind its header makes a frame. -/
theorem read_rest_frame {h : Nat} {header : Bytes} (hlen : header.length = MBAP_MIN_PEEK_BYTES)
    (hread : s.read_rest callbacks h header = some t) : ∃ (f : Frame) (behind : Bytes),
      header ++ (s.handlers h).unread = f.bytes ++ behind ∧
      read_frame (header ++ (s.handlers h).unread) = .ok (some (f.bytes, behind)) ∧
      t = (s.with_handler h { s.handlers h with unread := behind }).handle_frame callbacks h
        f.bytes := by
  unfold read_rest at hread
  simp only [expected_frame_length_header hlen, Option.map_eq_some_iff] at hread
  obtain ⟨⟨rest, behind⟩, hrest, rfl⟩ := hread
  obtain ⟨-, hjoin⟩ := readexactly_eq_some hrest
  have hframe : read_frame (header ++ (s.handlers h).unread) =
      .ok (some (header ++ rest, behind)) := by
    unfold read_frame
    rw [readexactly_append_left hlen]
    simp only [expected_frame_length_header hlen, bind, Except.bind, hrest]
    rfl
  obtain ⟨f, hf⟩ := frame_of_read_frame hframe
  refine ⟨f, behind, ?_, ?_, ?_⟩
  · rw [← hf, List.append_assoc, hjoin]
  · rw [hframe, hf]
  · rw [← hf]

/-- A frame without a request is dropped. -/
theorem handle_frame_none {f : Frame} (h : Nat) (hf : f.request = none) :
    s.handle_frame callbacks h f.bytes = s.move h .reading_header := by
  obtain ⟨m, hm, -⟩ := (decode_frame f).2 hf
  simp only [handle_frame, hm]

/-- The handler of a connection after a request: it waits for the transport, or it has ended. -/
theorem handle_frame_some (callbacks : Callbacks σ) (s : Server σ) {f : Frame} {tid uid : Nat}
    {pdu : Bytes} (h : Nat)
    (hf : f.request = some (tid, uid, pdu)) :
    let served := serve_request callbacks tid uid pdu (s.state, (s.handlers h).written)
    let next := { s with state := served.2.1 }
    let handler := { s.handlers h with written := served.2.2 }
    s.handle_frame callbacks h f.bytes = next.with_handler h { handler with place := .draining } ∨
      s.handle_frame callbacks h f.bytes = (next.with_handler h handler).finish h := by
  have hdecode := (decode_frame f).1 tid uid pdu hf
  simp only [handle_frame, hdecode]
  rcases hserve : serve_request callbacks tid uid pdu (s.state, (s.handlers h).written) with
    ⟨e | ⟨⟩, state, written⟩
  · exact Or.inr rfl
  · exact Or.inl rfl

end

/-! ## One connection -/

theorem Place.held_eq_nil {place : Place} (h : ∀ header, place ≠ .reading_rest header) :
    place.held = [] := by
  cases place with
  | reading_rest header => exact absurd rfl (h header)
  | _ => rfl

/-- The handler was let into its loop. -/
def Place.Admitted (place : Place) : Prop := place.Serving ∨ place = .ended

/-- Behind the bytes that have arrived and the requests that were served on it, a connection whose
frames were served in their order. -/
structure InOrder (arrived : Bytes) (requests : List (Nat × Nat × Bytes)) (x : Handler) : Prop where
  frames : ∃ frames : List Frame, requests = frames.filterMap Frame.request ∧
    (frames.map Frame.bytes).flatten <+: arrived ∧
    (x.place ≠ .ended → (frames.map Frame.bytes).flatten ++ (x.place.held ++ x.unread) = arrived)
  header : ∀ header, x.place = .reading_rest header → header.length = MBAP_MIN_PEEK_BYTES
  outside : ¬ x.place.Admitted → requests = [] ∧ x.written = []

section

variable {arrived : Bytes} {requests : List (Nat × Nat × Bytes)} {x y : Handler}

/-- A turn that serves nothing and loses no byte. -/
theorem InOrder.turn (hx : InOrder arrived requests x)
    (hbytes : y.place ≠ .ended →
      x.place ≠ .ended ∧ y.place.held ++ y.unread = x.place.held ++ x.unread)
    (hheader : ∀ header, y.place = .reading_rest header → header.length = MBAP_MIN_PEEK_BYTES)
    (houtside : ¬ y.place.Admitted → ¬ x.place.Admitted ∧ y.written = x.written) :
    InOrder arrived requests y := by
  obtain ⟨frames, hrequests, hpre, hall⟩ := hx.frames
  refine ⟨⟨frames, hrequests, hpre, ?_⟩, hheader, ?_⟩
  · intro hy
    obtain ⟨hlive, hsame⟩ := hbytes hy
    rw [hsame]
    exact hall hlive
  · intro hy
    obtain ⟨hout, hsame⟩ := houtside hy
    rw [hsame]
    exact hx.outside hout

theorem InOrder.arrive (hx : InOrder arrived requests x) (data : Bytes) :
    InOrder (arrived ++ data) requests { x with unread := x.unread ++ data } := by
  obtain ⟨frames, hrequests, hpre, hall⟩ := hx.frames
  refine ⟨⟨frames, hrequests, hpre.trans (List.prefix_append _ _), ?_⟩, hx.header, hx.outside⟩
  intro hlive
  rw [← hall hlive]
  simp

/-- A turn that takes a frame off the bytes and serves its request. -/
theorem InOrder.serve (hx : InOrder arrived requests x) {header behind : Bytes} {f : Frame}
    (hplace : x.place = .reading_rest header) (hframe : header ++ x.unread = f.bytes ++ behind)
    (hrest : ∀ header, y.place ≠ .reading_rest header) (hunread : y.unread = behind)
    (hy : y.place.Admitted) : InOrder arrived (requests ++ f.request.toList) y := by
  obtain ⟨frames, hrequests, -, hall⟩ := hx.frames
  have hsplit : ((frames ++ [f]).map Frame.bytes).flatten ++ behind = arrived := by
    rw [← hall (by simp [hplace]), hplace, Place.held, hframe]
    simp
  refine ⟨⟨frames ++ [f], ?_, ⟨behind, hsplit⟩, ?_⟩, ?_, fun hout => absurd hy hout⟩
  · rw [hrequests, List.filterMap_append]
    cases hf : f.request <;> simp [hf]
  · intro _
    rw [Place.held_eq_nil hrest, hunread]
    exact hsplit
  · intro header' hplace'
    exact absurd hplace' (hrest header')

end

/-! ## All connections -/

@[simp] theorem requests_of_append (h : Nat) (xs ys : List Entry) :
    requests_of h (xs ++ ys) = requests_of h xs ++ requests_of h ys :=
  List.filterMap_append

@[simp] theorem requests_of_nil (h : Nat) : requests_of h [] = [] := rfl

theorem arrivals_concat (h : Nat) (es : List Event) (e : Event) :
    arrivals h (es ++ [e]) = arrivals h es ++ arrivals h [e] := by
  simp [arrivals]

/-- The handler whose turn the event is. -/
def Event.handler (s : Server σ) : Event → Nat
  | .accept => s.accepted
  | .started h | .closed h | .arrived h _ | .header_read h | .rest_read h | .drained h
  | .raised h => h

section

variable {callbacks : Callbacks σ} {s t : Server σ} {e : Event}

@[simp] theorem handlers_finish_ne {h k : Nat} (hk : k ≠ h) :
    (s.finish h).handlers k = s.handlers k := handlers_with_handler_ne hk _

/-- A turn at a frame leaves the other handlers as they were. -/
theorem handle_frame_others {h k : Nat} (hk : k ≠ h) (f : Frame) :
    (s.handle_frame callbacks h f.bytes).handlers k = s.handlers k := by
  cases hf : f.request with
  | none =>
    rw [handle_frame_none h hf]
    exact handlers_with_handler_ne hk _
  | some request =>
    obtain ⟨tid, uid, pdu⟩ := request
    rcases handle_frame_some callbacks s h hf with heq | heq
    · rw [heq, handlers_with_handler_ne hk]
    · rw [heq, handlers_finish_ne hk, handlers_with_handler_ne hk]

/-- Behind a turn at a frame the handler waits for the next one or for the transport, or it has
ended. -/
theorem handle_frame_own (callbacks : Callbacks σ) (s : Server σ) (h : Nat) (f : Frame) :
    ((s.handle_frame callbacks h f.bytes).handlers h).unread = (s.handlers h).unread ∧
      ((s.handle_frame callbacks h f.bytes).handlers h).place ∈
        [.reading_header, .draining, .ended] := by
  cases hf : f.request with
  | none =>
    rw [handle_frame_none h hf]
    simp [move]
  | some request =>
    obtain ⟨tid, uid, pdu⟩ := request
    rcases handle_frame_some callbacks s h hf with heq | heq
    · rw [heq]
      simp
    · rw [heq]
      simp [finish, with_handler]

/-- What `served` notes of a turn at a frame. -/
theorem served_rest {h : Nat} {header behind : Bytes} {f : Frame}
    (hplace : (s.handlers h).place = .reading_rest header)
    (hframe : read_frame (header ++ (s.handlers h).unread) = .ok (some (f.bytes, behind))) :
    served s (.rest_read h) = f.request.map fun request => (h, request) := by
  simp only [served, hplace, hframe]
  cases hf : f.request with
  | none =>
    obtain ⟨m, hm, -⟩ := (decode_frame f).2 hf
    simp only [hm]
    rfl
  | some request =>
    obtain ⟨tid, uid, pdu⟩ := request
    rw [(decode_frame f).1 tid uid pdu hf]
    rfl

/-- Everything that a step can do, when the headers that are held have their length. -/
inductive Turn (callbacks : Callbacks σ) (s : Server σ) : Event → Server σ → Prop
  | accepted :
      Turn callbacks s .accept { s.move s.accepted .created with accepted := s.accepted + 1 }
  | taken_in {h : Nat} (hplace : (s.handlers h).place = .created)
      (hroom : s.connections.card < s.max_connections) : Turn callbacks s (.started h) (s.take_in h)
  | turned_away {h : Nat} (hplace : (s.handlers h).place = .created)
      (hfull : s.max_connections ≤ s.connections.card) : Turn callbacks s (.started h) (s.reject h)
  | closed {h : Nat} (hplace : (s.handlers h).place = .rejecting) :
      Turn callbacks s (.closed h) (s.move h .rejected)
  | arrived {h : Nat} {data : Bytes} (hlt : h < s.accepted) :
      Turn callbacks s (.arrived h data)
        (s.with_handler h { s.handlers h with unread := (s.handlers h).unread ++ data })
  | header_read {h : Nat} {header behind : Bytes} (hplace : (s.handlers h).place = .reading_header)
      (hlen : header.length = MBAP_MIN_PEEK_BYTES)
      (hunread : header ++ behind = (s.handlers h).unread) :
      Turn callbacks s (.header_read h)
        (s.with_handler h { s.handlers h with place := .reading_rest header, unread := behind })
  | rest_read {h : Nat} {header behind : Bytes} {f : Frame}
      (hplace : (s.handlers h).place = .reading_rest header)
      (hframe : header ++ (s.handlers h).unread = f.bytes ++ behind)
      (hserved : served s (.rest_read h) = f.request.map fun request => (h, request)) :
      Turn callbacks s (.rest_read h)
        ((s.with_handler h { s.handlers h with unread := behind }).handle_frame callbacks h f.bytes)
  | drained {h : Nat} (hplace : (s.handlers h).place = .draining) :
      Turn callbacks s (.drained h) (s.move h .reading_header)
  | raised {h : Nat} (hserving : (s.handlers h).place.Serving) :
      Turn callbacks s (.raised h) (s.finish h)

theorem turn_of_step (hheaders : ∀ h header, (s.handlers h).place = .reading_rest header →
    header.length = MBAP_MIN_PEEK_BYTES) (he : step callbacks s e = some t) :
    Turn callbacks s e t := by
  cases e with
  | accept =>
    cases he
    exact .accepted
  | started h =>
    obtain ⟨hplace, heq⟩ := Option.ite_none_right_eq_some.mp he
    cases heq
    split_ifs with hfull
    · exact .turned_away hplace hfull
    · exact .taken_in hplace (not_le.mp hfull)
  | closed h =>
    obtain ⟨hplace, heq⟩ := Option.ite_none_right_eq_some.mp he
    cases heq
    exact .closed hplace
  | arrived h data =>
    obtain ⟨hlt, heq⟩ := Option.ite_none_right_eq_some.mp he
    cases heq
    exact .arrived hlt
  | header_read h =>
    obtain ⟨hplace, heq⟩ := Option.ite_none_right_eq_some.mp he
    simp only [read_header, Option.map_eq_some_iff] at heq
    obtain ⟨⟨header, behind⟩, hread, rfl⟩ := heq
    obtain ⟨hlen, hunread⟩ := readexactly_eq_some hread
    exact .header_read hplace hlen hunread
  | rest_read h =>
    cases hplace : (s.handlers h).place with
    | reading_rest header =>
      simp only [step, hplace] at he
      obtain ⟨f, behind, hframe, hread, rfl⟩ := read_rest_frame (hheaders h header hplace) he
      exact .rest_read hplace hframe (served_rest hplace hread)
    | _ => simp [step, hplace] at he
  | drained h =>
    obtain ⟨hplace, heq⟩ := Option.ite_none_right_eq_some.mp he
    cases heq
    exact .drained hplace
  | raised h =>
    cases hplace : (s.handlers h).place with
    | reading_header | reading_rest header | draining =>
      simp only [step, hplace, Option.some.injEq] at he
      subst he
      exact .raised (by rw [hplace]; trivial)
    | _ => simp [step, hplace] at he

/-! ## The requests, one log for all connections -/

theorem Turn.others (h : Turn callbacks s e t) {k : Nat} (hk : k ≠ e.handler s) :
    t.handlers k = s.handlers k ∧ arrivals k [e] = [] ∧ requests_of k (served s e).toList = [] := by
  cases h with
  | rest_read hplace hframe hserved =>
    simp only [Event.handler] at hk
    rename_i j header behind f
    refine ⟨?_, rfl, ?_⟩
    · rw [handle_frame_others hk, handlers_with_handler_ne hk]
    · rw [hserved]
      cases f.request with
      | none => rfl
      | some request => simp [requests_of, Ne.symm hk]
  | arrived hlt =>
    simp only [Event.handler] at hk
    exact ⟨handlers_with_handler_ne hk _, by simp [arrivals, Ne.symm hk], rfl⟩
  | _ => exact ⟨handlers_with_handler_ne hk _, rfl, rfl⟩

@[simp] theorem effects_finish (h : Nat) : effects (s.finish h) = effects s :=
  effects_unchanged (x := { s.handlers h with place := .ended, closed := true }) rfl rfl rfl

/-- A turn at a frame has the effects of its request. -/
theorem effects_handle_frame {h : Nat} (f : Frame) :
    effects (s.handle_frame callbacks h f.bytes) =
      (f.request.map fun request => (h, request)).toList.foldl (serve_entry callbacks)
        (effects s) := by
  cases hf : f.request with
  | none =>
    rw [handle_frame_none h hf]
    exact effects_unchanged rfl rfl rfl
  | some request =>
    obtain ⟨tid, uid, pdu⟩ := request
    have hwritten : ∀ (state : σ) (x : Handler),
        effects ({ s with state }.with_handler h x) =
          (state, update (effects s).2 h x.written) := by
      intro state x
      unfold effects with_handler
      congr 1
      funext k
      by_cases hk : k = h
      · subst hk
        simp
      · simp [hk]
    rcases handle_frame_some callbacks s h hf with heq | heq
    · rw [heq, hwritten]
      rfl
    · rw [heq, effects_finish, hwritten]
      rfl

/-- The store and the frames change as one request at a time changes them. -/
theorem Turn.effects (h : Turn callbacks s e t) :
    effects t = (served s e).toList.foldl (serve_entry callbacks) (effects s) := by
  cases h with
  | rest_read hplace hframe hserved =>
    rw [hserved, effects_handle_frame]
    congr 1
    exact effects_unchanged rfl rfl rfl
  | _ => exact effects_unchanged rfl rfl rfl

/-- The handler whose turn it is goes on in the order of its frames. -/
theorem Turn.in_order (h : Turn callbacks s e t) {arrived : Bytes}
    {requests : List (Nat × Nat × Bytes)} (habsent : (s.handlers s.accepted).place = .absent)
    (hs : InOrder arrived requests (s.handlers (e.handler s))) :
    InOrder (arrived ++ arrivals (e.handler s) [e])
      (requests ++ requests_of (e.handler s) (served s e).toList) (t.handlers (e.handler s)) := by
  cases h with
  | rest_read hplace hframe hserved =>
    rename_i h header behind f
    obtain ⟨hunread, hnext⟩ := handle_frame_own callbacks
      (s.with_handler h { s.handlers h with unread := behind }) h f
    have hrequest : requests_of h (served s (.rest_read h)).toList = f.request.toList := by
      rw [hserved]
      cases f.request <;> simp [requests_of]
    simp only [Event.handler] at hs ⊢
    rw [hrequest, show arrivals h [.rest_read h] = [] from rfl, List.append_nil]
    refine hs.serve hplace hframe ?_ (by simpa using hunread) ?_
    · intro header' hheader'
      rw [hheader'] at hnext
      simp at hnext
    · simp only [List.mem_cons, List.not_mem_nil, or_false] at hnext
      rcases hnext with hnext | hnext | hnext <;> rw [hnext] <;>
        simp [Place.Admitted, Place.Serving]
  | arrived hlt =>
    rename_i h data
    simpa [arrivals, served, Event.handler] using hs.arrive data
  | accepted =>
    have hcreated : InOrder arrived requests { s.handlers s.accepted with place := .created } := by
      refine hs.turn (fun _ => ?_) (by simp) (fun _ => ?_)
      · simp [Event.handler, habsent, Place.held]
      · simp [Event.handler, habsent, Place.Admitted, Place.Serving]
    simpa [arrivals, served, Event.handler, move, with_handler] using hcreated
  | taken_in hplace hroom =>
    rename_i h
    have hin : InOrder arrived requests { s.handlers h with place := .reading_header } := by
      refine hs.turn (fun _ => ?_) (by simp) (fun hout => ?_)
      · simp [Event.handler, hplace, Place.held]
      · exact absurd (Or.inl trivial) hout
    simpa [arrivals, served, Event.handler, take_in, move, with_handler] using hin
  | turned_away hplace hfull =>
    rename_i h
    have hout : InOrder arrived requests { s.handlers h with place := .rejecting, closed := true } := by
      refine hs.turn (fun _ => ?_) (by simp) (fun _ => ?_)
      · simp [Event.handler, hplace, Place.held]
      · simp [Event.handler, hplace, Place.Admitted, Place.Serving]
    simpa [arrivals, served, Event.handler, reject, with_handler] using hout
  | closed hplace =>
    rename_i h
    have hout : InOrder arrived requests { s.handlers h with place := .rejected } := by
      refine hs.turn (fun _ => ?_) (by simp) (fun _ => ?_)
      · simp [Event.handler, hplace, Place.held]
      · simp [Event.handler, hplace, Place.Admitted, Place.Serving]
    simpa [arrivals, served, Event.handler, move, with_handler] using hout
  | header_read hplace hlen hunread =>
    rename_i h header behind
    have hnext : InOrder arrived requests
        { s.handlers h with place := .reading_rest header, unread := behind } := by
      refine hs.turn (fun _ => ?_) ?_ (fun hout => ?_)
      · simp [Event.handler, hplace, Place.held, hunread]
      · intro header' heq
        cases heq
        exact hlen
      · exact absurd (Or.inl trivial) hout
    simpa [arrivals, served, Event.handler, with_handler] using hnext
  | drained hplace =>
    rename_i h
    have hnext : InOrder arrived requests { s.handlers h with place := .reading_header } := by
      refine hs.turn (fun _ => ?_) (by simp) (fun hout => ?_)
      · simp [Event.handler, hplace, Place.held]
      · exact absurd (Or.inl trivial) hout
    simpa [arrivals, served, Event.handler, move, with_handler] using hnext
  | raised hserving =>
    rename_i h
    have hended : InOrder arrived requests { s.handlers h with place := .ended, closed := true } := by
      refine hs.turn (fun hlive => absurd rfl hlive) (by simp) (fun hout => ?_)
      exact absurd (Or.inr rfl) hout
    simpa [arrivals, served, Event.handler, finish, with_handler] using hended

/-- After the events: one log for the store and all frames, and on each connection its own
requests in the order of its frames. -/
structure OneLog (callbacks : Callbacks σ) (s₀ : Server σ) (es : List Event) (s : Server σ) :
    Prop where
  effects_eq : effects s = (log callbacks s₀ es).foldl (serve_entry callbacks) (effects s₀)
  in_order : ∀ h, InOrder (arrivals h es) (requests_of h (log callbacks s₀ es)) (s.handlers h)
  absent : ∀ h, s.accepted ≤ h → (s.handlers h).place = .absent

/-- What a turn at a frame does to the server around its handler. -/
theorem handle_frame_server {h : Nat} (f : Frame) :
    let t := s.handle_frame callbacks h f.bytes
    t.accepted = s.accepted ∧ t.max_connections = s.max_connections ∧
      (t.connections = s.connections ∧ (t.handlers h).place.Serving ∧
          (t.handlers h).closed = (s.handlers h).closed ∨
        t.connections = s.connections.erase h ∧ (t.handlers h).place = .ended ∧
          (t.handlers h).closed = true) := by
  cases hf : f.request with
  | none =>
    rw [handle_frame_none h hf]
    simp [move, Place.Serving]
  | some request =>
    obtain ⟨tid, uid, pdu⟩ := request
    rcases handle_frame_some callbacks s h hf with heq | heq
    · rw [heq]
      simp [Place.Serving]
    · rw [heq]
      simp [finish, with_handler]

/-- The handlers of connections that were not accepted are not there. -/
theorem Turn.absent (h : Turn callbacks s e t)
    (hs : ∀ k, s.accepted ≤ k → (s.handlers k).place = .absent) :
    ∀ k, t.accepted ≤ k → (t.handlers k).place = .absent := by
  intro k hk
  have hlive : ∀ {j place}, (s.handlers j).place = place → place ≠ .absent → s.accepted ≤ j →
      False := by
    intro j place hplace hne hj
    exact hne (hplace.symm.trans (hs j hj))
  have hothers : k ≠ e.handler s → s.accepted ≤ k → (t.handlers k).place = .absent := by
    intro hne hle
    rw [(h.others hne).1]
    exact hs k hle
  cases h with
  | accepted => exact hothers (Nat.ne_of_gt hk) (Nat.le_of_succ_le hk)
  | rest_read hplace hframe hserved =>
    rw [(handle_frame_server _).1] at hk
    refine hothers (fun heq => ?_) hk
    subst heq
    exact hlive hplace (by simp) hk
  | arrived hlt =>
    refine hothers (fun heq => ?_) hk
    subst heq
    exact absurd hk (not_le.mpr hlt)
  | raised hserving =>
    refine hothers (fun heq => ?_) hk
    subst heq
    rw [hs _ hk] at hserving
    exact hserving
  | taken_in hplace _ | turned_away hplace _ | closed hplace | header_read hplace _ _
    | drained hplace =>
    refine hothers (fun heq => ?_) hk
    subst heq
    exact hlive hplace (by simp) hk

theorem oneLog_run {max_connections : Nat} {state : σ} {es : List Event}
    (hrun : run (step callbacks) (new max_connections state) es = some s) :
    OneLog callbacks (new max_connections state) es s := by
  refine invariant_history (i := OneLog callbacks (new max_connections state)) ?_ ?_ hrun
  · refine ⟨rfl, fun h => ⟨⟨[], rfl, List.nil_prefix, fun _ => rfl⟩, ?_, fun _ => ⟨rfl, rfl⟩⟩, ?_⟩
    · intro header hplace
      cases hplace
    · intro h _
      rfl
  · intro es u e t hu hlog he
    have hturn := turn_of_step (fun h => (hlog.in_order h).header) he
    have hconcat : log callbacks (new max_connections state) (es ++ [e]) =
        log callbacks (new max_connections state) es ++ (served u e).toList := emitted_concat hu he
    refine ⟨?_, fun k => ?_, hturn.absent hlog.absent⟩
    · rw [hturn.effects, hconcat, List.foldl_append, hlog.effects_eq]
    · rw [hconcat, requests_of_append, arrivals_concat]
      by_cases hk : k = e.handler u
      · subst hk
        exact hturn.in_order (hlog.absent _ le_rfl) (hlog.in_order _)
      · obtain ⟨hsame, harrived, hserved⟩ := hturn.others hk
        rw [hsame, harrived, hserved, List.append_nil, List.append_nil]
        exact hlog.in_order k

/-- No turn of the handler is possible: it waits for bytes of its connection. -/
def Waits (callbacks : Callbacks σ) (s : Server σ) (h : Nat) : Prop :=
  (s.handlers h).place.Serving ∧ step callbacks s (.header_read h) = none ∧
    step callbacks s (.rest_read h) = none ∧ step callbacks s (.drained h) = none

/-- A handler waits with less than a frame. -/
theorem incomplete_of_waits {h : Nat} (hwaits : Waits callbacks s h)
    (hheader : ∀ header, (s.handlers h).place = .reading_rest header →
      header.length = MBAP_MIN_PEEK_BYTES) :
    Incomplete ((s.handlers h).place.held ++ (s.handlers h).unread) := by
  obtain ⟨hserving, hhead, hrest, hdrain⟩ := hwaits
  rintro f ⟨behind, hf⟩
  cases hplace : (s.handlers h).place with
  | reading_header =>
    have hread := readexactly_append_left f.length_header (f.body ++ behind)
    rw [hplace, show Place.held .reading_header = [] from rfl, List.nil_append] at hf
    rw [← List.append_assoc, ← Frame.bytes, hf] at hread
    simp only [step, hplace, if_true, read_header, Option.map_eq_none_iff] at hhead
    cases hread.symm.trans hhead
  | reading_rest header =>
    have hlen := hheader header hplace
    have hread := read_frame_of_frame f behind
    rw [hf, hplace, Place.held, read_frame, readexactly_append_left hlen] at hread
    simp only [step, hplace, read_rest, expected_frame_length_header hlen,
      Option.map_eq_none_iff] at hrest
    simp only [expected_frame_length_header hlen, bind, Except.bind, hrest] at hread
    cases hread
  | draining => simp [step, hplace] at hdrain
  | _ =>
    rw [hplace] at hserving
    exact hserving

end

/-- Whatever pieces the bytes of the connections arrive in and however their handlers take turns:
there is one log of requests, and the store and the frames on every connection are those of a
server that takes the requests of the log one at a time. Each connection has the requests of its
own frames in that log, in their order and each of them once, and a handler that waits has served
every complete frame. -/
theorem all_connections_are_served_from_one_log (callbacks : Callbacks σ) (max_connections : Nat)
    (state : σ) (es : List Event) (s : Server σ)
    (hrun : run (step callbacks) (new max_connections state) es = some s) :
    let entries := log callbacks (new max_connections state) es
    (s.state, fun h => (s.handlers h).written) =
        entries.foldl (serve_entry callbacks) (state, fun _ => []) ∧
      ∀ h, ∃ (frames : List Frame) (tail : Bytes),
        (frames.map Frame.bytes).flatten ++ tail = arrivals h es ∧
        requests_of h entries = frames.filterMap Frame.request ∧
        (Waits callbacks s h → Incomplete tail) := by
  have hlog := oneLog_run hrun
  refine ⟨hlog.effects_eq, fun h => ?_⟩
  obtain ⟨frames, hrequests, ⟨tail, htail⟩, hall⟩ := (hlog.in_order h).frames
  refine ⟨frames, tail, htail, hrequests, fun hwaits => ?_⟩
  have hlive : (s.handlers h).place ≠ .ended := by
    intro hended
    have hserving := hwaits.1
    rw [hended] at hserving
    exact hserving
  have heq : tail = (s.handlers h).place.held ++ (s.handlers h).unread :=
    List.append_cancel_left (htail.trans (hall hlive).symm)
  rw [heq]
  exact incomplete_of_waits hwaits (hlog.in_order h).header

/-- Two connections to a server that takes in one: the second is turned away, and the first gets
the answer to a read that comes in two pieces. -/
def two_connections : List Event :=
  [.accept, .accept, .started 0, .started 1, .arrived 0 [0, 7, 0, 0, 0, 6, 1], .header_read 0,
    .arrived 0 [3, 0, 0, 0, 1], .rest_read 0, .closed 1, .drained 0]

theorem a_read_in_two_pieces_is_served : ∃ s,
    run (step (raising_callbacks 4)) (new 1 ()) two_connections = some s ∧
      (s.handlers 0).written = [[0, 7, 0, 0, 0, 3, 1, 0x83, 4]] ∧
      ∃ (frames : List Frame) (tail : Bytes),
        (frames.map Frame.bytes).flatten ++ tail = [0, 7, 0, 0, 0, 6, 1, 3, 0, 0, 0, 1] ∧
        frames.filterMap Frame.request = [(7, 1, [3, 0, 0, 0, 1])] ∧ Incomplete tail := by
  refine ⟨_, rfl, by decide, ?_⟩
  obtain ⟨-, hall⟩ := all_connections_are_served_from_one_log (raising_callbacks 4) 1 ()
    two_connections _ rfl
  obtain ⟨frames, tail, hbytes, hrequests, hwaits⟩ := hall 0
  exact ⟨frames, tail, hbytes, hrequests.symm, hwaits ⟨trivial, rfl, rfl, rfl⟩⟩

/-! ## The limit of connections -/

section

variable {callbacks : Callbacks σ} {s t : Server σ} {e : Event}

/-- The connection was not let in. -/
def Place.TurnedAway (place : Place) : Prop := place = .rejecting ∨ place = .rejected

/-- A connection is in the set exactly while its handler serves it, and closed from when the
handler ends or turns it away. -/
structure Registered (member : Prop) (x : Handler) : Prop where
  member_iff : member ↔ x.place.Serving
  closed_iff : x.closed = true ↔ x.place = .ended ∨ x.place.TurnedAway

/-- After the events, for a server that takes in so many connections at once. -/
structure Limited (callbacks : Callbacks σ) (s₀ : Server σ) (es : List Event) (s : Server σ) :
    Prop where
  max_eq : s.max_connections = s₀.max_connections
  card_le : s.connections.card ≤ s₀.max_connections
  registered : ∀ h, Registered (h ∈ s.connections) (s.handlers h)
  full : ∀ h, (s.handlers h).place.TurnedAway → ∃ before after u,
    es = before ++ .started h :: after ∧ run (step callbacks) s₀ before = some u ∧
      u.connections.card = s₀.max_connections

theorem Turn.max_connections (h : Turn callbacks s e t) :
    t.max_connections = s.max_connections := by
  cases h with
  | rest_read hplace hframe hserved => exact (handle_frame_server _).2.1
  | _ => rfl

theorem Turn.card_le (h : Turn callbacks s e t)
    (hs : s.connections.card ≤ s.max_connections) : t.connections.card ≤ s.max_connections := by
  cases h with
  | taken_in hplace hroom => exact le_trans (Finset.card_insert_le _ _) hroom
  | raised hserving => exact le_trans (Finset.card_erase_le) hs
  | rest_read hplace hframe hserved =>
    rcases (handle_frame_server _).2.2 with ⟨heq, -⟩ | ⟨heq, -⟩
    · rw [heq]
      exact hs
    · rw [heq]
      exact le_trans (Finset.card_erase_le) hs
  | _ => exact hs

theorem Turn.mem_others (h : Turn callbacks s e t) {k : Nat} (hk : k ≠ e.handler s) :
    k ∈ t.connections ↔ k ∈ s.connections := by
  cases h with
  | taken_in hplace hroom =>
    simp only [Event.handler] at hk
    simp [take_in, hk]
  | raised hserving =>
    simp only [Event.handler] at hk
    simp [finish, hk]
  | rest_read hplace hframe hserved =>
    simp only [Event.handler] at hk
    rcases (handle_frame_server _).2.2 with ⟨heq, -⟩ | ⟨heq, -⟩
    · rw [heq, connections_with_handler]
    · rw [heq]
      simp [hk]
  | _ => exact Iff.rfl

/-- The handler whose turn it is stays registered as it should be. -/
theorem Turn.registered (h : Turn callbacks s e t)
    (habsent : (s.handlers s.accepted).place = .absent)
    (hs : ∀ k, Registered (k ∈ s.connections) (s.handlers k)) :
    Registered (e.handler s ∈ t.connections) (t.handlers (e.handler s)) := by
  obtain ⟨hmember, hclosed⟩ := hs (e.handler s)
  cases h with
  | accepted =>
    simp only [Event.handler, habsent] at hmember hclosed
    constructor
    · simpa [Event.handler, move, Place.Serving] using hmember
    · simpa [Event.handler, move, Place.TurnedAway] using hclosed
  | taken_in hplace hroom =>
    simp only [Event.handler, hplace] at hclosed
    constructor
    · simp [Event.handler, take_in, move, with_handler, Place.Serving]
    · simpa [Event.handler, take_in, move, with_handler, Place.TurnedAway] using hclosed
  | turned_away hplace hfull =>
    constructor
    · simpa [Event.handler, hplace, reject, Place.Serving] using hmember
    · simp [Event.handler, reject, Place.TurnedAway]
  | closed hplace =>
    constructor
    · simpa [Event.handler, hplace, move, Place.Serving] using hmember
    · simpa [Event.handler, hplace, move, Place.TurnedAway] using hclosed
  | arrived hlt =>
    exact ⟨by simpa [Event.handler] using hmember, by simpa [Event.handler] using hclosed⟩
  | header_read hplace hlen hunread =>
    simp only [Event.handler, hplace] at hmember hclosed
    constructor
    · simpa [Event.handler, Place.Serving] using hmember
    · simpa [Event.handler, Place.TurnedAway] using hclosed
  | drained hplace =>
    simp only [Event.handler, hplace] at hmember hclosed
    constructor
    · simpa [Event.handler, move, Place.Serving] using hmember
    · simpa [Event.handler, move, Place.TurnedAway] using hclosed
  | raised hserving =>
    constructor
    · simp [Event.handler, finish, with_handler, Place.Serving]
    · simp [Event.handler, finish, with_handler]
  | rest_read hplace hframe hserved =>
    simp only [Event.handler, hplace] at hmember hclosed ⊢
    rcases (handle_frame_server _).2.2 with ⟨heq, hserving, hsame⟩ | ⟨heq, hended, hclose⟩
    · refine ⟨iff_of_true ?_ hserving, ?_⟩
      · rw [heq]
        exact hmember.mpr trivial
      · rw [hsame, handlers_with_handler]
        refine hclosed.trans (iff_of_false (by simp [Place.TurnedAway]) ?_)
        rintro (hbad | hbad | hbad) <;> simp [hbad, Place.Serving] at hserving
    · refine ⟨?_, iff_of_true hclose (Or.inl hended)⟩
      rw [heq, hended]
      simp [Place.Serving]

/-- A connection is turned away only while the server serves as many as it takes in. -/
theorem Turn.turned_away_of {k : Nat} (h : Turn callbacks s e t)
    (ht : (t.handlers k).place.TurnedAway) :
    (s.handlers k).place.TurnedAway ∨
      e = .started k ∧ s.max_connections ≤ s.connections.card := by
  by_cases hk : k = e.handler s
  · subst hk
    cases h with
    | turned_away hplace hfull => exact Or.inr ⟨rfl, hfull⟩
    | closed hplace => exact Or.inl (Or.inl hplace)
    | arrived hlt => exact Or.inl (by simpa [Event.handler] using ht)
    | rest_read hplace hframe hserved =>
      rename_i h header behind f
      obtain ⟨-, hnext⟩ := handle_frame_own callbacks
        (s.with_handler h { s.handlers h with unread := behind }) h f
      simp only [List.mem_cons, List.not_mem_nil, or_false] at hnext
      simp only [Event.handler, Place.TurnedAway] at ht
      rcases hnext with hnext | hnext | hnext <;> simp [hnext] at ht
    | _ => simp [Event.handler, take_in, finish, move, with_handler, Place.TurnedAway] at ht
  · rw [(h.others hk).1] at ht
    exact Or.inl ht

theorem limited_run {max_connections : Nat} {state : σ} {es : List Event}
    (hrun : run (step callbacks) (new max_connections state) es = some s) :
    Limited callbacks (new max_connections state) es s := by
  refine invariant_history (i := Limited callbacks (new max_connections state)) ?_ ?_ hrun
  · refine ⟨rfl, Nat.zero_le _, fun h => ⟨?_, ?_⟩, ?_⟩
    · simp [new, Place.Serving]
    · simp [new, Place.TurnedAway]
    · simp [new, Place.TurnedAway]
  · intro es u e t hu hlim he
    have hlog := oneLog_run hu
    have hturn := turn_of_step (fun h => (hlog.in_order h).header) he
    refine ⟨hturn.max_connections.trans hlim.max_eq, ?_, fun k => ?_, fun k hk => ?_⟩
    · rw [← hlim.max_eq]
      exact hturn.card_le (hlim.max_eq ▸ hlim.card_le)
    · by_cases hk : k = e.handler u
      · subst hk
        exact hturn.registered (hlog.absent _ le_rfl) hlim.registered
      · rw [(hturn.others hk).1]
        obtain ⟨hmember, hclosed⟩ := hlim.registered k
        exact ⟨(hturn.mem_others hk).trans hmember, hclosed⟩
    · rcases hturn.turned_away_of hk with hbefore | ⟨rfl, hfull⟩
      · obtain ⟨before, after, v, rfl, hv, hcard⟩ := hlim.full k hbefore
        exact ⟨before, after ++ [e], v, by simp, hv, hcard⟩
      · refine ⟨es, [], u, rfl, hu, le_antisymm hlim.card_le ?_⟩
        rw [← hlim.max_eq]
        exact hfull

end

/-- Until `stop()` is called the server serves at most `max_connections` connections, those of
`_connections`. It closes a connection when its handler ends or turns it away, and turns it away
only while it serves exactly so many others; then nothing is ever served or written on it. -/
theorem no_more_connections_than_the_limit (callbacks : Callbacks σ) (max_connections : Nat)
    (state : σ) (es : List Event) (s : Server σ)
    (hrun : run (step callbacks) (new max_connections state) es = some s) :
    s.connections.card ≤ max_connections ∧
      (∀ h, h ∈ s.connections ↔ (s.handlers h).place.Serving) ∧
      (∀ h, (s.handlers h).closed = true ↔
        (s.handlers h).place = .ended ∨ (s.handlers h).place.TurnedAway) ∧
      ∀ h, (s.handlers h).place.TurnedAway →
        (s.handlers h).written = [] ∧
        requests_of h (log callbacks (new max_connections state) es) = [] ∧
        ∃ before after u, es = before ++ .started h :: after ∧
          run (step callbacks) (new max_connections state) before = some u ∧
          u.connections.card = max_connections := by
  have hlim := limited_run hrun
  refine ⟨hlim.card_le, fun h => (hlim.registered h).member_iff,
    fun h => (hlim.registered h).closed_iff, fun h haway => ?_⟩
  have hout : ¬ (s.handlers h).place.Admitted := by
    rcases haway with hplace | hplace <;> simp [hplace, Place.Admitted, Place.Serving]
  obtain ⟨hnone, hwritten⟩ := ((oneLog_run hrun).in_order h).outside hout
  exact ⟨hwritten, hnone, hlim.full h haway⟩

theorem the_second_of_two_is_turned_away : ∃ s,
    run (step (raising_callbacks 4)) (new 1 ()) two_connections = some s ∧
      s.connections.card ≤ 1 ∧ (s.handlers 1).place = .rejected ∧ (s.handlers 1).written = [] := by
  refine ⟨_, rfl, ?_⟩
  obtain ⟨hcard, -, -, haway⟩ := no_more_connections_than_the_limit (raising_callbacks 4) 1 ()
    two_connections _ rfl
  exact ⟨hcard, rfl, (haway 1 (Or.inr rfl)).1⟩

end

end pymod.serving
