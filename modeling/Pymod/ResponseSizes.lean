-- The sizes of what the server sends: a response is as long as its request asks for, or an
-- exception, and no frame is longer than 259 bytes.
import Pymod.RemoteCalls
import Pymod.ServeConnections
import Pymod.Lib.Fallible

namespace pymod.serving

open errors codec pdu adu_tcp types data_model server Function Runs

/-! ## Lengths -/

/-- The length of a normal response: the values of a read behind the function code and their
number of bytes, or the two words of an echo. -/
def response_length : Request → Nat
  | .read .COIL _ count | .read .DISCRETE_INPUT _ count => 2 + (count + 7) / 8
  | .read .HOLDING_REGISTER _ count | .read .INPUT_REGISTER _ count => 2 + 2 * count
  | .write_coils _ _ | .write_registers _ _ => 5

/-- The response is an exception, or as long as the request asks for. -/
inductive Fits (pdu : Bytes) : Bytes → Prop
  | exception (code : UInt8) : Fits pdu (exception_pdu (pdu.headD 0) code)
  | normal {r : Request} {echo response : Bytes} (carried : Carries pdu r echo)
      (length_eq : response.length = response_length r) : Fits pdu response

theorem response_length_le {pdu echo : Bytes} {r : Request} (h : Carries pdu r echo) :
    response_length r ≤ 252 := by
  cases h with
  | read area start count h0 h1 =>
    cases area <;> simp only [response_length, read_code_limit] at h1 ⊢ <;> omega
  | _ => simp [response_length]

theorem Fits.length_le {pdu response : Bytes} (h : Fits pdu response) :
    response.length ≤ 252 := by
  cases h with
  | exception code => simp [exception_pdu]
  | normal carried length_eq =>
    rw [length_eq]
    exact response_length_le carried

/-! ## One response -/

/-- The values of `on_read`, when they can be gone through, are as many as `len` says. -/
def Truthful (values : Values) : Prop :=
  ∀ n, values.len = .ok n → values.stop = none → values.elements.length = n

section

variable {σ : Type} {callbacks : Callbacks σ}

/-- What `on_read` returns tells its length. -/
def ReadsTruthfully (callbacks : Callbacks σ) : Prop :=
  ∀ area start count s values, (callbacks.on_read area start count s).1 = .ok values →
    Truthful values

/-- Lists of numbers and bools tell their length. -/
theorem readsTruthfully_callbacks (program : server.Server σ) :
    ReadsTruthfully program.callbacks := by
  intro area start count s values hvalues
  simp only [server.Server.callbacks, bind] at hvalues
  rcases hcells : program.on_read area start count s with ⟨e | cells, s'⟩
  · rw [hcells] at hvalues
    cases hvalues
  · rw [hcells] at hvalues
    cases hvalues
    intro n hlen _
    cases hlen
    exact List.length_map _

theorem length_converted {α : Type} {f : Element → Except PyError α} {values : Values}
    {count : Nat} {out : List α} (htruthful : Truthful values)
    (h : (do check_len values count
             let out ← values.elements.mapM f
             values.stopped
             pure out) = .ok out) : out.length = count := by
  obtain ⟨u, hcheck, h⟩ := Fallible.bind_eq_ok.mp h
  obtain ⟨out', hmap, h⟩ := Fallible.bind_eq_ok.mp h
  obtain ⟨u', hstopped, h⟩ := Fallible.bind_eq_ok.mp h
  obtain rfl := Fallible.pure_eq_ok.mp h
  have hstop : values.stop = none := by
    unfold Values.stopped at hstopped
    cases hs : values.stop with
    | none => rfl
    | some e =>
      rw [hs] at hstopped
      cases hstopped
  obtain ⟨n, hlen, hcheck⟩ := Fallible.bind_eq_ok.mp hcheck
  have hcount : n = count := by
    by_contra hne
    rw [if_pos (by omega)] at hcheck
    cases hcheck
  rw [← (Slices.forall₂_of_mapM_ok hmap).length_eq, htruthful n hlen hstop, hcount]

theorem length_response_bits {fc : UInt8} {values : List Bool} {resp : Bytes}
    (h : encode_response_bits fc values = .ok resp) :
    resp.length = 2 + (values.length + 7) / 8 := by
  obtain ⟨n, -, h⟩ := Fallible.bind_eq_ok.mp h
  obtain rfl := Fallible.pure_eq_ok.mp h
  simp only [List.length_cons, BitStrings.length_pack]
  omega

theorem to_two_bytes_length {v : Int} {w : Bytes} (h : to_two_bytes v = .ok w) : w.length = 2 := by
  unfold to_two_bytes at h
  split_ifs at h with hneg hbig
  obtain rfl := Fallible.pure_eq_ok.mp h
  exact length_register_bytes v

theorem length_two_bytes {values : List Int} {words : List Bytes}
    (h : List.Forall₂ (fun v w => to_two_bytes v = .ok w) values words) :
    words.flatten.length = 2 * values.length := by
  induction h with
  | nil => rfl
  | cons hv _ ih =>
    have hw := to_two_bytes_length hv
    rw [List.flatten_cons, List.length_append, ih, hw, List.length_cons]
    omega

theorem length_response_registers {fc : UInt8} {values : List Int} {resp : Bytes}
    (h : encode_response_registers fc values = .ok resp) : resp.length = 2 + 2 * values.length := by
  obtain ⟨data, hdata, h⟩ := Fallible.bind_eq_ok.mp h
  obtain ⟨n, -, h⟩ := Fallible.bind_eq_ok.mp h
  obtain rfl := Fallible.pure_eq_ok.mp h
  have hbody := length_two_bytes (Slices.forall₂_of_mapM_ok hdata)
  simp only [List.length_cons, hbody]
  omega

theorem length_answer_read {area : Area} {start : Int} {values : Values} {count : Nat}
    {resp : Bytes} (htruthful : Truthful values) (h : answer_read area values count = .ok resp) :
    resp.length = response_length (.read area start count) := by
  have hbits : ∀ fc : UInt8,
      (values_to_bool_list values count >>= encode_response_bits fc) = .ok resp →
        resp.length = 2 + (count + 7) / 8 := by
    intro fc hresp
    obtain ⟨bits, hconvert, hencode⟩ := Fallible.bind_eq_ok.mp hresp
    rw [length_response_bits hencode, length_converted htruthful hconvert]
  have hregisters : ∀ fc : UInt8,
      (values_to_int_list values count >>= encode_response_registers fc) = .ok resp →
        resp.length = 2 + 2 * count := by
    intro fc hresp
    obtain ⟨regs, hconvert, hencode⟩ := Fallible.bind_eq_ok.mp hresp
    rw [length_response_registers hencode, length_converted htruthful hconvert]
  cases area with
  | COIL => exact hbits FC_READ_COILS h
  | DISCRETE_INPUT => exact hbits FC_READ_DISCRETE_INPUTS h
  | HOLDING_REGISTER => exact hregisters FC_READ_HOLDING_REGISTERS h
  | INPUT_REGISTER => exact hregisters FC_READ_INPUT_REGISTERS h

/-- A request that is performed is answered in its length. -/
theorem length_perform (hreads : ReadsTruthfully callbacks) {pdu echo resp : Bytes} {r : Request}
    (hcarried : Carries pdu r echo) {s s' : σ} (h : perform callbacks echo r s = (.ok resp, s')) :
    resp.length = response_length r := by
  cases r with
  | read area start count =>
    obtain ⟨values, t, hvalues, hanswer⟩ := Py.bind_eq_ok h
    have htruthful := hreads area start count s values (by rw [hvalues])
    exact length_answer_read htruthful (congrArg Prod.fst hanswer)
  | write_coils start values =>
    obtain ⟨u, t, -, hecho⟩ := Py.bind_eq_ok h
    cases hecho
    exact length_echo hcarried
  | write_registers start values =>
    obtain ⟨u, t, -, hecho⟩ := Py.bind_eq_ok h
    cases hecho
    exact length_echo' hcarried

/-- What `_dispatch` answers fits its request. -/
theorem dispatch_fits (hreads : ReadsTruthfully callbacks) {uid : Int} {pdu resp : Bytes}
    {s s' : σ} (h : dispatch_callbacks callbacks uid pdu s = (.ok resp, s')) : Fits pdu resp := by
  have htreats := dispatch_treats callbacks uid pdu
  generalize dispatch_callbacks callbacks uid pdu = dispatched at h htreats
  cases htreats with
  | carried hunit hfc hshape =>
    rename_i fc rest echo r
    rcases hperform : perform callbacks echo r s with ⟨e | resp', t⟩
    · by_cases hanswer : Answerable e
      · rw [planner.except_dispatch_raised hperform hanswer] at h
        cases h
        exact .exception _
      · obtain ⟨e', he'⟩ := @except_dispatch_unanswerable fc e hanswer
        simp only [Py.except_with, hperform, he'] at h
        cases h
    · rw [planner.except_with_ok hperform] at h
      cases h
      exact .normal hshape (length_perform hreads hshape hperform)
  | _ =>
    cases h
    exact .exception _

/-! ## All connections -/

/-- The frame answers the request, with its ids, and fits it. -/
def FrameFits (request : Nat × Nat × Bytes) (frame : Bytes) : Prop :=
  ∃ response, decode_mbap_frame frame = .ok (request.1, request.2.1, response) ∧
    frame.length = 7 + response.length ∧ Fits request.2.2 response

/-- A request that is served gets one frame, or ends the connection. -/
theorem serve_request_fits (hreads : ReadsTruthfully callbacks) {request : Nat × Nat × Bytes}
    {s : σ} {written : List Bytes} {r : Except PyError Unit} {t : σ × List Bytes}
    (h : serve_request callbacks request.1 request.2.1 request.2.2 (s, written) = (r, t)) :
    (r = .ok () → ∃ frame, t.2 = written ++ [frame] ∧ FrameFits request frame) ∧
      (r ≠ .ok () → t.2 = written) := by
  unfold serve_request at h
  rcases hdispatch : dispatch_callbacks callbacks request.2.1 request.2.2 s with ⟨e | resp, s'⟩
  · simp only [hdispatch] at h
    cases h
    refine ⟨fun hok => ?_, fun _ => rfl⟩
    cases hok
  · simp only [hdispatch] at h
    cases hencode : encode_mbap_frame request.1 request.2.1 resp with
    | error e =>
      simp only [hencode] at h
      cases h
      refine ⟨fun hok => ?_, fun _ => rfl⟩
      cases hok
    | ok frame =>
      simp only [hencode] at h
      cases h
      refine ⟨fun _ => ⟨frame, rfl, resp, ?_, ?_, dispatch_fits hreads hdispatch⟩,
        fun hne => absurd rfl hne⟩
      · simpa using decode_encode_mbap_frame hencode
      · obtain ⟨_, _, -, -, -, -, -, -, rfl⟩ := encode_mbap_frame_eq hencode
        simp

/-- Behind the requests that were served on it, a handler that has written one frame for each of
them, but perhaps for the last one, which then has ended it. -/
def WrittenFor (requests : List (Nat × Nat × Bytes)) (x : Handler) : Prop :=
  ∃ answered rest, requests = answered ++ rest ∧ List.Forall₂ FrameFits answered x.written ∧
    rest.length ≤ 1 ∧ (x.place ≠ .ended → rest = [])

variable {requests : List (Nat × Nat × Bytes)} {x y : Handler} {s t : Server σ} {e : Event}

theorem WrittenFor.turn (hx : WrittenFor requests x) (hwritten : y.written = x.written)
    (hended : y.place ≠ .ended → x.place ≠ .ended) : WrittenFor requests y := by
  obtain ⟨answered, rest, hrequests, hall, hlen, hrest⟩ := hx
  refine ⟨answered, rest, hrequests, ?_, hlen, fun hy => hrest (hended hy)⟩
  rw [hwritten]
  exact hall

/-- A turn at a frame writes the frame for its request, or ends the handler. -/
theorem written_handle_frame (hreads : ReadsTruthfully callbacks) {h : Nat} {f : Frame}
    (hplace : (s.handlers h).place ≠ .ended) (hs : WrittenFor requests (s.handlers h)) :
    WrittenFor (requests ++ f.request.toList)
      ((s.handle_frame callbacks h f.bytes).handlers h) := by
  cases hf : f.request with
  | none =>
    rw [handle_frame_none h hf, Option.toList_none, List.append_nil]
    exact hs.turn (by simp [Server.move]) fun _ => hplace
  | some request =>
    obtain ⟨answered, rest, rfl, hall, -, hrest⟩ := hs
    obtain rfl := hrest hplace
    have hdecode := (decode_frame f).1 request.1 request.2.1 request.2.2 hf
    rcases hserve : serve_request callbacks request.1 request.2.1 request.2.2
      (s.state, (s.handlers h).written) with ⟨r, state, written⟩
    obtain ⟨hok, herror⟩ := serve_request_fits hreads hserve
    unfold Server.handle_frame
    simp only [hdecode, hserve]
    cases r with
    | ok u =>
      obtain ⟨frame, rfl, hfits⟩ := hok rfl
      refine ⟨answered ++ [request], [], by simp, ?_, by simp, fun _ => rfl⟩
      simpa using List.rel_append hall (.cons hfits .nil)
    | error e =>
      obtain rfl := herror (by simp)
      refine ⟨answered, [request], by simp, ?_, by simp, fun hlive => ?_⟩
      · simpa [Server.finish] using hall
      · simp [Server.finish] at hlive

/-- A turn that is not at a frame writes nothing. -/
theorem Turn.writes_nothing (h : Turn callbacks s e t)
    (habsent : (s.handlers s.accepted).place = .absent) (hrest : ∀ k, e ≠ .rest_read k) :
    (t.handlers (e.handler s)).written = (s.handlers (e.handler s)).written ∧
      ((t.handlers (e.handler s)).place ≠ .ended → (s.handlers (e.handler s)).place ≠ .ended) := by
  cases h with
  | rest_read => exact absurd rfl (hrest _)
  | accepted => simp [Event.handler, Server.move, Server.with_handler, habsent]
  | arrived hlt => simp [Event.handler]
  | raised hserving => simp [Event.handler, Server.finish]
  | taken_in hplace _ | turned_away hplace _ | closed hplace | header_read hplace _ _
    | drained hplace =>
    simp [Event.handler, Server.take_in, Server.reject, Server.move, Server.with_handler, hplace]

/-- The handler whose turn it is. -/
theorem Turn.written_for (hreads : ReadsTruthfully callbacks) (h : Turn callbacks s e t)
    (habsent : (s.handlers s.accepted).place = .absent)
    (hs : WrittenFor requests (s.handlers (e.handler s))) :
    WrittenFor (requests ++ requests_of (e.handler s) (served s e).toList)
      (t.handlers (e.handler s)) := by
  by_cases hrest : ∀ k, e ≠ .rest_read k
  · obtain ⟨hwritten, hended⟩ := h.writes_nothing habsent hrest
    have hnone : served s e = none := by
      cases h with
      | rest_read => exact absurd rfl (hrest _)
      | _ => rfl
    rw [hnone, Option.toList_none, requests_of_nil, List.append_nil]
    exact hs.turn hwritten hended
  · cases h with
    | rest_read hplace hframe hserved =>
      rename_i h header behind f
      have hrequest : requests_of h (served s (.rest_read h)).toList = f.request.toList := by
        rw [hserved]
        cases f.request <;> simp [requests_of]
      have hread : WrittenFor requests ((s.with_handler h
          { s.handlers h with unread := behind }).handlers h) := by
        rw [handlers_with_handler]
        exact hs.turn rfl id
      simp only [Event.handler]
      rw [hrequest]
      exact written_handle_frame hreads (by simp [hplace]) hread
    | _ => exact absurd (by simp) hrest

/-- In every run of the server, for any callbacks that answer without awaiting and tell the lengths
of what they return: every connection has one frame for each request that was served on it, in their
order, and only a request that ended its connection has none. A frame has the ids of its request and is as long as
that asks for, at most 259 bytes. -/
theorem every_frame_fits_its_request (hreads : ReadsTruthfully callbacks) (max_connections : Nat)
    (state : σ) (es : List Event) (s : Server σ)
    (hrun : run (step callbacks) (.new max_connections state) es = some s) (h : Nat) :
    WrittenFor (requests_of h (log callbacks (.new max_connections state) es)) (s.handlers h) ∧
      ∀ frame ∈ (s.handlers h).written, frame.length ≤ 259 := by
  have hwritten : WrittenFor (requests_of h (log callbacks (.new max_connections state) es))
      (s.handlers h) := by
    refine invariant_history (i := fun es (s : Server σ) =>
      WrittenFor (requests_of h (log callbacks (.new max_connections state) es))
        (s.handlers h)) ?_ ?_ hrun
    · exact ⟨[], [], rfl, .nil, by simp, fun _ => rfl⟩
    · intro es u e t hu hwritten he
      have hlog := oneLog_run hu
      have hturn := turn_of_step (fun k => (hlog.in_order k).header) he
      have hconcat : log callbacks (.new max_connections state) (es ++ [e]) =
          log callbacks (.new max_connections state) es ++ (served u e).toList :=
        emitted_concat hu he
      rw [hconcat, requests_of_append]
      by_cases hown : h = e.handler u
      · subst hown
        exact hturn.written_for hreads (hlog.absent _ le_rfl) hwritten
      · obtain ⟨hsame, -, hserved⟩ := hturn.others hown
        rw [hsame, hserved, List.append_nil]
        exact hwritten
  refine ⟨hwritten, ?_⟩
  obtain ⟨answered, rest, -, hall, -, -⟩ := hwritten
  refine forall₂_right hall fun request frame hfits => ?_
  obtain ⟨response, -, hlen, hfits⟩ := hfits
  have hmost := hfits.length_le
  omega

/-- The frames of two clients that write the same register, to a server over a store. -/
theorem an_echo_fits_its_request : ∃ s,
    run (step (sim_server none false).callbacks) (.new 2 empty_state) two_clients = some s ∧
      WrittenFor [(1, 1, [6, 0, 5, 0, 9])] (s.handlers 0) ∧
      ∀ frame ∈ (s.handlers 0).written, frame.length ≤ 259 :=
  ⟨_, rfl, every_frame_fits_its_request (readsTruthfully_callbacks (sim_server none false)) 2
    empty_state two_clients _ rfl 0⟩

end

end pymod.serving
