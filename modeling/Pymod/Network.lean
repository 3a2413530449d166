-- Any number of `TcpTransport`s and one `Server`: the bytes that a client writes reach the handler
-- of its connection in order and in pieces, and the frames of the handler are what its peer sends.
import Pymod.ServeConnections
import Pymod.TcpRequests
import Pymod.TcpReplies

namespace pymod.network

open errors codec pdu types data_model adu_tcp server serve Function Runs
open tcp (TcpTransport)

/-! ## The network -/

/-- `far_ends` has the client of a connection of the server and the number that it has there,
`delivered` the number of its bytes that have arrived. The log has the call, with its client, whose
frame was served, for each frame. -/
structure Network (σ : Type) where
  clients : Nat → TcpTransport
  server : serving.Server σ
  far_ends : Nat → Option (Nat × Nat) := fun _ => none
  delivered : Nat → Nat := fun _ => 0
  log : List (Nat × Nat) := []

section

variable {σ : Type}

namespace Network

/-- Clients that have not connected yet, and a server that has been started. -/
def new (host : String) (port : Int) (connect_timeout_s : String) (pipeline : Nat → Bool)
    (max_connections : Nat) (state : σ) : Network σ where
  clients := fun i => .new host port (pipeline i) connect_timeout_s
  server := .new max_connections state

variable (callbacks : Callbacks σ) (s : Network σ)

/-- The call that the pair is about. -/
def call (p : Nat × Nat) : tcp.Call := (s.clients p.1).calls p.2

/-- What the call asks the server. -/
def asked (p : Nat × Nat) : Int × Bytes := ((s.call p).unit_id, (s.call p).pdu)

def with_client (i : Nat) (client : TcpTransport) : Network σ :=
  { s with clients := update s.clients i client }

/-- The server accepts the connection `g` of the client. -/
def accept (i g : Nat) : Option (Network σ) :=
  if ∀ h < s.server.accepted, s.far_ends h ≠ some (i, g) then
    (serving.step callbacks s.server .accept).map fun server =>
      { s with server, far_ends := update s.far_ends s.server.accepted (some (i, g)) }
  else
    none

/-- The next bytes that the client has written arrive at the server, at most `n` of them. -/
def deliver (h n : Nat) : Option (Network σ) := do
  let (i, g) ← s.far_ends h
  let data := (((s.clients i).conns g).sent.flatten.drop (s.delivered h)).take n
  let server ← serving.step callbacks s.server (.arrived h data)
  some { s with server, delivered := update s.delivered h (s.delivered h + data.length) }

/-- The handler serves the frame of a call, and what it writes goes to the client. Which one of calls
with the same frame it is on this connection is a choice of the run, among those whose frames were
not served before; `Matched.serves` says that there is always one. -/
def serve (h c : Nat) : Option (Network σ) := do
  let (i, g) ← s.far_ends h
  let (_, tid, uid, pdu) ← serving.served s.server (.rest_read h)
  let server ← serving.step callbacks s.server (.rest_read h)
  let call := s.call (i, c)
  if call.conn = some g ∧ call.tid = some tid ∧ call.unit_id = uid ∧ call.pdu = pdu ∧
      (i, c) ∉ s.log then
    let next := { s with server, log := s.log ++ [(i, c)] }
    match (server.handlers h).written.drop (s.server.handlers h).written.length with
    | [frame] =>
      match decode_mbap_frame frame with
      | .ok (_, uid, resp) =>
        (tcp.step (s.clients i) (.peer_replied c uid resp)).map (next.with_client i)
      | .error _ => none
    | _ => some next
  else
    none

end Network

/-! ## The steps -/

/-- One step of a client, of a handler of the server, or of the network between them. -/
inductive Event
  | client (i : Nat) (e : tcp.Event)
  | accepted (i g : Nat)
  | delivered (h n : Nat)
  | handler (e : serving.Event)
  | served (h c : Nat)
  deriving DecidableEq, Repr

/-- The steps of a client and its connections that its peers have no part in. -/
def of_client : tcp.Event → Bool
  | .peer_replied _ _ _ | .peer_sent _ _ => false
  | _ => true

/-- The steps of a handler that serve no request. -/
def of_handler (s : serving.Server σ) : serving.Event → Bool
  | .accept | .arrived _ _ => false
  | e => (serving.served s e).isNone

def step (callbacks : Callbacks σ) (s : Network σ) : Event → Option (Network σ)
  | .client i e =>
    if of_client e then (tcp.step (s.clients i) e).map (s.with_client i) else none
  | .accepted i g => s.accept callbacks i g
  | .delivered h n => s.deliver callbacks h n
  | .handler e =>
    if of_handler s.server e then
      (serving.step callbacks s.server e).map fun server => { s with server }
    else
      none
  | .served h c => s.serve callbacks h c

/-- A client reads a reply less than one round of its id counter after it has asked for it. -/
def InTime (s : Network σ) : Event → Prop
  | .client i e => tcp.InTime (s.clients i) e
  | _ => True

instance (s : Network σ) : DecidablePred (InTime s)
  | .client i e => inferInstanceAs (Decidable (tcp.InTime (s.clients i) e))
  | .accepted _ _ | .delivered _ _ | .handler _ | .served _ _ => isTrue trivial

/-- What a server makes of requests that come one after the other. -/
def outcomes (callbacks : Callbacks σ) : σ → List (Int × Bytes) → σ × List (Except PyError Bytes)
  | state, [] => (state, [])
  | state, (uid, pdu) :: requests =>
    let (outcome, state) := dispatch_callbacks callbacks uid pdu state
    let (state, rest) := outcomes callbacks state requests
    (state, outcome :: rest)

/-! ## Outcomes -/

variable {callbacks : Callbacks σ}

/-- One more request. -/
theorem outcomes_concat {state after : σ} {requests : List (Int × Bytes)}
    {results : List (Except PyError Bytes)}
    (h : outcomes callbacks state requests = (after, results)) (uid : Int) (pdu : Bytes) :
    outcomes callbacks state (requests ++ [(uid, pdu)]) =
      ((dispatch_callbacks callbacks uid pdu after).2,
        results ++ [(dispatch_callbacks callbacks uid pdu after).1]) := by
  induction requests generalizing state results with
  | nil =>
    cases h
    rfl
  | cons request requests ih =>
    obtain ⟨uid', pdu'⟩ := request
    simp only [outcomes, Prod.mk.injEq] at h
    obtain ⟨hafter, rfl⟩ := h
    have hrest := ih (Prod.ext hafter rfl)
    simp only [List.cons_append, outcomes, hrest]

theorem length_outcomes {state after : σ} {requests : List (Int × Bytes)}
    {results : List (Except PyError Bytes)}
    (h : outcomes callbacks state requests = (after, results)) :
    results.length = requests.length := by
  induction requests generalizing state results with
  | nil =>
    cases h
    rfl
  | cons request requests ih =>
    obtain ⟨uid', pdu'⟩ := request
    simp only [outcomes, Prod.mk.injEq] at h
    obtain ⟨hafter, rfl⟩ := h
    simp [ih (Prod.ext hafter rfl)]

/-! ## What a turn of the handler hands over -/

section

variable {s t : serving.Server σ} {h : Nat} {tid uid : Nat} {pdu : Bytes}

/-- The handler that serves a request gives it to the callbacks, and writes the frame of their
response or nothing. -/
theorem rest_read_serves
    (hheaders : ∀ h header, (s.handlers h).place = .reading_rest header →
      header.length = MBAP_MIN_PEEK_BYTES)
    (hserved : serving.served s (.rest_read h) = some (h, tid, uid, pdu))
    (hstep : serving.step callbacks s (.rest_read h) = some t) :
    t.state = (dispatch_callbacks callbacks uid pdu s.state).2 ∧
      ∃ frames, (t.handlers h).written = (s.handlers h).written ++ frames ∧
        (frames = [] ∨ ∃ frame resp, frames = [frame] ∧
          decode_mbap_frame frame = .ok (tid, uid, resp) ∧
          (dispatch_callbacks callbacks uid pdu s.state).1 = .ok resp) := by
  have heffects := (serving.turn_of_step hheaders hstep).effects
  rw [hserved] at heffects
  obtain ⟨hstate, hwritten⟩ := Prod.mk.inj heffects
  have hframes := congrFun hwritten h
  simp only [serving.effects, update_self] at hframes
  simp only [serving.effects] at hstate
  unfold serve_request at hstate hframes
  rcases hdispatch : dispatch_callbacks callbacks uid pdu s.state with ⟨e | resp, state⟩
  · simp only [hdispatch] at hstate hframes
    exact ⟨hstate, [], by rw [hframes, List.append_nil], Or.inl rfl⟩
  · simp only [hdispatch] at hstate hframes
    cases hencode : encode_mbap_frame tid uid resp with
    | error e =>
      simp only [hencode] at hstate hframes
      exact ⟨hstate, [], by rw [hframes, List.append_nil], Or.inl rfl⟩
    | ok frame =>
      simp only [hencode] at hstate hframes
      refine ⟨hstate, [frame], hframes, Or.inr ⟨frame, resp, rfl, ?_, rfl⟩⟩
      simpa using decode_encode_mbap_frame hencode

/-- A step that serves no request keeps the state of the callbacks. -/
theorem state_of_step {e : serving.Event}
    (hheaders : ∀ h header, (s.handlers h).place = .reading_rest header →
      header.length = MBAP_MIN_PEEK_BYTES)
    (hserved : serving.served s e = none) (hstep : serving.step callbacks s e = some t) :
    t.state = s.state := by
  have heffects := (serving.turn_of_step hheaders hstep).effects
  rw [hserved] at heffects
  exact congrArg Prod.fst heffects

/-- The headers that the handlers hold keep their length. -/
theorem headers_of_step {e : serving.Event}
    (hheaders : ∀ h header, (s.handlers h).place = .reading_rest header →
      header.length = MBAP_MIN_PEEK_BYTES)
    (hstep : serving.step callbacks s e = some t) (k : Nat) (header : Bytes)
    (hk : (t.handlers k).place = .reading_rest header) : header.length = MBAP_MIN_PEEK_BYTES := by
  have hturn := serving.turn_of_step hheaders hstep
  by_cases hown : k = e.handler s
  · subst hown
    cases hturn with
    | arrived hlt => exact hheaders _ header (by simpa [serving.Event.handler] using hk)
    | header_read hplace hlen hunread =>
      simp only [serving.Event.handler, serving.handlers_with_handler,
        serving.Place.reading_rest.injEq] at hk
      exact hk ▸ hlen
    | rest_read hplace hframe hserved =>
      rename_i h header' behind f
      obtain ⟨-, hnext⟩ := serving.handle_frame_own callbacks
        (s.with_handler h { s.handlers h with unread := behind }) h f
      simp only [serving.Event.handler] at hk
      simp [hk] at hnext
    | _ =>
      simp [serving.Event.handler, serving.Server.take_in, serving.Server.reject,
        serving.Server.finish, serving.Server.move, serving.Server.with_handler] at hk
  · rw [(hturn.others hown).1] at hk
    exact hheaders k header hk

end

/-! ## One session for all clients -/

/-- The clients and the server keep their own invariants, and the log is the session of the server
up to here: a call that was answered has its outcome in it. -/
structure Linked (callbacks : Callbacks σ) (state : σ) (s : Network σ) : Prop where
  sound : ∀ i, tcp.Tidy (s.clients i) ∧ tcp.Accounts (s.clients i) ∧ tcp.Answers (s.clients i)
  headers : ∀ h header, (s.server.handlers h).place = .reading_rest header →
    header.length = MBAP_MIN_PEEK_BYTES
  session : ∃ results : List (Except PyError Bytes),
    outcomes callbacks state (s.log.map s.asked) = (s.server.state, results) ∧
    ∀ p resp, (s.call p).answer = some resp →
      ∃ k : Nat, s.log[k]? = some p ∧ results[k]? = some (.ok resp)
  written : ∀ p ∈ s.log, (s.call p).conn ≠ none
  nodup : s.log.Nodup

section

variable {state : σ} {s t : Network σ}

/-- A step that serves no request. -/
theorem Linked.keep (hs : Linked callbacks state s)
    (hsound : ∀ i, tcp.Tidy (t.clients i) ∧ tcp.Accounts (t.clients i) ∧ tcp.Answers (t.clients i))
    (hheaders : ∀ h header, (t.server.handlers h).place = .reading_rest header →
      header.length = MBAP_MIN_PEEK_BYTES)
    (hstate : t.server.state = s.server.state) (hlog : t.log = s.log)
    (hcarried : ∀ p ∈ s.log, tcp.Carried (s.call p) (t.call p))
    (hanswer : ∀ p resp, (t.call p).answer = some resp → (s.call p).answer = some resp) :
    Linked callbacks state t := by
  obtain ⟨results, houtcomes, hall⟩ := hs.session
  refine ⟨hsound, hheaders, ⟨results, ?_, fun p resp hp => ?_⟩, ?_, hlog ▸ hs.nodup⟩
  · rw [hlog, hstate, ← houtcomes]
    congr 1
    refine List.map_congr_left fun p hp => ?_
    simp only [Network.asked, (hcarried p hp).unit_id, (hcarried p hp).pdu]
  · rw [hlog]
    exact hall p resp (hanswer p resp hp)
  · rw [hlog]
    exact fun p hp => (hcarried p hp).written (hs.written p hp)

/-- A step that serves the frame of a call. -/
theorem Linked.serve (hs : Linked callbacks state s) {q : Nat × Nat}
    (hsound : ∀ i, tcp.Tidy (t.clients i) ∧ tcp.Accounts (t.clients i) ∧ tcp.Answers (t.clients i))
    (hheaders : ∀ h header, (t.server.handlers h).place = .reading_rest header →
      header.length = MBAP_MIN_PEEK_BYTES)
    (hstate : t.server.state =
      (dispatch_callbacks callbacks (s.asked q).1 (s.asked q).2 s.server.state).2)
    (hlog : t.log = s.log ++ [q]) (hnew : q ∉ s.log) (hconn : (s.call q).conn ≠ none)
    (hcalls : ∀ p, (t.call p).conn = (s.call p).conn ∧ t.asked p = s.asked p)
    (hanswer : ∀ p resp, (t.call p).answer = some resp → (s.call p).answer = some resp ∨
      p = q ∧ (dispatch_callbacks callbacks (s.asked q).1 (s.asked q).2 s.server.state).1 = .ok resp) :
    Linked callbacks state t := by
  obtain ⟨results, houtcomes, hall⟩ := hs.session
  have hlen := length_outcomes houtcomes
  rw [List.length_map] at hlen
  have hasked : t.log.map t.asked = s.log.map s.asked ++ [s.asked q] := by
    rw [hlog, List.map_append, List.map_singleton, (hcalls q).2]
    congr 1
    exact List.map_congr_left fun p _ => (hcalls p).2
  refine ⟨hsound, hheaders, ⟨results ++
      [(dispatch_callbacks callbacks (s.asked q).1 (s.asked q).2 s.server.state).1], ?_,
    fun p resp hp => ?_⟩, ?_, ?_⟩
  · rw [hasked, hstate]
    exact outcomes_concat houtcomes (s.asked q).1 (s.asked q).2
  · rcases hanswer p resp hp with hbefore | ⟨rfl, hok⟩
    · obtain ⟨k, hk, hresult⟩ := hall p resp hbefore
      refine ⟨k, ?_, ?_⟩
      · rw [hlog, List.getElem?_append_left (List.getElem?_eq_some_iff.mp hk).1]
        exact hk
      · rw [List.getElem?_append_left (List.getElem?_eq_some_iff.mp hresult).1]
        exact hresult
    · refine ⟨s.log.length, by simp [hlog], ?_⟩
      rw [← hlen, List.getElem?_concat_length, hok]
  · rw [hlog]
    intro p hp
    rw [(hcalls p).1]
    rcases List.mem_append.mp hp with hp | hp
    · exact hs.written p hp
    · rw [List.mem_singleton.mp hp]
      exact hconn
  · rw [hlog, List.nodup_append]
    refine ⟨hs.nodup, List.nodup_singleton q, fun p hp p' hp' heq => ?_⟩
    rw [List.mem_singleton] at hp'
    exact hnew (hp' ▸ heq ▸ hp)

/-- A call that starts was absent. -/
theorem absent_of_starts {client client' : TcpTransport} {e : tcp.Event} {c : Nat}
    (he : tcp.step client e = some client') (hc : e.starts = some c) :
    (client.calls c).place = .absent := by
  cases e with
  | start_connect d | start_send d _ _ _ | start_close d =>
    cases hc
    exact (Option.ite_none_right_eq_some.mp he).1
  | _ => cases hc

/-- A client answers no call by itself. -/
theorem answer_of_client {client client' : TcpTransport} {e : tcp.Event}
    (hof : of_client e = true) (he : tcp.step client e = some client') {c : Nat} {resp : Bytes}
    (hc : (client'.calls c).answer = some resp) : (client.calls c).answer = some resp := by
  by_cases hstart : e.starts = some c
  · obtain ⟨call, hcarries, hnone, -⟩ := tcp.start_carries he hstart
    have hnew := (hcarries c).answer
    simp only [TcpTransport.set_call, update_self, hnone] at hnew
    rw [hnew] at hc
    cases hc
  · have hanswers : e.answers ≠ some c := by
      cases e with
      | peer_replied d unit_id pdu => cases hof
      | _ => rintro ⟨⟩
    rwa [(tcp.step_carries he hstart hanswers).answer] at hc

/-- A step of a client. -/
theorem Linked.client (hs : Linked callbacks state s) {i : Nat} {e : tcp.Event}
    {client : TcpTransport} (hof : of_client e = true) (he : tcp.step (s.clients i) e = some client)
    (htime : tcp.InTime (s.clients i) e) : Linked callbacks state (s.with_client i client) := by
  have hreplies : e.only_replies = true ∧ e.answers = none := by
    cases e <;> first | exact ⟨rfl, rfl⟩ | cases hof
  have hsound := tcp.answers_step (hs.sound i) ⟨hreplies.1, htime⟩ he
  have hcall : ∀ p, (s.with_client i client).call p = if p.1 = i then client.calls p.2 else s.call p := by
    intro p
    by_cases hp : p.1 = i <;> simp [Network.call, Network.with_client, hp]
  have hcarried : ∀ c, e.starts ≠ some c → tcp.Carried ((s.clients i).calls c) (client.calls c) :=
    fun c hc => tcp.step_carries he hc (by simp [hreplies.2])
  refine hs.keep (fun j => ?_) hs.headers rfl rfl ?_ ?_
  · by_cases hj : j = i
    · subst hj
      simpa [Network.with_client] using hsound
    · simpa [Network.with_client, hj] using hs.sound j
  · rintro ⟨j, c⟩ hp
    rw [hcall]
    by_cases hj : j = i
    · subst hj
      rw [if_pos rfl]
      refine hcarried c fun hstart => hs.written _ hp ?_
      have hidle : tcp.Idle ((s.clients j).calls c).place := by
        rw [absent_of_starts he hstart]
        trivial
      exact ((hs.sound j).2.1.idle c hidle).2.1
    · rw [if_neg hj]
      exact .refl _
  · rintro ⟨j, c⟩ resp hp
    rw [hcall] at hp
    by_cases hj : j = i
    · subst hj
      rw [if_pos rfl] at hp
      exact answer_of_client hof he hp
    · rw [if_neg hj] at hp
      exact hp

/-- A step of the server that serves no request. -/
theorem Linked.handler (hs : Linked callbacks state s) {e : serving.Event}
    {server : serving.Server σ} (hserved : serving.served s.server e = none)
    (he : serving.step callbacks s.server e = some server)
    (hclients : t.clients = s.clients) (hserver : t.server = server) (hlog : t.log = s.log) :
    Linked callbacks state t := by
  subst hserver
  have hcall : ∀ p, t.call p = s.call p := fun p => by simp only [Network.call, hclients]
  refine hs.keep ?_ (headers_of_step hs.headers he) (state_of_step hs.headers hserved he) hlog ?_ ?_
  · rw [hclients]
    exact hs.sound
  · intro p _
    rw [hcall]
    exact .refl _
  · intro p resp hp
    rwa [hcall] at hp

theorem served_handler {server : serving.Server σ} {h : Nat} {entry : serving.Entry}
    (hserved : serving.served server (.rest_read h) = some entry) : entry.1 = h := by
  simp only [serving.served] at hserved
  split at hserved
  · split at hserved
    · split at hserved
      · cases hserved
        rfl
      · cases hserved
    · cases hserved
  · cases hserved

/-- The server serves the frame of a call. -/
theorem Linked.served (hs : Linked callbacks state s) {h c : Nat}
    (ht : s.serve callbacks h c = some t) : Linked callbacks state t := by
  simp only [Network.serve, Option.bind_eq_bind, Option.bind_eq_some_iff] at ht
  obtain ⟨⟨i, g⟩, -, ⟨h', tid, uid, pdu⟩, hserved, server, hstep, ht⟩ := ht
  obtain rfl : h' = h := served_handler hserved
  obtain ⟨hstate, frames, hwritten, hframes⟩ := rest_read_serves hs.headers hserved hstep
  have hheaders := headers_of_step hs.headers hstep
  split at ht
  · rename_i hown
    obtain ⟨hconn, htid, hunit, hpdu, hnew⟩ := hown
    have hasked : s.asked (i, c) = ((uid : Int), pdu) := by
      simp only [Network.asked, hunit, hpdu]
    have hconn' : (s.call (i, c)).conn ≠ none := by simp [hconn]
    rw [hwritten, List.drop_left] at ht
    rcases hframes with rfl | ⟨frame, resp, rfl, hdecode, hok⟩
    · cases ht
      refine hs.serve (q := (i, c)) hs.sound hheaders (by rw [hasked]; exact hstate) rfl hnew hconn'
        (fun p => ⟨rfl, rfl⟩) (fun p resp hp => Or.inl hp)
    · simp only [hdecode, Option.map_eq_some_iff] at ht
      obtain ⟨client, hreply, rfl⟩ := ht
      have hsound := tcp.answers_step (hs.sound i) ⟨rfl, fun g hg => by cases hg⟩ hreply
      obtain ⟨g', tid', frame', -, -, -, -, hcalls, -⟩ := tcp.peer_reply_spec hreply
      let next : Network σ := { s with server, log := s.log ++ [(i, c)] }
      have hcall : ∀ p, (next.with_client i client).call p =
          if p = (i, c) then { s.call p with answer := some resp } else s.call p := by
        rintro ⟨j, d⟩
        by_cases hj : j = i
        · subst hj
          by_cases hd : d = c
          · subst hd
            simp [next, Network.call, Network.with_client, hcalls]
          · simp [next, Network.call, Network.with_client, hcalls, hd]
        · simp [next, Network.call, Network.with_client, hj]
      have hkept : ∀ p, ((next.with_client i client).call p).conn = (s.call p).conn ∧
          (next.with_client i client).asked p = s.asked p := by
        intro p
        unfold Network.asked
        rw [hcall p]
        split <;> exact ⟨rfl, rfl⟩
      refine hs.serve (q := (i, c)) (fun j => ?_) hheaders (by rw [hasked]; exact hstate) rfl hnew
        hconn' hkept (fun p answer hp => ?_)
      · by_cases hj : j = i
        · subst hj
          simpa [Network.with_client] using hsound
        · simpa [Network.with_client, hj] using hs.sound j
      · have hanswer := (congrArg tcp.Call.answer (hcall p)).symm.trans hp
        split at hanswer
        · rename_i hown
          cases hanswer
          exact Or.inr ⟨hown, by rw [hasked]; exact hok⟩
        · exact Or.inl hanswer
  · cases ht

theorem Linked.step (hs : Linked callbacks state s) {e : Event} (htime : InTime s e)
    (he : step callbacks s e = some t) : Linked callbacks state t := by
  cases e with
  | client i e =>
    obtain ⟨hof, he⟩ := Option.ite_none_right_eq_some.mp he
    obtain ⟨client, hstep, rfl⟩ := Option.map_eq_some_iff.mp he
    exact hs.client hof hstep htime
  | accepted i g =>
    obtain ⟨-, he⟩ := Option.ite_none_right_eq_some.mp he
    obtain ⟨server, hstep, rfl⟩ := Option.map_eq_some_iff.mp he
    exact hs.handler rfl hstep rfl rfl rfl
  | delivered h n =>
    simp only [network.step, Network.deliver, Option.bind_eq_bind, Option.bind_eq_some_iff] at he
    obtain ⟨⟨i, g⟩, -, server, hstep, he⟩ := he
    cases he
    exact hs.handler rfl hstep rfl rfl rfl
  | handler e =>
    obtain ⟨hof, he⟩ := Option.ite_none_right_eq_some.mp he
    obtain ⟨server, hstep, rfl⟩ := Option.map_eq_some_iff.mp he
    have hserved : serving.served s.server e = none := by
      cases e with
      | rest_read h => exact Option.isNone_iff_eq_none.mp hof
      | _ => rfl
    exact hs.handler hserved hstep rfl rfl rfl
  | served h c => exact hs.served he

end

/-- A call that has returned a response was served, and the response is its outcome. -/
theorem Linked.returned {state : σ} {s : Network σ} (hs : Linked callbacks state s) {p : Nat × Nat}
    {resp : Bytes} (hp : (s.call p).place = .returned (some resp)) :
    (s.call p).answer = some resp := by
  have hanswers := (hs.sound p.1).2.2
  obtain ⟨o, ho⟩ := hanswers.returned p.2 resp hp
  exact (hanswers.results p.2 resp o ho).2

end

/-! ## Clients of `pymod serve` -/

end pymod.network
