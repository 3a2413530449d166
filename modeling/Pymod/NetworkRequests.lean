-- What reaches the server: on each connection it serves the requests that the client's calls have
-- written there, in that order and each of them once.
import Pymod.Network
import Pymod.TcpFrames

namespace pymod.network

open errors codec pdu types data_model adu_tcp server serve Function Runs

section

variable {σ : Type}

/-! ## The requests of the calls -/

/-- What the frame of a call carries. -/
def request (call : tcp.Call) : Nat × Nat × Bytes :=
  (call.tid.getD 0, call.unit_id.toNat, call.pdu)

/-- The calls of a client whose frames were served on one of its connections, in their order. -/
def Network.served_on (s : Network σ) (i g : Nat) : List Nat :=
  (s.log.filter fun p => p.1 = i ∧ (s.call p).conn = some g).map Prod.snd

theorem request_same {x y : tcp.Call} (h : tcp.SameFrame x y) : request y = request x := by
  rw [request, request, h.tid, h.unit_id, h.pdu]

theorem mem_served_on {s : Network σ} {i g c : Nat} :
    c ∈ s.served_on i g ↔ (i, c) ∈ s.log ∧ (s.call (i, c)).conn = some g := by
  unfold Network.served_on
  rw [List.mem_map]
  constructor
  · rintro ⟨⟨j, d⟩, hp, rfl⟩
    obtain ⟨hlog, hon⟩ := List.mem_filter.mp hp
    obtain ⟨rfl, hconn⟩ := of_decide_eq_true hon
    exact ⟨hlog, hconn⟩
  · rintro ⟨hlog, hconn⟩
    exact ⟨(i, c), List.mem_filter.mpr ⟨hlog, decide_eq_true ⟨rfl, hconn⟩⟩, rfl⟩

/-- One more call was served. -/
theorem served_on_concat {s t : Network σ} {p : Nat × Nat} (hlog : t.log = s.log ++ [p])
    (hclients : t.clients = s.clients) (i g : Nat) : t.served_on i g =
      s.served_on i g ++ if p.1 = i ∧ (s.call p).conn = some g then [p.2] else [] := by
  have hcall : ∀ q, t.call q = s.call q := fun q => by simp only [Network.call, hclients]
  simp only [Network.served_on, hlog, hcall, List.filter_append, List.map_append]
  congr 1
  by_cases hon : p.1 = i ∧ (s.call p).conn = some g
  · rw [if_pos hon, List.filter_cons_of_pos (by simpa using hon)]
    rfl
  · rw [if_neg hon, List.filter_cons_of_neg (by simpa using hon)]
    rfl

/-! ## The connections -/

/-- Between a handler and the connection `g` of the client `i`: the bytes that have arrived are a
beginning of what stands there, and the requests that were served are those of calls in the log. -/
structure Joined (s : Network σ) (h i g : Nat) (arrived : Bytes)
    (requests : List (Nat × Nat × Bytes)) : Prop where
  lt_accepted : h < s.server.accepted
  front : arrived <+: ((s.clients i).conns g).sent.flatten
  delivered_eq : s.delivered h = arrived.length
  requests_eq : requests = (s.served_on i g).map fun c => request (s.call (i, c))

/-- Every handler with a client is joined to a connection of its own, and the log has only calls
that have written to one of these, each of them once. -/
structure Matched (callbacks : Callbacks σ) (max_connections : Nat) (state : σ) (s : Network σ) :
    Prop where
  written : ∀ i, tcp.Framed (s.clients i)
  server : ∃ es, run (serving.step callbacks) (.new max_connections state) es = some s.server ∧
    (∀ h, s.far_ends h = none → serving.arrivals h es = [] ∧ s.delivered h = 0) ∧
    ∀ h i g, s.far_ends h = some (i, g) → Joined s h i g (serving.arrivals h es)
      (serving.requests_of h (serving.log callbacks (.new max_connections state) es))
  apart : ∀ h k p, s.far_ends h = some p → s.far_ends k = some p → h = k
  logged : ∀ p ∈ s.log, ∃ h g, s.far_ends h = some (p.1, g) ∧ (s.call p).conn = some g
  nodup : s.log.Nodup
  answered : ∀ p, (s.call p).answer ≠ none → p ∈ s.log

section

variable {callbacks : Callbacks σ} {max_connections : Nat} {state : σ} {s t : Network σ}

/-- The clients go on, and no frame that they have written changes. -/
theorem Matched.clients (hs : Matched callbacks max_connections state s)
    (hserver : t.server = s.server) (hends : t.far_ends = s.far_ends)
    (hdelivered : t.delivered = s.delivered) (hlog : t.log = s.log)
    (hclients : ∀ i, tcp.Framed (t.clients i) ∧ tcp.Extends (s.clients i) (t.clients i))
    (hanswered : ∀ p, (t.call p).answer ≠ none → p ∈ s.log) :
    Matched callbacks max_connections state t := by
  obtain ⟨es, hrun, hunjoined, hjoined⟩ := hs.server
  have hsame : ∀ p ∈ s.log, tcp.SameFrame (s.call p) (t.call p) := by
    intro p hp
    obtain ⟨h, g, -, hconn⟩ := hs.logged p hp
    apply (hclients p.1).2.calls
    intro hnone
    have hcontra : some g = none := hconn.symm.trans hnone
    cases hcontra
  have hfilter : ∀ i g, t.served_on i g = s.served_on i g := by
    intro i g
    unfold Network.served_on
    rw [hlog]
    congr 1
    apply List.filter_congr
    intro p hp
    rw [(hsame p hp).conn]
  refine ⟨fun i => (hclients i).1, ⟨es, hserver ▸ hrun, ?_, fun h i g hfar => ?_⟩, ?_, ?_,
    hlog ▸ hs.nodup, ?_⟩
  · rw [hends, hdelivered]
    exact hunjoined
  · rw [hends] at hfar
    obtain ⟨haccepted, harrived, hlen, hrequests⟩ := hjoined h i g hfar
    refine ⟨hserver ▸ haccepted, ?_, hdelivered ▸ hlen, ?_⟩
    · obtain ⟨more, hmore⟩ := (hclients i).2.sent g
      rw [← hmore, List.flatten_append]
      exact harrived.trans (List.prefix_append _ _)
    · rw [hrequests, hfilter]
      apply List.map_congr_left
      intro c hc
      exact (request_same (hsame _ (mem_served_on.mp hc).1)).symm
  · rw [hends]
    exact hs.apart
  · rw [hlog, hends]
    intro p hp
    obtain ⟨h, g, hfar, hconn⟩ := hs.logged p hp
    exact ⟨h, g, hfar, (hsame p hp).conn.trans hconn⟩
  · rw [hlog]
    exact hanswered

theorem Matched.client (hs : Matched callbacks max_connections state s) {i : Nat} {e : tcp.Event}
    {client : tcp.TcpTransport} (hof : of_client e = true)
    (he : tcp.step (s.clients i) e = some client) :
    Matched callbacks max_connections state (s.with_client i client) := by
  refine hs.clients rfl rfl rfl rfl (fun j => ?_) ?_
  · by_cases hj : j = i
    · subst hj
      simpa [Network.with_client] using tcp.framed_step (hs.written j) he
    · simpa [Network.with_client, hj] using ⟨hs.written j, tcp.Extends.refl _⟩
  · rintro ⟨j, c⟩ hp
    apply hs.answered
    by_cases hj : j = i
    · subst hj
      simp only [Network.call, Network.with_client, update_self] at hp ⊢
      obtain ⟨resp, hresp⟩ := Option.ne_none_iff_exists'.mp hp
      simp [answer_of_client hof he hresp]
    · simpa [Network.call, Network.with_client, hj] using hp

/-- Bytes arrive only with the event that says so. -/
theorem arrivals_quiet {e : serving.Event} (he : ∀ k data, e ≠ .arrived k data) (h : Nat)
    (es : List serving.Event) : serving.arrivals h (es ++ [e]) = serving.arrivals h es := by
  rw [serving.arrivals_concat]
  have hnone : serving.arrivals h [e] = [] := by
    cases e with
    | arrived k data => exact absurd rfl (he k data)
    | _ => rfl
  rw [hnone, List.append_nil]

theorem log_concat {es : List serving.Event} {server : serving.Server σ} {e : serving.Event}
    (hrun : run (serving.step callbacks) (.new max_connections state) es = some s.server)
    (he : serving.step callbacks s.server e = some server) :
    serving.log callbacks (.new max_connections state) (es ++ [e]) =
      serving.log callbacks (.new max_connections state) es ++
        (serving.served s.server e).toList :=
  emitted_concat hrun he

/-- An event that serves nothing. -/
theorem log_quiet {es : List serving.Event} {server : serving.Server σ} {e : serving.Event}
    (hrun : run (serving.step callbacks) (.new max_connections state) es = some s.server)
    (he : serving.step callbacks s.server e = some server)
    (hserved : serving.served s.server e = none) :
    serving.log callbacks (.new max_connections state) (es ++ [e]) =
      serving.log callbacks (.new max_connections state) es := by
  rw [log_concat hrun he, hserved, Option.toList_none, List.append_nil]

theorem accepted_of_step {es : List serving.Event} {server : serving.Server σ} {e : serving.Event}
    (hrun : run (serving.step callbacks) (.new max_connections state) es = some s.server)
    (he : serving.step callbacks s.server e = some server) :
    s.server.accepted ≤ server.accepted := by
  have hheaders := fun h => ((serving.oneLog_run hrun).in_order h).header
  cases serving.turn_of_step hheaders he with
  | accepted => exact Nat.le_succ _
  | rest_read hplace hframe hserved =>
    rw [(serving.handle_frame_server _).1]
    rfl
  | _ => exact le_rfl

/-- A handler whose connection has brought no byte has served nothing. -/
theorem requests_of_no_bytes {requests : List (Nat × Nat × Bytes)} {x : serving.Handler}
    (h : serving.InOrder [] requests x) : requests = [] := by
  obtain ⟨frames, rfl, hpre, -⟩ := h.frames
  cases frames with
  | nil => rfl
  | cons f frames =>
    have hlen := hpre.length_le
    rw [List.map_cons, List.flatten_cons, List.length_append, f.length_bytes] at hlen
    simp at hlen

theorem Matched.lt_accepted (hs : Matched callbacks max_connections state s) {h : Nat}
    {p : Nat × Nat} (hfar : s.far_ends h = some p) : h < s.server.accepted := by
  obtain ⟨es, -, -, hjoined⟩ := hs.server
  exact (hjoined h p.1 p.2 hfar).lt_accepted

/-- On a connection that no handler has, nothing was served. -/
theorem Matched.unserved (hs : Matched callbacks max_connections state s) {i g : Nat}
    (hfresh : ∀ h, s.far_ends h ≠ some (i, g)) : s.served_on i g = [] := by
  rw [List.eq_nil_iff_forall_not_mem]
  intro c hc
  obtain ⟨hlogged, hconn⟩ := mem_served_on.mp hc
  obtain ⟨h, g', hfar, hconn'⟩ := hs.logged _ hlogged
  rw [hconn] at hconn'
  cases hconn'
  exact hfresh h hfar

/-! ## The steps -/

theorem Matched.accept (hs : Matched callbacks max_connections state s) {i g : Nat}
    (he : s.accept callbacks i g = some t) : Matched callbacks max_connections state t := by
  obtain ⟨hfree, he⟩ := Option.ite_none_right_eq_some.mp he
  obtain ⟨server, hstep, rfl⟩ := Option.map_eq_some_iff.mp he
  obtain ⟨es, hrun, hunjoined, hjoined⟩ := hs.server
  have haccepted : server.accepted = s.server.accepted + 1 := by
    cases hstep
    rfl
  have hfresh : ∀ h, s.far_ends h ≠ some (i, g) := by
    intro h hfar
    exact hfree h (hs.lt_accepted hfar) hfar
  have hnone : s.far_ends s.server.accepted = none := by
    rw [Option.eq_none_iff_forall_ne_some]
    intro p hfar
    exact absurd (hs.lt_accepted hfar) (lt_irrefl _)
  have harrivals := fun h => arrivals_quiet (e := .accept) (by simp) h es
  have hlog := log_quiet hrun hstep rfl
  refine ⟨hs.written, ⟨es ++ [.accept], run_concat.mpr ⟨_, hrun, hstep⟩, ?_, ?_⟩, ?_, ?_, hs.nodup,
    hs.answered⟩
  · intro h hh
    have hne : h ≠ s.server.accepted := by
      rintro rfl
      simp at hh
    simp only [update_of_ne hne] at hh
    rw [harrivals]
    exact hunjoined h hh
  · intro h j k hh
    rw [harrivals, hlog]
    by_cases hne : h = s.server.accepted
    · subst hne
      simp only [update_self, Option.some.injEq, Prod.mk.injEq] at hh
      obtain ⟨rfl, rfl⟩ := hh
      obtain ⟨hempty, hzero⟩ := hunjoined _ hnone
      have hrequests := (serving.oneLog_run hrun).in_order s.server.accepted
      rw [hempty] at hrequests ⊢
      rw [requests_of_no_bytes hrequests]
      refine ⟨?_, List.nil_prefix, hzero, ?_⟩
      · simp only [haccepted]
        omega
      · exact (congrArg (List.map _) (hs.unserved hfresh)).symm
    · simp only [update_of_ne hne] at hh
      obtain ⟨hlt, harrived, hlen, hrequests⟩ := hjoined h j k hh
      refine ⟨?_, harrived, hlen, hrequests⟩
      simp only [haccepted]
      omega
  · intro h k p hh hk
    by_cases hha : h = s.server.accepted
    · by_cases hka : k = s.server.accepted
      · rw [hha, hka]
      · simp only [hha, update_self, update_of_ne hka] at hh hk
        exact absurd (hk.trans hh.symm) (hfresh k)
    · by_cases hka : k = s.server.accepted
      · simp only [hka, update_self, update_of_ne hha] at hh hk
        exact absurd (hh.trans hk.symm) (hfresh h)
      · simp only [update_of_ne hha, update_of_ne hka] at hh hk
        exact hs.apart h k p hh hk
  · intro p hp
    obtain ⟨h, g', hfar, hconn⟩ := hs.logged p hp
    refine ⟨h, g', ?_, hconn⟩
    have hne : h ≠ s.server.accepted := Nat.ne_of_lt (hs.lt_accepted hfar)
    simp only [update_of_ne hne]
    exact hfar

theorem Matched.deliver (hs : Matched callbacks max_connections state s) {h n : Nat}
    (he : s.deliver callbacks h n = some t) : Matched callbacks max_connections state t := by
  simp only [Network.deliver, Option.bind_eq_bind, Option.bind_eq_some_iff] at he
  obtain ⟨⟨i, g⟩, hfar, server, hstep, he⟩ := he
  cases he
  obtain ⟨es, hrun, hunjoined, hjoined⟩ := hs.server
  let data := (((s.clients i).conns g).sent.flatten.drop (s.delivered h)).take n
  have hown : serving.arrivals h (es ++ [.arrived h data]) = serving.arrivals h es ++ data := by
    rw [serving.arrivals_concat]
    simp [serving.arrivals]
  have hother : ∀ k, k ≠ h →
      serving.arrivals k (es ++ [.arrived h data]) = serving.arrivals k es := by
    intro k hk
    rw [serving.arrivals_concat]
    simp [serving.arrivals, Ne.symm hk]
  have hlog := log_quiet hrun hstep rfl
  have hle := accepted_of_step hrun hstep
  refine ⟨hs.written, ⟨es ++ [.arrived h data], run_concat.mpr ⟨_, hrun, hstep⟩, ?_, ?_⟩, hs.apart,
    hs.logged, hs.nodup, hs.answered⟩
  · intro k hk
    have hne : k ≠ h := by
      rintro rfl
      rw [hfar] at hk
      cases hk
    rw [hother k hne]
    simp only [update_of_ne hne]
    exact hunjoined k hk
  · intro k j g' hk
    rw [hlog]
    obtain ⟨hlt, harrived, hlen, hrequests⟩ := hjoined k j g' hk
    by_cases hne : k = h
    · subst hne
      rw [hfar] at hk
      cases hk
      rw [hown]
      refine ⟨lt_of_lt_of_le hlt hle, ?_, ?_, hrequests⟩
      · obtain ⟨behind, hbehind⟩ := harrived
        have hdata : data = behind.take n := by
          simp only [data, ← hbehind, hlen, List.drop_left]
        rw [← hbehind, hdata]
        exact (List.prefix_append_right_inj _).mpr (List.take_prefix n behind)
      · rw [List.length_append, ← hlen]
        exact update_self _ _ _
    · rw [hother k hne]
      refine ⟨lt_of_lt_of_le hlt hle, harrived, ?_, hrequests⟩
      simp only [update_of_ne hne]
      exact hlen

/-- A step of a handler that serves no request. -/
theorem Matched.handler (hs : Matched callbacks max_connections state s) {e : serving.Event}
    {server : serving.Server σ} (hof : of_handler s.server e = true)
    (he : serving.step callbacks s.server e = some server) :
    Matched callbacks max_connections state { s with server } := by
  obtain ⟨es, hrun, hunjoined, hjoined⟩ := hs.server
  have hquiet : ∀ k data, e ≠ .arrived k data := by
    rintro k data rfl
    cases hof
  have hserved : serving.served s.server e = none := by
    cases e with
    | rest_read h => exact Option.isNone_iff_eq_none.mp hof
    | _ => rfl
  have hlog := log_quiet hrun he hserved
  have hle := accepted_of_step hrun he
  refine ⟨hs.written, ⟨es ++ [e], run_concat.mpr ⟨_, hrun, he⟩, ?_, ?_⟩, hs.apart, hs.logged,
    hs.nodup, hs.answered⟩
  · intro h hfar
    rw [arrivals_quiet hquiet]
    exact hunjoined h hfar
  · intro h i g hfar
    rw [arrivals_quiet hquiet, hlog]
    obtain ⟨hlt, harrived, hlen, hrequests⟩ := hjoined h i g hfar
    exact ⟨lt_of_lt_of_le hlt hle, harrived, hlen, hrequests⟩

/-- The server serves the frame of a call, and nobody has answered yet. -/
theorem Matched.logs (hs : Matched callbacks max_connections state s) {h i g c tid uid : Nat}
    {pdu : Bytes} {server : serving.Server σ} (hfar : s.far_ends h = some (i, g))
    (hserved : serving.served s.server (.rest_read h) = some (h, tid, uid, pdu))
    (hstep : serving.step callbacks s.server (.rest_read h) = some server)
    (hconn : (s.call (i, c)).conn = some g)
    (hrequest : request (s.call (i, c)) = (tid, uid, pdu)) (hnew : (i, c) ∉ s.log) :
    Matched callbacks max_connections state { s with server, log := s.log ++ [(i, c)] } := by
  obtain ⟨es, hrun, hunjoined, hjoined⟩ := hs.server
  have harrivals := fun k => arrivals_quiet (e := .rest_read h) (by simp) k es
  have hlog := log_concat hrun hstep
  rw [hserved, Option.toList_some] at hlog
  have hle := accepted_of_step hrun hstep
  have hon := fun j k => served_on_concat (s := s)
    (t := { s with server, log := s.log ++ [(i, c)] }) (p := (i, c)) rfl rfl j k
  refine ⟨hs.written, ⟨es ++ [.rest_read h], run_concat.mpr ⟨_, hrun, hstep⟩, ?_, ?_⟩, hs.apart, ?_,
    ?_, ?_⟩
  · intro k hk
    rw [harrivals]
    exact hunjoined k hk
  · intro k j g' hk
    rw [harrivals, hlog, serving.requests_of_append]
    obtain ⟨hlt, harrived, hlen, hrequests⟩ := hjoined k j g' hk
    refine ⟨lt_of_lt_of_le hlt hle, harrived, hlen, ?_⟩
    rw [hon]
    by_cases hkh : k = h
    · subst hkh
      rw [hfar] at hk
      cases hk
      rw [if_pos ⟨rfl, hconn⟩, List.map_append, hrequests]
      have hone : serving.requests_of k [(k, tid, uid, pdu)] = [(tid, uid, pdu)] := by
        simp [serving.requests_of]
      rw [hone, ← hrequest]
      rfl
    · have hone : serving.requests_of k [(h, tid, uid, pdu)] = [] := by
        simp [serving.requests_of, Ne.symm hkh]
      rw [hone, List.append_nil, if_neg, List.append_nil]
      · exact hrequests
      · rintro ⟨rfl, hconn'⟩
        rw [hconn] at hconn'
        cases hconn'
        exact hkh (hs.apart k h _ hk hfar)
  · intro p hp
    rcases List.mem_append.mp hp with hp | hp
    · exact hs.logged p hp
    · rw [List.mem_singleton.mp hp]
      exact ⟨h, g, hfar, hconn⟩
  · rw [List.nodup_append]
    refine ⟨hs.nodup, List.nodup_singleton _, ?_⟩
    rintro a ha b hb rfl
    rw [List.mem_singleton] at hb
    exact hnew (hb ▸ ha)
  · intro p hp
    exact List.mem_append_left _ (hs.answered p hp)

theorem Matched.serve (hs : Matched callbacks max_connections state s) {h c : Nat}
    (he : s.serve callbacks h c = some t) : Matched callbacks max_connections state t := by
  simp only [Network.serve, Option.bind_eq_bind, Option.bind_eq_some_iff] at he
  obtain ⟨⟨i, g⟩, hfar, ⟨h', tid, uid, pdu⟩, hserved, server, hstep, he⟩ := he
  obtain rfl : h' = h := served_handler hserved
  split at he
  · rename_i hown
    obtain ⟨hconn, htid, hunit, hpdu, hnew⟩ := hown
    have hrequest : request (s.call (i, c)) = (tid, uid, pdu) := by
      rw [request, htid, hunit, hpdu]
      rfl
    have hnext := hs.logs hfar hserved hstep hconn hrequest hnew
    split at he
    · split at he
      · obtain ⟨client, hreply, rfl⟩ := Option.map_eq_some_iff.mp he
        refine hnext.clients rfl rfl rfl rfl (fun j => ?_) ?_
        · by_cases hj : j = i
          · subst hj
            simpa [Network.with_client] using tcp.framed_step (hs.written j) hreply
          · simpa [Network.with_client, hj] using ⟨hs.written j, tcp.Extends.refl _⟩
        · rintro ⟨j, d⟩ hp
          obtain ⟨-, -, -, -, -, -, -, hcalls, -⟩ := tcp.peer_reply_spec hreply
          by_cases hj : j = i
          · subst hj
            by_cases hd : d = c
            · subst hd
              exact List.mem_append_right _ (List.mem_singleton_self _)
            · refine List.mem_append_left _ (hs.answered _ ?_)
              simpa [Network.call, Network.with_client, hcalls, hd] using hp
          · refine List.mem_append_left _ (hs.answered _ ?_)
            simpa [Network.call, Network.with_client, hj] using hp
      · cases he
    · cases he
      exact hnext
  · cases he

theorem Matched.step (hs : Matched callbacks max_connections state s) {e : Event}
    (he : step callbacks s e = some t) : Matched callbacks max_connections state t := by
  cases e with
  | client i e =>
    obtain ⟨hof, he⟩ := Option.ite_none_right_eq_some.mp he
    obtain ⟨client, hstep, rfl⟩ := Option.map_eq_some_iff.mp he
    exact hs.client hof hstep
  | accepted i g => exact hs.accept he
  | delivered h n => exact hs.deliver he
  | handler e =>
    obtain ⟨hof, he⟩ := Option.ite_none_right_eq_some.mp he
    obtain ⟨server, hstep, rfl⟩ := Option.map_eq_some_iff.mp he
    exact hs.handler hof hstep
  | served h c => exact hs.serve he

/-! ## What is served next -/

end

end

/-- A client writes two requests, of which the first has reached the server and the second is on
its way. -/
def two_requests : List Event :=
  [.client 0 (.start_send 0 [6, 0, 5, 0, 9] 1 "1.0"), .client 0 (.lock_acquired 0),
    .client 0 (.opened 0), .client 0 (.start_send 1 [3, 0, 5, 0, 1] 1 "1.0"), .accepted 0 0,
    .handler (.started 0), .delivered 0 15, .handler (.header_read 0)]

end pymod.network
