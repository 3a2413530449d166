-- Which call a reply reaches. The bytes of a connection are always a row of
-- whole replies, and a reply that arrives before the id counter has come round
-- reaches the call that it answers.
import Pymod.TcpIds

namespace pymod.tcp

open TcpTransport errors Function codec adu_tcp Runs

/-! ## The replies on the way -/

/-- The bytes are the reply that the peer sent to the frame of the call. -/
def Reply (s : TcpTransport) (c : Nat) (frame : Bytes) : Prop :=
  ∃ (t : Nat) (unit_id : Int) (pdu : Bytes), (s.calls c).tid = some t ∧
    (s.calls c).answer = some pdu ∧ encode_mbap_frame t unit_id pdu = .ok frame

/-- The stream of each connection is the replies to the calls that were answered on it, and
each result that a call was given is the answer to its own frame. -/
structure Answers (s : TcpTransport) : Prop where
  streams : ∀ g, ∃ frames, List.Forall₂ (Reply s) (s.conns g).replies frames ∧
    (s.conns g).unread ++ (s.conns g).wire = frames.flatten
  results : ∀ c p o, (s.calls c).future = .result p o → o = some c ∧ (s.calls c).answer = some p
  returned : ∀ c p, (s.calls c).place = .returned (some p) →
    ∃ o, (s.calls c).future = .result p o

/-- Calls that were answered keep their ids and their answers. -/
theorem Answers.keep {s s' : TcpTransport} (h : Answers s)
    (hconns : ∀ g, (s'.conns g).replies = (s.conns g).replies ∧
      (s'.conns g).unread ++ (s'.conns g).wire = (s.conns g).unread ++ (s.conns g).wire)
    (hreply : ∀ c p, (s.calls c).answer = some p → (s.calls c).tid ≠ none →
      (s'.calls c).tid = (s.calls c).tid ∧ (s'.calls c).answer = some p)
    (hresult : ∀ c p o, (s'.calls c).future = .result p o →
      o = some c ∧ (s'.calls c).answer = some p)
    (hreturned : ∀ c p, (s'.calls c).place = .returned (some p) →
      ∃ o, (s'.calls c).future = .result p o) : Answers s' := by
  have hkeep : ∀ c frame, Reply s c frame → Reply s' c frame := by
    rintro c frame ⟨t, unit_id, pdu, htid, hanswer, hframe⟩
    obtain ⟨ht, ha⟩ := hreply c pdu hanswer (by simp [htid])
    exact ⟨t, unit_id, pdu, ht.trans htid, ha, hframe⟩
  refine ⟨?_, hresult, hreturned⟩
  intro g
  obtain ⟨frames, hall, hstream⟩ := h.streams g
  obtain ⟨hr, hb⟩ := hconns g
  refine ⟨frames, ?_, hb.trans hstream⟩
  rw [hr]
  exact hall.imp fun _ _ => hkeep _ _

/-- One call changes, and nothing of it that a reply rests on. -/
theorem Answers.set_call {s : TcpTransport} (h : Answers s) {c : Nat} {call : Call}
    (htid : (s.calls c).tid ≠ none → call.tid = (s.calls c).tid)
    (hanswer : call.answer = (s.calls c).answer)
    (hresult : ∀ p o, call.future = .result p o → o = some c ∧ (s.calls c).answer = some p)
    (hreturned : ∀ p, call.place = .returned (some p) → ∃ o, call.future = .result p o) :
    Answers (s.set_call c call) := by
  refine h.keep (fun _ => ⟨rfl, rfl⟩) ?_ ?_ ?_
  · intro d p hd ht
    by_cases hdc : d = c
    · subst hdc
      simp only [TcpTransport.set_call, update_self]
      exact ⟨htid ht, hanswer.trans hd⟩
    · simp only [TcpTransport.set_call, update_of_ne hdc]
      exact ⟨trivial, hd⟩
  · intro d p o hd
    by_cases hdc : d = c
    · subst hdc
      simp only [TcpTransport.set_call, update_self] at hd ⊢
      rw [hanswer]
      exact hresult p o hd
    · simp only [TcpTransport.set_call, update_of_ne hdc] at hd ⊢
      exact h.results d p o hd
  · intro d p hd
    by_cases hdc : d = c
    · subst hdc
      simp only [TcpTransport.set_call, update_self] at hd ⊢
      exact hreturned p hd
    · simp only [TcpTransport.set_call, update_of_ne hdc] at hd ⊢
      exact h.returned d p hd

theorem Answers.congr {s s' : TcpTransport} (h : Answers s) (hcalls : s'.calls = s.calls)
    (hconns : ∀ g, (s'.conns g).replies = (s.conns g).replies ∧
      (s'.conns g).unread ++ (s'.conns g).wire = (s.conns g).unread ++ (s.conns g).wire) :
    Answers s' := by
  refine h.keep hconns ?_ ?_ ?_
  · intro c p hc _
    rw [hcalls]
    exact ⟨rfl, hc⟩
  · rw [hcalls]
    exact h.results
  · rw [hcalls]
    exact h.returned

theorem Answers.set_conn {s : TcpTransport} (h : Answers s) {g : Nat} {conn : Conn}
    (hreplies : conn.replies = (s.conns g).replies)
    (hbytes : conn.unread ++ conn.wire = (s.conns g).unread ++ (s.conns g).wire) :
    Answers (s.set_conn g conn) := by
  refine h.congr rfl ?_
  intro k
  by_cases hk : k = g
  · subst hk
    simp only [TcpTransport.set_conn, update_self]
    exact ⟨hreplies, hbytes⟩
  · simp only [TcpTransport.set_conn, update_of_ne hk]
    exact ⟨trivial, trivial⟩

theorem Answers.move {s : TcpTransport} (h : Answers s) {c : Nat} {place : CallAt}
    (hret : ∀ p, place = .returned (some p) → ∃ o, (s.calls c).future = .result p o) :
    Answers (s.move c place) :=
  h.set_call (fun _ => rfl) rfl (h.results c) hret

theorem Answers.pop_and_end {s : TcpTransport} (h : Answers s) {c : Nat} {place : CallAt}
    (hret : ∀ p, place = .returned (some p) → ∃ o, (s.calls c).future = .result p o) :
    Answers (s.pop_and_end c place) := by
  have hmove := h.move hret
  unfold TcpTransport.pop_and_end
  split
  · exact hmove.congr rfl fun _ => ⟨rfl, rfl⟩
  · exact hmove.congr rfl fun _ => ⟨rfl, rfl⟩

theorem Answers.send {s : TcpTransport} (h : Answers s) {c : Nat} (hidle : Idle (s.calls c).place)
    (htid : (s.calls c).tid = none) : Answers (s.send_and_receive_unlocked c) := by
  have hraised : ∀ (e : PyError) (call : Call) (p : Bytes), CallAt.raised e = .returned (some p) →
      ∃ o, call.future = .result p o := by
    rintro e call p ⟨⟩
  unfold send_and_receive_unlocked
  split
  · have hmove := h.move
      (hraised (.modbus (.ModbusError "transaction id space exhausted")) (s.calls c))
    exact hmove.congr rfl fun _ => ⟨rfl, rfl⟩
  · rename_i tid next' ha
    have hreg : Answers (s.register c tid next') := by
      have hset : Answers (s.set_call c { s.calls c with
          tid := some tid, future := .pending, probed_at := probed_past s tid
          allocated_at := s.allocated + 1 }) := by
        refine h.set_call (fun ht => absurd htid ht) rfl ?_ ?_
        · rintro p o ⟨⟩
        · intro p hp
          change (s.calls c).place = .returned (some p) at hp
          rw [hp] at hidle
          exact hidle.elim
      exact hset.congr rfl fun _ => ⟨rfl, rfl⟩
    generalize s.register c tid next' = r at hreg
    unfold write_request
    split
    · exact hreg.pop_and_end (hraised _ _)
    · rename_i w hw
      split
      · exact hreg.pop_and_end (hraised _ _)
      · rename_i frame hframe
        have hconn : Answers (r.set_conn w { r.conns w with sent := (r.conns w).sent ++ [frame] }) :=
          hreg.set_conn rfl rfl
        refine hconn.set_call (fun _ => rfl) rfl (hconn.results c) ?_
        rintro p ⟨⟩

/-- A reply goes on the wire behind the ones before it. -/
theorem Answers.reply {s s' : TcpTransport} (h : Answers s) {c : Nat} {unit_id : Int}
    {pdu : Bytes} (hreply : peer_reply s c unit_id pdu = some s') : Answers s' := by
  obtain ⟨g, tid, frame, hg, htid, hnone, hframe, hcalls, hconns⟩ := peer_reply_spec hreply
  have hother : ∀ d, d ≠ c → s'.calls d = s.calls d := by
    intro d hd
    rw [hcalls, update_of_ne hd]
  have hself : s'.calls c = { s.calls c with answer := some pdu } := by
    rw [hcalls, update_self]
  have hkeep : ∀ d f, Reply s d f → Reply s' d f := by
    rintro d f ⟨t, u, p, ht, hanswer, hf⟩
    have hd : d ≠ c := by
      rintro rfl
      rw [hnone] at hanswer
      cases hanswer
    refine ⟨t, u, p, ?_, ?_, hf⟩
    · rw [hother d hd]
      exact ht
    · rw [hother d hd]
      exact hanswer
  refine ⟨?_, ?_, ?_⟩
  · intro k
    obtain ⟨frames, hall, hstream⟩ := h.streams k
    have hall' := hall.imp hkeep
    by_cases hk : k = g
    · subst hk
      rw [hconns, update_self]
      refine ⟨frames ++ [frame], ?_, ?_⟩
      · apply List.rel_append hall'
        refine .cons ⟨tid, unit_id, pdu, ?_, ?_, hframe⟩ .nil
        · rw [hself]
          exact htid
        · rw [hself]
      · rw [← List.append_assoc, hstream, List.flatten_append, List.flatten_singleton]
    · rw [hconns, update_of_ne hk]
      exact ⟨frames, hall', hstream⟩
  · intro d p o hd
    by_cases hdc : d = c
    · exfalso
      subst hdc
      rw [hself] at hd
      rw [(h.results d p o hd).2] at hnone
      cases hnone
    · rw [hother d hdc] at hd ⊢
      exact h.results d p o hd
  · intro d p hd
    by_cases hdc : d = c
    · subst hdc
      rw [hself] at hd ⊢
      exact h.returned d p hd
    · rw [hother d hdc] at hd ⊢
      exact h.returned d p hd

theorem Answers.effect {s s' : TcpTransport} (h : Answers s) (ha : Accounts s)
    (he : Effect s s') : Answers s' := by
  cases he with
  | silent hs => exact h.congr hs.calls fun g => by rw [hs.conns]; exact ⟨rfl, rfl⟩
  | start c kind pdu unit_id timeout_s habs =>
    obtain ⟨htid, -, -, hanswer⟩ := ha.idle c (by simp [habs, Idle])
    refine h.set_call (fun ht => absurd htid ht) hanswer.symm ?_ ?_
    · rintro p o ⟨⟩
    · rintro p ⟨⟩
  | move c hm => exact h.move fun p hp => absurd hp (hm.returned p)
  | send c idle _ _ => exact h.send idle (ha.idle c idle).1
  | drain c hplace =>
    apply h.move
    rintro p ⟨⟩
  | interrupt c i hplace =>
    refine h.set_call (fun _ => rfl) rfl ?_ ?_
    · intro p o hp
      simp only at hp
      split at hp
      · cases hp
      · exact h.results c p o hp
    · intro p hp
      rw [hplace] at hp
      cases hp
  | pop c hopen _ _ hret => exact h.pop_and_end hret
  | answer c unit_id pdu hreply =>
    exact h.reply hreply
  | arrive g n =>
    refine h.set_conn rfl ?_
    rw [List.append_assoc, List.take_append_drop]
  | lose g => exact h.set_conn rfl rfl

theorem Answers.jump {e : Event} {s s' : TcpTransport} (h : Answers s) (hj : Jump e s s') :
    Answers s' := by
  cases hj with
  | stay => exact h
  | install c => exact h.congr rfl fun _ => ⟨rfl, rfl⟩
  | clear a =>
    have hcall : ∀ c, ((s.clear_pending a).calls c).tid = (s.calls c).tid ∧
        ((s.clear_pending a).calls c).answer = (s.calls c).answer := by
      intro c
      simp only [clear_pending, fail_pending]
      split <;> exact ⟨rfl, rfl⟩
    have hfuture : ∀ c p o, ((s.clear_pending a).calls c).future = .result p o ↔
        (s.calls c).future = .result p o := by
      intro c p o
      simp only [clear_pending, fail_pending]
      split
      · rename_i hpend
        simp [hpend.2]
      · rfl
    refine h.keep (fun _ => ⟨rfl, rfl⟩) ?_ ?_ ?_
    · intro c p hc _
      exact ⟨(hcall c).1, (hcall c).2.trans hc⟩
    · intro c p o hc
      rw [(hcall c).2]
      exact h.results c p o ((hfuture c p o).mp hc)
    · intro c p hc
      have hplace : ((s.clear_pending a).calls c).place = (s.calls c).place := by
        simp only [clear_pending, fail_pending]
        split <;> rfl
      rw [hplace] at hc
      obtain ⟨o, ho⟩ := h.returned c p hc
      exact ⟨o, (hfuture c p o).mpr ho⟩

/-! ## A frame is read -/

/-- The peers send nothing but replies. -/
def Event.only_replies : Event → Bool
  | .peer_sent _ _ => false
  | _ => true

/-- The connection whose loop reads a frame. -/
def Event.frame_of : Event → Option Nat
  | .frame_read g => some g
  | _ => none

/-- A reply that is read was asked for less than one round of the id counter ago. -/
def InTime (s : TcpTransport) (e : Event) : Prop :=
  ∀ g ∈ e.frame_of, ∀ c ∈ (s.conns g).replies.head?, s.probed - (s.calls c).probed_at < 0x10000

instance (s : TcpTransport) (e : Event) : Decidable (InTime s e) :=
  inferInstanceAs (Decidable (∀ g ∈ e.frame_of, _))

/-- The call that waits under the id of a reply is the call that it answers, when the counter
has not come round since. -/
theorem Accounts.own_reply {s : TcpTransport} (h : Accounts s) {c d t : Nat}
    (hc : s.pending.lookup t = some c) (hd : (s.calls d).tid = some t)
    (hlate : s.probed - (s.calls d).probed_at < 0x10000) : c = d := by
  have htid := (h.registered t c hc).1
  obtain ⟨h1, h2, h3⟩ := h.numbered c t htid
  obtain ⟨h4, h5, h6⟩ := h.numbered d t hd
  have hle := h.latest t c d hc hd
  exact h.apart c d t htid hd (by omega)

/-- A reply in time reaches its own call, or none. -/
theorem Answers.dispatch {s : TcpTransport} (h : Answers s) (ha : Accounts s) {c : Nat}
    {frame : Bytes} (hreply : Reply s c frame)
    (hlate : s.probed - (s.calls c).probed_at < 0x10000) :
    Answers (s.dispatch_frame frame (some c)) := by
  obtain ⟨t, unit_id, pdu, htid, hanswer, hframe⟩ := hreply
  unfold dispatch_frame
  rw [decode_encode_mbap_frame hframe]
  simp only [Int.toNat_natCast]
  split
  · exact h
  · rename_i d hd
    split
    · have hdc : d = c := ha.own_reply hd htid hlate
      subst hdc
      refine h.set_call (fun _ => rfl) rfl ?_ ?_
      · rintro p o ⟨⟩
        exact ⟨rfl, hanswer⟩
      · intro p hp
        have hopen := (ha.registered t d hd).2.1
        have hplace : (s.calls d).place = .returned (some p) := hp
        rw [hplace] at hopen
        exact hopen.elim
    · exact h

/-- The loop cuts off the first reply of the stream. -/
theorem Answers.frame_read {s s' : TcpTransport} {r : Nat} (h : Answers s) (ha : Accounts s)
    (hlate : ∀ c ∈ (s.conns r).replies.head?, s.probed - (s.calls c).probed_at < 0x10000)
    (hs : s.read_loop_frame r = some s') : Answers s' := by
  obtain ⟨frame, behind, hread, rfl⟩ := read_loop_frame_spec hs
  obtain ⟨frames, hall, hstream⟩ := h.streams r
  have happ := read_frame_append (s.conns r).wire hread
  rw [hstream] at happ
  rcases hrep : (s.conns r).replies with _ | ⟨c, rest⟩
  · -- an empty stream has no frame to read
    rw [hrep] at hall
    cases hall
    cases happ
  rw [hrep] at hall hlate
  rcases hall with _ | ⟨hfirst, hrest⟩
  rename_i first frames
  obtain ⟨t, unit_id, pdu, htid, hanswer, hframe⟩ := hfirst
  rw [List.flatten_cons, read_frame_encoded hframe] at happ
  simp only [Except.ok.injEq, Option.some.injEq, Prod.mk.injEq] at happ
  obtain ⟨rfl, hbehind⟩ := happ
  have htaken : Answers (s.set_conn r { s.conns r with unread := behind, replies := rest }) := by
    refine ⟨?_, h.results, h.returned⟩
    intro k
    by_cases hk : k = r
    · subst hk
      refine ⟨frames, ?_, ?_⟩
      · simp only [TcpTransport.set_conn, update_self]
        exact hrest
      · simp only [TcpTransport.set_conn, update_self]
        exact hbehind.symm
    · obtain ⟨frames', hall', hstream'⟩ := h.streams k
      refine ⟨frames', ?_, ?_⟩
      · simp only [TcpTransport.set_conn, update_of_ne hk]
        exact hall'
      · simp only [TcpTransport.set_conn, update_of_ne hk]
        exact hstream'
  apply htaken.dispatch (ha.congr rfl rfl rfl rfl)
  · exact ⟨t, unit_id, pdu, htid, hanswer, hframe⟩
  · exact hlate c rfl

/-! ## The law -/

/-- One step keeps the replies in order, when the peers only answer and the reply that is read
is in time. -/
theorem answers_step {s s' : TcpTransport} {e : Event}
    (h : Tidy s ∧ Accounts s ∧ Answers s) (hg : e.only_replies ∧ InTime s e)
    (he : step s e = some s') : Tidy s' ∧ Accounts s' ∧ Answers s' := by
  obtain ⟨ht, ha, han⟩ := h
  refine ⟨tidy_step ht he, accounts_step ht ha he, ?_⟩
  rcases hr : e.reads with _ | _
  · have hboth := (step_through ht he hr).preserves (p := fun s => Accounts s ∧ Answers s)
      (fun _ _ hp hf => ⟨hp.1.effect hf, hp.2.effect hp.1 hf⟩)
      (fun _ _ _ hp hj => ⟨hp.1.jump hj, hp.2.jump hj⟩) ⟨ha, han⟩
    exact hboth.2
  cases e with
  | frame_read g =>
    simp only [step] at he
    split at he
    · rename_i r hr
      have hrg : r = g := ht.linked.reading_own g r hr
      subst hrg
      split at he
      · cases he
      · exact han.frame_read ha (hg.2 _ rfl) he
    · cases he
  | peer_sent g bytes => cases hg.1
  | _ => cases hr

theorem answers_new (host : String) (port : Int) (pipeline : Bool) (connect_timeout_s : String) :
    Answers (new host port pipeline connect_timeout_s) := by
  refine ⟨fun g => ⟨[], .nil, rfl⟩, ?_, ?_⟩
  · rintro c p o ⟨⟩
  · rintro c p ⟨⟩

/-- In every run with peers that only answer, and where each reply is read before the id counter
has come round, a call that returns a PDU returns the answer to its own frame, and no two calls
are given the same reply. -/
theorem every_call_returns_its_own_reply (host : String) (port : Int) (pipeline : Bool)
    (connect_timeout_s : String) {es : List Event} {s : TcpTransport}
    (hg : Guarded step (fun s e => e.only_replies ∧ InTime s e)
      (new host port pipeline connect_timeout_s) es)
    (hrun : run step (new host port pipeline connect_timeout_s) es = some s) :
    (∀ c p, (s.calls c).place = .returned (some p) → (s.calls c).answer = some p) ∧
    (∀ c d p q o, (s.calls c).future = .result p o → (s.calls d).future = .result q o → c = d) := by
  obtain ⟨-, -, h⟩ := invariant_run (fun _ _ _ => answers_step)
    ⟨tidy_new host port pipeline connect_timeout_s,
      accounts_new host port pipeline connect_timeout_s,
      answers_new host port pipeline connect_timeout_s⟩ hg hrun
  constructor
  · intro c p hc
    obtain ⟨o, ho⟩ := h.returned c p hc
    exact (h.results c p o ho).2
  · intro c d p q o hc hd
    have hco := (h.results c p o hc).1
    have hdo := (h.results d q o hd).1
    rw [hco] at hdo
    exact Option.some_injective _ hdo

/-- Two calls in flight, answered in the other order. -/
def crossed_replies : List Event :=
  [.start_send 0 [3, 0, 0, 0, 1] 1 "1.0", .lock_acquired 0, .opened 0, .read_started 0,
    .start_send 1 [3, 0, 1, 0, 1] 1 "1.0", .drained 0, .drained 1,
    .peer_replied 1 1 [3, 2, 0, 8], .peer_replied 0 1 [3, 2, 0, 7], .bytes_arrived 0 22,
    .frame_read 0, .frame_read 0, .resumed 0, .resumed 1]

theorem crossed_replies_reach_their_own_calls :
    ∃ s, run step (new "plc" 502 true "3.0") crossed_replies = some s ∧
      (s.calls 0).place = .returned (some [3, 2, 0, 7]) ∧
      (s.calls 1).place = .returned (some [3, 2, 0, 8]) ∧
      (∀ c p, (s.calls c).place = .returned (some p) → (s.calls c).answer = some p) ∧
      (∀ c d p q o, (s.calls c).future = .result p o → (s.calls d).future = .result q o → c = d) :=
  ⟨_, rfl, rfl, rfl, every_call_returns_its_own_reply "plc" 502 true "3.0"
    (show Guarded step _ _ crossed_replies by decide +kernel) rfl⟩

/-! ## When only the ids that are given out are counted -/

/-- A reply that is read was asked for less than 65536 allocations ago. -/
def InTimeByAllocations (s : TcpTransport) (e : Event) : Prop :=
  ∀ g ∈ e.frame_of, ∀ c ∈ (s.conns g).replies.head?,
    s.allocated - (s.calls c).allocated_at < 0x10000

/-- `send_and_receive(b"\x03\x00\x00\x00\x01", unit_id=1, timeout_s=1.0)` -/
def request_call : Call :=
  { kind := .send_and_receive, pdu := [3, 0, 0, 0, 1], unit_id := 1, timeout_s := "1.0" }

def request (c : Nat) : Event := .start_send c [3, 0, 0, 0, 1] 1 "1.0"

def request_frame (tid : Nat) : Bytes := mbap_header tid 1 6 ++ [3, 0, 0, 0, 1]

/-- What a new request does in a transport that is connected and has a free id. -/
theorem request_step {s : TcpTransport} {c tid next_tid : Nat} (hconn : s.connected = true)
    (hclosed : s.closed = false) (hpipe : s.pipeline = true) (hw : s.writer = some 0)
    (hnew : s.calls c = {}) (ha : allocate_tid s.pending s.next_tid = (some tid, next_tid))
    (htid : tid < 0x10000) :
    step s (request c) = some
      (((s.set_call c request_call).register c tid next_tid).write_frame c 0
        (request_frame tid)) := by
  have habs : (s.calls c).place = .absent := by rw [hnew]
  have hcall : ∀ s : TcpTransport, ((s.set_call c request_call).calls c) = request_call := by
    intro s
    simp [set_call]
  have hframe : encode_mbap_frame (tid : Int) 1 [3, 0, 0, 0, 1] = .ok (request_frame tid) :=
    encode_mbap_frame_ok htid (by decide) (by decide) (by decide)
  have hensure : step s (request c) = some ((s.set_call c request_call).ensure_connected c) := by
    simp only [step, request, habs, if_true]
    rw [if_neg (by simp [set_call, hclosed]), if_pos (by simpa [set_call] using hpipe)]
    rfl
  have hsend : (s.set_call c request_call).ensure_connected c =
      (s.set_call c request_call).send_and_receive_unlocked c := by
    unfold ensure_connected connected_call
    rw [if_pos (by simpa [set_call] using hconn), hcall]
    rfl
  have hreg : (s.set_call c request_call).send_and_receive_unlocked c =
      ((s.set_call c request_call).register c tid next_tid).write_request c tid := by
    unfold send_and_receive_unlocked
    rw [show (s.set_call c request_call).pending = s.pending from rfl,
      show (s.set_call c request_call).next_tid = s.next_tid from rfl, ha]
  have hwrite : ((s.set_call c request_call).register c tid next_tid).write_request c tid =
      ((s.set_call c request_call).register c tid next_tid).write_frame c 0
        (request_frame tid) := by
    unfold write_request
    rw [show ((s.set_call c request_call).register c tid next_tid).writer = some 0 from hw]
    have hpdu : (((s.set_call c request_call).register c tid next_tid).calls c).pdu =
        [3, 0, 0, 0, 1] := by
      simp [register, set_call, request_call]
    have hunit : (((s.set_call c request_call).register c tid next_tid).calls c).unit_id = 1 := by
      simp [register, set_call, request_call]
    rw [hpdu, hunit, hframe]
  rw [hensure, hsend, hreg, hwrite]

theorem allocate_first {pending : Pending} {next_tid : Nat} (h : next_tid ∉ pending) :
    allocate_tid pending next_tid = (some next_tid, (next_tid + 1) % 0x10000) := by
  unfold allocate_tid
  rw [show (0x10000 : Nat) = 0xFFFF + 1 from rfl, probe, if_pos h]

/-- The calls `0 .. n - 1` are pending, each under its own number. -/
structure Loaded (n : Nat) (s : TcpTransport) : Prop where
  connected : s.connected = true
  closed : s.closed = false
  pipeline : s.pipeline = true
  writer : s.writer = some 0
  counter : s.next_tid = n % 0x10000
  allocated : s.allocated = n
  pending : ∀ t, s.pending.lookup t = if t < n then some t else none
  used : ∀ c < n, (s.calls c).place = .draining ∧ (s.calls c).tid = some c ∧
    (s.calls c).conn = some 0 ∧ (s.calls c).answer = none ∧ (s.calls c).allocated_at = c + 1
  unused : ∀ c, n ≤ c → s.calls c = {}
  reading : s.tasks 0 = { place := .reading 0 }
  wire : (s.conns 0).wire = []
  unread : (s.conns 0).unread = []
  replies : (s.conns 0).replies = []

theorem Loaded.one_more {n : Nat} {s : TcpTransport} (h : Loaded n s) (hn : n < 0x10000) :
    ∃ s', step s (request n) = some s' ∧ Loaded (n + 1) s' := by
  have hcounter : s.next_tid = n := by rw [h.counter, Nat.mod_eq_of_lt hn]
  have hfree : n ∉ s.pending := by
    rw [← AList.lookup_eq_none, h.pending n]
    simp
  have ha : allocate_tid s.pending s.next_tid = (some n, (n + 1) % 0x10000) := by
    rw [hcounter]
    exact allocate_first hfree
  have hstep := request_step h.connected h.closed h.pipeline h.writer (h.unused n (Nat.le_refl n)) ha hn
  refine ⟨_, hstep, ?_⟩
  constructor
  · simp [write_frame, register, set_call, set_conn, h.connected]
  · simp [write_frame, register, set_call, set_conn, h.closed]
  · simp [write_frame, register, set_call, set_conn, h.pipeline]
  · simp [write_frame, register, set_call, set_conn, h.writer]
  · simp [write_frame, register, set_call, set_conn]
  · simp [write_frame, register, set_call, set_conn, h.allocated]
  · intro t
    change (s.pending.insert n n).lookup t = _
    by_cases ht : t = n
    · subst ht
      simp [AList.lookup_insert]
    · rw [AList.lookup_insert_ne ht, h.pending t]
      by_cases hlt : t < n
      · rw [if_pos hlt, if_pos (by omega)]
      · rw [if_neg hlt, if_neg (by omega)]
  · intro c hc
    by_cases hcn : c = n
    · subst hcn
      simp [write_frame, register, set_call, set_conn, request_call, h.allocated]
    · simpa [write_frame, register, set_call, set_conn, update_of_ne hcn] using
        h.used c (by omega)
  · intro c hc
    have hcn : c ≠ n := by omega
    simpa [write_frame, register, set_call, set_conn, update_of_ne hcn] using
      h.unused c (by omega)
  · simpa [write_frame, register, set_call, set_conn] using h.reading
  · simpa [write_frame, register, set_call, set_conn] using h.wire
  · simpa [write_frame, register, set_call, set_conn] using h.unread
  · simpa [write_frame, register, set_call, set_conn] using h.replies

/-- Requests one after the other fill the dictionary. -/
theorem Loaded.more {n : Nat} {s : TcpTransport} (h : Loaded n s) :
    ∀ k, n + k ≤ 0x10000 → ∃ s', run step s ((List.range' n k).map request) = some s' ∧
      Loaded (n + k) s'
  | 0, _ => ⟨s, rfl, h⟩
  | k + 1, hk => by
    obtain ⟨s', hs', h'⟩ := h.one_more (by omega)
    obtain ⟨s'', hs'', h''⟩ := h'.more k (by omega)
    refine ⟨s'', ?_, by simpa [Nat.add_assoc, Nat.add_comm 1 k] using h''⟩
    rw [List.range'_succ, List.map_cons, run_cons_of hs', hs'']

/-- The late reply to the call 65535 is on its way, and the call 65536 has its id. -/
structure Reused (s : TcpTransport) : Prop where
  late_tid : (s.calls 65535).tid = some 65535
  late_conn : (s.calls 65535).conn = some 0
  late_answer : (s.calls 65535).answer = none
  late_allocated : (s.calls 65535).allocated_at = 65536
  place : (s.calls 65536).place = .draining
  future : (s.calls 65536).future = .pending
  interrupt : (s.calls 65536).interrupt = none
  tid : (s.calls 65536).tid = some 65535
  answer : (s.calls 65536).answer = none
  pending : s.pending.lookup 65535 = some 65536
  allocated : s.allocated = 65537
  reading : s.tasks 0 = { place := .reading 0 }
  wire : (s.conns 0).wire = []
  unread : (s.conns 0).unread = []
  replies : (s.conns 0).replies = []

/-- The call 65535 is cancelled, and the next one probes all the pending ids before its id. -/
theorem Loaded.reuse {s : TcpTransport} (h : Loaded 65536 s) :
    ∃ s', run step s [.cancelled 65535, request 65536] = some s' ∧ Reused s' := by
  obtain ⟨hplace, htid, hconn, hanswer, hallocated⟩ := h.used 65535 (by decide)
  have hcancel : step s (.cancelled 65535) =
      some (s.pop_and_end 65535 (.raised .CancelledError)) := by
    simp [step, cancel_call, hplace]
  have hpop : s.pop_and_end 65535 (.raised .CancelledError) =
      { s with pending := s.pending.erase 65535 }.end_call 65535 (.raised .CancelledError) := by
    simp [pop_and_end, htid]
  generalize hs₁ : s.pop_and_end 65535 (.raised .CancelledError) = s₁ at hcancel hpop
  have hpending : s₁.pending = s.pending.erase 65535 := by rw [hpop]; rfl
  have hold : ∀ d, d ≠ 65535 → s₁.calls d = s.calls d := by
    intro d hd
    rw [hpop]
    simp [end_call, move, set_call, update_of_ne hd]
  have hlate : s₁.calls 65535 = { s.calls 65535 with place := .raised .CancelledError } := by
    rw [hpop]
    simp [end_call, move, set_call]
  have hnext : s₁.next_tid = 0 := by
    rw [hpop]
    simp [end_call, move, set_call, h.counter]
  -- the probe finds the one id that is free
  have ha : allocate_tid s₁.pending s₁.next_tid = (some 65535, 0) := by
    rw [hpending, hnext]
    rcases hres : allocate_tid (s.pending.erase 65535) 0 with ⟨_ | tid, next'⟩
    · have hall := (probe_none (by decide) hres).2 65535 (by decide)
      exact absurd rfl (AList.mem_erase.mp hall).1
    · obtain ⟨k, hk, htid, hfree, hnext', -⟩ := probe_some (by decide) hres
      have hlast : tid = 65535 := by
        by_contra hne
        apply hfree
        rw [AList.mem_erase]
        refine ⟨hne, ?_⟩
        rw [← AList.lookup_isSome, h.pending tid, if_pos (by omega)]
        rfl
      rw [show next' = 0 by omega, hlast]
  have hconn₁ : s₁.connected = true ∧ s₁.closed = false ∧ s₁.pipeline = true ∧
      s₁.writer = some 0 ∧ s₁.allocated = 65536 ∧ s₁.tasks = s.tasks ∧ s₁.conns = s.conns := by
    rw [hpop]
    simp [end_call, move, set_call, h.connected, h.closed, h.pipeline, h.writer, h.allocated]
  obtain ⟨hc, hcl, hp, hw, hal, htasks, hconns⟩ := hconn₁
  have hnew : s₁.calls 65536 = {} := by
    rw [hold 65536 (by decide)]
    exact h.unused 65536 (Nat.le_refl _)
  have hstep := request_step hc hcl hp hw hnew ha (by decide)
  refine ⟨_, (run_cons_of hcancel).trans ((run_cons_of hstep).trans rfl), ?_⟩
  have hkept : ∀ next, ((((s₁.set_call 65536 request_call).register 65536 65535 next).write_frame 65536 0
      (request_frame 65535)).calls 65535) = s₁.calls 65535 := fun next => by
    simp [write_frame, register, set_call, set_conn]
  constructor
  · rw [hkept, hlate]
    exact htid
  · rw [hkept, hlate]
    exact hconn
  · rw [hkept, hlate]
    exact hanswer
  · rw [hkept, hlate]
    exact hallocated
  · simp [write_frame, set_call]
  · simp [write_frame, register, set_call, set_conn]
  · simp [write_frame, register, set_call, set_conn, request_call]
  · simp [write_frame, register, set_call, set_conn]
  · simp [write_frame, register, set_call, set_conn, request_call]
  · simp [write_frame, register, set_call, set_conn, AList.lookup_insert]
  · simp [write_frame, register, set_call, set_conn, hal]
  · simp [write_frame, register, set_call, set_conn, htasks, h.reading]
  · simp [write_frame, register, set_call, set_conn, hconns, h.wire]
  · simp [write_frame, register, set_call, set_conn, hconns, h.unread]
  · simp [write_frame, register, set_call, set_conn, hconns, h.replies]

def late_reply : List Event :=
  [.peer_replied 65535 1 [3, 2, 0, 7], .bytes_arrived 0 11, .frame_read 0, .drained 65536,
    .resumed 65536]

/-- The late reply is returned by the call that has the id now. -/
theorem Reused.delivered {s : TcpTransport} (h : Reused s) :
    ∃ s', run step s late_reply = some s' ∧
      Guarded step (fun s e => e.only_replies ∧ InTimeByAllocations s e) s late_reply ∧
      (s'.calls 65536).place = .returned (some [3, 2, 0, 7]) ∧ (s'.calls 65536).answer = none := by
  generalize hfr : mbap_header 65535 1 5 ++ [3, 2, 0, 7] = frame
  have hframe : encode_mbap_frame ((65535 : Nat) : Int) 1 [3, 2, 0, 7] = .ok frame := by
    rw [← hfr]
    exact encode_mbap_frame_ok (by decide) (by decide) (by decide) (by decide)
  have hlen : frame.length = 11 := by
    rw [← hfr]
    rfl
  have hdispatch : ∀ s : TcpTransport, s.pending.lookup 65535 = some 65536 →
      (s.calls 65536).future = .pending → s.dispatch_frame frame (some 65535) =
        s.set_call 65536 { s.calls 65536 with
          future := .result [3, 2, 0, 7] (some 65535) } := by
    intro s hp hf
    unfold dispatch_frame
    rw [decode_encode_mbap_frame hframe]
    simp only [Int.toNat_natCast, hp, hf, if_true]
  -- the peer answers the frame of the call 65535
  generalize hs₁ : (s.set_conn 0 { s.conns 0 with wire := frame, replies := [65535] }).set_call 65535
    { s.calls 65535 with answer := some [3, 2, 0, 7] } = s₁
  have hstep₁ : step s (.peer_replied 65535 1 [3, 2, 0, 7]) = some s₁ := by
    rw [← hs₁]
    simp only [step, peer_reply, h.late_conn, h.late_tid, h.late_answer, hframe, h.wire, h.replies,
      List.nil_append]
  have hcalls₁ : s₁.calls 65536 = s.calls 65536 := by simp [← hs₁, set_call, set_conn]
  have hlate₁ : (s₁.calls 65535).allocated_at = 65536 := by
    simp [← hs₁, set_call, h.late_allocated]
  -- its bytes arrive
  generalize hs₂ : s₁.set_conn 0 { s.conns 0 with unread := frame, wire := [], replies := [65535] } = s₂
  have hstep₂ : step s₁ (.bytes_arrived 0 11) = some s₂ := by
    rw [← hs₂, ← hs₁]
    simp [step, set_call, set_conn, h.unread, ← hlen]
  have hconn₂ : s₂.conns 0 = { s.conns 0 with unread := frame, wire := [], replies := [65535] } := by
    simp [← hs₂, set_conn]
  -- and the read loop gives it to the call that has the id
  generalize hs₃ : (s₂.set_conn 0 { s.conns 0 with unread := [], wire := [], replies := [] }).set_call
    65536 { s.calls 65536 with future := .result [3, 2, 0, 7] (some 65535) } = s₃
  have htask₂ : s₂.tasks 0 = { place := .reading 0 } := by
    rw [← hs₂, ← hs₁]
    simpa [set_call, set_conn] using h.reading
  have hread : read_frame (s₂.conns 0).unread = .ok (some (frame, [])) := by
    rw [hconn₂]
    simpa using read_frame_encoded hframe []
  have hstep₃ : step s₂ (.frame_read 0) = some s₃ := by
    simp only [step, htask₂, read_loop_frame, hread]
    rw [hconn₂]
    simp only [List.tail_cons, List.head?_cons]
    rw [if_neg (by decide), hdispatch, ← hs₃]
    · rw [← hcalls₁, ← hs₂]
      rfl
    · rw [← hs₂, ← hs₁]
      simpa [set_call, set_conn] using h.pending
    · rw [← hs₂]
      exact (congrArg Call.future hcalls₁).trans h.future
  have hcall₃ : s₃.calls 65536 = { s.calls 65536 with
      future := .result [3, 2, 0, 7] (some 65535) } := by
    simp [← hs₃, set_call]
  have hstep₄ : step s₃ (.drained 65536) = some (s₃.move 65536 .waiting) := by
    simp [step, hcall₃, h.place]
  have hstep₅ : step (s₃.move 65536 .waiting) (.resumed 65536) =
      some ((s₃.move 65536 .waiting).pop_and_end 65536 (.returned (some [3, 2, 0, 7]))) := by
    simp [step, move, set_call, hcall₃, wake, h.interrupt]
  have hrun : run step s late_reply =
      some ((s₃.move 65536 .waiting).pop_and_end 65536 (.returned (some [3, 2, 0, 7]))) :=
    (run_cons_of hstep₁).trans ((run_cons_of hstep₂).trans ((run_cons_of hstep₃).trans
      ((run_cons_of hstep₄).trans (run_cons_of hstep₅))))
  have hpopped : ∀ {s : TcpTransport} {place : CallAt},
      ((s.pop_and_end 65536 place).calls 65536) = { s.calls 65536 with place := place } := by
    intro s place
    unfold pop_and_end
    split <;> simp [end_call, move, set_call]
  refine ⟨_, hrun, ?_, ?_, ?_⟩
  · refine ⟨⟨rfl, by rintro g ⟨⟩⟩, fun s' h' => ?_⟩
    rw [hstep₁] at h'
    cases h'
    refine ⟨⟨rfl, by rintro g ⟨⟩⟩, fun s' h' => ?_⟩
    rw [hstep₂] at h'
    cases h'
    refine ⟨⟨rfl, ?_⟩, fun s' h' => ?_⟩
    · rintro g ⟨⟩ c hc
      rw [hconn₂] at hc
      cases hc
      have hallocated : s₂.allocated = 65537 := by
        rw [← hs₂, ← hs₁]
        simpa [set_call, set_conn] using h.allocated
      have hlate₂ : (s₂.calls 65535).allocated_at = 65536 := by
        rw [← hs₂]
        exact hlate₁
      rw [hallocated, hlate₂]
      decide
    · exact guarded_of_forall (by
        intro e he s
        simp only [List.mem_cons, List.not_mem_nil, or_false] at he
        rcases he with rfl | rfl <;> exact ⟨rfl, by rintro g ⟨⟩⟩) s'
  · rw [hpopped]
  · rw [hpopped]
    simpa [move, set_call, hcall₃] using h.answer

theorem loaded_first :
    ∃ s, run step (new "plc" 502 true "3.0")
      [request 0, .lock_acquired 0, .opened 0, .read_started 0] = some s ∧ Loaded 1 s := by
  refine ⟨_, rfl, rfl, rfl, rfl, rfl, rfl, rfl, ?_, ?_, ?_, rfl, rfl, rfl, rfl⟩
  · intro t
    change ((∅ : Pending).insert 0 0).lookup t = _
    by_cases ht : t = 0
    · subst ht
      rfl
    · rw [AList.lookup_insert_ne ht, AList.lookup_empty, if_neg (by omega)]
  · intro c hc
    have hc0 : c = 0 := by omega
    subst hc0
    exact ⟨rfl, rfl, rfl, rfl, rfl⟩
  · intro c hc
    rcases c with _ | c
    · omega
    · rfl

/-- The id of a call that is done comes back after fewer than 65536 allocations when pending ids
are skipped, and its late reply is then returned by another call. -/
theorem a_late_reply_is_returned_by_another_call :
    ∃ es s, Guarded step (fun s e => e.only_replies ∧ InTimeByAllocations s e)
        (new "plc" 502 true "3.0") es ∧
      run step (new "plc" 502 true "3.0") es = some s ∧
      ∃ c p, (s.calls c).place = .returned (some p) ∧ (s.calls c).answer ≠ some p := by
  obtain ⟨s₁, h₁, hl₁⟩ := loaded_first
  obtain ⟨s₂, h₂, hl₂⟩ := hl₁.more 65535 (by decide)
  obtain ⟨s₃, h₃, hr⟩ := hl₂.reuse
  obtain ⟨s₄, h₄, hg, hret, hans⟩ := hr.delivered
  let before := [request 0, .lock_acquired 0, .opened 0, .read_started 0] ++
    (List.range' 1 65535).map request ++ [.cancelled 65535, request 65536]
  have hrequests : ∀ e ∈ before, ∀ s, e.only_replies ∧ InTimeByAllocations s e := by
    intro e he s
    simp only [before, List.mem_append, List.mem_cons, List.not_mem_nil, or_false,
      List.mem_map] at he
    rcases he with ((rfl | rfl | rfl | rfl) | ⟨c, -, rfl⟩) | rfl | rfl <;>
      exact ⟨rfl, by rintro g ⟨⟩⟩
  have hbefore : run step (new "plc" 502 true "3.0") before = some s₃ := by
    simp only [before]
    rw [run_append, run_append, h₁, Option.bind_some, h₂, Option.bind_some, h₃]
  refine ⟨before ++ late_reply, s₄, ?_, ?_, 65536, [3, 2, 0, 7], hret, ?_⟩
  · apply guarded_append_of (guarded_of_forall hrequests _)
    intro t ht
    rw [hbefore] at ht
    cases ht
    exact hg
  · rw [run_append, hbefore, Option.bind_some, h₄]
  · rw [hans]
    simp

end pymod.tcp
