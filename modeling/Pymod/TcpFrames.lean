-- What stands on a connection: the frames of the calls that have written to it, in that order and
-- each of them once.
import Pymod.TcpIds
import Pymod.Lib.Words

namespace pymod.tcp

open TcpTransport errors Function codec adu_tcp

/-! ## The frames of the calls -/

/-- The frame is that of the call. -/
def FrameOf (s : TcpTransport) (c : Nat) (frame : Bytes) : Prop :=
  ∃ t, (s.calls c).tid = some t ∧
    encode_mbap_frame t (s.calls c).unit_id (s.calls c).pdu = .ok frame

/-- These calls have written to the connection, in this order and no others. -/
structure WrittenBy (s : TcpTransport) (g : Nat) (cs : List Nat) : Prop where
  nodup : cs.Nodup
  mem_iff : ∀ c, c ∈ cs ↔ (s.calls c).conn = some g
  frames : List.Forall₂ (FrameOf s) cs (s.conns g).sent

/-- What the frame of a call is made of. -/
structure SameFrame (x y : Call) : Prop where
  conn : y.conn = x.conn
  tid : y.tid = x.tid
  unit_id : y.unit_id = x.unit_id
  pdu : y.pdu = x.pdu

theorem SameFrame.refl (x : Call) : SameFrame x x := ⟨rfl, rfl, rfl, rfl⟩

theorem SameFrame.trans {x y z : Call} (h : SameFrame x y) (h' : SameFrame y z) :
    SameFrame x z :=
  ⟨h'.conn.trans h.conn, h'.tid.trans h.tid, h'.unit_id.trans h.unit_id, h'.pdu.trans h.pdu⟩

/-- A call that has written its frame stays with it, and no frame is taken back. -/
structure Extends (s s' : TcpTransport) : Prop where
  calls : ∀ c, (s.calls c).conn ≠ none → SameFrame (s.calls c) (s'.calls c)
  sent : ∀ g, (s.conns g).sent <+: (s'.conns g).sent

theorem Extends.refl (s : TcpTransport) : Extends s s :=
  ⟨fun _ _ => .refl _, fun _ => List.prefix_rfl⟩

theorem Extends.trans {s s' s'' : TcpTransport} (h : Extends s s') (h' : Extends s' s'') :
    Extends s s'' := by
  refine ⟨fun c hc => ?_, fun g => (h.sent g).trans (h'.sent g)⟩
  have hfirst := h.calls c hc
  apply hfirst.trans
  apply h'.calls
  rw [hfirst.conn]
  exact hc

/-! ## What an effect writes -/

/-- No frame is written. -/
structure WritesNone (s s' : TcpTransport) : Prop where
  conn : ∀ c, (s'.calls c).conn = (s.calls c).conn
  calls : ∀ c, (s.calls c).conn ≠ none → SameFrame (s.calls c) (s'.calls c)
  sent : ∀ g, (s'.conns g).sent = (s.conns g).sent

/-- A call writes its frame behind what stands on a connection. -/
structure WritesFrame (s s' : TcpTransport) (c g : Nat) (frame : Bytes) : Prop where
  unwritten : (s.calls c).conn = none
  conn : (s'.calls c).conn = some g
  frame_of : FrameOf s' c frame
  others : ∀ d, d ≠ c → s'.calls d = s.calls d
  sent : (s'.conns g).sent = (s.conns g).sent ++ [frame]
  sent_others : ∀ k, k ≠ g → (s'.conns k).sent = (s.conns k).sent

def Writes (s s' : TcpTransport) : Prop :=
  WritesNone s s' ∨ ∃ c g frame, WritesFrame s s' c g frame

theorem WritesNone.trans {s s' s'' : TcpTransport} (h : WritesNone s s') (h' : WritesNone s' s'') :
    WritesNone s s'' := by
  refine ⟨fun c => (h'.conn c).trans (h.conn c), fun c hc => ?_,
    fun g => (h'.sent g).trans (h.sent g)⟩
  apply (h.calls c hc).trans
  apply h'.calls
  rw [h.conn]
  exact hc

theorem WritesNone.of_calls {s s' : TcpTransport} (hcalls : s'.calls = s.calls)
    (hsent : ∀ g, (s'.conns g).sent = (s.conns g).sent) : WritesNone s s' := by
  refine ⟨fun c => by rw [hcalls], fun c _ => ?_, hsent⟩
  rw [hcalls]
  exact .refl _

/-- One call changes. -/
theorem WritesNone.set_call {s : TcpTransport} {c : Nat} {call : Call}
    (hconn : call.conn = (s.calls c).conn)
    (hcall : (s.calls c).conn ≠ none → SameFrame (s.calls c) call) :
    WritesNone s (s.set_call c call) := by
  constructor
  · intro d
    by_cases hd : d = c
    · subst hd
      simpa [TcpTransport.set_call] using hconn
    · simp [TcpTransport.set_call, update_of_ne hd]
  · intro d hd
    by_cases hdc : d = c
    · subst hdc
      simpa [TcpTransport.set_call] using hcall hd
    · simp only [TcpTransport.set_call, update_of_ne hdc]
      exact .refl _
  · intro g
    rfl

theorem writes_none_move (s : TcpTransport) (c : Nat) (place : CallAt) :
    WritesNone s (s.move c place) := by
  exact .set_call rfl fun _ => ⟨rfl, rfl, rfl, rfl⟩

theorem writes_none_end (s : TcpTransport) (c : Nat) (place : CallAt) :
    WritesNone s (s.end_call c place) := by
  have hmove := writes_none_move s c place
  exact ⟨hmove.conn, hmove.calls, hmove.sent⟩

theorem writes_none_pop (s : TcpTransport) (c : Nat) (place : CallAt) :
    WritesNone s (s.pop_and_end c place) := by
  have hend := writes_none_end s c place
  unfold TcpTransport.pop_and_end
  split
  · exact hend
  · exact ⟨hend.conn, hend.calls, hend.sent⟩

/-- A call without a frame gets an id. -/
theorem writes_none_register {s : TcpTransport} {c : Nat} (hconn : (s.calls c).conn = none)
    (tid next_tid : Nat) : WritesNone s (s.register c tid next_tid) := by
  constructor
  · intro d
    by_cases hd : d = c
    · subst hd
      simp [register]
    · simp [register, update_of_ne hd]
  · intro d hd
    have hdc : d ≠ c := by
      rintro rfl
      exact hd hconn
    simp only [register, update_of_ne hdc]
    exact .refl _
  · intro g
    rfl

theorem writes_send {s : TcpTransport} {c : Nat} (hconn : (s.calls c).conn = none) :
    Writes s (s.send_and_receive_unlocked c) := by
  unfold send_and_receive_unlocked
  split
  · rename_i next_tid _
    have hnext : WritesNone s { s with next_tid := next_tid } := .of_calls rfl fun _ => rfl
    exact .inl (hnext.trans (writes_none_end _ c _))
  · rename_i tid next_tid _
    have hregister := writes_none_register hconn tid next_tid
    have hpop : ∀ e, Writes s ((s.register c tid next_tid).pop_and_end c (.raised e)) := fun e =>
      .inl (hregister.trans (writes_none_pop _ c _))
    unfold TcpTransport.write_request
    split
    · exact hpop _
    · rename_i w _
      split
      · exact hpop _
      · rename_i frame hframe
        refine .inr ⟨c, w, frame, hconn, ?_, ⟨tid, ?_, ?_⟩, fun d hd => ?_, ?_, fun k hk => ?_⟩
        · simp [write_frame, TcpTransport.set_call]
        · simp [write_frame, TcpTransport.set_call, set_conn, register]
        · simpa [write_frame, TcpTransport.set_call, set_conn, register] using hframe
        · simp [write_frame, TcpTransport.set_call, set_conn, register, update_of_ne hd]
        · simp [write_frame, TcpTransport.set_call, set_conn, register]
        · simp [write_frame, TcpTransport.set_call, set_conn, register, update_of_ne hk]

theorem writes_none_set_conn {s : TcpTransport} {g : Nat} {conn : Conn}
    (h : conn.sent = (s.conns g).sent) : WritesNone s (s.set_conn g conn) := by
  refine .of_calls rfl fun k => ?_
  by_cases hk : k = g
  · subst hk
    simpa [set_conn] using h
  · simp [set_conn, update_of_ne hk]

theorem Effect.writes {s s' : TcpTransport} (ha : Accounts s) (he : Effect s s') :
    Writes s s' := by
  cases he with
  | silent hs =>
    refine .inl (.of_calls hs.calls fun g => ?_)
    rw [hs.conns]
  | start c kind pdu unit_id timeout_s habs =>
    have hnone := (ha.idle c (by simp [habs, Idle])).2.1
    exact .inl (.set_call hnone.symm fun hc => absurd hnone hc)
  | move c hm => exact .inl (writes_none_move s c _)
  | send c idle _ _ => exact writes_send (ha.idle c idle).2.1
  | drain c hplace => exact .inl (writes_none_move s c _)
  | interrupt c i hplace => exact .inl (.set_call rfl fun _ => ⟨rfl, rfl, rfl, rfl⟩)
  | pop c _ _ _ _ => exact .inl (writes_none_pop s c _)
  | answer c unit_id pdu hreply =>
    obtain ⟨g, tid, frame, -, -, -, -, hcalls, hconns⟩ := peer_reply_spec hreply
    have hcall : WritesNone s (s.set_call c { s.calls c with answer := some pdu }) :=
      .set_call rfl fun _ => ⟨rfl, rfl, rfl, rfl⟩
    have hconn : WritesNone s (s.set_conn g { s.conns g with
        wire := (s.conns g).wire ++ frame, replies := (s.conns g).replies ++ [c] }) :=
      writes_none_set_conn rfl
    refine .inl ⟨?_, ?_, ?_⟩
    · rw [hcalls]
      exact hcall.conn
    · rw [hcalls]
      exact hcall.calls
    · rw [hconns]
      exact hconn.sent
  | arrive g n => exact .inl (writes_none_set_conn rfl)
  | lose g => exact .inl (writes_none_set_conn rfl)

theorem Jump.writes_none {e : Event} {s s' : TcpTransport} (hj : Jump e s s') :
    WritesNone s s' := by
  cases hj with
  | stay => exact .of_calls rfl fun _ => rfl
  | install c => exact .of_calls rfl fun _ => rfl
  | clear a _ _ =>
    have hsame : ∀ c, SameFrame (s.calls c) ((s.clear_pending a).calls c) := by
      intro c
      simp only [clear_pending, fail_pending]
      split
      · exact ⟨rfl, rfl, rfl, rfl⟩
      · exact .refl _
    exact ⟨fun c => (hsame c).conn, fun c _ => hsame c, fun _ => rfl⟩

theorem writes_none_dispatch (s : TcpTransport) (frame : Bytes) (origin : Option Nat) :
    WritesNone s (s.dispatch_frame frame origin) := by
  have hrefl : WritesNone s s := .of_calls rfl fun _ => rfl
  unfold dispatch_frame
  split
  · exact hrefl
  · split
    · exact hrefl
    · split
      · exact .set_call rfl fun _ => ⟨rfl, rfl, rfl, rfl⟩
      · exact hrefl

/-! ## The rows of frames -/

theorem Writes.extends {s s' : TcpTransport} (h : Writes s s') : Extends s s' := by
  rcases h with h | ⟨c, g, frame, h⟩
  · refine ⟨h.calls, fun g => ?_⟩
    rw [h.sent g]
  · constructor
    · intro d hd
      have hdc : d ≠ c := by
        rintro rfl
        exact hd h.unwritten
      rw [h.others d hdc]
      exact .refl _
    · intro k
      by_cases hk : k = g
      · subst hk
        rw [h.sent]
        exact List.prefix_append _ _
      · rw [h.sent_others k hk]

theorem FrameOf.same {s s' : TcpTransport} {c : Nat} {frame : Bytes} (h : FrameOf s c frame)
    (hc : SameFrame (s.calls c) (s'.calls c)) : FrameOf s' c frame := by
  obtain ⟨t, htid, hframe⟩ := h
  refine ⟨t, hc.tid.trans htid, ?_⟩
  rw [hc.unit_id, hc.pdu]
  exact hframe

theorem WrittenBy.keep {s s' : TcpTransport} {g : Nat} {cs : List Nat} (h : WrittenBy s g cs)
    (hext : Extends s s') (hsent : (s'.conns g).sent = (s.conns g).sent)
    (hnew : ∀ c, (s.calls c).conn = none → (s'.calls c).conn ≠ some g) : WrittenBy s' g cs := by
  refine ⟨h.nodup, fun c => ?_, ?_⟩
  · rw [h.mem_iff]
    by_cases hc : (s.calls c).conn = none
    · simp [hc, hnew c hc]
    · rw [(hext.calls c hc).conn]
  · rw [hsent]
    apply Words.forall₂_imp_mem h.frames
    intro c hc frame hframe
    apply hframe.same
    apply hext.calls
    rw [(h.mem_iff c).mp hc]
    simp

theorem WrittenBy.writes {s s' : TcpTransport} {g : Nat} {cs : List Nat} (h : WrittenBy s g cs)
    (hw : Writes s s') : ∃ cs, WrittenBy s' g cs := by
  have hext := hw.extends
  rcases hw with hw | ⟨c, k, frame, hw⟩
  · refine ⟨cs, h.keep hext (hw.sent g) fun c hc => ?_⟩
    rw [hw.conn c, hc]
    simp
  by_cases hk : g = k
  · subst hk
    have hnot : c ∉ cs := by
      intro hc
      have hconn := (h.mem_iff c).mp hc
      rw [hw.unwritten] at hconn
      cases hconn
    refine ⟨cs ++ [c], ?_, fun d => ?_, ?_⟩
    · rw [List.nodup_append]
      refine ⟨h.nodup, List.nodup_singleton c, ?_⟩
      rintro a ha b hb rfl
      rw [List.mem_singleton] at hb
      exact hnot (hb ▸ ha)
    · rw [List.mem_append, List.mem_singleton]
      by_cases hd : d = c
      · subst hd
        simp [hw.conn]
      · rw [hw.others d hd, h.mem_iff]
        simp [hd]
    · rw [hw.sent]
      apply List.rel_append
      · apply Words.forall₂_imp_mem h.frames
        intro d hd frame hframe
        apply hframe.same
        apply hext.calls
        rw [(h.mem_iff d).mp hd]
        simp
      · exact .cons hw.frame_of .nil
  · refine ⟨cs, h.keep hext (hw.sent_others g hk) fun d hd hconn => ?_⟩
    by_cases hdc : d = c
    · subst hdc
      rw [hw.conn] at hconn
      cases hconn
      exact hk rfl
    · rw [hw.others d hdc, hd] at hconn
      cases hconn

/-! ## The steps -/

/-- Each connection has the frames of its calls. -/
structure Framed (s : TcpTransport) : Prop where
  tidy : Tidy s
  accounts : Accounts s
  rows : ∀ g, ∃ cs, WrittenBy s g cs

theorem rows_of_writes {s s' : TcpTransport} (h : ∀ g, ∃ cs, WrittenBy s g cs)
    (hw : Writes s s') (g : Nat) : ∃ cs, WrittenBy s' g cs := by
  obtain ⟨cs, hcs⟩ := h g
  exact hcs.writes hw

theorem framed_step {s s' : TcpTransport} {e : Event} (h : Framed s)
    (he : step s e = some s') : Framed s' ∧ Extends s s' := by
  have hreads : ∀ {t : TcpTransport}, WritesNone s t → t = s' → Framed s' ∧ Extends s s' := by
    rintro t hw rfl
    exact ⟨⟨tidy_step h.tidy he, accounts_step h.tidy h.accounts he,
      rows_of_writes h.rows (.inl hw)⟩, Writes.extends (.inl hw)⟩
  rcases hr : e.reads with _ | _
  · let p : TcpTransport → Prop := fun t =>
      Accounts t ∧ Extends s t ∧ ∀ g, ∃ cs, WrittenBy t g cs
    have hp : p s' := by
      refine (step_through h.tidy he hr).preserves (p := p) ?_ ?_ ⟨h.accounts, .refl s, h.rows⟩
      · rintro t t' ⟨ha, hext, hrows⟩ heff
        have hw := heff.writes ha
        exact ⟨ha.effect heff, hext.trans hw.extends, rows_of_writes hrows hw⟩
      · rintro t t' - ⟨ha, hext, hrows⟩ hj
        have hw : Writes t t' := .inl hj.writes_none
        exact ⟨ha.jump hj, hext.trans hw.extends, rows_of_writes hrows hw⟩
    exact ⟨⟨tidy_step h.tidy he, hp.1, hp.2.2⟩, hp.2.1⟩
  cases e with
  | frame_read g =>
    simp only [step] at he
    split at he
    · split at he
      · cases he
      · obtain ⟨frame, behind, -, heq⟩ := read_loop_frame_spec he
        refine hreads ?_ heq.symm
        apply WritesNone.trans _ (writes_none_dispatch _ frame _)
        exact writes_none_set_conn rfl
    · cases he
  | peer_sent g bytes =>
    cases he
    refine hreads (t := s.set_conn g _) (writes_none_set_conn ?_) rfl
    rfl
  | _ => cases hr

end pymod.tcp
