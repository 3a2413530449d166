-- A TCP transport without pipelining: its requests take turns. A frame is written only when
-- no earlier request waits for its answer, on this connection or on one before it.
import Pymod.TcpRest

namespace pymod.tcp

open TcpTransport Function Runs

/-- A request that is in flight holds the serial lock. -/
theorem Manned.locked {s : TcpTransport} (h : Manned s) (hpipeline : s.pipeline = false) {c : Nat}
    (hopen : Open (s.calls c).place) : s.serial_lock = some c :=
  (h.alone c).entitled (sending_of_open hopen) hpipeline ((h.alone c).sends hopen)

theorem Manned.one_open {s : TcpTransport} (h : Manned s) (hpipeline : s.pipeline = false)
    {c d : Nat} (hc : Open (s.calls c).place) (hd : Open (s.calls d).place) : c = d := by
  have hlocked := h.locked hpipeline hc
  rw [h.locked hpipeline hd] at hlocked
  cases hlocked
  rfl

theorem pipeline_step {s s' : TcpTransport} {e : Event} (ho : Ordered s) (he : step s e = some s') :
    s'.pipeline = s.pipeline := by
  cases acts_step ho.tidy ho.manned he with
  | call c hown hconnection hserial halone hless => exact hown.pipeline
  | opening c hown hconnection hserial halone hless => exact hown.pipeline
  | loop g hg hturns hless => exact hturns.pipeline
  | bytes hcalls htasks hopened hpipeline hconnection hserial hless => exact hpipeline

/-- When a request gets in flight, all other calls stay where they are. -/
theorem others_stand {s s' : TcpTransport} {e : Event} (ho : Ordered s) (he : step s e = some s')
    {c d : Nat} (hc : (s'.calls c).place ≠ (s.calls c).place) (hd : d ≠ c) : Standing s s' d := by
  have hactor : ∀ {a : Nat}, (∀ b, b ≠ a → (s'.calls b).place = (s.calls b).place) → c = a := by
    intro a h
    by_contra hne
    exact hc (h c hne)
  cases acts_step ho.tidy ho.manned he with
  | call a hown hconnection hserial halone hless =>
    obtain rfl := hactor fun b hb => (hown.others b hb).1
    exact hown.others d hd
  | opening a hown hconnection hserial halone hless =>
    obtain rfl := hactor fun b hb => (hown.others b hb).1
    exact hown.others d hd
  | loop g hg hturns hless => exact hturns.calls d
  | bytes hcalls htasks hopened hpipeline hconnection hserial hless => exact hcalls d

/-- At most one request is in flight, under the serial lock, and `_pending` holds no other. -/
structure OneInFlight (s : TcpTransport) : Prop where
  locked : ∀ c, Open (s.calls c).place → s.serial_lock = some c
  one : ∀ c d, Open (s.calls c).place → Open (s.calls d).place → c = d
  pending : ∀ t u c d, s.pending.lookup t = some c → s.pending.lookup u = some d → t = u ∧ c = d

theorem one_in_flight {s : TcpTransport} (hm : Manned s) (ha : Accounts s)
    (hpipeline : s.pipeline = false) : OneInFlight s := by
  refine ⟨fun c => hm.locked hpipeline, fun c d => hm.one_open hpipeline, ?_⟩
  intro t u c d hc hd
  obtain ⟨htid, hopen, -⟩ := ha.registered t c hc
  obtain ⟨hutid, hopen', -⟩ := ha.registered u d hd
  obtain rfl := hm.one_open hpipeline hopen hopen'
  rw [htid] at hutid
  cases hutid
  exact ⟨rfl, rfl⟩

/-- In every run of a transport without pipelining, whatever fails, is cancelled, reconnects or is
closed meanwhile, at most one request is in flight; and when the frame of a request is written, no
other one is, and no id is pending. -/
theorem requests_take_turns (host : String) (port : Int) (connect_timeout_s : String)
    {es : List Event} {s : TcpTransport}
    (hrun : run step (new host port false connect_timeout_s) es = some s) :
    OneInFlight s ∧ ∀ e s' c, step s e = some s' → Open (s'.calls c).place →
      ¬ Open (s.calls c).place → (∀ d, ¬ Open (s.calls d).place) ∧ s.pending = ∅ := by
  have hordered := invariant_run (g := fun _ _ => True) (i := fun s => Ordered s ∧ s.pipeline = false)
    (fun s e s' h _ he => ⟨ordered_step h.1 he, (pipeline_step h.1 he).trans h.2⟩)
    ⟨ordered_new host port false connect_timeout_s, rfl⟩
    (guarded_of_forall (fun _ _ _ => trivial) _) hrun
  obtain ⟨ho, hpipeline⟩ := hordered
  have ha := accounts_run host port false connect_timeout_s hrun
  refine ⟨one_in_flight ho.manned ha hpipeline, ?_⟩
  intro e s' c he hopen' hopen
  have hnone : ∀ d, ¬ Open (s.calls d).place := by
    intro d hd
    have hdc : d ≠ c := by
      rintro rfl
      exact hopen hd
    have hmoved : (s'.calls c).place ≠ (s.calls c).place := fun heq => hopen (heq ▸ hopen')
    have hstand := others_stand ho he hmoved hdc
    have hd' : Open (s'.calls d).place := hstand.1 ▸ hd
    exact hdc ((ordered_step ho he).manned.one_open ((pipeline_step ho he).trans hpipeline) hd' hopen')
  exact ⟨hnone, pending_empty ha hnone⟩

/-- Two requests at once: the second one is written when the first one has timed out. -/
def two_requests : List Event :=
  [.start_send 0 [3, 0, 0, 0, 1] 1 "1.0", .start_send 1 [3, 0, 5, 0, 1] 1 "1.0", .serial_acquired 0,
    .lock_acquired 0, .opened 0, .drained 0, .timed_out 0, .resumed 0]

theorem the_second_request_waits_for_the_first :
    ∃ s s', run step (new "plc" 502 false "3.0") two_requests = some s ∧
      step s (.serial_acquired 1) = some s' ∧ (s'.calls 1).place = .draining ∧
      (∀ d, ¬ Open (s.calls d).place) ∧ s.pending = ∅ := by
  have hrun : run step (new "plc" 502 false "3.0") two_requests = some _ := rfl
  refine ⟨_, _, hrun, rfl, by decide, ?_⟩
  exact (requests_take_turns "plc" 502 "3.0" hrun).2 (.serial_acquired 1) _ 1 rfl trivial id

end pymod.tcp
