-- Whose answer a call over RTU-over-TCP returns. There is no transaction id: what
-- keeps the answers apart is that the stream is empty whenever the lock is free.
import Pymod.RtuOverTcp
import Pymod.Lib.Runs

namespace pymod.rtu_over_tcp

open RtuOverTcpTransport errors codec adu_rtu Readers Function Runs

/-! ## The property and the guard -/

/-- The PDU was parsed from the whole answer to the request of the call, and from nothing else. -/
def OwnAnswer (c : Nat) (call : Call) (pdu : Bytes) : Prop :=
  ∃ (answer : Bytes) (uid : Nat), call.answer = some answer ∧ call.taken = tagged c answer ∧
    (uid : Int) = call.unit_id ∧ decode_rtu_frame answer = .ok (uid, pdu)

/-- Every call that has returned a PDU has its own answer. -/
def ReturnsOwn (s : RtuOverTcpTransport) : Prop :=
  ∀ c pdu, (s.calls c).place = .returned (some pdu) → OwnAnswer c (s.calls c) pdu

/-- The request of the call is written, and its response is not read yet. -/
def InFlight : CallAt → Prop
  | .draining | .reading _ _ => True
  | _ => False

instance : ∀ place : CallAt, Decidable (InFlight place)
  | .draining | .reading _ _ => isTrue trivial
  | .absent | .lock | .opening | .wait_closed _ | .returned _ | .raised _ => isFalse id

def Event.cancels : Event → Option Nat
  | .cancelled c => some c
  | _ => none

def Event.answer : Event → Option (Nat × Bytes)
  | .answered g _ answer => some (g, answer)
  | _ => none

/-- No call is cancelled while its exchange is in flight, and on the connection in use no answer
has bytes behind the end that the reader finds in it. -/
def NothingLeftBehind (s : RtuOverTcpTransport) (e : Event) : Prop :=
  (∀ c ∈ e.cancels, ¬ InFlight (s.calls c).place) ∧
    ∀ a ∈ e.answer, s.writer = some a.1 → Fits read_rtu_response a.2

instance (s : RtuOverTcpTransport) (e : Event) : Decidable (NothingLeftBehind s e) :=
  inferInstanceAs (Decidable (_ ∧ _))

/-! ## The invariant -/

@[simp] theorem bytes_tagged (c : Nat) (answer : Bytes) : bytes (tagged c answer) = answer := by
  simp [bytes, tagged, Function.comp_def]

@[simp] theorem bytes_append (l l' : List Tagged) : bytes (l ++ l') = bytes l ++ bytes l' :=
  List.map_append

/-- The gateway has nothing to answer on the connection, and no byte of it is unread. -/
def Empty (conn : Conn) : Prop := conn.asked = [] ∧ conn.unread ++ conn.wire = []

/-- The gateway may still answer the call, or all its bytes are those of the answer. -/
def Exchange (conn : Conn) (c : Nat) (call : Call) : Prop :=
  (conn.asked = [c] ∧ call.taken = [] ∧ conn.unread ++ conn.wire = []) ∨
    (conn.asked = [] ∧ ∃ answer, call.answer = some answer ∧ Fits read_rtu_response answer ∧
      call.taken ++ (conn.unread ++ conn.wire) = tagged c answer)

/-- The call holds the lock. -/
def Holds : CallAt → Prop
  | .opening | .draining | .reading _ _ | .wait_closed _ => True
  | _ => False

/-- The call has not written its request. -/
def Unsent : CallAt → Prop
  | .absent | .lock | .opening => True
  | _ => False

theorem holds_of_in_flight {place : CallAt} (h : InFlight place) : Holds place := by
  cases place <;> trivial

/-- The fields of the connection agree. -/
structure Linked (s : RtuOverTcpTransport) : Prop where
  same : s.reader = s.writer
  connected : s.connected = s.writer.isSome
  opened : ∀ g, s.writer = some g → g < s.opened
  unopened : ∀ g, s.opened ≤ g → Empty (s.conns g)

/-- What the call has read so far, and what its reader is. -/
def Reads (writer : Option Nat) (call : Call) : CallAt → Prop
  | .draining => call.taken = []
  | .reading reader r => writer = some reader ∧ After read_rtu_response (bytes call.taken) r
  | _ => True

/-- A call by itself: it has taken nothing before its request, and it returns its answer. -/
structure Fine (c : Nat) (call : Call) : Prop where
  unsent : Unsent call.place → call.taken = []
  returned : ∀ pdu, call.place = .returned (some pdu) → OwnAnswer c call pdu

/-- The call that holds the lock is the only one in flight, and the connection holds nothing but
what belongs to it. -/
structure Sound (s : RtuOverTcpTransport) : Prop where
  linked : Linked s
  fine : ∀ c, Fine c (s.calls c)
  holder : ∀ c, Holds (s.calls c).place → s.lock = some c
  reads : ∀ c, Reads s.writer (s.calls c) (s.calls c).place
  flight : ∀ c, InFlight (s.calls c).place →
    ∃ g, s.writer = some g ∧ Exchange (s.conns g) c (s.calls c)
  idle : (∀ c, ¬ InFlight (s.calls c).place) → ∀ g, s.writer = some g → Empty (s.conns g)

/-! ## Everything but the holder of the lock -/

/-- The lock belongs to the call, and all the others are in order. -/
structure Around (s : RtuOverTcpTransport) (c : Nat) : Prop where
  linked : Linked s
  lock : s.lock = some c
  fine : ∀ d, d ≠ c → Fine d (s.calls d)
  others : ∀ d, d ≠ c → ¬ Holds (s.calls d).place

theorem reads_of_not_in_flight {writer : Option Nat} {call : Call} {place : CallAt}
    (h : ¬ InFlight place) : Reads writer call place := by
  cases place <;> first | trivial | exact absurd trivial h

theorem Sound.around {s : RtuOverTcpTransport} (h : Sound s) {c : Nat}
    (hc : Holds (s.calls c).place) : Around s c := by
  refine ⟨h.linked, h.holder c hc, fun d _ => h.fine d, ?_⟩
  intro d hd hh
  have h1 := h.holder c hc
  have h2 := h.holder d hh
  rw [h1] at h2
  cases h2
  exact hd rfl

/-- The holder is in flight. -/
theorem Around.flight {s : RtuOverTcpTransport} {c g : Nat} (h : Around s c)
    (hfine : Fine c (s.calls c)) (hc : InFlight (s.calls c).place) (hg : s.writer = some g)
    (hreads : Reads s.writer (s.calls c) (s.calls c).place)
    (hex : Exchange (s.conns g) c (s.calls c)) : Sound s := by
  have hother : ∀ d, d ≠ c → ¬ InFlight (s.calls d).place := fun d hd hf =>
    h.others d hd (holds_of_in_flight hf)
  refine ⟨h.linked, ?_, ?_, ?_, ?_, ?_⟩
  · intro d
    by_cases hd : d = c
    · exact hd ▸ hfine
    · exact h.fine d hd
  · intro d hh
    by_cases hd : d = c
    · exact hd ▸ h.lock
    · exact absurd hh (h.others d hd)
  · intro d
    by_cases hd : d = c
    · exact hd ▸ hreads
    · exact reads_of_not_in_flight (hother d hd)
  · intro d hf
    by_cases hd : d = c
    · subst hd
      exact ⟨g, hg, hex⟩
    · exact absurd hf (hother d hd)
  · intro hno
    exact absurd hc (hno c)

/-- The holder is not in flight. -/
theorem Around.idle {s : RtuOverTcpTransport} {c : Nat} (h : Around s c)
    (hfine : Fine c (s.calls c)) (hc : ¬ InFlight (s.calls c).place)
    (hempty : ∀ g, s.writer = some g → Empty (s.conns g)) : Sound s := by
  have hno : ∀ d, ¬ InFlight (s.calls d).place := by
    intro d hf
    by_cases hd : d = c
    · exact hc (hd ▸ hf)
    · exact h.others d hd (holds_of_in_flight hf)
  refine ⟨h.linked, ?_, ?_, fun d => reads_of_not_in_flight (hno d),
    fun d hf => absurd hf (hno d), fun _ => hempty⟩
  · intro d
    by_cases hd : d = c
    · exact hd ▸ hfine
    · exact h.fine d hd
  · intro d hh
    by_cases hd : d = c
    · exact hd ▸ h.lock
    · exact absurd hh (h.others d hd)

theorem Around.set_call {s : RtuOverTcpTransport} {c : Nat} (h : Around s c) (call : Call) :
    Around (s.set_call c call) c := by
  have hother : ∀ d, d ≠ c → (s.set_call c call).calls d = s.calls d := fun d hd =>
    update_of_ne hd _ _
  refine ⟨⟨h.linked.same, h.linked.connected, h.linked.opened, h.linked.unopened⟩, h.lock, ?_, ?_⟩
  · intro d hd
    rw [hother d hd]
    exact h.fine d hd
  · intro d hd
    rw [hother d hd]
    exact h.others d hd

theorem Linked.set_conn {s : RtuOverTcpTransport} (h : Linked s) {g : Nat} {conn : Conn}
    (hg : s.opened ≤ g → Empty conn) : Linked (s.set_conn g conn) := by
  refine ⟨h.same, h.connected, h.opened, ?_⟩
  intro k hk
  by_cases hkg : k = g
  · subst hkg
    simpa [RtuOverTcpTransport.set_conn] using hg hk
  · simpa [RtuOverTcpTransport.set_conn, update_of_ne hkg] using h.unopened k hk

theorem Around.set_conn {s : RtuOverTcpTransport} {c g : Nat} (h : Around s c)
    (hg : s.writer = some g) (conn : Conn) : Around (s.set_conn g conn) c := by
  refine ⟨h.linked.set_conn ?_, h.lock, h.fine, h.others⟩
  intro hle
  have := h.linked.opened g hg
  omega

theorem Around.disconnect {s : RtuOverTcpTransport} {c : Nat} (h : Around s c) :
    Around s.disconnect c :=
  ⟨⟨rfl, rfl, by rintro g ⟨⟩, h.linked.unopened⟩, h.lock, h.fine, h.others⟩

theorem Around.install {s : RtuOverTcpTransport} {c : Nat} (h : Around s c) :
    Around s.install c := by
  refine ⟨⟨rfl, rfl, ?_, ?_⟩, h.lock, h.fine, h.others⟩
  · rintro g ⟨⟩
    exact Nat.lt_succ_self _
  · intro g hg
    exact h.linked.unopened g (Nat.le_of_succ_le hg)

@[simp] theorem calls_set_call (s : RtuOverTcpTransport) (c : Nat) (call : Call) :
    (s.set_call c call).calls c = call := by
  simp [RtuOverTcpTransport.set_call]

@[simp] theorem calls_move (s : RtuOverTcpTransport) (c : Nat) (place : CallAt) :
    (s.move c place).calls c = { s.calls c with place := place } := by
  simp [move, RtuOverTcpTransport.set_call]

theorem Around.move {s : RtuOverTcpTransport} {c : Nat} (h : Around s c) (place : CallAt) :
    Around (s.move c place) c := h.set_call _

/-- A call that holds no lock lets go of it. -/
theorem Sound.release {s : RtuOverTcpTransport} (h : Sound s) {c : Nat}
    (hc : ¬ Holds (s.calls c).place) : Sound (s.release c) := by
  refine ⟨⟨h.linked.same, h.linked.connected, h.linked.opened, h.linked.unopened⟩, h.fine, ?_,
    h.reads, h.flight, h.idle⟩
  intro d hd
  have hdc : d ≠ c := by
    rintro rfl
    exact hc hd
  have hlock := h.holder d hd
  simp only [RtuOverTcpTransport.release, hlock]
  rw [if_neg (by simpa using hdc)]

/-- How a call can end without a PDU. -/
def Over : CallAt → Prop
  | .returned none | .raised _ => True
  | _ => False

theorem not_holds_of_over {place : CallAt} (h : Over place) : ¬ Holds place := by
  cases place <;> first | exact id | exact h.elim

theorem Over.fine {c : Nat} {call : Call} (h : Over call.place) : Fine c call := by
  constructor
  · intro hu
    cases hp : call.place <;> rw [hp] at h hu <;> first | exact h.elim | exact hu.elim
  · intro pdu hp
    rw [hp] at h
    exact h.elim

/-- The holder of the lock ends, and the connection is empty. -/
theorem Around.end_fine {s : RtuOverTcpTransport} {c : Nat} (h : Around s c) {place : CallAt}
    (hfine : Fine c { s.calls c with place := place }) (hnot : ¬ Holds place)
    (hempty : ∀ g, s.writer = some g → Empty (s.conns g)) : Sound (s.end_call c place) := by
  have hmove : Sound (s.move c place) := by
    apply (h.move place).idle
    · rw [calls_move]
      exact hfine
    · rw [calls_move]
      exact fun hf => hnot (holds_of_in_flight hf)
    · exact hempty
  apply hmove.release
  rw [calls_move]
  exact hnot

theorem Around.end_call {s : RtuOverTcpTransport} {c : Nat} (h : Around s c) {place : CallAt}
    (hplace : Over place) (hempty : ∀ g, s.writer = some g → Empty (s.conns g)) :
    Sound (s.end_call c place) :=
  h.end_fine (Over.fine hplace) (not_holds_of_over hplace) hempty

/-! ## The functions of the transport -/

theorem Around.torn_down {s : RtuOverTcpTransport} {c : Nat} (h : Around s c) (e : Option PyError)
    (hempty : ∀ g, s.writer = some g → Empty (s.conns g)) : Sound (s.torn_down c e) := by
  rcases e with _ | e
  · exact h.end_call trivial hempty
  · exact h.end_call trivial hempty

/-- A teardown leaves no connection, so nothing is left on it. -/
theorem Around.teardown_locked {s : RtuOverTcpTransport} {c : Nat} (h : Around s c)
    (e : Option PyError) : Sound (s.teardown_locked c e) := by
  have hd := h.disconnect
  unfold RtuOverTcpTransport.teardown_locked
  split
  · apply (hd.move _).idle
    · rw [calls_move]
      exact ⟨fun hu => hu.elim, by rintro pdu ⟨⟩⟩
    · rw [calls_move]
      exact id
    · rintro g ⟨⟩
  · apply hd.torn_down
    rintro g ⟨⟩

theorem Around.write_request {s : RtuOverTcpTransport} {c : Nat} (h : Around s c)
    (htaken : (s.calls c).taken = []) (hempty : ∀ g, s.writer = some g → Empty (s.conns g)) :
    Sound (s.write_request c) := by
  unfold RtuOverTcpTransport.write_request
  split
  · rename_i writer _ hw _
    split
    · exact h.end_call trivial hempty
    · rename_i frame _
      obtain ⟨hasked, hbytes⟩ := hempty writer hw
      have hset := h.set_conn hw { s.conns writer with
        sent := (s.conns writer).sent ++ [frame], asked := (s.conns writer).asked ++ [c] }
      unfold write_frame
      apply (hset.move .draining).flight (g := writer)
      · rw [calls_move]
        exact ⟨fun hu => hu.elim, by rintro pdu ⟨⟩⟩
      · rw [calls_move]
        trivial
      · exact hw
      · rw [calls_move]
        exact htaken
      · left
        rw [calls_move]
        refine ⟨?_, htaken, ?_⟩
        · simp [RtuOverTcpTransport.set_conn, RtuOverTcpTransport.move,
            RtuOverTcpTransport.set_call, hasked]
        · simpa [RtuOverTcpTransport.set_conn, RtuOverTcpTransport.move,
            RtuOverTcpTransport.set_call] using hbytes
  · exact h.end_call trivial hempty

theorem Around.opened_call {s : RtuOverTcpTransport} {c : Nat} (h : Around s c)
    (htaken : (s.calls c).taken = []) (hempty : ∀ g, s.writer = some g → Empty (s.conns g)) :
    Sound (s.opened_call c) := by
  unfold RtuOverTcpTransport.opened_call
  split
  · exact h.write_request htaken hempty
  · exact h.end_call trivial hempty

theorem Around.open_locked {s : RtuOverTcpTransport} {c : Nat} (h : Around s c)
    (htaken : (s.calls c).taken = []) (hempty : ∀ g, s.writer = some g → Empty (s.conns g)) :
    Sound (s.open_locked c) := by
  unfold RtuOverTcpTransport.open_locked
  split
  · exact h.opened_call htaken hempty
  · split
    · exact h.end_call trivial hempty
    · apply (h.move .opening).idle
      · rw [calls_move]
        exact ⟨fun _ => htaken, by rintro pdu ⟨⟩⟩
      · rw [calls_move]
        exact id
      · exact hempty

theorem Around.locked {s : RtuOverTcpTransport} {c : Nat} (h : Around s c)
    (htaken : (s.calls c).taken = []) (hempty : ∀ g, s.writer = some g → Empty (s.conns g)) :
    Sound (s.locked c) := by
  unfold RtuOverTcpTransport.locked
  split
  · exact h.teardown_locked none
  · exact h.open_locked htaken hempty

/-- The whole answer was taken when the reader came to an end. -/
theorem Exchange.ended {conn : Conn} {c : Nat} {call : Call} (h : Exchange conn c call)
    {x : Except PyError Bytes} (hx : run read_rtu_response (bytes call.taken) = some (x, [])) :
    Empty conn ∧ ∃ answer, call.answer = some answer ∧ call.taken = tagged c answer := by
  rcases h with ⟨-, htaken, -⟩ | ⟨hasked, answer, ha, hfits, hbytes⟩
  · rw [htaken] at hx
    cases hx
  · have hanswer : answer = bytes call.taken ++ bytes (conn.unread ++ conn.wire) := by
      rw [← bytes_append, hbytes, bytes_tagged]
    have hrun := run_append hx (bytes (conn.unread ++ conn.wire))
    rw [← hanswer] at hrun
    have hrest : conn.unread ++ conn.wire = [] := by
      have := hfits _ _ hrun
      simpa [bytes] using this
    rw [hrest, List.append_nil] at hbytes
    exact ⟨⟨hasked, hrest⟩, answer, ha, hbytes⟩

/-- The reader goes on or has ended. -/
theorem Around.resume_reading {s : RtuOverTcpTransport} {c g : Nat} (h : Around s c)
    (hg : s.writer = some g) (hex : Exchange (s.conns g) c (s.calls c))
    {r : Reader UInt8 PyError Bytes}
    (hr : After read_rtu_response (bytes (s.calls c).taken) r) : Sound (s.resume_reading c g r) := by
  have hempty : ∀ {x : Except PyError Bytes},
      run read_rtu_response (bytes (s.calls c).taken) = some (x, []) →
      ∀ k, s.writer = some k → Empty (s.conns k) := by
    intro x hx k hk
    rw [hg] at hk
    cases hk
    exact (hex.ended hx).1
  unfold RtuOverTcpTransport.resume_reading
  split
  · apply (h.move _).flight (g := g)
    · rw [calls_move]
      exact ⟨fun hu => hu.elim, by rintro pdu ⟨⟩⟩
    · rw [calls_move]
      trivial
    · exact hg
    · rw [calls_move]
      exact ⟨hg, hr⟩
    · rw [calls_move]
      exact hex
  · exact h.end_call trivial (hempty hr.raised)
  · rename_i frame
    obtain ⟨answer, ha, htaken⟩ := (hex.ended hr.done).2
    have hframe : frame = answer := by
      have := read_rtu_response_takes hr.done
      rw [htaken, bytes_tagged, List.append_nil] at this
      exact this.symm
    unfold check_response
    split
    · exact h.end_call trivial (hempty hr.done)
    · rename_i uid response_pdu hdecode
      split
      · exact h.end_call trivial (hempty hr.done)
      · rename_i hunit
        apply h.end_fine _ id (hempty hr.done)
        refine ⟨fun hu => hu.elim, ?_⟩
        rintro pdu ⟨⟩
        exact ⟨answer, uid, ha, htaken, not_not.mp hunit, hframe ▸ hdecode⟩

/-! ## Steps of the others -/

/-- A call that does not hold the lock goes on without it. -/
theorem Sound.outside {s : RtuOverTcpTransport} (h : Sound s) {c : Nat} {call : Call}
    (hold : ¬ Holds (s.calls c).place) (hnew : ¬ Holds call.place) (hfine : Fine c call) :
    Sound (s.set_call c call) := by
  have hself : (s.set_call c call).calls c = call := update_self _ _ _
  have hother : ∀ d, d ≠ c → (s.set_call c call).calls d = s.calls d := fun d hd =>
    update_of_ne hd _ _
  refine ⟨⟨h.linked.same, h.linked.connected, h.linked.opened, h.linked.unopened⟩, ?_, ?_, ?_, ?_,
    ?_⟩
  · intro d
    by_cases hd : d = c
    · subst hd
      rw [hself]
      exact hfine
    · rw [hother d hd]
      exact h.fine d
  · intro d hh
    by_cases hd : d = c
    · subst hd
      rw [hself] at hh
      exact absurd hh hnew
    · rw [hother d hd] at hh
      exact h.holder d hh
  · intro d
    by_cases hd : d = c
    · subst hd
      rw [hself]
      exact reads_of_not_in_flight fun hf => hnew (holds_of_in_flight hf)
    · rw [hother d hd]
      exact h.reads d
  · intro d hf
    by_cases hd : d = c
    · subst hd
      rw [hself] at hf
      exact absurd (holds_of_in_flight hf) hnew
    · rw [hother d hd] at hf ⊢
      exact h.flight d hf
  · intro hno
    apply h.idle
    intro d hf
    by_cases hd : d = c
    · subst hd
      exact hold (holds_of_in_flight hf)
    · apply hno d
      rw [hother d hd]
      exact hf

theorem Sound.end_outside {s : RtuOverTcpTransport} (h : Sound s) {c : Nat} {place : CallAt}
    (hold : ¬ Holds (s.calls c).place) (hplace : Over place) : Sound (s.end_call c place) := by
  have hmove : Sound (s.move c place) := h.outside hold (not_holds_of_over hplace) hplace.fine
  apply hmove.release
  rw [calls_move]
  exact not_holds_of_over hplace

/-- Bytes move on inside of a connection. -/
theorem Sound.set_conn {s : RtuOverTcpTransport} (h : Sound s) {g : Nat} {conn : Conn}
    (hasked : conn.asked = (s.conns g).asked)
    (hbytes : conn.unread ++ conn.wire = (s.conns g).unread ++ (s.conns g).wire) :
    Sound (s.set_conn g conn) := by
  have hempty : ∀ k, Empty (s.conns k) → Empty ((s.set_conn g conn).conns k) := by
    intro k hk
    by_cases hkg : k = g
    · subst hkg
      simpa [Empty, RtuOverTcpTransport.set_conn, hasked, hbytes] using hk
    · simpa [RtuOverTcpTransport.set_conn, update_of_ne hkg] using hk
  refine ⟨⟨h.linked.same, h.linked.connected, h.linked.opened, ?_⟩, h.fine, h.holder, h.reads, ?_,
    ?_⟩
  · exact fun k hk => hempty k (h.linked.unopened k hk)
  · intro c hc
    obtain ⟨k, hk, hex⟩ := h.flight c hc
    refine ⟨k, hk, ?_⟩
    by_cases hkg : k = g
    · subst hkg
      simpa [Exchange, RtuOverTcpTransport.set_conn, hasked, hbytes] using hex
    · simpa [RtuOverTcpTransport.set_conn, update_of_ne hkg] using hex
  · exact fun hno k hk => hempty k (h.idle hno k hk)

/-- The holder of the lock is not in flight, so nobody is. -/
theorem Sound.empty {s : RtuOverTcpTransport} (h : Sound s) {c : Nat} (hlock : s.lock = some c)
    (hc : ¬ InFlight (s.calls c).place) (g : Nat) (hg : s.writer = some g) :
    Empty (s.conns g) := by
  refine h.idle ?_ g hg
  intro d hf
  have hd := h.holder d (holds_of_in_flight hf)
  rw [hlock] at hd
  cases hd
  exact hc hf

/-- A connection that is no longer used changes. -/
theorem Sound.set_old_conn {s : RtuOverTcpTransport} (h : Sound s) {g : Nat} {conn : Conn}
    (hold : s.writer ≠ some g) (hg : g < s.opened) : Sound (s.set_conn g conn) := by
  have hother : ∀ k, k ≠ g → (s.set_conn g conn).conns k = s.conns k := fun k hk =>
    update_of_ne hk _ _
  have hused : ∀ k, s.writer = some k → k ≠ g := by
    rintro k hk rfl
    exact hold hk
  refine ⟨h.linked.set_conn fun hle => absurd hg (by omega), h.fine, h.holder, h.reads, ?_, ?_⟩
  · intro c hc
    obtain ⟨k, hk, hex⟩ := h.flight c hc
    refine ⟨k, hk, ?_⟩
    rw [hother k (hused k hk)]
    exact hex
  · intro hno k hk
    rw [hother k (hused k hk)]
    exact h.idle hno k hk

/-- A call gets an answer on a connection that is not its own any more. -/
theorem Sound.set_answer {s : RtuOverTcpTransport} (h : Sound s) {c : Nat} (answer : Bytes)
    (hnone : (s.calls c).answer = none) :
    Sound (s.set_call c { s.calls c with answer := some answer }) := by
  have hself : (s.set_call c { s.calls c with answer := some answer }).calls c =
      { s.calls c with answer := some answer } := update_self _ _ _
  have hother : ∀ d, d ≠ c →
      (s.set_call c { s.calls c with answer := some answer }).calls d = s.calls d := fun d hd =>
    update_of_ne hd _ _
  have hplace : ∀ d, ((s.set_call c { s.calls c with answer := some answer }).calls d).place =
      (s.calls d).place := by
    intro d
    by_cases hd : d = c
    · subst hd
      rw [hself]
    · rw [hother d hd]
  refine ⟨⟨h.linked.same, h.linked.connected, h.linked.opened, h.linked.unopened⟩, ?_, ?_, ?_, ?_,
    ?_⟩
  · intro d
    by_cases hd : d = c
    · subst hd
      rw [hself]
      refine ⟨(h.fine d).unsent, ?_⟩
      intro pdu hp
      obtain ⟨answer', uid, ha, -⟩ := (h.fine d).returned pdu hp
      rw [hnone] at ha
      cases ha
    · rw [hother d hd]
      exact h.fine d
  · intro d hh
    rw [hplace] at hh
    exact h.holder d hh
  · intro d
    rw [hplace]
    by_cases hd : d = c
    · subst hd
      rw [hself]
      have hr := h.reads d
      cases hp : (s.calls d).place <;> rw [hp] at hr <;> exact hr
    · rw [hother d hd]
      exact h.reads d
  · intro d hf
    rw [hplace] at hf
    obtain ⟨g, hg, hex⟩ := h.flight d hf
    refine ⟨g, hg, ?_⟩
    by_cases hd : d = c
    · subst hd
      rw [hself]
      rcases hex with hex | ⟨-, answer', ha, -⟩
      · exact .inl hex
      · rw [hnone] at ha
        cases ha
    · rw [hother d hd]
      exact hex
  · intro hno
    apply h.idle
    intro d hf
    apply hno d
    rw [hplace]
    exact hf

/-- The gateway answers the call in flight, or on a connection that is no longer used. -/
theorem Sound.answer_call {s s' : RtuOverTcpTransport} (h : Sound s) {g c : Nat} {answer : Bytes}
    (hfits : s.writer = some g → Fits read_rtu_response answer)
    (he : answer_call s g c answer = some s') : Sound s' := by
  unfold rtu_over_tcp.answer_call at he
  simp only [Option.ite_none_right_eq_some] at he
  obtain ⟨⟨hasked, hnone⟩, he⟩ := he
  cases he
  by_cases hw : s.writer = some g
  · obtain ⟨d, hd⟩ : ∃ d, InFlight (s.calls d).place := by
      by_contra hno
      have hempty := h.idle (not_exists.mp hno) g hw
      rw [hempty.1] at hasked
      cases hasked
    obtain ⟨k, hk, hex⟩ := h.flight d hd
    rw [hw] at hk
    cases hk
    rcases hex with ⟨hone, htaken, hbytes⟩ | ⟨hnobody, -⟩
    · have hcd : c = d := by
        rw [hone] at hasked
        simpa using hasked
      subst hcd
      apply (((h.around (holds_of_in_flight hd)).set_conn hw _).set_call _).flight (g := g)
      · simp only [RtuOverTcpTransport.set_call, update_self]
        refine ⟨fun _ => htaken, ?_⟩
        intro pdu hp
        change (s.calls c).place = .returned (some pdu) at hp
        rw [hp] at hd
        exact hd.elim
      · simpa [RtuOverTcpTransport.set_call] using hd
      · exact hw
      · simp only [RtuOverTcpTransport.set_call, update_self]
        have hr := h.reads c
        cases hp : (s.calls c).place <;> rw [hp] at hr <;> exact hr
      · right
        refine ⟨?_, answer, ?_, hfits hw, ?_⟩
        · simp [RtuOverTcpTransport.set_call, RtuOverTcpTransport.set_conn, hone]
        · simp [RtuOverTcpTransport.set_call]
        · simp only [RtuOverTcpTransport.set_call, RtuOverTcpTransport.set_conn, update_self]
          rw [← List.append_assoc (s.conns g).unread, hbytes]
          simp [htaken]
    · rw [hnobody] at hasked
      cases hasked
  · apply Sound.set_answer
    · apply h.set_old_conn hw
      by_contra hle
      have hempty := h.linked.unopened g (by omega)
      rw [hempty.1] at hasked
      cases hasked
    · exact hnone

/-- The reads take bytes that stay those of the same answer. -/
theorem Exchange.take {conn : Conn} {c : Nat} {call : Call} (h : Exchange conn c call) (n : Nat) :
    Exchange { conn with unread := conn.unread.drop n } c
      { call with taken := call.taken ++ conn.unread.take n } := by
  rcases h with ⟨hasked, htaken, hbytes⟩ | ⟨hasked, answer, ha, hfits, hbytes⟩
  · left
    obtain ⟨hunread, hwire⟩ := List.append_eq_nil_iff.mp hbytes
    simp [hasked, htaken, hunread, hwire]
  · right
    refine ⟨hasked, answer, ha, hfits, ?_⟩
    rw [← hbytes]
    simp only [List.append_assoc]
    rw [← List.append_assoc (conn.unread.take n), List.take_append_drop]

/-- A call that starts, and one that waits for the lock, touch nothing that the others rely on. -/
theorem Sound.start_call {s : RtuOverTcpTransport} (h : Sound s) {c : Nat} {call : Call}
    (habs : (s.calls c).place = .absent) (hplace : call.place = .absent) (htaken : call.taken = []) :
    Sound (s.set_call c call) := by
  apply h.outside
  · rw [habs]
    exact id
  · rw [hplace]
    exact id
  · refine ⟨fun _ => htaken, ?_⟩
    intro pdu hp
    rw [hplace] at hp
    cases hp

theorem Sound.wait_lock {s : RtuOverTcpTransport} (h : Sound s) {c : Nat}
    (habs : (s.calls c).place = .absent) (htaken : (s.calls c).taken = []) :
    Sound (s.move c .lock) := by
  apply h.outside
  · rw [habs]
    exact id
  · exact id
  · exact ⟨fun _ => htaken, by rintro pdu ⟨⟩⟩

theorem Sound.lock_acquired {s : RtuOverTcpTransport} (h : Sound s) {c : Nat}
    (hplace : (s.calls c).place = .lock) (hlock : s.lock = none) :
    Sound ({ s with lock := some c }.locked c) := by
  have hno : ∀ d, ¬ Holds (s.calls d).place := by
    intro d hd
    have := h.holder d hd
    rw [hlock] at this
    cases this
  have hempty := h.idle fun d hf => hno d (holds_of_in_flight hf)
  have haround : Around { s with lock := some c } c :=
    ⟨⟨h.linked.same, h.linked.connected, h.linked.opened, h.linked.unopened⟩, rfl,
      fun d _ => h.fine d, fun d _ => hno d⟩
  exact haround.locked ((h.fine c).unsent (by rw [hplace]; trivial)) hempty

/-- The first byte of the answer is waited for, on the connection that the request went out on. -/
theorem Sound.drained {s : RtuOverTcpTransport} (h : Sound s) {c reader : Nat}
    (hplace : (s.calls c).place = .draining) (hreader : s.reader = some reader) :
    Sound (s.move c (.reading reader read_rtu_response)) := by
  have haround := h.around (c := c) (by rw [hplace]; trivial)
  obtain ⟨g, hw, hex⟩ := h.flight c (by rw [hplace]; trivial)
  have htaken : (s.calls c).taken = [] := by
    have := h.reads c
    rw [hplace] at this
    exact this
  have hgr : g = reader := by
    have := h.linked.same
    rw [hreader, hw] at this
    cases this
    rfl
  subst hgr
  apply (haround.move _).flight (g := g)
  · rw [calls_move]
    exact ⟨fun hu => hu.elim, by rintro pdu ⟨⟩⟩
  · rw [calls_move]
    trivial
  · exact hw
  · rw [calls_move]
    refine ⟨hw, ?_⟩
    rw [htaken]
    exact After.start _
  · rw [calls_move]
    exact hex

/-- The connection of a call that waits in `readexactly`, and where in the reader it is. -/
theorem Sound.reading {s : RtuOverTcpTransport} (h : Sound s) {c reader : Nat}
    {r : Reader UInt8 PyError Bytes} (hplace : (s.calls c).place = .reading reader r) :
    s.writer = some reader ∧ After read_rtu_response (bytes (s.calls c).taken) r := by
  have := h.reads c
  rw [hplace] at this
  exact this

theorem Sound.read {s : RtuOverTcpTransport} (h : Sound s) {c reader n : Nat}
    {k : Bytes → Reader UInt8 PyError Bytes}
    (hplace : (s.calls c).place = .reading reader (.read_exactly n k))
    (hn : n ≤ (s.conns reader).unread.length) :
    Sound ((s.take_bytes c reader n).resume_reading c reader
      (k (bytes ((s.conns reader).unread.take n)))) := by
  have haround := h.around (c := c) (by rw [hplace]; trivial)
  obtain ⟨g, hg, hex⟩ := h.flight c (by rw [hplace]; trivial)
  obtain ⟨hw, hr⟩ := h.reading hplace
  rw [hw] at hg
  cases hg
  unfold take_bytes
  simp only
  apply ((haround.set_conn hw _).set_call _).resume_reading hw
  · simpa [RtuOverTcpTransport.set_call, RtuOverTcpTransport.set_conn] using hex.take n
  · have hlen : (bytes ((s.conns reader).unread.take n)).length = n := by
      simp [bytes, hn]
    simpa [RtuOverTcpTransport.set_call] using hr.read hlen

/-- A call that is cancelled before its request is out, or behind its answer, leaves nothing
behind on the line. -/
theorem Sound.cancel_call {s s' : RtuOverTcpTransport} (h : Sound s) {c : Nat}
    (hflight : ¬ InFlight (s.calls c).place) (he : s.cancel_call c = some s') : Sound s' := by
  unfold RtuOverTcpTransport.cancel_call at he
  split at he
  · rename_i hplace
    cases he
    exact h.end_outside (by rw [hplace]; exact id) trivial
  · rename_i hplace
    cases he
    have haround := h.around (c := c) (by rw [hplace]; trivial)
    exact haround.end_call trivial (h.empty haround.lock hflight)
  · rename_i hplace
    rw [hplace] at hflight
    exact absurd trivial hflight
  · rename_i hplace
    rw [hplace] at hflight
    exact absurd trivial hflight
  · rename_i hplace
    cases he
    have haround := h.around (c := c) (by rw [hplace]; trivial)
    exact haround.end_call trivial (h.empty haround.lock hflight)
  · cases he
  · cases he
  · cases he

theorem sound_step {s s' : RtuOverTcpTransport} {e : Event} (h : Sound s)
    (hg : NothingLeftBehind s e) (he : step s e = some s') : Sound s' := by
  cases e with
  | start_connect c =>
    simp only [step] at he
    split at he
    · rename_i habs
      have hs : Sound (s.set_call c { kind := .connect }) := h.start_call habs rfl rfl
      split at he <;> cases he
      · exact hs.end_outside (by simp [Holds]) trivial
      · exact hs.wait_lock (by simp) (by simp)
    · cases he
  | start_send c pdu unit_id timeout_s =>
    simp only [step] at he
    split at he
    · rename_i habs
      have hs : Sound (s.set_call c { kind := .send_and_receive, pdu := pdu, unit_id := unit_id,
                                      timeout_s := timeout_s }) := h.start_call habs rfl rfl
      split at he
      · cases he
        exact hs.end_outside (by simp [Holds]) trivial
      · split at he <;> cases he
        · exact hs.end_outside (by simp [Holds]) trivial
        · exact hs.wait_lock (by simp) (by simp)
    · cases he
  | start_close c =>
    simp only [step] at he
    split at he
    · rename_i habs
      cases he
      have hs : Sound (s.set_call c { kind := .close }) := h.start_call habs rfl rfl
      have hclosed : Sound { s.set_call c { kind := .close } with closed := true } :=
        ⟨⟨hs.linked.same, hs.linked.connected, hs.linked.opened, hs.linked.unopened⟩, hs.fine,
          hs.holder, hs.reads, hs.flight, hs.idle⟩
      exact hclosed.wait_lock (by simp) (by simp)
    · cases he
  | lock_acquired c =>
    simp only [step] at he
    split at he
    · rename_i hplace hlock
      cases he
      exact h.lock_acquired hplace hlock
    · cases he
  | opened c =>
    simp only [step] at he
    split at he
    · rename_i hplace
      cases he
      have haround := h.around (c := c) (by rw [hplace]; trivial)
      apply haround.install.opened_call
      · exact (h.fine c).unsent (by rw [hplace]; trivial)
      · rintro g ⟨⟩
        exact h.linked.unopened _ (Nat.le_refl _)
    · cases he
  | open_failed c failure =>
    simp only [step] at he
    split at he
    · rename_i hplace
      cases he
      have haround := h.around (c := c) (by rw [hplace]; trivial)
      exact haround.end_call trivial (h.empty haround.lock (by rw [hplace]; exact id))
    · cases he
  | drained c =>
    simp only [step] at he
    split at he
    · rename_i reader hplace hreader
      cases he
      exact h.drained hplace hreader
    · rename_i hplace hreader
      obtain ⟨g, hw, -⟩ := h.flight c (by rw [hplace]; trivial)
      have := h.linked.same
      rw [hreader, hw] at this
      cases this
    · cases he
  | send_failed c message =>
    simp only [step] at he
    split at he
    · rename_i hplace
      cases he
      exact (h.around (by rw [hplace]; trivial)).teardown_locked _
    · cases he
  | read c =>
    simp only [step] at he
    split at he
    · rename_i reader n k hplace
      simp only [Option.ite_none_right_eq_some] at he
      obtain ⟨hn, he⟩ := he
      cases he
      exact h.read hplace hn
    · cases he
  | read_incomplete c =>
    simp only [step] at he
    split at he
    · rename_i reader n k hplace
      simp only [Option.ite_none_right_eq_some] at he
      obtain ⟨-, he⟩ := he
      cases he
      have haround := h.around (c := c) (by rw [hplace]; trivial)
      exact (haround.set_conn (h.reading hplace).1 _).teardown_locked _
    · cases he
  | read_failed c message =>
    simp only [step] at he
    split at he
    · rename_i hplace
      cases he
      exact (h.around (by rw [hplace]; trivial)).teardown_locked _
    · cases he
  | timed_out c =>
    simp only [step] at he
    split at he
    · rename_i hplace
      cases he
      exact (h.around (by rw [hplace]; trivial)).teardown_locked _
    · cases he
  | writer_closed c =>
    simp only [step] at he
    split at he
    · rename_i hplace
      cases he
      have haround := h.around (c := c) (by rw [hplace]; trivial)
      exact haround.torn_down _ (h.empty haround.lock (by rw [hplace]; exact id))
    · cases he
  | cancelled c => exact h.cancel_call (hg.1 c rfl) he
  | answered g c answer => exact h.answer_call (hg.2 (g, answer) rfl) he
  | bytes_arrived g n =>
    cases he
    refine h.set_conn rfl ?_
    simp [List.append_assoc]
  | peer_closed g =>
    cases he
    refine h.set_conn rfl ?_
    rfl

theorem sound_new (host : String) (port : Int) (connect_timeout_s : String) :
    Sound (new host port connect_timeout_s) := by
  refine ⟨⟨rfl, rfl, ?_, fun _ _ => ⟨rfl, rfl⟩⟩, fun _ => ⟨fun _ => rfl, ?_⟩, ?_, fun _ => trivial,
    ?_, ?_⟩
  · rintro g ⟨⟩
  · rintro pdu ⟨⟩
  · rintro c ⟨⟩
  · rintro c ⟨⟩
  · rintro - g ⟨⟩

/-! ## The law -/

/-- In every run that leaves nothing behind on a connection in use, each PDU that a call returns
was parsed from the whole answer to the request of that call. -/
theorem every_exchange_returns_its_own_answer (host : String) (port : Int)
    (connect_timeout_s : String) {es : List Event}
    (hg : Guarded step NothingLeftBehind (new host port connect_timeout_s) es) :
    Always step ReturnsOwn (new host port connect_timeout_s) es :=
  always_of_guarded (fun _ _ _ => sound_step) (fun _ h c => (h.fine c).returned)
    (sound_new host port connect_timeout_s) hg

/-- A call reads one register, and another one, that waits for the lock, another register. -/
def two_reads : List Event :=
  [.start_send 0 [3, 0, 0, 0, 1] 1 "1.0", .start_send 1 [3, 0, 9, 0, 1] 1 "1.0", .lock_acquired 0,
    .opened 0, .drained 0]

/-- The first call times out, and its answer comes on a connection that is gone. -/
def timed_out_read : List Event :=
  two_reads ++ [.timed_out 0, .writer_closed 0, .answered 0 0 (rtu_frame 1 [3, 2, 0, 7]),
    .bytes_arrived 0 7, .lock_acquired 1, .opened 1, .drained 1,
    .answered 1 1 (rtu_frame 1 [3, 2, 0, 8]), .bytes_arrived 1 7, .read 1, .read 1, .read 1]

theorem a_late_answer_is_dropped :
    ∃ s, run step (new "gateway" 4001 "3.0") timed_out_read = some s ∧
      (s.calls 1).place = .returned (some [3, 2, 0, 8]) ∧
      Always step ReturnsOwn (new "gateway" 4001 "3.0") timed_out_read :=
  ⟨_, rfl, rfl, every_exchange_returns_its_own_answer "gateway" 4001 "3.0"
    (show Guarded step _ _ timed_out_read by decide +kernel)⟩

/-- The first call is cancelled while it waits for its answer. The connection stays, and the next
call returns that answer. -/
theorem a_cancelled_call_leaves_its_answer_behind :
    ∃ s, run step (new "gateway" 4001 "3.0") (two_reads ++ [.cancelled 0, .lock_acquired 1,
        .drained 1, .answered 0 0 (rtu_frame 1 [3, 2, 0, 7]), .bytes_arrived 0 7, .read 1, .read 1,
        .read 1]) = some s ∧
      (s.calls 1).place = .returned (some [3, 2, 0, 7]) ∧
      (s.calls 1).taken = tagged 0 (rtu_frame 1 [3, 2, 0, 7]) ∧ ¬ ReturnsOwn s := by
  refine ⟨_, rfl, rfl, rfl, ?_⟩
  intro h
  obtain ⟨answer, uid, ha, -⟩ := h 1 [3, 2, 0, 7] rfl
  cases ha

/-- The answer to the first call has an unknown function code. The reader stops behind the first
two bytes, nobody tears the connection down, and the next call returns what follows. -/
theorem an_unknown_function_code_leaves_its_bytes_behind :
    ∃ s, run step (new "gateway" 4001 "3.0") (two_reads ++
        [.answered 0 0 ([1, 0x41] ++ rtu_frame 1 [3, 2, 0, 7]), .bytes_arrived 0 9, .read 0,
          .lock_acquired 1, .drained 1, .read 1, .read 1, .read 1]) = some s ∧
      (s.calls 0).place = .raised (unknown_fc_error 0x41) ∧
      (s.calls 1).place = .returned (some [3, 2, 0, 7]) ∧ ¬ ReturnsOwn s := by
  refine ⟨_, rfl, rfl, rfl, ?_⟩
  intro h
  obtain ⟨answer, uid, ha, -⟩ := h 1 [3, 2, 0, 7] rfl
  cases ha

end pymod.rtu_over_tcp
