-- The end of a server's life: what `stop` does to the connections and to the handler tasks while
-- `_on_client` goes on taking connections in. A connection goes by its number, which stands for
-- its writer in `_connections` and for its task in `_client_tasks`.
import Mathlib.Data.Finset.Card
import Mathlib.Data.Finset.Lattice.Fold
import Mathlib.Order.Lattice.Nat
import Pymod.Lib.Runs

namespace pymod.lifecycle

open Function

/-! ## The handler of a connection -/

/-- Where the task of a connection stands in `_on_client`. -/
inductive Place
  | absent
  | created
  | rejecting
  | rejected
  | reading
  | calling
  | draining
  | finished
deriving DecidableEq, Repr

/-- The task is in the loop of `_on_client`. -/
def Place.Serving (place : Place) : Prop :=
  place = .reading ∨ place = .calling ∨ place = .draining

instance (place : Place) : Decidable place.Serving :=
  inferInstanceAs (Decidable (_ ∨ _ ∨ _))

/-- The connection was let in: its task is in the loop, or has left it. -/
def Place.Admitted (place : Place) : Prop := place.Serving ∨ place = .finished

/-- The task and the writer of a connection. `lost` says that the transport is gone, and
`cancelling` that the `CancelledError` of a cancelled task is still to be raised in it. -/
structure Handler where
  place : Place := .absent
  closed : Bool := false
  lost : Bool := false
  cancelled : Bool := false
  cancelling : Bool := false
deriving DecidableEq, Repr

/-- Where `stop` stands. -/
inductive Stop
  | not_called
  | awaiting_writer (w : Nat) (writers : List Nat)
  | awaiting_task (t : Nat) (tasks : List Nat)
  | awaiting_server
  | returned
deriving DecidableEq, Repr

/-- `stop` has taken its copy of `_client_tasks`. -/
def Stop.HasTasks : Stop → Prop
  | .not_called | .awaiting_writer _ _ => False
  | .awaiting_task _ _ | .awaiting_server | .returned => True

structure Server where
  max_connections : Nat
  connections : Finset Nat := ∅
  client_tasks : Finset Nat := ∅
  listening : Bool := true
  handlers : Nat → Handler := fun _ => {}
  accepted : Nat := 0
  stop : Stop := .not_called

/-- What the server takes from asyncio: the order in which `list` goes through each of the two
sets, and whether `wait_closed` of the listener waits for the open transports, as it does from
Python 3.12 on. -/
structure Asyncio where
  list_connections : Finset Nat → List Nat
  list_client_tasks : Finset Nat → List Nat
  waits : Bool
  mem_list_connections : ∀ set h, h ∈ list_connections set ↔ h ∈ set
  mem_list_client_tasks : ∀ set h, h ∈ list_client_tasks set ↔ h ∈ set

namespace Server

/-- A server that was started. -/
def new (max_connections : Nat) : Server := { max_connections }

def with_handler (s : Server) (h : Nat) (handler : Handler) : Server :=
  { s with handlers := update s.handlers h handler }

/-! ## The body of `_on_client` -/

def reject (s : Server) (h : Nat) : Server :=
  s.with_handler h { s.handlers h with place := .rejecting, closed := true }

def take_in (s : Server) (h : Nat) : Server :=
  { s.with_handler h { s.handlers h with place := .reading } with
    connections := insert h s.connections, client_tasks := insert h s.client_tasks }

/-- The task goes from one await of its loop to the next, unless it is to be cancelled there. -/
def move (s : Server) (h : Nat) (before after : Place) : Option Server :=
  if (s.handlers h).place = before ∧ (s.handlers h).cancelling = false then
    some (s.with_handler h { s.handlers h with place := after })
  else
    none

/-- The `finally` block. -/
def finish (s : Server) (h : Nat) : Server :=
  { s.with_handler h { s.handlers h with place := .finished, closed := true } with
    connections := s.connections.erase h, client_tasks := s.client_tasks.erase h }

/-! ## The body of `stop` -/

variable (asyncio : Asyncio)

def close_listener (s : Server) : Server :=
  { s with
    client_tasks := ∅
    listening := false
    stop :=
      if asyncio.waits = true ∧ ∃ h < s.accepted, (s.handlers h).lost = false then .awaiting_server
      else .returned }

/-- `await t` for the tasks in turn. A task that is done does not hold `stop` up. -/
def await_tasks : List Nat → Server → Server
  | [], s => s.close_listener asyncio
  | t :: tasks, s =>
    if (s.handlers t).place = .finished then await_tasks tasks s
    else { s with stop := .awaiting_task t tasks }

def cancel (tasks : List Nat) (s : Server) : Server :=
  { s with
    handlers := fun h =>
      if h ∈ tasks ∧ (s.handlers h).place ≠ .finished then
        { s.handlers h with cancelled := true, cancelling := true }
      else
        s.handlers h }

def cancel_tasks (s : Server) : Server :=
  let tasks := asyncio.list_client_tasks s.client_tasks
  await_tasks asyncio tasks (s.cancel tasks)

/-- `await w.wait_closed()` for the writers in turn. A transport that is gone does not hold
`stop` up. -/
def await_writers : List Nat → Server → Server
  | [], s => s.cancel_tasks asyncio
  | w :: writers, s =>
    if (s.handlers w).lost = true then await_writers writers s
    else { s with stop := .awaiting_writer w writers }

def close_writers (writers : List Nat) (s : Server) : Server :=
  { s with
    handlers := fun h =>
      if h ∈ writers then { s.handlers h with closed := true } else s.handlers h }

def call_stop (s : Server) : Server :=
  let writers := asyncio.list_connections s.connections
  await_writers asyncio writers ({ s with connections := ∅ }.close_writers writers)

end Server

/-! ## The steps -/

/-- What happens next in the event loop. A task gets its first step, is answered by the client or
by the callback, leaves its loop by itself, or has the `CancelledError` raised in it, which a
callback may swallow; a transport is lost; `stop` is called, or an await of it is over. -/
inductive Event
  | accept
  | started (h : Nat)
  | rejected (h : Nat)
  | request (h : Nat)
  | answered (h : Nat)
  | drained (h : Nat)
  | ended (h : Nat)
  | cancel_raised (h : Nat)
  | cancel_swallowed (h : Nat)
  | lost (h : Nat)
  | stop_called
  | writer_closed
  | task_finished
  | server_closed
deriving DecidableEq, Repr

open Server

def step (asyncio : Asyncio) (s : Server) : Event → Option Server
  | .accept =>
    if s.listening = true then
      some { s.with_handler s.accepted { place := .created } with accepted := s.accepted + 1 }
    else
      none
  | .started h =>
    if (s.handlers h).place = .created then
      some (if s.max_connections ≤ s.connections.card then s.reject h else s.take_in h)
    else
      none
  | .rejected h =>
    if (s.handlers h).place = .rejecting ∧ (s.handlers h).lost = true then
      some (s.with_handler h { s.handlers h with place := .rejected })
    else
      none
  | .request h => s.move h .reading .calling
  | .answered h => s.move h .calling .draining
  | .drained h => s.move h .draining .reading
  | .ended h =>
    if (s.handlers h).place.Serving ∧ (s.handlers h).cancelling = false then some (s.finish h)
    else none
  | .cancel_raised h =>
    if (s.handlers h).place.Serving ∧ (s.handlers h).cancelling = true then some (s.finish h)
    else none
  | .cancel_swallowed h =>
    if (s.handlers h).place = .calling ∧ (s.handlers h).cancelling = true then
      some (s.with_handler h { s.handlers h with cancelling := false })
    else
      none
  | .lost h =>
    if (s.handlers h).place ≠ .absent ∧ (s.handlers h).lost = false then
      some (s.with_handler h { s.handlers h with lost := true })
    else
      none
  | .stop_called => if s.stop = .not_called then some (s.call_stop asyncio) else none
  | .writer_closed =>
    match s.stop with
    | .awaiting_writer w writers =>
      if (s.handlers w).lost = true then some (await_writers asyncio writers s) else none
    | _ => none
  | .task_finished =>
    match s.stop with
    | .awaiting_task t tasks =>
      if (s.handlers t).place = .finished then some (await_tasks asyncio tasks s) else none
    | _ => none
  | .server_closed =>
    if s.stop = .awaiting_server ∧ ∀ h < s.accepted, (s.handlers h).lost = true then
      some { s with stop := .returned }
    else
      none

/-! ## What `stop` is for -/

/-- What holds of the connections wherever `stop` stands. `late` are the connections that were
admitted after `stop` had its copy of `_client_tasks`, `ended` those whose task left its loop by
itself. -/
structure InOrder (late ended : Nat → Prop) (s : Server) : Prop where
  untouched : ∀ h, s.accepted ≤ h → (s.handlers h).place = .absent
  created_calm : ∀ h, (s.handlers h).place = .created → (s.handlers h).cancelling = false
  connections_serving : ∀ h ∈ s.connections, (s.handlers h).place.Serving
  tasks_serving : ∀ h ∈ s.client_tasks, (s.handlers h).place.Serving
  finished_closed : ∀ h, (s.handlers h).place = .finished → (s.handlers h).closed = true
  late_admitted : ∀ h, late h → (s.handlers h).place.Admitted
  late_connected : ∀ h, late h → (s.handlers h).place.Serving → h ∈ s.connections
  late_calm : ∀ h, late h → (s.handlers h).cancelling = false
  ended_finished : ∀ h, ended h → (s.handlers h).place = .finished
  late_ended : ∀ h, late h → (s.handlers h).place = .finished → ended h

/-- What `stop` can rely on where it stands: until it has its copy of `_client_tasks`, every task
in its loop is in that set; while it awaits the copied tasks, the ones in their loops are still to
be awaited; and then there is none. The late ones are outside all this. -/
def Covered (late : Nat → Prop) (s : Server) : Stop → Prop
  | .not_called | .awaiting_writer _ _ =>
    (∀ h, ¬ late h) ∧ ∀ h, (s.handlers h).place.Serving → h ∈ s.client_tasks
  | .awaiting_task t tasks => ∀ h, (s.handlers h).place.Serving → ¬ late h → h ∈ t :: tasks
  | .awaiting_server | .returned => ∀ h, (s.handlers h).place.Serving → late h

structure Held (late ended : Nat → Prop) (s : Server) : Prop where
  order : InOrder late ended s
  covered : Covered late s s.stop

section

variable {late ended : Nat → Prop} {s : Server}

theorem InOrder.not_serving_of_finished {h : Nat} (hplace : (s.handlers h).place = .finished) :
    ¬ (s.handlers h).place.Serving := by
  simp [hplace, Place.Serving]

theorem InOrder.lt_accepted (hs : InOrder late ended s) {h : Nat}
    (hplace : (s.handlers h).place ≠ .absent) : h < s.accepted := by
  by_contra hle
  exact hplace (hs.untouched h (by omega))

/-! ## A step of one handler -/

@[simp] theorem with_handler_same (s : Server) (h : Nat) (x : Handler) :
    (s.with_handler h x).handlers h = x := update_self ..

theorem with_handler_other {h k : Nat} (hk : k ≠ h) (x : Handler) :
    (s.with_handler h x).handlers k = s.handlers k := update_of_ne hk ..

/-- A change of a handler that neither lets it into its loop nor out of it, and does not cancel
it when it is late. -/
structure Handler.Keeps (late : Prop) (x y : Handler) : Prop where
  serving : y.place.Serving ↔ x.place.Serving
  finished : y.place = .finished ↔ x.place = .finished
  created : y.place = .created → y.cancelling = false
  closed : x.place = .finished → x.closed = true → y.closed = true
  calm : late → x.cancelling = false → y.cancelling = false

theorem InOrder.keeps (hs : InOrder late ended s) (h : Nat) :
    (s.handlers h).Keeps (late h) (s.handlers h) :=
  ⟨Iff.rfl, Iff.rfl, hs.created_calm h, fun _ hclosed => hclosed, fun _ hcalm => hcalm⟩

theorem InOrder.with_handlers (hs : InOrder late ended s) {handlers : Nat → Handler}
    (habsent : ∀ h, s.accepted ≤ h → (handlers h).place = .absent)
    (hkeeps : ∀ h, (s.handlers h).Keeps (late h) (handlers h)) :
    InOrder late ended { s with handlers := handlers } where
  untouched := habsent
  created_calm := fun h => (hkeeps h).created
  connections_serving := fun h hh => (hkeeps h).serving.mpr (hs.connections_serving h hh)
  tasks_serving := fun h hh => (hkeeps h).serving.mpr (hs.tasks_serving h hh)
  finished_closed := fun h hh =>
    have hfinished := (hkeeps h).finished.mp hh
    (hkeeps h).closed hfinished (hs.finished_closed h hfinished)
  late_admitted := fun h hh =>
    (hs.late_admitted h hh).imp (hkeeps h).serving.mpr (hkeeps h).finished.mpr
  late_connected := fun h hh hplace => hs.late_connected h hh ((hkeeps h).serving.mp hplace)
  late_calm := fun h hh => (hkeeps h).calm hh (hs.late_calm h hh)
  ended_finished := fun h hh => (hkeeps h).finished.mpr (hs.ended_finished h hh)
  late_ended := fun h hh hplace => hs.late_ended h hh ((hkeeps h).finished.mp hplace)

/-- What is relied on stays so when no task gets into its loop. -/
theorem Covered.of_serving {t : Server} {stop : Stop} (hs : Covered late s stop)
    (hserving : ∀ h, (t.handlers h).place.Serving → (s.handlers h).place.Serving)
    (htasks : ∀ h, (t.handlers h).place.Serving → h ∈ s.client_tasks → h ∈ t.client_tasks) :
    Covered late t stop := by
  cases stop with
  | not_called => exact ⟨hs.1, fun h hh => htasks h hh (hs.2 h (hserving h hh))⟩
  | awaiting_writer w writers =>
    exact ⟨hs.1, fun h hh => htasks h hh (hs.2 h (hserving h hh))⟩
  | awaiting_task t tasks => exact fun h hh => hs h (hserving h hh)
  | awaiting_server => exact fun h hh => hs h (hserving h hh)
  | returned => exact fun h hh => hs h (hserving h hh)

theorem Held.with_handler (hs : Held late ended s) {h : Nat} {x : Handler}
    (hh : h < s.accepted) (hx : (s.handlers h).Keeps (late h) x) :
    Held late ended (s.with_handler h x) := by
  have hkeeps : ∀ k, (s.handlers k).Keeps (late k) ((s.with_handler h x).handlers k) := by
    intro k
    by_cases hk : k = h
    · subst hk; simpa using hx
    · rw [with_handler_other hk]; exact hs.order.keeps k
  refine ⟨hs.order.with_handlers (fun k hk => ?_) hkeeps,
    hs.covered.of_serving (fun k => (hkeeps k).serving.mp) fun _ _ hk => hk⟩
  change ((s.with_handler h x).handlers k).place = .absent
  rw [with_handler_other (Nat.lt_of_lt_of_le hh hk).ne']
  exact hs.order.untouched k hk

/-- A task that goes on in its loop keeps everything in order. -/
theorem Held.move (hs : Held late ended s) {h : Nat} {before after : Place} {t : Server}
    (ht : s.move h before after = some t) (hbefore : before.Serving) (hafter : after.Serving) :
    Held late ended t := by
  unfold Server.move at ht
  split at ht
  · rename_i hplace
    cases ht
    have hh : h < s.accepted := hs.order.lt_accepted (by
      rw [hplace.1]
      rcases hbefore with rfl | rfl | rfl <;> simp)
    refine hs.with_handler hh ⟨?_, ?_, ?_, ?_, ?_⟩
    · simp [hplace.1, hbefore, hafter]
    · rw [hplace.1]
      rcases hbefore with rfl | rfl | rfl <;> rcases hafter with rfl | rfl | rfl <;> simp
    · exact fun _ => hplace.2
    · exact fun _ hclosed => hclosed
    · exact fun _ hcalm => hcalm
  · cases ht

theorem Held.accept (hs : Held late ended s) :
    Held late ended
      { s.with_handler s.accepted { place := .created } with accepted := s.accepted + 1 } := by
  have habsent := hs.order.untouched s.accepted le_rfl
  have hopen : Held late ended { s with accepted := s.accepted + 1 } :=
    ⟨{ hs.order with untouched := fun h hh => hs.order.untouched h (Nat.le_of_succ_le hh) },
      hs.covered.of_serving (fun _ hk => hk) fun _ _ hk => hk⟩
  refine hopen.with_handler (Nat.lt_succ_self s.accepted) ⟨?_, ?_, ?_, ?_, ?_⟩
  · simp [habsent, Place.Serving]
  · simp [habsent]
  · exact fun _ => rfl
  · simp [habsent]
  · exact fun _ _ => rfl

/-- A task that leaves its loop. A late one leaves it by itself. -/
theorem Held.finish (hs : Held late ended s) {h : Nat} (hplace : (s.handlers h).place.Serving)
    {ended' : Nat → Prop} (hmono : ∀ k, ended k → ended' k)
    (honly : ∀ k, ended' k → ended k ∨ k = h) (hlate : late h → ended' h) :
    Held late ended' (s.finish h) := by
  have hother : ∀ {k : Nat}, k ≠ h → (s.finish h).handlers k = s.handlers k := fun hk =>
    with_handler_other hk _
  have hsame : (s.finish h).handlers h = { s.handlers h with place := .finished, closed := true } :=
    with_handler_same ..
  have hserving : ∀ k, ((s.finish h).handlers k).place.Serving ↔
      k ≠ h ∧ (s.handlers k).place.Serving := by
    intro k
    by_cases hk : k = h
    · subst hk; simp [hsame, Place.Serving]
    · simp [hother hk, hk]
  have hlt : h < s.accepted := hs.order.lt_accepted fun habsent => by
    simp [habsent, Place.Serving] at hplace
  refine ⟨⟨?_, ?_, ?_, ?_, ?_, ?_, ?_, ?_, ?_, ?_⟩, hs.covered.of_serving ?_ ?_⟩
  · intro k hk
    have hkh : k ≠ h := (Nat.lt_of_lt_of_le hlt hk).ne'
    rw [hother hkh]
    exact hs.order.untouched k hk
  · intro k
    by_cases hk : k = h
    · subst hk; simp [hsame]
    · rw [hother hk]; exact hs.order.created_calm k
  · intro k hk
    obtain ⟨hkh, hk⟩ := Finset.mem_erase.mp hk
    exact (hserving k).mpr ⟨hkh, hs.order.connections_serving k hk⟩
  · intro k hk
    obtain ⟨hkh, hk⟩ := Finset.mem_erase.mp hk
    exact (hserving k).mpr ⟨hkh, hs.order.tasks_serving k hk⟩
  · intro k
    by_cases hk : k = h
    · subst hk; simp [hsame]
    · rw [hother hk]; exact hs.order.finished_closed k
  · intro k hk
    by_cases hkh : k = h
    · subst hkh; exact Or.inr (by rw [hsame])
    · rw [hother hkh]; exact hs.order.late_admitted k hk
  · intro k hk hkplace
    obtain ⟨hkh, hkplace⟩ := (hserving k).mp hkplace
    exact Finset.mem_erase.mpr ⟨hkh, hs.order.late_connected k hk hkplace⟩
  · intro k hk
    by_cases hkh : k = h
    · subst hkh; rw [hsame]; exact hs.order.late_calm k hk
    · rw [hother hkh]; exact hs.order.late_calm k hk
  · intro k hk
    by_cases hkh : k = h
    · subst hkh; rw [hsame]
    · rw [hother hkh]; exact hs.order.ended_finished k ((honly k hk).resolve_right hkh)
  · intro k hk hkplace
    by_cases hkh : k = h
    · subst hkh; exact hlate hk
    · rw [hother hkh] at hkplace
      exact hmono k (hs.order.late_ended k hk hkplace)
  · intro k hk
    exact ((hserving k).mp hk).2
  · intro k hk htask
    exact Finset.mem_erase.mpr ⟨((hserving k).mp hk).1, htask⟩

/-- A connection that is let in. It is late when `stop` has its copy of `_client_tasks`. -/
theorem Held.take_in (hs : Held late ended s) {h : Nat} (hplace : (s.handlers h).place = .created)
    {late' : Nat → Prop} (hlate : ∀ k, late' k ↔ late k ∨ k = h ∧ s.stop.HasTasks) :
    Held late' ended (s.take_in h) := by
  have hother : ∀ {k : Nat}, k ≠ h → (s.take_in h).handlers k = s.handlers k := fun hk =>
    with_handler_other hk _
  have hsame : (s.take_in h).handlers h = { s.handlers h with place := .reading } :=
    with_handler_same ..
  have hout : ¬ (s.handlers h).place.Admitted := by
    simp [hplace, Place.Admitted, Place.Serving]
  have hlt : h < s.accepted := hs.order.lt_accepted (by simp [hplace])
  refine ⟨⟨?_, ?_, ?_, ?_, ?_, ?_, ?_, ?_, ?_, ?_⟩, ?_⟩
  · intro k hk
    have hkh : k ≠ h := (Nat.lt_of_lt_of_le hlt hk).ne'
    rw [hother hkh]
    exact hs.order.untouched k hk
  · intro k
    by_cases hk : k = h
    · subst hk; simp [hsame]
    · rw [hother hk]; exact hs.order.created_calm k
  · intro k hk
    by_cases hkh : k = h
    · subst hkh; simp [hsame, Place.Serving]
    · rw [hother hkh]
      exact hs.order.connections_serving k ((Finset.mem_insert.mp hk).resolve_left hkh)
  · intro k hk
    by_cases hkh : k = h
    · subst hkh; simp [hsame, Place.Serving]
    · rw [hother hkh]
      exact hs.order.tasks_serving k ((Finset.mem_insert.mp hk).resolve_left hkh)
  · intro k
    by_cases hk : k = h
    · subst hk; simp [hsame]
    · rw [hother hk]; exact hs.order.finished_closed k
  · intro k hk
    by_cases hkh : k = h
    · subst hkh; simp [hsame, Place.Admitted, Place.Serving]
    · rw [hother hkh]
      exact hs.order.late_admitted k (((hlate k).mp hk).resolve_right fun hk => hkh hk.1)
  · intro k hk hkplace
    by_cases hkh : k = h
    · subst hkh; exact Finset.mem_insert_self ..
    · rw [hother hkh] at hkplace
      exact Finset.mem_insert_of_mem
        (hs.order.late_connected k (((hlate k).mp hk).resolve_right fun hk => hkh hk.1) hkplace)
  · intro k hk
    by_cases hkh : k = h
    · subst hkh; rw [hsame]; exact hs.order.created_calm k hplace
    · rw [hother hkh]
      exact hs.order.late_calm k (((hlate k).mp hk).resolve_right fun hk => hkh hk.1)
  · intro k hk
    have hfinished := hs.order.ended_finished k hk
    have hkh : k ≠ h := fun heq => hout (heq ▸ Or.inr hfinished)
    rw [hother hkh]
    exact hfinished
  · intro k hk hkplace
    by_cases hkh : k = h
    · subst hkh; simp [hsame] at hkplace
    · rw [hother hkh] at hkplace
      exact hs.order.late_ended k (((hlate k).mp hk).resolve_right fun hk => hkh hk.1) hkplace
  · have hin : ∀ k, ((s.take_in h).handlers k).place.Serving →
        k = h ∨ (s.handlers k).place.Serving := by
      intro k hk
      by_cases hkh : k = h
      · exact Or.inl hkh
      · rw [hother hkh] at hk; exact Or.inr hk
    have hcovered := hs.covered
    change Covered late' (s.take_in h) s.stop
    cases hstop : s.stop with
    | not_called =>
      rw [hstop] at hcovered hlate
      refine ⟨fun k hk => ?_, fun k hk => ?_⟩
      · exact ((hlate k).mp hk).elim (hcovered.1 k) And.right
      · exact Finset.mem_insert.mpr ((hin k hk).imp id (hcovered.2 k))
    | awaiting_writer w writers =>
      rw [hstop] at hcovered hlate
      refine ⟨fun k hk => ?_, fun k hk => ?_⟩
      · exact ((hlate k).mp hk).elim (hcovered.1 k) And.right
      · exact Finset.mem_insert.mpr ((hin k hk).imp id (hcovered.2 k))
    | awaiting_task t tasks =>
      rw [hstop] at hcovered hlate
      intro k hk hnot
      rcases hin k hk with hkh | hk
      · exact absurd ((hlate k).mpr (Or.inr ⟨hkh, trivial⟩)) hnot
      · exact hcovered k hk fun hl => hnot ((hlate k).mpr (Or.inl hl))
    | awaiting_server =>
      rw [hstop] at hcovered hlate
      intro k hk
      exact (hlate k).mpr ((hin k hk).elim (fun hkh => Or.inr ⟨hkh, trivial⟩)
        fun hk => Or.inl (hcovered k hk))
    | returned =>
      rw [hstop] at hcovered hlate
      intro k hk
      exact (hlate k).mpr ((hin k hk).elim (fun hkh => Or.inr ⟨hkh, trivial⟩)
        fun hk => Or.inl (hcovered k hk))

/-! ## The steps of `stop` -/

variable {asyncio : Asyncio}

theorem Held.close_listener (hs : InOrder late ended s)
    (hall : ∀ h, (s.handlers h).place.Serving → late h) :
    Held late ended (s.close_listener asyncio) := by
  refine ⟨{ hs with tasks_serving := fun h hh => absurd hh (Finset.notMem_empty h) }, ?_⟩
  unfold Server.close_listener
  split
  · exact hall
  · exact hall

/-- Only the tasks that are still to be awaited, and the late ones, are in their loops. -/
theorem Held.await_tasks (hs : InOrder late ended s) {tasks : List Nat}
    (htasks : ∀ h, (s.handlers h).place.Serving → ¬ late h → h ∈ tasks) :
    Held late ended (Server.await_tasks asyncio tasks s) := by
  induction tasks with
  | nil =>
    refine Held.close_listener hs fun h hh => ?_
    by_contra hl
    exact List.not_mem_nil (htasks h hh hl)
  | cons t tasks ih =>
    unfold Server.await_tasks
    split
    · rename_i hdone
      refine ih fun h hh hl => ?_
      refine (List.mem_cons.mp (htasks h hh hl)).resolve_left fun heq => ?_
      rw [heq] at hh
      exact InOrder.not_serving_of_finished hdone hh
    · exact ⟨{ hs with }, htasks⟩

theorem cancel_place (tasks : List Nat) (s : Server) (h : Nat) :
    ((s.cancel tasks).handlers h).place = (s.handlers h).place := by
  dsimp only [cancel]
  split <;> rfl

theorem cancel_closed (tasks : List Nat) (s : Server) (h : Nat) :
    ((s.cancel tasks).handlers h).closed = (s.handlers h).closed := by
  dsimp only [cancel]
  split <;> rfl

theorem Held.cancel_tasks (hs : InOrder late ended s) (hnone : ∀ h, ¬ late h)
    (htasks : ∀ h, (s.handlers h).place.Serving → h ∈ s.client_tasks) :
    Held late ended (s.cancel_tasks asyncio) := by
  let tasks := asyncio.list_client_tasks s.client_tasks
  have hmem : ∀ h, h ∈ tasks ↔ h ∈ s.client_tasks := asyncio.mem_list_client_tasks _
  have hkeeps : ∀ h, (s.handlers h).Keeps (late h) ((s.cancel tasks).handlers h) := by
    intro h
    refine ⟨?_, ?_, fun hcreated => ?_, ?_, fun hl => absurd hl (hnone h)⟩
    · rw [cancel_place]
    · rw [cancel_place]
    · rw [cancel_place] at hcreated
      -- a task that has not begun is not in the set, so it is not cancelled
      have hnot : h ∉ tasks := fun hin => by
        have hserving := hs.tasks_serving h ((hmem h).mp hin)
        simp [hcreated, Place.Serving] at hserving
      simpa [cancel, hnot] using hs.created_calm h hcreated
    · rw [cancel_closed]; exact fun _ hclosed => hclosed
  refine Held.await_tasks (hs.with_handlers (fun h hh => ?_) hkeeps) fun h hh _ => ?_
  · exact (cancel_place tasks s h).trans (hs.untouched h hh)
  · exact (hmem h).mpr (htasks h ((hkeeps h).serving.mp hh))

theorem Held.await_writers (hs : InOrder late ended s) (hnone : ∀ h, ¬ late h)
    (htasks : ∀ h, (s.handlers h).place.Serving → h ∈ s.client_tasks) (writers : List Nat) :
    Held late ended (Server.await_writers asyncio writers s) := by
  induction writers with
  | nil => exact Held.cancel_tasks hs hnone htasks
  | cons w writers ih =>
    unfold Server.await_writers
    split
    · exact ih
    · exact ⟨{ hs with }, hnone, htasks⟩

theorem close_writers_keeps (hs : InOrder late ended s) (writers : List Nat) (h : Nat) :
    (s.handlers h).Keeps (late h) ((s.close_writers writers).handlers h) := by
  dsimp only [close_writers]
  split
  · exact { hs.keeps h with closed := fun _ _ => rfl }
  · exact hs.keeps h

theorem Held.call_stop (hs : Held late ended s) (hstop : s.stop = .not_called) :
    Held late ended (s.call_stop asyncio) := by
  have hcovered := hs.covered
  rw [hstop] at hcovered
  obtain ⟨hnone, htasks⟩ := hcovered
  have hcleared : InOrder late ended { s with connections := ∅ } :=
    { hs.order with
      connections_serving := fun h hh => absurd hh (Finset.notMem_empty h)
      late_connected := fun h hh => absurd hh (hnone h) }
  have hkeeps := close_writers_keeps hcleared (asyncio.list_connections s.connections)
  refine Held.await_writers (hcleared.with_handlers (fun h hh => ?_) hkeeps) hnone (fun h hh => ?_) _
  · have habsent := hs.order.untouched h hh
    dsimp only [close_writers]
    split <;> exact habsent
  · exact htasks h ((hkeeps h).serving.mp hh)

/-! ## Every run -/

theorem Held.new (max_connections : Nat) :
    Held (fun _ => False) (fun _ => False) (new max_connections) := by
  refine ⟨⟨?_, ?_, ?_, ?_, ?_, ?_, ?_, ?_, ?_, ?_⟩, ?_, ?_⟩ <;>
    simp [Server.new, Place.Serving]

/-- What a step does to the late connections and to those that ended. -/
theorem Held.step (hs : Held late ended s) {e : Event} {t : Server}
    (he : step asyncio s e = some t) {late' ended' : Nat → Prop}
    (hlate : ∀ h, late' h ↔ late h ∨
      e = .started h ∧ s.stop.HasTasks ∧ s.connections.card < s.max_connections)
    (hended : ∀ h, ended' h ↔ ended h ∨ e = .ended h) : Held late' ended' t := by
  have hl : (∀ h, e ≠ .started h) → late' = late := fun hne => by
    funext h; simp [hlate, hne]
  have hn : (∀ h, e ≠ .ended h) → ended' = ended := fun hne => by
    funext h; simp [hended, hne]
  cases e with
  | accept =>
    rw [hl (by simp), hn (by simp)]
    simp only [lifecycle.step] at he
    split at he <;> cases he
    exact hs.accept
  | started h =>
    rw [hn (by simp)]
    simp only [lifecycle.step] at he
    split at he <;> cases he
    rename_i hplace
    split
    · rename_i hfull
      have hsame : late' = late := by
        funext k
        simp [hlate, Nat.not_lt.mpr hfull]
      rw [hsame]
      exact hs.with_handler (hs.order.lt_accepted (by simp [hplace]))
        ⟨by simp [hplace, Place.Serving], by simp [hplace], by simp, fun _ _ => rfl,
          fun _ hcalm => hcalm⟩
    · rename_i hroom
      refine hs.take_in hplace fun k => ?_
      rw [hlate k]
      simp [Nat.lt_of_not_le hroom, eq_comm]
  | rejected h =>
    rw [hl (by simp), hn (by simp)]
    simp only [lifecycle.step] at he
    split at he <;> cases he
    rename_i hplace
    exact hs.with_handler (hs.order.lt_accepted (by simp [hplace.1]))
      ⟨by simp [hplace.1, Place.Serving], by simp [hplace.1], by simp,
        fun _ hclosed => hclosed, fun _ hcalm => hcalm⟩
  | request h =>
    rw [hl (by simp), hn (by simp)]
    exact hs.move he (Or.inl rfl) (Or.inr (Or.inl rfl))
  | answered h =>
    rw [hl (by simp), hn (by simp)]
    exact hs.move he (Or.inr (Or.inl rfl)) (Or.inr (Or.inr rfl))
  | drained h =>
    rw [hl (by simp), hn (by simp)]
    exact hs.move he (Or.inr (Or.inr rfl)) (Or.inl rfl)
  | ended h =>
    rw [hl (by simp)]
    simp only [lifecycle.step] at he
    split at he <;> cases he
    rename_i hplace
    refine hs.finish hplace.1 (fun k hk => (hended k).mpr (Or.inl hk)) (fun k hk => ?_)
      fun _ => (hended h).mpr (Or.inr rfl)
    simpa [eq_comm] using (hended k).mp hk
  | cancel_raised h =>
    rw [hl (by simp), hn (by simp)]
    simp only [lifecycle.step] at he
    split at he <;> cases he
    rename_i hplace
    refine hs.finish hplace.1 (fun k hk => hk) (fun k hk => Or.inl hk) fun hlh => ?_
    -- a late task is not cancelled
    simp [hs.order.late_calm h hlh] at hplace
  | cancel_swallowed h =>
    rw [hl (by simp), hn (by simp)]
    simp only [lifecycle.step] at he
    split at he <;> cases he
    rename_i hplace
    exact hs.with_handler (hs.order.lt_accepted (by simp [hplace.1]))
      ⟨Iff.rfl, Iff.rfl, fun _ => rfl, fun _ hclosed => hclosed, fun _ _ => rfl⟩
  | lost h =>
    rw [hl (by simp), hn (by simp)]
    simp only [lifecycle.step] at he
    split at he <;> cases he
    rename_i hplace
    exact hs.with_handler (hs.order.lt_accepted hplace.1) { hs.order.keeps h with }
  | stop_called =>
    rw [hl (by simp), hn (by simp)]
    simp only [lifecycle.step] at he
    split at he <;> cases he
    rename_i hstop
    exact hs.call_stop hstop
  | writer_closed =>
    rw [hl (by simp), hn (by simp)]
    have hcovered := hs.covered
    cases hstop : s.stop with
    | awaiting_writer w writers =>
      simp only [lifecycle.step, hstop] at he hcovered
      split at he <;> cases he
      exact Held.await_writers hs.order hcovered.1 hcovered.2 writers
    | _ => simp [lifecycle.step, hstop] at he
  | task_finished =>
    rw [hl (by simp), hn (by simp)]
    have hcovered := hs.covered
    cases hstop : s.stop with
    | awaiting_task t tasks =>
      simp only [lifecycle.step, hstop] at he hcovered
      split at he <;> cases he
      rename_i hdone
      refine Held.await_tasks hs.order fun h hh hlh => ?_
      refine (List.mem_cons.mp (hcovered h hh hlh)).resolve_left fun heq => ?_
      rw [heq] at hh
      exact InOrder.not_serving_of_finished hdone hh
    | _ => simp [lifecycle.step, hstop] at he
  | server_closed =>
    rw [hl (by simp), hn (by simp)]
    have hcovered := hs.covered
    simp only [lifecycle.step] at he
    split at he <;> cases he
    rename_i hstop
    rw [hstop.1] at hcovered
    exact ⟨{ hs.order with }, hcovered⟩

end

section

variable {asyncio : Asyncio} {max_connections : Nat}

end

/-- The numbers of a set from the lowest on. -/
def in_order (set : Finset Nat) : List Nat := (List.range (set.sup id + 1)).filter (· ∈ set)

theorem mem_in_order (set : Finset Nat) (h : Nat) : h ∈ in_order set ↔ h ∈ set := by
  simp only [in_order, List.mem_filter, List.mem_range, decide_eq_true_eq, and_iff_right_iff_imp]
  intro hh
  have hle : id h ≤ set.sup id := Finset.le_sup hh
  exact Nat.lt_succ_of_le hle

/-- The listener waits for the open transports, or it does not. -/
def ascending (waits : Bool) : Asyncio where
  list_connections := in_order
  list_client_tasks := in_order
  waits := waits
  mem_list_connections := mem_in_order
  mem_list_client_tasks := mem_in_order

end pymod.lifecycle
