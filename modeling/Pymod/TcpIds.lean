-- The bookkeeping of the transaction ids of the TCP transport: `_allocate_tid`,
-- and what `_next_tid` and `_pending` hold in every run.
import Pymod.TcpCalls
import Pymod.Lib.Runs

namespace pymod.tcp

open TcpTransport errors Function Runs

/-! ## `_allocate_tid` -/

/-- An id that the probe returns is the first one, at or after the counter, that is free. -/
theorem probe_some {pending : Pending} {fuel next_tid tid next' : Nat} (hn : next_tid < 0x10000)
    (h : probe pending fuel next_tid = (some tid, next')) :
    ∃ k < fuel, tid = (next_tid + k) % 0x10000 ∧ tid ∉ pending ∧
      next' = (next_tid + k + 1) % 0x10000 ∧ ∀ j < k, (next_tid + j) % 0x10000 ∈ pending := by
  induction fuel generalizing next_tid with
  | zero => cases h
  | succ fuel ih =>
    simp only [probe] at h
    by_cases hfree : next_tid ∈ pending
    · rw [if_neg (not_not.mpr hfree)] at h
      obtain ⟨k, hk, htid, hnot, hnext, hbefore⟩ := ih (Nat.mod_lt _ (by decide)) h
      refine ⟨k + 1, by omega, by omega, hnot, by omega, ?_⟩
      intro j hj
      rcases j with _ | j
      · rwa [Nat.add_zero, Nat.mod_eq_of_lt hn]
      · have := hbefore j (by omega)
        rwa [show (next_tid + (j + 1)) % 0x10000 = ((next_tid + 1) % 0x10000 + j) % 0x10000 by
          omega]
    · rw [if_pos hfree] at h
      cases h
      exact ⟨0, by omega, by omega, hfree, by omega, by omega⟩

/-- A probe that returns none has found each of its ids pending. -/
theorem probe_none {pending : Pending} {fuel next_tid next' : Nat} (hn : next_tid < 0x10000)
    (h : probe pending fuel next_tid = (none, next')) :
    next' = (next_tid + fuel) % 0x10000 ∧ ∀ j < fuel, (next_tid + j) % 0x10000 ∈ pending := by
  induction fuel generalizing next_tid with
  | zero =>
    cases h
    exact ⟨by omega, by omega⟩
  | succ fuel ih =>
    simp only [probe] at h
    by_cases hfree : next_tid ∈ pending
    · rw [if_neg (not_not.mpr hfree)] at h
      obtain ⟨hnext, hall⟩ := ih (Nat.mod_lt _ (by decide)) h
      refine ⟨by omega, ?_⟩
      intro j hj
      rcases j with _ | j
      · rwa [Nat.add_zero, Nat.mod_eq_of_lt hn]
      · have := hall j (by omega)
        rwa [show (next_tid + (j + 1)) % 0x10000 = ((next_tid + 1) % 0x10000 + j) % 0x10000 by
          omega]
    · rw [if_pos hfree] at h
      cases h

/-- The first id, from the counter on and around past the last one, that is not pending. -/
def FirstFree (pending : Pending) (next_tid tid : Nat) : Prop :=
  ∃ k < 0x10000, tid = (next_tid + k) % 0x10000 ∧ tid ∉ pending ∧
    ∀ j < k, (next_tid + j) % 0x10000 ∈ pending

theorem FirstFree.unique {pending : Pending} {next_tid tid tid' : Nat}
    (h : FirstFree pending next_tid tid) (h' : FirstFree pending next_tid tid') : tid = tid' := by
  obtain ⟨k, _, htid, hfree, hbefore⟩ := h
  obtain ⟨k', _, htid', hfree', hbefore'⟩ := h'
  rcases Nat.lt_trichotomy k k' with hlt | heq | hlt
  · exact absurd (htid ▸ hbefore' k hlt) hfree
  · rw [htid, htid', heq]
  · exact absurd (htid' ▸ hbefore k' hlt) hfree'

/-- A probe that goes all the way around has met every id. -/
theorem allocate_tid_none {pending : Pending} {next_tid next' : Nat} (hn : next_tid < 0x10000)
    (h : allocate_tid pending next_tid = (none, next')) :
    next' = next_tid ∧ ∀ tid < 0x10000, tid ∈ pending := by
  obtain ⟨hnext, hall⟩ := probe_none hn h
  refine ⟨by omega, ?_⟩
  intro tid htid
  have hmem := hall ((tid + 0x10000 - next_tid) % 0x10000) (Nat.mod_lt _ (by decide))
  have haround : (next_tid + (tid + 0x10000 - next_tid) % 0x10000) % 0x10000 = tid := by omega
  rwa [haround] at hmem

theorem allocate_tid_some {pending : Pending} {next_tid tid next' : Nat} (hn : next_tid < 0x10000)
    (h : allocate_tid pending next_tid = (some tid, next')) :
    FirstFree pending next_tid tid ∧ next' = (tid + 1) % 0x10000 := by
  obtain ⟨k, hk, htid, hfree, hnext, hbefore⟩ := probe_some hn h
  exact ⟨⟨k, hk, htid, hfree, hbefore⟩, by omega⟩

/-- The first free id is allocated, and no other one. -/
theorem allocate_tid_some_iff {pending : Pending} {next_tid tid next' : Nat}
    (hn : next_tid < 0x10000) :
    allocate_tid pending next_tid = (some tid, next') ↔
      FirstFree pending next_tid tid ∧ next' = (tid + 1) % 0x10000 := by
  constructor
  · exact allocate_tid_some hn
  · intro ⟨hfirst, hnext⟩
    rcases ha : allocate_tid pending next_tid with ⟨_ | tid', next''⟩
    · obtain ⟨k, _, htid, hfree, _⟩ := hfirst
      exact absurd ((allocate_tid_none hn ha).2 tid (by omega)) hfree
    · obtain ⟨hfirst', hnext'⟩ := allocate_tid_some hn ha
      rw [hnext, hnext', hfirst.unique hfirst']

/-- No id is allocated exactly when all of them are pending. -/
theorem allocate_tid_none_iff {pending : Pending} {next_tid next' : Nat} (hn : next_tid < 0x10000) :
    allocate_tid pending next_tid = (none, next') ↔
      (∀ tid < 0x10000, tid ∈ pending) ∧ next' = next_tid := by
  constructor
  · intro ha
    obtain ⟨hnext, hall⟩ := allocate_tid_none hn ha
    exact ⟨hall, hnext⟩
  · intro ⟨hall, hnext⟩
    rcases ha : allocate_tid pending next_tid with ⟨_ | tid, next''⟩
    · rw [hnext, (allocate_tid_none hn ha).1]
    · obtain ⟨k, _, htid, hfree, _⟩ := (allocate_tid_some hn ha).1
      exact absurd (hall tid (by omega)) hfree

/-! ## The invariant of every run -/

/-- The counter has moved `probed` places from 0. A call without an id has no other trace in the
transport; a call with one got it when the counter passed it, and `_pending` holds the latest
call of each id, as long as that call is open. -/
structure Accounts (s : TcpTransport) : Prop where
  counter : s.next_tid = s.probed % 0x10000
  idle : ∀ c, Idle (s.calls c).place → (s.calls c).tid = none ∧ (s.calls c).conn = none ∧
    (s.calls c).future = .pending ∧ (s.calls c).answer = none
  numbered : ∀ c t, (s.calls c).tid = some t →
    t = ((s.calls c).probed_at - 1) % 0x10000 ∧ 0 < (s.calls c).probed_at ∧
      (s.calls c).probed_at ≤ s.probed
  apart : ∀ c d t, (s.calls c).tid = some t → (s.calls d).tid = some t →
    (s.calls c).probed_at = (s.calls d).probed_at → c = d
  registered : ∀ t c, s.pending.lookup t = some c →
    (s.calls c).tid = some t ∧ Open (s.calls c).place ∧ (s.calls c).conn ≠ none
  latest : ∀ t c d, s.pending.lookup t = some c → (s.calls d).tid = some t →
    (s.calls d).probed_at ≤ (s.calls c).probed_at
  written : ∀ c, (s.calls c).conn ≠ none → (s.calls c).tid ≠ none

theorem Accounts.next_lt {s : TcpTransport} (h : Accounts s) : s.next_tid < 0x10000 := by
  rw [h.counter]
  exact Nat.mod_lt _ (by decide)

theorem mem_values {pending : Pending} {c : Nat} :
    c ∈ pending.values ↔ ∃ t, pending.lookup t = some c := by
  unfold Pending.values
  rw [List.mem_map]
  constructor
  · rintro ⟨⟨t, d⟩, hmem, rfl⟩
    exact ⟨t, AList.mem_lookup_iff.mpr hmem⟩
  · rintro ⟨t, h⟩
    exact ⟨⟨t, c⟩, AList.mem_lookup_iff.mp h, rfl⟩

theorem lookup_of_erase {pending : Pending} {t t' c : Nat}
    (h : (pending.erase t').lookup t = some c) : t ≠ t' ∧ pending.lookup t = some c := by
  by_cases ht : t = t'
  · subst ht
    rw [AList.lookup_erase] at h
    cases h
  · rw [AList.lookup_erase_ne ht] at h
    exact ⟨ht, h⟩

/-- Entries may go away. -/
theorem Accounts.drop {s : TcpTransport} (h : Accounts s) {pending : Pending}
    (hsub : ∀ t c, pending.lookup t = some c → s.pending.lookup t = some c) :
    Accounts { s with pending := pending } :=
  ⟨h.counter, h.idle, h.numbered, h.apart, fun t c hc => h.registered t c (hsub t c hc),
    fun t c d hc hd => h.latest t c d (hsub t c hc) hd, h.written⟩

/-- A change of a call that keeps its id, its frame and its entry. -/
theorem Accounts.set_call {s : TcpTransport} (h : Accounts s) {c : Nat} {call : Call}
    (htid : call.tid = (s.calls c).tid) (hconn : call.conn = (s.calls c).conn)
    (hprobed : call.tid ≠ none → call.probed_at = (s.calls c).probed_at)
    (hidle : Idle call.place → call.tid = none ∧ call.conn = none ∧ call.future = .pending ∧
      call.answer = none)
    (hopen : ∀ t, s.pending.lookup t = some c → Open call.place) : Accounts (s.set_call c call) := by
  have htids : ∀ d, ((s.set_call c call).calls d).tid = (s.calls d).tid := by
    intro d
    by_cases hd : d = c
    · subst hd
      simp [TcpTransport.set_call, htid]
    · simp [TcpTransport.set_call, update_of_ne hd]
  have hconns : ∀ d, ((s.set_call c call).calls d).conn = (s.calls d).conn := by
    intro d
    by_cases hd : d = c
    · subst hd
      simp [TcpTransport.set_call, hconn]
    · simp [TcpTransport.set_call, update_of_ne hd]
  have hplaces : ∀ d t, (s.calls d).tid = some t →
      ((s.set_call c call).calls d).probed_at = (s.calls d).probed_at := by
    intro d t ht
    by_cases hd : d = c
    · subst hd
      simp only [TcpTransport.set_call, update_self]
      exact hprobed (by simp [htid, ht])
    · simp [TcpTransport.set_call, update_of_ne hd]
  refine ⟨h.counter, ?_, ?_, ?_, ?_, ?_, ?_⟩
  · intro d hd
    by_cases hdc : d = c
    · subst hdc
      simp only [TcpTransport.set_call, update_self] at hd ⊢
      exact hidle hd
    · simp only [TcpTransport.set_call, update_of_ne hdc] at hd ⊢
      exact h.idle d hd
  · intro d t hd
    rw [htids] at hd
    rw [hplaces d t hd]
    exact h.numbered d t hd
  · intro d d' t hd hd' he
    rw [htids] at hd hd'
    rw [hplaces d t hd, hplaces d' t hd'] at he
    exact h.apart d d' t hd hd' he
  · intro t d hd
    obtain ⟨h1, h2, h3⟩ := h.registered t d hd
    rw [htids, hconns]
    refine ⟨h1, ?_, h3⟩
    by_cases hdc : d = c
    · subst hdc
      simpa [TcpTransport.set_call] using hopen t hd
    · simpa [TcpTransport.set_call, update_of_ne hdc] using h2
  · intro t d d' hd hd'
    rw [htids] at hd'
    rw [hplaces d t (h.registered t d hd).1, hplaces d' t hd']
    exact h.latest t d d' hd hd'
  · intro d hd
    rw [hconns] at hd
    rw [htids]
    exact h.written d hd

/-- Only calls, pending ids and counters are accounted for. -/
theorem Accounts.congr {s s' : TcpTransport} (h : Accounts s) (hcalls : s'.calls = s.calls)
    (hpending : s'.pending = s.pending) (hnext : s'.next_tid = s.next_tid)
    (hprobed : s'.probed = s.probed) : Accounts s' := by
  constructor
  · rw [hnext, hprobed]
    exact h.counter
  · rw [hcalls]
    exact h.idle
  · rw [hcalls, hprobed]
    exact h.numbered
  · rw [hcalls]
    exact h.apart
  · rw [hcalls, hpending]
    exact h.registered
  · rw [hcalls, hpending]
    exact h.latest
  · rw [hcalls]
    exact h.written

theorem Accounts.not_registered {s : TcpTransport} (h : Accounts s) {c : Nat}
    (hc : ¬ Open (s.calls c).place) (t : Nat) : s.pending.lookup t ≠ some c :=
  fun ht => hc (h.registered t c ht).2.1

theorem Accounts.move {s : TcpTransport} (h : Accounts s) {c : Nat} {place : CallAt}
    (hm : Moves (s.calls c).place place) : Accounts (s.move c place) := by
  refine h.set_call rfl rfl (fun _ => rfl) ?_ ?_
  · intro hi
    exact h.idle c (hm.idle hi)
  · intro t ht
    exact absurd ht (h.not_registered hm.closed t)

/-- A call that ends takes its entry with it. -/
theorem Accounts.pop_and_end {s : TcpTransport} (h : Accounts s) {c : Nat} {place : CallAt}
    (hidle : ¬ Idle place) : Accounts (s.pop_and_end c place) := by
  have hend : ∀ {s : TcpTransport}, Accounts s → (∀ t, s.pending.lookup t ≠ some c) →
      Accounts (s.end_call c place) := by
    intro s h hno
    have hmove : Accounts (s.move c place) := by
      refine h.set_call rfl rfl (fun _ => rfl) ?_ ?_
      · exact fun hi => absurd hi hidle
      · exact fun t ht => absurd ht (hno t)
    exact hmove.congr rfl rfl rfl rfl
  unfold TcpTransport.pop_and_end
  split
  · rename_i htid
    apply hend h
    intro t ht
    rw [(h.registered t c ht).1] at htid
    cases htid
  · rename_i tid htid
    apply hend (h.drop fun t d hd => (lookup_of_erase hd).2)
    intro t ht
    obtain ⟨hne, ht⟩ := lookup_of_erase ht
    rw [(h.registered t c ht).1] at htid
    cases htid
    exact hne rfl

/-! ## A request -/

/-- What `_allocate_tid` returned: the id is free, and the counter has moved right past it. -/
structure Allocated (s : TcpTransport) (tid next_tid : Nat) : Prop where
  free : tid ∉ s.pending
  place : tid = (s.probed + ((tid + 0x10000 - s.next_tid) % 0x10000 + 1) - 1) % 0x10000
  next : next_tid = (s.probed + ((tid + 0x10000 - s.next_tid) % 0x10000 + 1)) % 0x10000

theorem Accounts.allocated {s : TcpTransport} (h : Accounts s) {tid next_tid : Nat}
    (ha : allocate_tid s.pending s.next_tid = (some tid, next_tid)) :
    Allocated s tid next_tid := by
  obtain ⟨k, hk, htid, hfree, hnext, -⟩ := probe_some h.next_lt ha
  have hn := h.next_lt
  have hc := h.counter
  exact ⟨hfree, by omega, by omega⟩

/-- The counter once the id has been allocated. -/
def probed_past (s : TcpTransport) (tid : Nat) : Nat :=
  s.probed + ((tid + 0x10000 - s.next_tid) % 0x10000 + 1)

/-- A call that was idle has the id, and stands alone at its place of the counter. -/
theorem Accounts.number {s : TcpTransport} (h : Accounts s) {c tid next_tid : Nat}
    (ha : Allocated s tid next_tid) (hc : Idle (s.calls c).place) (call : Call)
    (pending : Pending) (htid : call.tid = some tid)
    (hprobed : call.probed_at = probed_past s tid) (hidle : ¬ Idle call.place)
    (hreg : ∀ t d, pending.lookup t = some d → s.pending.lookup t = some d ∨
      (t = tid ∧ d = c ∧ Open call.place ∧ call.conn ≠ none)) :
    Accounts { s with
      next_tid := next_tid, probed := probed_past s tid, pending := pending
      calls := update s.calls c call } := by
  have hnone : s.pending.lookup tid = none := AList.lookup_eq_none.mpr ha.free
  have hlt : s.probed < probed_past s tid := by
    unfold probed_past
    omega
  have hold : ∀ t d, s.pending.lookup t = some d → d ≠ c ∧ t ≠ tid := by
    intro t d hd
    constructor
    · rintro rfl
      exact h.not_registered (not_open_of_idle hc) t hd
    · rintro rfl
      rw [hnone] at hd
      cases hd
  refine ⟨ha.next, ?_, ?_, ?_, ?_, ?_, ?_⟩
  · intro d hd
    by_cases hdc : d = c
    · subst hdc
      simp only [update_self] at hd
      exact absurd hd hidle
    · simp only [update_of_ne hdc] at hd ⊢
      exact h.idle d hd
  · intro d t hd
    by_cases hdc : d = c
    · subst hdc
      simp only [update_self] at hd ⊢
      rw [htid] at hd
      cases hd
      rw [hprobed]
      exact ⟨ha.place, by omega, by omega⟩
    · simp only [update_of_ne hdc] at hd ⊢
      obtain ⟨h1, h2, h3⟩ := h.numbered d t hd
      exact ⟨h1, h2, by omega⟩
  · intro d d' t hd hd' he
    by_cases hdc : d = c
    · by_cases hdc' : d' = c
      · rw [hdc, hdc']
      · exfalso
        subst hdc
        simp only [update_self, update_of_ne hdc'] at hd' he
        have := (h.numbered d' t hd').2.2
        omega
    · by_cases hdc' : d' = c
      · exfalso
        subst hdc'
        simp only [update_self, update_of_ne hdc] at hd he
        have := (h.numbered d t hd).2.2
        omega
      · simp only [update_of_ne hdc] at hd he
        simp only [update_of_ne hdc'] at hd' he
        exact h.apart d d' t hd hd' he
  · intro t d hd
    rcases hreg t d hd with hd | ⟨rfl, rfl, hopen, hconn⟩
    · simp only [update_of_ne (hold t d hd).1]
      exact h.registered t d hd
    · simp only [update_self]
      exact ⟨htid, hopen, hconn⟩
  · intro t d d' hd hd'
    rcases hreg t d hd with hd | ⟨rfl, rfl, -, -⟩
    · obtain ⟨hdc, htt⟩ := hold t d hd
      by_cases hdc' : d' = c
      · subst hdc'
        simp only [update_self] at hd'
        rw [htid] at hd'
        cases hd'
        exact absurd rfl htt
      · simp only [update_of_ne hdc'] at hd'
        simp only [update_of_ne hdc, update_of_ne hdc']
        exact h.latest t d d' hd hd'
    · simp only [update_self]
      by_cases hdc' : d' = d
      · subst hdc'
        simp
      · simp only [update_of_ne hdc'] at hd' ⊢
        have := (h.numbered d' t hd').2.2
        omega
  · intro d hd
    by_cases hdc : d = c
    · subst hdc
      simp [htid]
    · simp only [update_of_ne hdc] at hd ⊢
      exact h.written d hd

theorem Accounts.send {s : TcpTransport} (h : Accounts s) {c : Nat}
    (hc : Idle (s.calls c).place) : Accounts (s.send_and_receive_unlocked c) := by
  unfold send_and_receive_unlocked
  split
  · rename_i next' ha
    have hnext : next' = s.next_tid := by
      have := (probe_none h.next_lt ha).1
      have := h.next_lt
      omega
    have hmove := h.move (moves_raised (not_open_of_idle hc)
      (.modbus (.ModbusError "transaction id space exhausted")))
    exact hmove.congr rfl rfl hnext rfl
  · rename_i tid next' ha
    have hall := h.allocated ha
    have hregister : (s.register c tid next').calls c = { s.calls c with
        tid := some tid, future := .pending, probed_at := probed_past s tid
        allocated_at := s.allocated + 1 } := by
      simp [register, probed_past]
    have hpop : ∀ e, Accounts (((s.register c tid next').pop_and_end c (.raised e))) := by
      intro e
      have hn := h.number hall hc
        { (s.register c tid next').calls c with place := .raised e }
        ((s.pending.insert tid c).erase tid) (by rw [hregister]) (by rw [hregister]) id (by
          intro t d hd
          obtain ⟨hne, hd⟩ := lookup_of_erase hd
          rw [AList.lookup_insert_ne hne] at hd
          exact .inl hd)
      have htid : ((s.register c tid next').calls c).tid = some tid := by rw [hregister]
      unfold TcpTransport.pop_and_end
      rw [htid]
      refine hn.congr ?_ rfl rfl rfl
      simp [end_call, TcpTransport.move, TcpTransport.set_call, register]
    unfold TcpTransport.write_request
    split
    · exact hpop _
    · rename_i w hw
      split
      · exact hpop _
      · have hn := h.number hall hc
          { (s.register c tid next').calls c with conn := some w, place := .draining }
          (s.pending.insert tid c) (by rw [hregister]) (by rw [hregister]) id (by
            intro t d hd
            by_cases ht : t = tid
            · subst ht
              rw [AList.lookup_insert] at hd
              cases hd
              exact .inr ⟨rfl, rfl, trivial, by simp⟩
            · rw [AList.lookup_insert_ne ht] at hd
              exact .inl hd)
        refine hn.congr ?_ rfl rfl rfl
        simp [write_frame, TcpTransport.set_call, set_conn, register]

/-! ## Every step keeps it -/

theorem Accounts.effect {s s' : TcpTransport} (h : Accounts s) (he : Effect s s') :
    Accounts s' := by
  cases he with
  | silent hs => exact h.congr hs.calls hs.pending hs.next_tid hs.probed
  | start c kind pdu unit_id timeout_s habs =>
    have hidle : Idle (s.calls c).place := by simp [habs, Idle]
    obtain ⟨htid, hconn, -, -⟩ := h.idle c hidle
    refine h.set_call htid.symm hconn.symm (fun ht => absurd rfl ht) ?_ ?_
    · exact fun _ => ⟨rfl, rfl, rfl, rfl⟩
    · exact fun t ht => absurd ht (h.not_registered (not_open_of_idle hidle) t)
  | move c hm => exact h.move hm
  | send c idle _ _ => exact h.send idle
  | drain c hplace =>
    refine h.set_call rfl rfl (fun _ => rfl) ?_ ?_
    · exact fun hi => hi.elim
    · exact fun _ _ => trivial
  | interrupt c i hplace =>
    refine h.set_call rfl rfl (fun _ => rfl) ?_ ?_
    · intro hi
      simp [hplace, Idle] at hi
    · intro t ht
      exact (h.registered t c ht).2.1
  | pop c hopen _ hidle _ => exact h.pop_and_end hidle
  | answer c unit_id pdu ha =>
    unfold peer_reply at ha
    simp only at ha
    split at ha
    · rename_i g tid hg htid hanswer
      split at ha
      · cases ha
      · cases ha
        have hset : Accounts (s.set_call c { s.calls c with answer := some pdu }) := by
          refine h.set_call rfl rfl (fun _ => rfl) ?_ ?_
          · intro hi
            rw [(h.idle c hi).2.1] at hg
            cases hg
          · intro t ht
            exact (h.registered t c ht).2.1
        exact hset.congr rfl rfl rfl rfl
    · cases ha
  | arrive g n => exact h.congr rfl rfl rfl rfl
  | lose g => exact h.congr rfl rfl rfl rfl

theorem Accounts.clear {s : TcpTransport} (h : Accounts s) (a : Agent) :
    Accounts (s.clear_pending a) := by
  have hcall : ∀ c, ((s.clear_pending a).calls c).place = (s.calls c).place ∧
      ((s.clear_pending a).calls c).tid = (s.calls c).tid ∧
      ((s.clear_pending a).calls c).conn = (s.calls c).conn ∧
      ((s.clear_pending a).calls c).probed_at = (s.calls c).probed_at ∧
      ((s.clear_pending a).calls c).answer = (s.calls c).answer := by
    intro c
    simp only [clear_pending, fail_pending]
    split <;> exact ⟨rfl, rfl, rfl, rfl, rfl⟩
  have hempty : ∀ t c, (s.clear_pending a).pending.lookup t ≠ some c := by
    intro t c hc
    simp [clear_pending, AList.lookup_empty] at hc
  refine ⟨h.counter, ?_, ?_, ?_, ?_, ?_, ?_⟩
  · intro c hc
    obtain ⟨hp, ht, hn, -, ha⟩ := hcall c
    rw [hp] at hc
    obtain ⟨h1, h2, h3, h4⟩ := h.idle c hc
    refine ⟨ht.trans h1, hn.trans h2, ?_, ha.trans h4⟩
    have hnot : c ∉ s.pending.values := by
      rw [mem_values]
      rintro ⟨t, hr⟩
      exact h.not_registered (not_open_of_idle hc) t hr
    simpa [clear_pending, fail_pending, hnot] using h3
  · intro c t hc
    obtain ⟨-, ht, -, hp, -⟩ := hcall c
    rw [ht] at hc
    rw [hp]
    exact h.numbered c t hc
  · intro c d t hc hd he
    obtain ⟨-, htc, -, hpc, -⟩ := hcall c
    obtain ⟨-, htd, -, hpd, -⟩ := hcall d
    rw [htc] at hc
    rw [htd] at hd
    rw [hpc, hpd] at he
    exact h.apart c d t hc hd he
  · intro t c hc
    exact absurd hc (hempty t c)
  · intro t c d hc
    exact absurd hc (hempty t c)
  · intro c hc
    obtain ⟨-, ht, hn, -, -⟩ := hcall c
    rw [hn] at hc
    rw [ht]
    exact h.written c hc

theorem Accounts.jump {e : Event} {s s' : TcpTransport} (h : Accounts s) (hj : Jump e s s') :
    Accounts s' := by
  cases hj with
  | stay => exact h
  | install c => exact h.congr rfl rfl rfl rfl
  | clear a => exact h.clear a

theorem Accounts.dispatch {s : TcpTransport} (h : Accounts s) (frame : codec.Bytes)
    (origin : Option Nat) : Accounts (s.dispatch_frame frame origin) := by
  unfold dispatch_frame
  split
  · exact h
  · split
    · exact h
    · rename_i c hc
      split
      · refine h.set_call rfl rfl (fun _ => rfl) ?_ ?_
        · intro hi
          exact absurd hc (h.not_registered (not_open_of_idle hi) _)
        · intro t ht
          exact (h.registered t c ht).2.1
      · exact h

theorem accounts_step {s s' : TcpTransport} {e : Event} (ht : Tidy s) (h : Accounts s)
    (he : step s e = some s') : Accounts s' := by
  rcases hr : e.reads with _ | _
  · exact (step_through ht he hr).preserves (fun _ _ => Accounts.effect)
      (fun _ _ _ => Accounts.jump) h
  cases e with
  | frame_read g =>
    simp only [step] at he
    split at he
    · split at he
      · cases he
      · unfold read_loop_frame at he
        simp only at he
        split at he
        · cases he
          apply Accounts.dispatch
          exact h.congr rfl rfl rfl rfl
        · cases he
    · cases he
  | peer_sent g bytes =>
    cases he
    exact h.congr rfl rfl rfl rfl
  | _ => cases hr

theorem accounts_new (host : String) (port : Int) (pipeline : Bool) (connect_timeout_s : String) :
    Accounts (new host port pipeline connect_timeout_s) := by
  have hempty : ∀ t c, (new host port pipeline connect_timeout_s).pending.lookup t ≠ some c := by
    intro t c hc
    simp [new, AList.lookup_empty] at hc
  refine ⟨rfl, fun _ _ => ⟨rfl, rfl, rfl, rfl⟩, ?_, ?_, ?_, ?_, ?_⟩
  · rintro c t ⟨⟩
  · rintro c d t ⟨⟩
  · exact fun t c hc => absurd hc (hempty t c)
  · exact fun t c d hc => absurd hc (hempty t c)
  · exact fun c hc => absurd rfl hc

theorem accounts_run (host : String) (port : Int) (pipeline : Bool) (connect_timeout_s : String)
    {es : List Event} {s : TcpTransport}
    (hrun : run step (new host port pipeline connect_timeout_s) es = some s) : Accounts s := by
  have hstep : ∀ s e s', Tidy s ∧ Accounts s → True → step s e = some s' →
      Tidy s' ∧ Accounts s' := by
    intro s e s' ⟨ht, ha⟩ _ he
    exact ⟨tidy_step ht he, accounts_step ht ha he⟩
  have hnew := And.intro (tidy_new host port pipeline connect_timeout_s)
    (accounts_new host port pipeline connect_timeout_s)
  exact (invariant_run hstep hnew (guarded_of_forall (fun _ _ _ => trivial) _) hrun).2

/-! ## What is kept of the ids -/

/-- The call has returned or raised. -/
def Finished : CallAt → Prop
  | .returned _ | .raised _ | .closed => True
  | _ => False

theorem not_finished_of_open {place : CallAt} (h : Open place) : ¬ Finished place := by
  cases place <;> first | exact h.elim | exact id

/-- The key of `_pending` belongs to a call that was registered under it and goes on. -/
def Belongs (s : TcpTransport) (tid : Nat) : Prop :=
  ∃ c, s.pending.lookup tid = some c ∧ (s.calls c).tid = some tid ∧
    (s.calls c).place ≠ .absent ∧ ¬ Finished (s.calls c).place

theorem Accounts.belongs {s : TcpTransport} (h : Accounts s) {tid : Nat} (htid : tid ∈ s.pending) :
    Belongs s tid := by
  obtain ⟨c, hc⟩ := Option.isSome_iff_exists.mp (AList.lookup_isSome.mpr htid)
  obtain ⟨hown, hopen, _⟩ := h.registered tid c hc
  refine ⟨c, hc, hown, ?_, not_finished_of_open hopen⟩
  intro habsent
  rw [habsent] at hopen
  exact hopen

/-- A request that finds no free id raises and leaves the ids as they are. -/
theorem send_and_receive_exhausted {s : TcpTransport} (c : Nat) (hn : s.next_tid < 0x10000)
    (hall : ∀ tid < 0x10000, tid ∈ s.pending) :
    (s.send_and_receive_unlocked c).pending = s.pending ∧
      (s.send_and_receive_unlocked c).next_tid = s.next_tid ∧
      ((s.send_and_receive_unlocked c).calls c).place =
        .raised (.modbus (.ModbusError "transaction id space exhausted")) := by
  have ha := (allocate_tid_none_iff hn).mpr ⟨hall, rfl⟩
  unfold send_and_receive_unlocked
  rw [ha]
  refine ⟨rfl, rfl, ?_⟩
  simp [end_call, TcpTransport.move, TcpTransport.set_call]

/-- In every state of every run the pending ids are those of calls that go on. The next one is the
first free one, and only when there is none a request raises, with the ids as they were. -/
theorem transaction_ids_are_accounted_for (host : String) (port : Int) (pipeline : Bool)
    (connect_timeout_s : String) {es : List Event} {s : TcpTransport}
    (hrun : run step (new host port pipeline connect_timeout_s) es = some s) :
    (∀ tid ∈ s.pending, Belongs s tid) ∧
    ((∀ c, (s.calls c).place ≠ .absent → Finished (s.calls c).place) → s.pending = ∅) ∧
    s.next_tid < 0x10000 ∧
    (∀ (pending : Pending) (next_tid : Nat), next_tid < 0x10000 →
      (∀ tid next', allocate_tid pending next_tid = (some tid, next') ↔
        FirstFree pending next_tid tid ∧ next' = (tid + 1) % 0x10000) ∧
      ∀ next', allocate_tid pending next_tid = (none, next') ↔
        (∀ tid < 0x10000, tid ∈ pending) ∧ next' = next_tid) ∧
    ∀ (s : TcpTransport) (c : Nat), s.next_tid < 0x10000 → (∀ tid < 0x10000, tid ∈ s.pending) →
      (s.send_and_receive_unlocked c).pending = s.pending ∧
      (s.send_and_receive_unlocked c).next_tid = s.next_tid ∧
      ((s.send_and_receive_unlocked c).calls c).place =
        .raised (.modbus (.ModbusError "transaction id space exhausted")) := by
  have hs := accounts_run host port pipeline connect_timeout_s hrun
  refine ⟨fun _ => hs.belongs, ?_, hs.next_lt, ?_, ?_⟩
  · intro hdone
    apply AList.ext
    apply List.eq_nil_iff_forall_not_mem.mpr
    intro entry hentry
    obtain ⟨c, _, _, hbegun, hgoes⟩ := hs.belongs (List.mem_map_of_mem hentry)
    exact hgoes (hdone c hbegun)
  · intro pending next_tid hn
    exact ⟨fun _ _ => allocate_tid_some_iff hn, fun _ => allocate_tid_none_iff hn⟩
  · exact fun s c hn hall => send_and_receive_exhausted c hn hall

/-- A request that times out. -/
def unanswered_request : List Event :=
  [.start_send 0 [3, 0, 0, 0, 1] 1 "1.0", .lock_acquired 0, .opened 0, .drained 0, .timed_out 0]

/-- Its id is pending until its task goes on, and then no longer. -/
theorem an_unanswered_request_leaves_no_id :
    (∃ s, run step (new "plc" 502 true "3.0") unanswered_request = some s ∧ 0 ∈ s.pending ∧
      Belongs s 0) ∧
    ∃ s, run step (new "plc" 502 true "3.0") (unanswered_request ++ [.resumed 0]) = some s ∧
      s.pending = ∅ ∧ s.next_tid < 0x10000 := by
  constructor
  · have hrun : run step (new "plc" 502 true "3.0") unanswered_request = some _ := rfl
    have hkept := transaction_ids_are_accounted_for "plc" 502 true "3.0" hrun
    exact ⟨_, hrun, by decide, hkept.1 0 (by decide)⟩
  · have hrun : run step (new "plc" 502 true "3.0") (unanswered_request ++ [.resumed 0]) =
        some _ := rfl
    have hkept := transaction_ids_are_accounted_for "plc" 502 true "3.0" hrun
    refine ⟨_, hrun, hkept.2.1 ?_, hkept.2.2.1⟩
    intro c hbegun
    cases c with
    | zero => trivial
    | succ c => exact absurd rfl hbegun

end pymod.tcp
