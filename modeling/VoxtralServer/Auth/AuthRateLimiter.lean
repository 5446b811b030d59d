import VoxtralServer.Base
import VoxtralServer.Lib.System
import VoxtralServer.Lib.Table

/-!
# The authentication failure limiter

`AuthRateLimiter` counts the failed authentications of each client address in
a window that opens at the first failure. An address is blocked while its
window holds more than `max_failures` of them. The table of addresses is
capped: a recorded failure that pushes it over the cap erases the expired
entries, and then the oldest ones.

* `recordFailure_size`: a recorded failure leaves the table within the cap.
* `recordFailure_lookup`: what it does to the entry of another address.
* `eviction_least`: an eviction erases as little as the cap allows, the oldest
  entries first.
* `block_lasts`: a block lasts until its window expires, unless enough other
  addresses crowd it out.
* `block_evicted`: without that proviso it does not.
-/

namespace VoxtralServer

/-! ## The limiter -/

/-- `AuthRateLimiter::IpState`. -/
structure AuthRateLimiter.IpState where
  failures : Nat := 0
  windowStart : Int
deriving DecidableEq, Repr

/-- `AuthRateLimiter`, without its mutex: each method is one critical section. -/
structure AuthRateLimiter where
  maxFailures : Nat := 10
  windowSecs : Int := 60
  maxTrackedIps : Nat := 10000
  ipStates : Table Str AuthRateLimiter.IpState := ∅
deriving DecidableEq

namespace AuthRateLimiter

/-- `now - state.window_start > window_secs`. -/
def expired (l : AuthRateLimiter) (now : Int) (st : IpState) : Bool :=
  decide (now - st.windowStart > seconds l.windowSecs)

/-- `size`. -/
def size (l : AuthRateLimiter) : Nat := l.ipStates.size

/-- `evict_to_cap`: erases the expired entries, then the oldest ones while the
table is over the cap. -/
def evictToCap (l : AuthRateLimiter) (ord : IterOrder Str IpState) (now : Int) :
    AuthRateLimiter :=
  let live := (l.ipStates.reorder ord).keep fun _ st => !l.expired now st
  { l with ipStates := live.evictTo IpState.windowStart l.maxTrackedIps }

/-- The caller's entry after `state.failures++`. A missing entry is constructed
by `ip_states_[ip]`, and an expired one starts a new window. -/
def countFailure (l : AuthRateLimiter) (ip : Str) (t : Readings) : IpState :=
  let state := (l.ipStates.lookup ip).getD { windowStart := t.fresh }
  let state := if l.expired t.now state then { failures := 0, windowStart := t.now } else state
  { state with failures := state.failures + 1 }

/-- The limiter once the caller's entry is written, before any eviction. -/
def written (l : AuthRateLimiter) (ip : Str) (t : Readings) : AuthRateLimiter :=
  { l with ipStates := l.ipStates.insert ip (l.countFailure ip t) }

/-- `check_and_record_failure`. -/
def checkAndRecordFailure (l : AuthRateLimiter) (ord : IterOrder Str IpState) (ip : Str)
    (t : Readings) : Bool × AuthRateLimiter :=
  let isBlocked := decide ((l.countFailure ip t).failures > l.maxFailures)
  let l' := l.written ip t
  if l.maxTrackedIps > 0 ∧ l'.size > l.maxTrackedIps then
    (isBlocked, l'.evictToCap ord t.now)
  else
    (isBlocked, l')

/-- `is_blocked`. -/
def isBlocked (l : AuthRateLimiter) (ip : Str) (now : Int) : Bool × AuthRateLimiter :=
  match l.ipStates.lookup ip with
  | none => (false, l)
  | some state =>
    if l.expired now state then (false, { l with ipStates := l.ipStates.erase ip })
    else (decide (state.failures > l.maxFailures), l)

/-! ## What a call does -/

variable {l : AuthRateLimiter} {ord : IterOrder Str IpState} {ip : Str} {t : Readings}

@[simp] theorem written_lookup_self : (l.written ip t).ipStates.lookup ip =
    some (l.countFailure ip t) :=
  AList.lookup_insert _

theorem written_lookup_of_ne {other : Str} (h : other ≠ ip) :
    (l.written ip t).ipStates.lookup other = l.ipStates.lookup other :=
  AList.lookup_insert_ne h

/-- A recorded failure of a known address whose window is open adds one. -/
theorem countFailure_open {st : IpState} (h : l.ipStates.lookup ip = some st)
    (ho : l.expired t.now st = false) :
    l.countFailure ip t = { st with failures := st.failures + 1 } := by
  simp [countFailure, h, ho]

/-- No method changes the parameters. -/
theorem recordFailure_params (l : AuthRateLimiter) (ord : IterOrder Str IpState) (ip : Str)
    (t : Readings) :
    (l.checkAndRecordFailure ord ip t).2.maxFailures = l.maxFailures ∧
    (l.checkAndRecordFailure ord ip t).2.windowSecs = l.windowSecs ∧
    (l.checkAndRecordFailure ord ip t).2.maxTrackedIps = l.maxTrackedIps := by
  unfold checkAndRecordFailure
  dsimp only
  split <;> exact ⟨rfl, rfl, rfl⟩

theorem isBlocked_params {now : Int} :
    (l.isBlocked ip now).2.maxFailures = l.maxFailures ∧
    (l.isBlocked ip now).2.windowSecs = l.windowSecs ∧
    (l.isBlocked ip now).2.maxTrackedIps = l.maxTrackedIps := by
  unfold isBlocked
  split
  · exact ⟨rfl, rfl, rfl⟩
  · split <;> exact ⟨rfl, rfl, rfl⟩

theorem evictToCap_size {now : Int} :
    (l.evictToCap ord now).size ≤ l.maxTrackedIps := by
  simp only [size, evictToCap, Table.size_evictTo]
  omega

/-- After a recorded failure the table is within the cap. -/
theorem recordFailure_size (h : 0 < l.maxTrackedIps) :
    (l.checkAndRecordFailure ord ip t).2.size ≤ l.maxTrackedIps := by
  unfold checkAndRecordFailure
  dsimp only
  split
  · exact evictToCap_size (l := l.written ip t)
  · next hn =>
    simp only [not_and, not_lt] at hn
    exact hn h

/-- An eviction changes no entry that it keeps. -/
theorem evictToCap_kept {now : Int} {st : IpState}
    (h : (l.evictToCap ord now).ipStates.lookup ip = some st) :
    l.ipStates.lookup ip = some st ∧ l.expired now st = false := by
  have hkeep := Table.evictTo_kept h
  rw [Table.lookup_keep_eq_some, Table.lookup_reorder] at hkeep
  exact ⟨hkeep.1, by simpa using hkeep.2⟩

/-- A recorded failure changes no entry that it keeps, but for the one it writes. -/
theorem recordFailure_kept {k : Str} {st : IpState}
    (h : (l.checkAndRecordFailure ord ip t).2.ipStates.lookup k = some st) :
    (l.written ip t).ipStates.lookup k = some st := by
  unfold checkAndRecordFailure at h
  dsimp only at h
  split at h
  · exact (evictToCap_kept h).1
  · exact h

/-- How many other addresses hold an unexpired window that opened no earlier
than `w`. -/
def rivals (l : AuthRateLimiter) (ip : Str) (w now : Int) : Nat :=
  (l.ipStates.keep fun other st =>
    decide (other ≠ ip) && !l.expired now st && decide (w ≤ st.windowStart)).size

/-- When an eviction erases an unexpired entry, exactly as many entries are left
as the cap allows, and each of them is unexpired and opened no earlier. -/
theorem evictToCap_erased {now : Int} {st : IpState} (h : l.ipStates.lookup ip = some st)
    (ho : l.expired now st = false)
    (hd : (l.evictToCap ord now).ipStates.lookup ip = none) :
    (l.evictToCap ord now).size = l.maxTrackedIps ∧
    ∀ other st', (l.evictToCap ord now).ipStates.lookup other = some st' →
      l.expired now st' = false ∧ st.windowStart ≤ st'.windowStart := by
  have hlive : ((l.ipStates.reorder ord).keep fun _ st => !l.expired now st).lookup ip =
      some st := by
    rw [Table.lookup_keep_eq_some, Table.lookup_reorder]
    exact ⟨h, by simp [ho]⟩
  obtain ⟨hsize, hage⟩ := Table.evictTo_dropped hlive hd
  exact ⟨hsize, fun other st' hother =>
    ⟨(evictToCap_kept (l := l) hother).2, hage other st' hother⟩⟩

/-- An eviction erases an unexpired entry only when as many rivals as the cap
allows are left. -/
theorem evictToCap_dropped {now : Int} {st : IpState} (h : l.ipStates.lookup ip = some st)
    (ho : l.expired now st = false)
    (hd : (l.evictToCap ord now).ipStates.lookup ip = none) :
    l.maxTrackedIps ≤ l.rivals ip st.windowStart now := by
  obtain ⟨hsize, hleft⟩ := evictToCap_erased h ho hd
  rw [← hsize]
  apply Table.size_le_of_lookup
  intro other st' hother
  -- every survivor is another address with an open and no older window
  have hne : other ≠ ip := by
    rintro rfl
    rw [hd] at hother
    cases hother
  obtain ⟨hopen, hage⟩ := hleft other st' hother
  rw [Table.lookup_keep_eq_some]
  exact ⟨(evictToCap_kept hother).1, by simp [hne, hopen, hage]⟩

/-- A recorded failure of another address keeps an unexpired entry, unless
it leaves as many rivals as the cap allows. -/
theorem recordFailure_lookup {other : Str} {st : IpState} (hne : ip ≠ other)
    (h : l.ipStates.lookup ip = some st) (ho : l.expired t.now st = false)
    (hr : (l.written other t).rivals ip st.windowStart t.now < l.maxTrackedIps) :
    (l.checkAndRecordFailure ord other t).2.ipStates.lookup ip = some st := by
  have hw : (l.written other t).ipStates.lookup ip = some st := by
    rw [written_lookup_of_ne hne, h]
  unfold checkAndRecordFailure
  dsimp only
  split
  · cases hd : ((l.written other t).evictToCap ord t.now).ipStates.lookup ip with
    | none =>
      have hge := evictToCap_dropped hw ho hd
      exact absurd hr (Nat.not_lt.mpr hge)
    | some st' =>
      have hk := (evictToCap_kept hd).1
      rw [hw] at hk
      exact hk.symm
  · exact hw

/-- A recorded failure of an address in the table evicts nothing, as long as
the table is within the cap. -/
theorem recordFailure_self {st : IpState} (hs : l.size ≤ l.maxTrackedIps)
    (h : l.ipStates.lookup ip = some st) :
    (l.checkAndRecordFailure ord ip t).2 = l.written ip t := by
  have hmem : ip ∈ l.ipStates := by
    rw [← AList.lookup_isSome, h]
    rfl
  have hsize : (l.written ip t).size = l.size := Table.size_insert_of_mem _ hmem
  unfold checkAndRecordFailure
  dsimp only
  rw [if_neg]
  omega

theorem isBlocked_lookup_of_ne {other : Str} {now : Int} (hne : ip ≠ other) :
    (l.isBlocked other now).2.ipStates.lookup ip = l.ipStates.lookup ip := by
  unfold isBlocked
  split
  · rfl
  · split
    · exact AList.lookup_erase_ne hne
    · rfl

/-- A query about an open window changes nothing. -/
theorem isBlocked_open {st : IpState} {now : Int} (h : l.ipStates.lookup ip = some st)
    (ho : l.expired now st = false) :
    l.isBlocked ip now = (decide (st.failures > l.maxFailures), l) := by
  simp [isBlocked, h, ho]

theorem isBlocked_size {now : Int} : (l.isBlocked ip now).2.size ≤ l.size := by
  unfold isBlocked
  split
  · exact Nat.le_refl _
  · next st h =>
    split
    · have hmem : ip ∈ l.ipStates := by
        rw [← AList.lookup_isSome, h]
        rfl
      have := Table.size_erase_of_mem hmem
      simp only [size]
      omega
    · exact Nat.le_refl _

theorem expired_eq_false {st : IpState} {now : Int} :
    l.expired now st = false ↔ now - st.windowStart ≤ seconds l.windowSecs := by
  simp [expired]

/-- A recorded failure adds to the open window of its address, or opens one. -/
theorem countFailure_cases (l : AuthRateLimiter) (ip : Str) (ht : t.now ≤ t.fresh) :
    (∃ st, l.ipStates.lookup ip = some st ∧ l.expired t.now st = false ∧
      l.countFailure ip t = { st with failures := st.failures + 1 }) ∨
    ((∀ st, l.ipStates.lookup ip = some st → l.expired t.now st = true) ∧
      ∃ w, l.countFailure ip t = ⟨1, w⟩ ∧ t.now ≤ w) := by
  cases hl : l.ipStates.lookup ip with
  | none =>
    refine .inr ⟨nofun, ?_⟩
    simp only [countFailure, hl, Option.getD_none]
    split
    · exact ⟨t.now, rfl, Int.le_refl _⟩
    · exact ⟨t.fresh, rfl, ht⟩
  | some st =>
    cases he : l.expired t.now st with
    | false => exact .inl ⟨st, rfl, he, countFailure_open hl he⟩
    | true =>
      refine .inr ⟨fun st' h => by cases h; exact he, t.now, ?_, Int.le_refl _⟩
      simp [countFailure, hl, he]

/-- The window that a failure is counted in is open. -/
theorem countFailure_open_now (ip : Str) (ht : t.now ≤ t.fresh) (hsecs : 0 ≤ l.windowSecs) :
    l.expired t.now (l.countFailure ip t) = false := by
  rcases countFailure_cases l ip ht with ⟨st, _, ho, hc⟩ | ⟨_, w, hc, hw⟩
  · rw [hc]
    exact ho
  · rw [hc, expired_eq_false]
    simp only [seconds]
    omega

/-- A recorded failure of `other` evicts the unexpired entry of `ip`. -/
def evicts (l : AuthRateLimiter) (ord : IterOrder Str IpState) (other : Str) (t : Readings)
    (ip : Str) : Bool :=
  match (l.written other t).ipStates.lookup ip with
  | none => false
  | some st => !l.expired t.now st &&
      ((l.checkAndRecordFailure ord other t).2.ipStates.lookup ip).isNone

/-- When it evicts no unexpired entry, what it erases is expired. -/
theorem recordFailure_entry {other : Str} (h : l.evicts ord other t ip = false) :
    (l.checkAndRecordFailure ord other t).2.ipStates.lookup ip =
      (l.written other t).ipStates.lookup ip ∨
    ((l.checkAndRecordFailure ord other t).2.ipStates.lookup ip = none ∧
      ∀ st, (l.written other t).ipStates.lookup ip = some st → l.expired t.now st = true) := by
  by_cases hover : l.maxTrackedIps > 0 ∧ (l.written other t).size > l.maxTrackedIps
  · have hrec : (l.checkAndRecordFailure ord other t).2 =
        (l.written other t).evictToCap ord t.now := by
      simp only [checkAndRecordFailure, if_pos hover]
    simp only [evicts, hrec] at h ⊢
    cases hafter : ((l.written other t).evictToCap ord t.now).ipStates.lookup ip with
    | some st' => exact .inl (evictToCap_kept hafter).1.symm
    | none =>
      refine .inr ⟨rfl, fun st hst => ?_⟩
      simpa [hst, hafter] using h
  · have hrec : (l.checkAndRecordFailure ord other t).2 = l.written other t := by
      simp only [checkAndRecordFailure, if_neg hover]
    exact .inl (by rw [hrec])

/-- A query erases the entry it asks about when that is expired, and nothing
else. -/
theorem isBlocked_entry (l : AuthRateLimiter) (ip other : Str) (now : Int) :
    (l.isBlocked other now).2.ipStates.lookup ip = l.ipStates.lookup ip ∨
    ((l.isBlocked other now).2.ipStates.lookup ip = none ∧
      ∀ st, l.ipStates.lookup ip = some st → l.expired now st = true) := by
  by_cases hne : ip = other
  · subst hne
    unfold isBlocked
    split
    · exact .inl rfl
    · next st hl =>
      split
      · next he =>
        refine .inr ⟨AList.lookup_erase _ _, fun st' hst => ?_⟩
        rw [hl] at hst
        cases hst
        exact he
      · exact .inl rfl
  · exact .inl (isBlocked_lookup_of_ne hne)

/-- The failures in the open window of an address. -/
def openFailures (l : AuthRateLimiter) (ip : Str) (now : Int) : Nat :=
  match l.ipStates.lookup ip with
  | none => 0
  | some st => if l.expired now st then 0 else st.failures

/-- What a query leaves of the entry it asks about is an open window. -/
theorem isBlocked_self {now : Int} {st : IpState}
    (h : (l.isBlocked ip now).2.ipStates.lookup ip = some st) :
    l.ipStates.lookup ip = some st ∧ st.failures = l.openFailures ip now := by
  unfold isBlocked at h
  split at h
  · next hl =>
    rw [hl] at h
    cases h
  · next st' hl =>
    split at h
    · rw [AList.lookup_erase] at h
      cases h
    · next he =>
      rw [hl] at h
      cases h
      refine ⟨hl, ?_⟩
      simp only [openFailures, hl]
      rw [if_neg he]

theorem openFailures_some {st : IpState} {now : Int} (h : l.ipStates.lookup ip = some st) :
    l.openFailures ip now = if l.expired now st then 0 else st.failures := by
  simp only [openFailures, h]

/-- An address is blocked by the failures in its open window. -/
theorem isBlocked_iff {now : Int} :
    (l.isBlocked ip now).1 = true ↔ l.maxFailures < l.openFailures ip now := by
  unfold isBlocked openFailures
  cases l.ipStates.lookup ip with
  | none => simp
  | some st => cases hexp : l.expired now st <;> simp [hexp]

/-- A query that finds an address blocked changes nothing. -/
theorem isBlocked_same {now : Int} (h : (l.isBlocked ip now).1 = true) :
    (l.isBlocked ip now).2 = l := by
  unfold isBlocked at h ⊢
  split
  · rfl
  · split
    · next hl hexp =>
      simp only [hl, hexp, if_true] at h
      cases h
    · rfl

/-- Later, and with fewer entries, the open window of an address has no more failures. -/
theorem openFailures_le {l' : AuthRateLimiter} {now τ : Int} (hτ : now ≤ τ)
    (hsecs : l'.windowSecs = l.windowSecs)
    (h : ∀ st, l'.ipStates.lookup ip = some st → l.ipStates.lookup ip = some st) :
    l'.openFailures ip τ ≤ l.openFailures ip now := by
  cases hl : l'.ipStates.lookup ip with
  | none => simp [openFailures, hl]
  | some st =>
    rw [openFailures_some hl, openFailures_some (h st hl)]
    cases hexp : l'.expired τ st with
    | true => simp
    | false =>
      have hopen : l.expired now st = false := by
        rw [expired, decide_eq_false_iff_not] at hexp ⊢
        rw [hsecs] at hexp
        omega
      simp [hopen]

/-- At any time, a recorded failure is at most one more in the open window of its address. -/
theorem recordFailure_openFailures (ht : t.now ≤ t.fresh) (τ : Int) :
    (l.checkAndRecordFailure ord ip t).2.openFailures ip τ ≤ l.openFailures ip τ + 1 := by
  have hsecs := (recordFailure_params l ord ip t).2.1
  cases hl : (l.checkAndRecordFailure ord ip t).2.ipStates.lookup ip with
  | none => simp [openFailures, hl]
  | some st =>
    have hwritten := recordFailure_kept hl
    rw [written_lookup_self] at hwritten
    cases hwritten
    rw [openFailures_some hl]
    rcases countFailure_cases l ip ht with ⟨old, hold, _, hcount⟩ | ⟨_, w, hcount, _⟩
    · rw [hcount, openFailures_some hold]
      simp only [expired, hsecs]
      by_cases hover : τ - old.windowStart > seconds l.windowSecs <;> simp [hover]
    · rw [hcount]
      dsimp only
      split <;> omega

/-- A query keeps the failures of the open window. -/
theorem isBlocked_openFailures (l : AuthRateLimiter) (ip : Str) (now : Int) :
    (l.isBlocked ip now).2.openFailures ip now = l.openFailures ip now := by
  unfold isBlocked
  cases hl : l.ipStates.lookup ip with
  | none => rfl
  | some st =>
    cases hexp : l.expired now st with
    | false => simp [hexp]
    | true => simp [openFailures, hl, hexp, AList.lookup_erase]

theorem written_openFailures (hsecs : 0 ≤ l.windowSecs) (z : Int) :
    (l.written ip ⟨z, z⟩).openFailures ip z = l.openFailures ip z + 1 := by
  have hopen : (l.written ip ⟨z, z⟩).expired z (l.countFailure ip ⟨z, z⟩) = false :=
    countFailure_open_now (t := ⟨z, z⟩) ip (Int.le_refl z) hsecs
  rw [openFailures_some written_lookup_self, hopen]
  rcases countFailure_cases l ip (t := ⟨z, z⟩) (Int.le_refl z) with
    ⟨st, hl, hst, hcount⟩ | ⟨hexp, w, hcount, _⟩
  · rw [hcount, openFailures_some hl]
    simp only [hst, Bool.false_eq_true, if_false]
  · rw [hcount]
    cases hl : l.ipStates.lookup ip with
    | none => simp [openFailures, hl]
    | some st => simp [openFailures_some hl, hexp st hl]

/-- A failure counts in the open window of its address, which is the youngest one. -/
theorem recordFailure_counts {z : Int} (hsecs : 0 ≤ l.windowSecs) (hcap : 0 < l.maxTrackedIps)
    (hsize : l.size ≤ l.maxTrackedIps)
    (hothers : ∀ k st, k ≠ ip → l.ipStates.lookup k = some st → st.windowStart < z) :
    (l.checkAndRecordFailure ord ip ⟨z, z⟩).2.openFailures ip z = l.openFailures ip z + 1 := by
  rw [← written_openFailures hsecs]
  cases hl : l.ipStates.lookup ip with
  | some st => rw [recordFailure_self hsize hl]
  | none =>
    -- the new entry has no rival, so no eviction drops it
    obtain ⟨w, hcount, hw⟩ : ∃ w, l.countFailure ip ⟨z, z⟩ = ⟨1, w⟩ ∧ z ≤ w := by
      rcases countFailure_cases l ip (t := ⟨z, z⟩) (Int.le_refl z) with
        ⟨st, hst, _⟩ | ⟨_, hnew⟩
      · rw [hl] at hst
        cases hst
      · exact hnew
    have hopen := countFailure_open_now (t := ⟨z, z⟩) ip (Int.le_refl z) hsecs
    rw [hcount] at hopen
    have hself : (l.written ip ⟨z, z⟩).ipStates.lookup ip = some ⟨1, w⟩ := by
      rw [written_lookup_self, hcount]
    have hrivals : (l.written ip ⟨z, z⟩).rivals ip w z = 0 := by
      refine Nat.le_zero.mp (Table.size_le_of_lookup (t := ∅) fun k st hk => ?_)
      rw [Table.lookup_keep_eq_some] at hk
      obtain ⟨hk, hrival⟩ := hk
      simp only [Bool.and_eq_true, decide_eq_true_eq] at hrival
      rw [written_lookup_of_ne hrival.1.1] at hk
      have := hothers k st hrival.1.1 hk
      omega
    unfold checkAndRecordFailure
    dsimp only
    split
    · cases hd : ((l.written ip ⟨z, z⟩).evictToCap ord z).ipStates.lookup ip with
      | none =>
        have hge := evictToCap_dropped hself hopen hd
        rw [hrivals] at hge
        exact absurd hcap (Nat.not_lt.mpr hge)
      | some st =>
        have hsame := (evictToCap_kept hd).1
        rw [openFailures_some hd, openFailures_some hsame]
        rfl
    · rfl

/-- Every failure window is over some time. -/
theorem exists_openFailures_zero (l : AuthRateLimiter) (ip : Str) (now : Int) :
    ∃ z > now, l.openFailures ip z = 0 := by
  cases hl : l.ipStates.lookup ip with
  | none => exact ⟨now + 1, by omega, by simp [openFailures, hl]⟩
  | some st =>
    refine ⟨max (now + 1) (st.windowStart + seconds l.windowSecs + 1), by omega, ?_⟩
    have hexp : l.expired (max (now + 1) (st.windowStart + seconds l.windowSecs + 1)) st = true :=
      decide_eq_true (by omega)
    simp only [openFailures_some hl, hexp, if_true]

/-- No window opens in the future. -/
theorem countFailure_start (ht : t.now ≤ t.fresh)
    (h : ∀ st, l.ipStates.lookup ip = some st → st.windowStart ≤ t.fresh) :
    (l.countFailure ip t).windowStart ≤ t.fresh := by
  unfold countFailure
  dsimp only
  split
  · exact ht
  · cases hl : l.ipStates.lookup ip with
    | none => exact Int.le_refl _
    | some st => exact h st hl

/-! ## Runs -/

/-- A limiter and the last clock reading. -/
structure Run where
  limiter : AuthRateLimiter
  clock : Int

/-- A call with its clock readings and the iteration order its eviction meets. -/
inductive Call
  | recordFailure (ip : Str) (t : Readings) (ord : IterOrder Str IpState)
  | isBlocked (ip : Str) (now : Int)

/-- The mutex orders the calls, so the clock readings of a run never decrease. -/
def Run.step (s : Run) : Call → Option Run
  | .recordFailure ip t ord =>
    if s.clock ≤ t.now ∧ t.now ≤ t.fresh then
      some ⟨(s.limiter.checkAndRecordFailure ord ip t).2, t.fresh⟩
    else none
  | .isBlocked ip now =>
    if s.clock ≤ now then some ⟨(s.limiter.isBlocked ip now).2, now⟩ else none

/-- All runs of a limiter that starts empty, with any parameters. -/
def runs : System Run Call where
  init s := s.limiter.ipStates = ∅
  step := Run.step

/-- What a step is: one call, at readings no earlier than the clock. -/
theorem step_cases {s s' : Run} {c : Call} (h : runs.step s c = some s') :
    (∃ ip t ord, c = .recordFailure ip t ord ∧ s.clock ≤ t.now ∧ t.now ≤ t.fresh ∧
      s' = ⟨(s.limiter.checkAndRecordFailure ord ip t).2, t.fresh⟩) ∨
    (∃ ip now, c = .isBlocked ip now ∧ s.clock ≤ now ∧
      s' = ⟨(s.limiter.isBlocked ip now).2, now⟩) := by
  cases c with
  | recordFailure ip t ord =>
    simp only [runs, Run.step] at h
    split at h
    · next ht => exact .inl ⟨ip, t, ord, rfl, ht.1, ht.2, (Option.some.inj h).symm⟩
    · cases h
  | isBlocked ip now =>
    simp only [runs, Run.step] at h
    split at h
    · next ht => exact .inr ⟨ip, now, rfl, ht, (Option.some.inj h).symm⟩
    · cases h

theorem step_clock {s s' : Run} {c : Call} (h : runs.step s c = some s') : s.clock ≤ s'.clock := by
  obtain ⟨ip, t, ord, _, h1, h2, rfl⟩ | ⟨ip, now, _, h1, rfl⟩ := step_cases h
  · exact Int.le_trans h1 h2
  · exact h1

theorem step_params {s s' : Run} {c : Call} (h : runs.step s c = some s') :
    s'.limiter.maxFailures = s.limiter.maxFailures ∧
    s'.limiter.windowSecs = s.limiter.windowSecs ∧
    s'.limiter.maxTrackedIps = s.limiter.maxTrackedIps := by
  obtain ⟨ip, t, ord, _, _, _, rfl⟩ | ⟨ip, now, _, _, rfl⟩ := step_cases h
  · exact recordFailure_params ..
  · exact isBlocked_params

/-- The table of a capped limiter is within its cap after every call. -/
theorem reachable_size {s : Run} (h : runs.Reachable System.Any s) :
    0 < s.limiter.maxTrackedIps → s.limiter.size ≤ s.limiter.maxTrackedIps := by
  refine System.reachable_inv
    (I := fun s => 0 < s.limiter.maxTrackedIps → s.limiter.size ≤ s.limiter.maxTrackedIps)
    ?_ ?_ h
  · intro s hs _
    have h0 : s.limiter.size = 0 := by
      simp only [size, show s.limiter.ipStates = ∅ from hs]
      rfl
    omega
  · intro s c s' ih _ hst hcap
    have hparams := (step_params hst).2.2
    obtain ⟨ip, t, ord, _, _, _, rfl⟩ | ⟨ip, now, _, _, rfl⟩ := step_cases hst
    · rw [(recordFailure_params ..).2.2] at hcap ⊢
      exact recordFailure_size hcap
    · rw [isBlocked_params.2.2] at hcap ⊢
      exact Nat.le_trans isBlocked_size (ih hcap)

/-! ## What an eviction takes -/

/-- The table of `l'`, which a recorded failure of `ip` leaves of `l`, is within
the cap, and as little is erased for it as possible. -/
structure EvictsLeast (l : AuthRateLimiter) (ip : Str) (t : Readings) (l' : AuthRateLimiter) :
    Prop where
  bounded : l'.size ≤ l.maxTrackedIps
  unchanged : ∀ k st, k ≠ ip → l'.ipStates.lookup k = some st → l.ipStates.lookup k = some st
  untouched : (l.written ip t).size ≤ l.maxTrackedIps → l' = l.written ip t
  oldest : ∀ k st, (l.written ip t).ipStates.lookup k = some st → l.expired t.now st = false →
    l'.ipStates.lookup k = none → l'.size = l.maxTrackedIps ∧
      ∀ k' st', l'.ipStates.lookup k' = some st' →
        l.expired t.now st' = false ∧ st.windowStart ≤ st'.windowStart

/-- **Eviction.** In every state, reachable or not, and for every order in which
the loops visit the table, a recorded failure keeps the cap and erases the least. -/
theorem eviction_least {s s' : Run} {ip : Str} {t : Readings} {ord : IterOrder Str IpState}
    (hcap : 1 ≤ s.limiter.maxTrackedIps)
    (hst : runs.step s (.recordFailure ip t ord) = some s') :
    EvictsLeast s.limiter ip t s'.limiter := by
  obtain ⟨_, _, _, heq, _, _, rfl⟩ | ⟨_, _, heq, _⟩ := step_cases hst <;> cases heq
  constructor
  · exact recordFailure_size hcap
  · intro k st hne hl
    rw [← written_lookup_of_ne hne]
    exact recordFailure_kept hl
  · intro hsize
    have hwithin : ¬ (s.limiter.maxTrackedIps > 0 ∧
        (s.limiter.written ip t).size > s.limiter.maxTrackedIps) :=
      fun h => Nat.not_lt.mpr hsize h.2
    simp only [checkAndRecordFailure, if_neg hwithin]
  · intro k st hl hopen hd
    have hover : s.limiter.maxTrackedIps > 0 ∧
        (s.limiter.written ip t).size > s.limiter.maxTrackedIps := by
      by_contra hwithin
      simp only [checkAndRecordFailure, if_neg hwithin] at hd
      rw [hl] at hd
      cases hd
    simp only [checkAndRecordFailure, if_pos hover] at hd ⊢
    exact evictToCap_erased (l := s.limiter.written ip t) hl hopen hd

/-! ## How long a block lasts -/

/-- `ip` is blocked by a window that opened at `w`. -/
def BlockedSince (l : AuthRateLimiter) (ip : Str) (w : Int) : Prop :=
  ∃ st, l.ipStates.lookup ip = some st ∧ st.windowStart = w ∧ l.maxFailures < st.failures

/-- The call does not crowd out the entry of `ip`, whose window opened at `w`:
once a failure of another address is written, the rivals of `ip` are fewer than
the cap. -/
def Uncrowded (ip : Str) (w : Int) (s : Run) : Call → Prop
  | .recordFailure other t _ =>
    other ≠ ip → (s.limiter.written other t).rivals ip w t.now < s.limiter.maxTrackedIps
  | .isBlocked _ _ => True

/-- One call within the window keeps the block. -/
theorem step_blocked {s s' : Run} {c : Call} {ip : Str} {w : Int}
    (hb : s.limiter.BlockedSince ip w) (hsize : s.limiter.size ≤ s.limiter.maxTrackedIps)
    (hst : runs.step s c = some s') (hg : Uncrowded ip w s c)
    (hwin : s'.clock - w ≤ seconds s.limiter.windowSecs) : s'.limiter.BlockedSince ip w := by
  obtain ⟨st, hst0, rfl, hfail⟩ := hb
  obtain ⟨other, t, ord, rfl, h1, h2, rfl⟩ | ⟨other, now, rfl, h1, rfl⟩ := step_cases hst
  · have hopen : s.limiter.expired t.now st = false := by
      rw [expired_eq_false]
      dsimp only at hwin
      omega
    by_cases hne : other = ip
    · subst hne
      refine ⟨{ st with failures := st.failures + 1 }, ?_, rfl, ?_⟩
      · rw [recordFailure_self hsize hst0, written_lookup_self, countFailure_open hst0 hopen]
      · rw [(recordFailure_params ..).1]
        exact Nat.lt_succ_of_lt hfail
    · refine ⟨st, recordFailure_lookup (Ne.symm hne) hst0 hopen (hg hne), rfl, ?_⟩
      rw [(recordFailure_params ..).1]
      exact hfail
  · by_cases hne : other = ip
    · subst hne
      rw [isBlocked_open hst0 (expired_eq_false.mpr hwin)]
      exact ⟨st, hst0, rfl, hfail⟩
    · refine ⟨st, ?_, rfl, ?_⟩
      · rw [isBlocked_lookup_of_ne (Ne.symm hne), hst0]
      · rw [isBlocked_params.1]
        exact hfail

/-- A run of calls that do not crowd `ip` out keeps its block while the window
lasts. -/
theorem reaches_blocked {s s' : Run} {ip : Str} {w : Int}
    (hr : runs.Reachable System.Any s) (hcap : 0 < s.limiter.maxTrackedIps)
    (hb : s.limiter.BlockedSince ip w) (hrun : runs.Reaches (Uncrowded ip w) s s')
    (hwin : s'.clock - w ≤ seconds s.limiter.windowSecs) :
    s'.limiter.BlockedSince ip w ∧ s'.limiter.windowSecs = s.limiter.windowSecs := by
  suffices h : runs.Reachable System.Any s' ∧ 0 < s'.limiter.maxTrackedIps ∧
      s'.limiter.windowSecs = s.limiter.windowSecs ∧
      (s'.clock - w ≤ seconds s.limiter.windowSecs → s'.limiter.BlockedSince ip w) from
    ⟨h.2.2.2 hwin, h.2.2.1⟩
  refine System.reaches_inv (I := fun u => runs.Reachable System.Any u ∧
    0 < u.limiter.maxTrackedIps ∧ u.limiter.windowSecs = s.limiter.windowSecs ∧
    (u.clock - w ≤ seconds s.limiter.windowSecs → u.limiter.BlockedSince ip w)) ?_ hrun
    ⟨hr, hcap, rfl, fun _ => hb⟩
  rintro u c v ⟨hu, hucap, huwin, hub⟩ hg hst
  obtain ⟨_, hpwin, hpcap⟩ := step_params hst
  refine ⟨hu.step trivial hst, hpcap ▸ hucap, hpwin.trans huwin, fun hv => ?_⟩
  have hclock := step_clock hst
  exact step_blocked (hub (by omega)) (reachable_size hu hucap) hst hg (huwin ▸ hv)

/-- **A block lasts until its window expires.** An address that is blocked by a
window opened at `w` is reported blocked at every later time within the window,
unless the failures of other addresses crowd its entry out of the table. -/
theorem block_lasts {s s' : Run} {ip : Str} {w t' : Int}
    (hr : runs.Reachable System.Any s) (hcap : 1 ≤ s.limiter.maxTrackedIps)
    (hb : s.limiter.BlockedSince ip w) (hrun : runs.Reaches (Uncrowded ip w) s s')
    (hclock : s'.clock ≤ t') (hwin : t' - w ≤ seconds s.limiter.windowSecs) :
    (s'.limiter.isBlocked ip t').1 = true := by
  obtain ⟨⟨st, hst, rfl, hfail⟩, hsecs⟩ := reaches_blocked hr hcap hb hrun (by omega)
  rw [isBlocked_open hst (expired_eq_false.mpr (hsecs ▸ hwin))]
  exact decide_eq_true hfail

/-- A limiter that blocks at the second failure and tracks one address. -/
def exSmall : Run := ⟨{ maxFailures := 1, maxTrackedIps := 1 }, 0⟩

/-- `exSmall` after the address `a` failed twice at time zero. -/
def exSmallBlocked : Run :=
  ⟨{ maxFailures := 1, maxTrackedIps := 1,
     ipStates := AList.singleton (utf8 "a") { failures := 2, windowStart := 0 } }, 0⟩

theorem exSmallBlocked_reachable : runs.Reachable System.Any exSmallBlocked :=
  System.reachable_of_run (s := exSmall)
    [.recordFailure (utf8 "a") ⟨0, 0⟩ (.id _ _), .recordFailure (utf8 "a") ⟨0, 0⟩ (.id _ _)] rfl rfl

theorem exSmallBlocked_blocked : exSmallBlocked.limiter.BlockedSince (utf8 "a") 0 :=
  ⟨⟨2, 0⟩, by decide, rfl, by decide⟩

/-- A second address takes the only place of the table. -/
theorem eviction_least_small : ∃ s',
    runs.step exSmallBlocked (.recordFailure (utf8 "b") ⟨1, 1⟩ (.id _ _)) = some s' ∧
    EvictsLeast exSmallBlocked.limiter (utf8 "b") ⟨1, 1⟩ s'.limiter := by
  have hst : runs.step exSmallBlocked (.recordFailure (utf8 "b") ⟨1, 1⟩ (.id _ _)) =
      some ⟨(exSmallBlocked.limiter.checkAndRecordFailure (.id _ _) (utf8 "b") ⟨1, 1⟩).2, 1⟩ := rfl
  exact ⟨_, hst, eviction_least (by decide) hst⟩

instance (ip : Str) (w : Int) (s : Run) (c : Call) : Decidable (Uncrowded ip w s c) := by
  unfold Uncrowded
  split <;> infer_instance

/-- A limiter that tracks two addresses: `b` fails, then `a` twice. -/
def exTwoTracked : List Call :=
  [.recordFailure (utf8 "b") ⟨0, 0⟩ (.id _ _),
   .recordFailure (utf8 "a") ⟨seconds 1, seconds 1⟩ (.id _ _),
   .recordFailure (utf8 "a") ⟨seconds 1, seconds 1⟩ (.id _ _)]

/-- The failures of a third one evict the oldest entry. The blocked address is still
reported blocked when its window is about to end. -/
theorem block_lasts_small : ∃ s s', runs.Reachable System.Any s ∧
    s.limiter.BlockedSince (utf8 "a") (seconds 1) ∧
    runs.Reaches (Uncrowded (utf8 "a") (seconds 1)) s s' ∧
    utf8 "b" ∈ s.limiter.ipStates ∧ utf8 "b" ∉ s'.limiter.ipStates ∧
    (s'.limiter.isBlocked (utf8 "a") (seconds 61)).1 = true := by
  obtain ⟨s, hrun, hreach⟩ :=
    System.exists_reachable (S := runs) (G := System.Any)
      (s := ⟨{ maxFailures := 1, maxTrackedIps := 2 }, 0⟩) exTwoTracked rfl (by decide)
  obtain ⟨s', hrun', hreaches⟩ :=
    System.exists_reaches (S := runs) (G := Uncrowded (utf8 "a") (seconds 1)) (s := s)
      [.recordFailure (utf8 "c") ⟨seconds 2, seconds 2⟩ (.id _ _),
       .isBlocked (utf8 "a") (seconds 3),
       .recordFailure (utf8 "c") ⟨seconds 4, seconds 4⟩ (.id _ _)] (by cases hrun; decide)
  have hblocked : s.limiter.BlockedSince (utf8 "a") (seconds 1) := by
    cases hrun
    exact ⟨⟨2, seconds 1⟩, by decide, rfl, by decide⟩
  have hstate : 1 ≤ s.limiter.maxTrackedIps ∧ utf8 "b" ∈ s.limiter.ipStates ∧
      utf8 "b" ∉ s'.limiter.ipStates ∧ s'.clock ≤ seconds 61 ∧
      seconds 61 - seconds 1 ≤ seconds s.limiter.windowSecs := by
    cases hrun
    cases hrun'
    decide
  obtain ⟨hcap, hold, hevicted, hclock, hwindow⟩ := hstate
  exact ⟨s, s', hreach, hblocked, hreaches, hold, hevicted,
    block_lasts hreach hcap hblocked hreaches hclock hwindow⟩

/-- One failure of another address, one second later, evicts the blocked one.
Two seconds into its window it is no longer blocked. -/
theorem block_evicted :
    ∃ s', runs.Reachable System.Any exSmallBlocked ∧ 1 ≤ exSmallBlocked.limiter.maxTrackedIps ∧
      exSmallBlocked.limiter.BlockedSince (utf8 "a") 0 ∧
      runs.Reaches System.Any exSmallBlocked s' ∧ s'.clock ≤ seconds 2 ∧
      seconds 2 - 0 ≤ seconds exSmallBlocked.limiter.windowSecs ∧
      (s'.limiter.isBlocked (utf8 "a") (seconds 2)).1 = false := by
  refine ⟨⟨(exSmallBlocked.limiter.checkAndRecordFailure (.id _ _) (utf8 "b")
    ⟨seconds 1, seconds 1⟩).2, seconds 1⟩, exSmallBlocked_reachable, by decide,
    exSmallBlocked_blocked, ?_, by decide, by decide, by decide⟩
  exact System.reaches_of_run [.recordFailure (utf8 "b") ⟨seconds 1, seconds 1⟩ (.id _ _)] rfl

end AuthRateLimiter
end VoxtralServer
