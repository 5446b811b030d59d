import VoxtralServer.Base
import VoxtralServer.Lib.System
import VoxtralServer.Lib.Table
import VoxtralServer.Lib.Window

/-!
# The request rate limiter

`RequestRateLimiter` admits `max_rpm` requests of each client address in a
window of 60 seconds. The window opens at the first request and the next one
opens at the first request after its end.

* `checkRequest_self`, `checkRequest_other`: what a call does to the entries.
* `sliding_bound`: no 60 seconds hold more than `max_rpm` admitted requests of
  an address, as long as no call opens a window within 60 seconds of an
  admitted one. `straddling_burst`: a call that does can be followed by a burst
  over the bound.
* `size_capped`: the table stays within its cap as long as each call fits, and
  only so long.
-/

namespace VoxtralServer

/-! ## The limiter -/

/-- `RequestRateLimiter::IpState`. -/
structure RequestRateLimiter.IpState where
  requests : Nat := 0
  windowStart : Int
deriving DecidableEq, Repr

/-- `RequestRateLimiter`, without its mutex: each method is one critical
section. -/
structure RequestRateLimiter where
  maxRpm : Nat := 10
  maxTrackedIps : Nat := 10000
  ipStates : Table Str RequestRateLimiter.IpState := ∅
deriving DecidableEq

namespace RequestRateLimiter

/-- The whole seconds between the start of a window and `now`. -/
def elapsed (now : Int) (st : IpState) : Int := toSeconds (now - st.windowStart)

/-- `size`. -/
def size (l : RequestRateLimiter) : Nat := l.ipStates.size

/-- `ip_states_[ip]`: a missing entry is constructed at the second reading. -/
def entry (l : RequestRateLimiter) (ip : Str) (t : Readings) : IpState :=
  (l.ipStates.lookup ip).getD { windowStart := t.fresh }

/-- The caller's entry after `state.requests++`. A window of 60 seconds or more
is replaced by a new one. -/
def countRequest (l : RequestRateLimiter) (ip : Str) (t : Readings) : IpState :=
  let state := l.entry ip t
  let state := if elapsed t.now state ≥ 60 then { requests := 0, windowStart := t.now } else state
  { state with requests := state.requests + 1 }

/-- `check_request`. The answer is zero when the request is allowed, else the
seconds until retry. `elapsed` is read before the window is replaced. The
rejection returns before the capacity purge. -/
def checkRequest (l : RequestRateLimiter) (ord : IterOrder Str IpState) (ip : Str)
    (t : Readings) : Int × RequestRateLimiter :=
  let state := l.countRequest ip t
  let l' := { l with ipStates := l.ipStates.insert ip state }
  if state.requests > l.maxRpm then
    let remaining := 60 - elapsed t.now (l.entry ip t)
    (if remaining ≤ 0 then 1 else remaining, l')
  else if l.maxTrackedIps > 0 ∧ l'.size > l.maxTrackedIps then
    (0, { l with ipStates := (l'.ipStates.reorder ord).keep fun _ st =>
            !decide (elapsed t.now st ≥ 60) })
  else
    (0, l')

/-- The window of an entry is over, so the next call of its address opens a new
one. -/
def Stale (now : Int) (st : IpState) : Prop := seconds 60 ≤ now - st.windowStart

instance (now : Int) (st : IpState) : Decidable (Stale now st) :=
  inferInstanceAs (Decidable (_ ≤ _))

/-- The call opens a window: its address has no entry, or a stale one. -/
def Opens (l : RequestRateLimiter) (ip : Str) (now : Int) : Prop :=
  ∀ st, l.ipStates.lookup ip = some st → Stale now st

instance (l : RequestRateLimiter) (ip : Str) (now : Int) : Decidable (l.Opens ip now) :=
  inferInstanceAs (Decidable (∀ st ∈ l.ipStates.lookup ip, Stale now st))

theorem elapsed_ge {now : Int} {st : IpState} : elapsed now st ≥ 60 ↔ Stale now st :=
  le_toSeconds (by decide)

/-! ## What a call does -/

variable {l : RequestRateLimiter} {ord : IterOrder Str IpState} {ip other : Str} {t : Readings}

/-- Without an open window the caller's entry is the first request of one. -/
theorem countRequest_opens (ht : t.now ≤ t.fresh) (h : l.Opens ip t.now) :
    ∃ w, l.countRequest ip t = { requests := 1, windowStart := w } ∧ t.now ≤ w := by
  unfold countRequest entry
  cases hl : l.ipStates.lookup ip with
  | none =>
    have hno : ¬ elapsed t.now { requests := 0, windowStart := t.fresh } ≥ 60 := by
      rw [elapsed_ge]
      simp only [Stale, seconds]
      omega
    exact ⟨t.fresh, by simp only [Option.getD_none]; rw [if_neg hno], ht⟩
  | some st =>
    have hyes : elapsed t.now st ≥ 60 := elapsed_ge.mpr (h st hl)
    exact ⟨t.now, by simp only [Option.getD_some]; rw [if_pos hyes], Int.le_refl _⟩

/-- In an open window it is one request more. -/
theorem countRequest_open {st : IpState} (hl : l.ipStates.lookup ip = some st)
    (h : ¬ Stale t.now st) :
    l.countRequest ip t = { st with requests := st.requests + 1 } := by
  have hno : ¬ elapsed t.now st ≥ 60 := fun he => h (elapsed_ge.mp he)
  simp only [countRequest, entry, hl, Option.getD_some]
  rw [if_neg hno]

/-- The entry a call writes is never stale. -/
theorem countRequest_not_stale (ht : t.now ≤ t.fresh) : ¬ Stale t.now (l.countRequest ip t) := by
  have hopens : ∀ w : Int, t.now ≤ w → ¬ Stale t.now ⟨1, w⟩ := by
    intro w hw hs
    simp only [Stale, seconds] at hs
    omega
  by_cases h : l.Opens ip t.now
  · obtain ⟨w, hw, hle⟩ := countRequest_opens ht h
    rw [hw]
    exact hopens w hle
  · simp only [Opens, not_forall] at h
    obtain ⟨st, hl, hns⟩ := h
    rw [countRequest_open hl hns]
    exact hns

/-- A call is allowed when the requests of its window, itself included, are
within the limit. -/
theorem checkRequest_allowed (ord : IterOrder Str IpState) : (l.checkRequest ord ip t).1 = 0 ↔
    (l.countRequest ip t).requests ≤ l.maxRpm := by
  unfold checkRequest
  dsimp only
  split
  · next h =>
    constructor
    · intro hz
      split at hz <;> omega
    · omega
  · next h => split <;> simpa using h

theorem checkRequest_params : (l.checkRequest ord ip t).2.maxRpm = l.maxRpm ∧
    (l.checkRequest ord ip t).2.maxTrackedIps = l.maxTrackedIps := by
  unfold checkRequest
  dsimp only
  split
  · exact ⟨rfl, rfl⟩
  · split <;> exact ⟨rfl, rfl⟩

/-- The entry of an address after the call: the purge may have erased it, but
only when it was stale. -/
theorem checkRequest_lookup (k : Str) :
    (l.checkRequest ord ip t).2.ipStates.lookup k =
      (l.ipStates.insert ip (l.countRequest ip t)).lookup k ∨
    ((l.checkRequest ord ip t).2.ipStates.lookup k = none ∧
      ∃ st, (l.ipStates.insert ip (l.countRequest ip t)).lookup k = some st ∧
        Stale t.now st) := by
  unfold checkRequest
  dsimp only
  split
  · exact .inl rfl
  split
  · cases hk : (l.ipStates.insert ip (l.countRequest ip t)).lookup k with
    | none =>
      refine .inl ?_
      rw [Option.eq_none_iff_forall_ne_some]
      intro st hst
      rw [Table.lookup_keep_eq_some, Table.lookup_reorder, hk] at hst
      cases hst.1
    | some st =>
      by_cases hs : Stale t.now st
      · refine .inr ⟨?_, st, rfl, hs⟩
        rw [Option.eq_none_iff_forall_ne_some]
        intro st' hst
        rw [Table.lookup_keep_eq_some, Table.lookup_reorder, hk] at hst
        obtain ⟨he, hp⟩ := hst
        cases he
        simp [elapsed_ge.mpr hs] at hp
      · refine .inl ?_
        rw [Table.lookup_keep_eq_some, Table.lookup_reorder, hk]
        refine ⟨rfl, ?_⟩
        simpa using fun he => hs (elapsed_ge.mp he)
  · exact .inl rfl

/-- The caller's entry after the call is the one it counted its request in. -/
theorem checkRequest_self (ht : t.now ≤ t.fresh) :
    (l.checkRequest ord ip t).2.ipStates.lookup ip = some (l.countRequest ip t) := by
  have hins : (l.ipStates.insert ip (l.countRequest ip t)).lookup ip =
      some (l.countRequest ip t) := AList.lookup_insert _
  rcases checkRequest_lookup (l := l) (t := t) ip with h | ⟨_, st, h, hs⟩
  · rw [h, hins]
  · rw [hins] at h
    cases h
    exact absurd hs (countRequest_not_stale ht)

/-- A call keeps an entry of another address, or erases a stale one. -/
theorem checkRequest_other (hne : other ≠ ip) :
    (l.checkRequest ord ip t).2.ipStates.lookup other = l.ipStates.lookup other ∨
    (l.checkRequest ord ip t).2.ipStates.lookup other = none := by
  rcases checkRequest_lookup (l := l) (t := t) other with h | ⟨h, _⟩
  · rw [h]
    exact .inl (AList.lookup_insert_ne hne)
  · exact .inr h

/-- A rejected call finds an open window. It counts one request more in it and
answers with the seconds until its end. -/
theorem checkRequest_rejected (ht : t.now ≤ t.fresh) (hrpm : 1 ≤ l.maxRpm)
    (h : (l.checkRequest ord ip t).1 ≠ 0) :
    ∃ st, l.ipStates.lookup ip = some st ∧ ¬ Stale t.now st ∧ l.maxRpm < st.requests + 1 ∧
      l.countRequest ip t = { st with requests := st.requests + 1 } ∧
      (l.checkRequest ord ip t).1 = 60 - elapsed t.now st := by
  have hover : ¬ (l.countRequest ip t).requests ≤ l.maxRpm :=
    fun hroom => h ((checkRequest_allowed ord).mpr hroom)
  have hopen : ¬ l.Opens ip t.now := by
    intro hopens
    obtain ⟨w, hw, _⟩ := countRequest_opens ht hopens
    rw [hw] at hover
    exact hover hrpm
  simp only [Opens, not_forall] at hopen
  obtain ⟨st, hl, hns⟩ := hopen
  have hcount := countRequest_open hl hns
  refine ⟨st, hl, hns, ?_, hcount, ?_⟩
  · rw [hcount] at hover
    exact Nat.lt_of_not_le hover
  · have hlt : ¬ elapsed t.now st ≥ 60 := fun he => hns (elapsed_ge.mp he)
    unfold checkRequest
    dsimp only
    rw [if_pos (Nat.lt_of_not_le hover)]
    simp only [entry, hl, Option.getD_some]
    rw [if_neg (by omega)]

/-- The answer is a number of seconds. -/
theorem checkRequest_nonneg (l : RequestRateLimiter) (ord : IterOrder Str IpState) (ip : Str)
    (t : Readings) : 0 ≤ (l.checkRequest ord ip t).1 := by
  unfold checkRequest
  dsimp only
  split
  · split <;> omega
  · split <;> exact Int.le_refl _

/-! ## The requests of an open window -/

/-- The requests of an address in its window, when that is not over. -/
def openRequests (l : RequestRateLimiter) (ip : Str) (now : Int) : Nat :=
  match l.ipStates.lookup ip with
  | none => 0
  | some st => if Stale now st then 0 else st.requests

theorem openRequests_some {st : IpState} {now : Int} (h : l.ipStates.lookup ip = some st) :
    l.openRequests ip now = if Stale now st then 0 else st.requests := by
  simp only [openRequests, h]

/-- A request is counted after those of the open window. -/
theorem countRequest_requests (ht : t.now ≤ t.fresh) :
    (l.countRequest ip t).requests = l.openRequests ip t.now + 1 := by
  by_cases hopens : l.Opens ip t.now
  · obtain ⟨w, hcount, _⟩ := countRequest_opens ht hopens
    rw [hcount]
    cases hl : l.ipStates.lookup ip with
    | none => simp [openRequests, hl]
    | some st => rw [openRequests_some hl, if_pos (hopens st hl)]
  · simp only [Opens, not_forall] at hopens
    obtain ⟨st, hl, hns⟩ := hopens
    rw [countRequest_open hl hns, openRequests_some hl, if_neg hns]

/-- Later, and with fewer entries, the open window of an address has no more requests. -/
theorem openRequests_le {l' : RequestRateLimiter} {now τ : Int} (hτ : now ≤ τ)
    (h : ∀ st, l'.ipStates.lookup ip = some st → l.ipStates.lookup ip = some st) :
    l'.openRequests ip τ ≤ l.openRequests ip now := by
  cases hl : l'.ipStates.lookup ip with
  | none => simp [openRequests, hl]
  | some st =>
    rw [openRequests_some hl, openRequests_some (h st hl)]
    by_cases hs : Stale τ st
    · simp [hs]
    · have hopen : ¬ Stale now st := by
        simp only [Stale] at hs ⊢
        omega
      simp [hs, hopen]

/-- At any time, a call is at most one more request in the open window of its address. -/
theorem checkRequest_openRequests (ht : t.now ≤ t.fresh) (τ : Int) :
    (l.checkRequest ord ip t).2.openRequests ip τ ≤ l.openRequests ip τ + 1 := by
  rw [openRequests_some (checkRequest_self ht)]
  by_cases hopens : l.Opens ip t.now
  · obtain ⟨w, hcount, _⟩ := countRequest_opens ht hopens
    rw [hcount]
    dsimp only
    split <;> omega
  · simp only [Opens, not_forall] at hopens
    obtain ⟨st, hl, hns⟩ := hopens
    rw [countRequest_open hl hns, openRequests_some hl]
    by_cases hs : Stale τ st
    · rw [if_pos (show Stale τ { st with requests := st.requests + 1 } from hs)]
      exact Nat.zero_le _
    · rw [if_neg hs, if_neg (show ¬ Stale τ { st with requests := st.requests + 1 } from hs)]

/-- A call counts in the open window of its address. -/
theorem checkRequest_counts (ht : t.now ≤ t.fresh) :
    (l.checkRequest ord ip t).2.openRequests ip t.now = l.openRequests ip t.now + 1 := by
  rw [openRequests_some (checkRequest_self ht), if_neg (countRequest_not_stale ht),
    countRequest_requests ht]

/-! ## When windows opened -/

theorem countRequest_start (ht : t.now ≤ t.fresh)
    (h : ∀ st, l.ipStates.lookup ip = some st → st.windowStart ≤ t.fresh) :
    (l.countRequest ip t).windowStart ≤ t.fresh := by
  unfold countRequest
  dsimp only
  split
  · exact ht
  · unfold entry
    cases hl : l.ipStates.lookup ip with
    | none => exact Int.le_refl _
    | some st => exact h st hl

/-- A call leaves no window that opens after it. -/
theorem checkRequest_start (ht : t.now ≤ t.fresh)
    (h : ∀ k st, l.ipStates.lookup k = some st → st.windowStart ≤ t.fresh) {k : Str} {st : IpState}
    (hst : (l.checkRequest ord ip t).2.ipStates.lookup k = some st) :
    st.windowStart ≤ t.fresh := by
  by_cases hk : k = ip
  · subst hk
    rw [checkRequest_self ht] at hst
    cases hst
    exact countRequest_start ht (h k)
  · rcases checkRequest_other (l := l) (t := t) hk with heq | heq
    · rw [heq] at hst
      exact h k st hst
    · rw [heq] at hst
      cases hst

/-! ## Runs -/

/-- A call that has returned. -/
structure Answered where
  ip : Str
  now : Int
  answer : Int
deriving DecidableEq, Repr

/-- A limiter, the last clock reading, and the calls so far, the latest first. -/
structure Run where
  limiter : RequestRateLimiter
  clock : Int
  log : List Answered := []

/-- A call with its clock readings and the iteration order its purge meets. -/
structure Call where
  ip : Str
  t : Readings
  ord : IterOrder Str IpState

/-- The mutex orders the calls, so the clock readings of a run never decrease. -/
def Run.step (s : Run) (c : Call) : Option Run :=
  if s.clock ≤ c.t.now ∧ c.t.now ≤ c.t.fresh then
    let (answer, limiter) := s.limiter.checkRequest c.ord c.ip c.t
    some ⟨limiter, c.t.fresh, ⟨c.ip, c.t.now, answer⟩ :: s.log⟩
  else none

/-- All runs of a limiter that starts empty, with any parameters. -/
def runs : System Run Call where
  init s := s.limiter.ipStates = ∅ ∧ s.log = []
  step := Run.step

/-- What a step is: one call, at readings no earlier than the clock. -/
theorem step_cases {s s' : Run} {c : Call} (h : runs.step s c = some s') :
    s.clock ≤ c.t.now ∧ c.t.now ≤ c.t.fresh ∧
    s' = ⟨(s.limiter.checkRequest c.ord c.ip c.t).2, c.t.fresh,
      ⟨c.ip, c.t.now, (s.limiter.checkRequest c.ord c.ip c.t).1⟩ :: s.log⟩ := by
  simp only [runs, Run.step] at h
  split at h
  · next ht => exact ⟨ht.1, ht.2, (Option.some.inj h).symm⟩
  · cases h

theorem step_of {s : Run} {c : Call} (h1 : s.clock ≤ c.t.now) (h2 : c.t.now ≤ c.t.fresh) :
    runs.step s c = some ⟨(s.limiter.checkRequest c.ord c.ip c.t).2, c.t.fresh,
      ⟨c.ip, c.t.now, (s.limiter.checkRequest c.ord c.ip c.t).1⟩ :: s.log⟩ := by
  simp only [runs, Run.step]
  rw [if_pos ⟨h1, h2⟩]

theorem step_maxRpm {s s' : Run} {c : Call} (h : runs.step s c = some s') :
    s'.limiter.maxRpm = s.limiter.maxRpm := by
  obtain ⟨_, _, rfl⟩ := step_cases h
  exact checkRequest_params.1

theorem step_maxTrackedIps {s s' : Run} {c : Call} (h : runs.step s c = some s') :
    s'.limiter.maxTrackedIps = s.limiter.maxTrackedIps := by
  obtain ⟨_, _, rfl⟩ := step_cases h
  exact checkRequest_params.2

/-! ## Requests in 60 seconds -/

/-- When the requests of an address were allowed, the latest first. -/
def Run.admitted (s : Run) (ip : Str) : List Int :=
  (s.log.filter fun c => decide (c.ip = ip) && decide (c.answer = 0)).map Answered.now

/-- A call that opens a window comes 60 seconds or more after every allowed
request of its address. -/
def Fresh (s : Run) (c : Call) : Prop :=
  s.limiter.Opens c.ip c.t.now → ∀ x ∈ s.admitted c.ip, x + seconds 60 ≤ c.t.now

instance (s : Run) (c : Call) : Decidable (Fresh s c) :=
  inferInstanceAs (Decidable (_ → _))

/-- What is known of an address: its allowed requests meet the bound, and its
entry counts those since some instant, which settles the ones before. -/
structure Bounded (s : Run) (ip : Str) : Prop where
  within_le : ∀ a, Window.within (seconds 60) (s.admitted ip) a ≤ s.limiter.maxRpm
  counted : ∀ st, s.limiter.ipStates.lookup ip = some st → ∃ opened ≤ s.clock,
    Window.Settled (seconds 60) (s.admitted ip) opened ∧
    Window.since (s.admitted ip) opened ≤ st.requests

/-- A step adds the caller's reading to its own allowed requests, when there
was room for one more. -/
theorem step_admitted {s s' : Run} {c : Call} (h : runs.step s c = some s') (ip : Str) :
    s'.admitted ip =
      if c.ip = ip ∧ (s.limiter.countRequest c.ip c.t).requests ≤ s.limiter.maxRpm then
        c.t.now :: s.admitted ip
      else s.admitted ip := by
  obtain ⟨_, _, rfl⟩ := step_cases h
  simp only [Run.admitted, ← checkRequest_allowed c.ord]
  split
  · next hc =>
    obtain ⟨rfl, hans⟩ := hc
    rw [List.filter_cons_of_pos (by simp [hans]), List.map_cons]
  · next hc => rw [List.filter_cons_of_neg (by simpa using hc)]

/-- The caller's side of the step: `o` is the instant since which its entry
counts. -/
theorem step_bounded_self {s s' : Run} {c : Call} (hb : Bounded s c.ip) (hg : Fresh s c)
    (hst : runs.step s c = some s') : Bounded s' c.ip := by
  have hadm := step_admitted hst c.ip
  have hrpm := step_maxRpm hst
  obtain ⟨h1, h2, hs'⟩ := step_cases hst
  have hself : s'.limiter.ipStates.lookup c.ip = some (s.limiter.countRequest c.ip c.t) := by
    rw [hs']
    exact checkRequest_self h2
  have hclock : s'.clock = c.t.fresh := by rw [hs']
  -- the entry before the request counted one less than it does now
  obtain ⟨o, ho, hsettled, hsince⟩ : ∃ o ≤ c.t.now,
      Window.Settled (seconds 60) (s.admitted c.ip) o ∧
      Window.since (s.admitted c.ip) o + 1 ≤ (s.limiter.countRequest c.ip c.t).requests := by
    by_cases hopens : s.limiter.Opens c.ip c.t.now
    · obtain ⟨w, hw, _⟩ := countRequest_opens h2 hopens
      have hold := hg hopens
      refine ⟨c.t.now, Int.le_refl _, fun x hx => .inl (hold x hx), ?_⟩
      rw [hw, Window.since_eq_zero (by decide) hold]
    · simp only [Opens, not_forall] at hopens
      obtain ⟨st, hl, hns⟩ := hopens
      obtain ⟨o, ho, hsettled, hsince⟩ := hb.counted st hl
      refine ⟨o, Int.le_trans ho h1, hsettled, ?_⟩
      rw [countRequest_open hl hns]
      exact Nat.succ_le_succ hsince
  by_cases hroom : (s.limiter.countRequest c.ip c.t).requests ≤ s.limiter.maxRpm
  · rw [if_pos ⟨rfl, hroom⟩] at hadm
    constructor
    · rw [hadm, hrpm]
      exact Window.within_cons_le hb.within_le hsettled ho (by omega)
    · intro st hl
      rw [hself] at hl
      cases hl
      rw [hadm, hclock]
      refine ⟨o, Int.le_trans ho h2, hsettled.cons ho, ?_⟩
      rw [Window.since_cons ho]
      exact hsince
  · rw [if_neg (fun h => hroom h.2)] at hadm
    constructor
    · rw [hadm, hrpm]
      exact hb.within_le
    · intro st hl
      rw [hself] at hl
      cases hl
      rw [hadm, hclock]
      exact ⟨o, Int.le_trans ho h2, hsettled, by omega⟩

/-- A call of another address changes nothing that is known of this one. -/
theorem step_bounded_other {s s' : Run} {c : Call} {ip : Str} (hne : ip ≠ c.ip)
    (hb : Bounded s ip) (hst : runs.step s c = some s') : Bounded s' ip := by
  have hadm := step_admitted hst ip
  rw [if_neg (fun h => hne h.1.symm)] at hadm
  have hrpm := step_maxRpm hst
  obtain ⟨h1, h2, hs'⟩ := step_cases hst
  constructor
  · rw [hadm, hrpm]
    exact hb.within_le
  · intro st hl
    rw [hs'] at hl
    rcases checkRequest_other (l := s.limiter) (t := c.t) hne with h | h
    · rw [h] at hl
      obtain ⟨o, ho, hsettled, hsince⟩ := hb.counted st hl
      rw [hadm, hs']
      exact ⟨o, by dsimp only; omega, hsettled, hsince⟩
    · rw [h] at hl
      cases hl

theorem reachable_bounded {s : Run} (h : runs.Reachable Fresh s) (ip : Str) : Bounded s ip := by
  refine System.reachable_inv (I := fun s => Bounded s ip) ?_ ?_ h
  · intro s hs
    have hadm : s.admitted ip = [] := by simp [Run.admitted, hs.2]
    constructor
    · intro a
      rw [hadm]
      exact Nat.zero_le _
    · intro st hl
      rw [hs.1] at hl
      cases hl
  · intro s c s' hb hg hst
    by_cases hne : ip = c.ip
    · subst hne
      exact step_bounded_self hb hg hst
    · exact step_bounded_other hne hb hst

theorem reachable_admitted_le {s : Run} (h : runs.Reachable System.Any s) (ip : Str) :
    ∀ x ∈ s.admitted ip, x ≤ s.clock := by
  refine System.reachable_inv (I := fun s => ∀ x ∈ s.admitted ip, x ≤ s.clock) ?_ ?_ h
  · intro s hs
    simp [Run.admitted, hs.2]
  · intro s c s' ih _ hst x hx
    rw [step_admitted hst] at hx
    obtain ⟨h1, h2, rfl⟩ := step_cases hst
    have hold : ∀ x ∈ s.admitted ip, x ≤ c.t.fresh := fun x hx => by
      have := ih x hx
      omega
    split at hx
    · rcases List.mem_cons.mp hx with rfl | hx
      · exact h2
      · exact hold x hx
    · exact hold x hx

/-- A request that its window has room for can be made at any time from now on,
and is allowed. -/
theorem allowed_step {s : Run} {ip : Str} {now : Int} (hnow : s.clock ≤ now)
    (hroom : (s.limiter.countRequest ip ⟨now, now⟩).requests ≤ s.limiter.maxRpm) :
    ∃ s', runs.Reaches System.Any s s' ∧ s'.clock = now ∧
      s'.limiter.maxRpm = s.limiter.maxRpm ∧ s'.admitted ip = now :: s.admitted ip ∧
      s'.limiter.ipStates.lookup ip = some (s.limiter.countRequest ip ⟨now, now⟩) := by
  let c : Call := ⟨ip, ⟨now, now⟩, .id _ _⟩
  have hst := step_of (s := s) (c := c) hnow (Int.le_refl _)
  have hadm := step_admitted hst ip
  rw [if_pos ⟨rfl, hroom⟩] at hadm
  exact ⟨_, .one trivial hst, rfl, step_maxRpm hst, hadm, checkRequest_self (Int.le_refl _)⟩

/-- `n` requests at one instant are all allowed while the window has room. -/
theorem burst {ip : Str} : ∀ (n : Nat) {s : Run} {st : IpState},
    s.limiter.ipStates.lookup ip = some st → ¬ Stale s.clock st →
    st.requests + n ≤ s.limiter.maxRpm →
    ∃ s', runs.Reaches System.Any s s' ∧ s'.limiter.maxRpm = s.limiter.maxRpm ∧
      s'.admitted ip = List.replicate n s.clock ++ s.admitted ip
  | 0, s, st, _, _, _ => ⟨s, .refl s, rfl, rfl⟩
  | n + 1, s, st, hl, hns, hroom => by
    have hcount := countRequest_open (t := ⟨s.clock, s.clock⟩) hl hns
    obtain ⟨u, hsu, hclock, hrpm, hadm, hself⟩ := allowed_step (s := s) (Int.le_refl _)
      (by rw [hcount]; dsimp only; omega)
    rw [hcount] at hself
    obtain ⟨s', hus', hrpm', hadm'⟩ := burst n hself (hclock ▸ hns) (by
      rw [hrpm]
      dsimp only
      omega)
    refine ⟨s', hsu.trans hus', hrpm'.trans hrpm, ?_⟩
    rw [hadm', hadm, hclock, List.replicate_succ', List.append_assoc]
    rfl

/-- A window that opens within 60 seconds of an allowed request has room for
`max_rpm` more of them. -/
theorem window_overflows {s : Run} {ip : Str} {now x : Int}
    (hr : runs.Reachable System.Any s) (hrpm : 1 ≤ s.limiter.maxRpm) (hnow : s.clock ≤ now)
    (hopens : s.limiter.Opens ip now) (hx : x ∈ s.admitted ip) (hlt : now < x + seconds 60) :
    ∃ s', runs.Reaches System.Any s s' ∧
      s'.limiter.maxRpm < Window.within (seconds 60) (s'.admitted ip) x := by
  obtain ⟨w, hw, hle⟩ := countRequest_opens (t := ⟨now, now⟩) (Int.le_refl _) hopens
  obtain ⟨u, hsu, hclock, hrpm', hadm, hself⟩ := allowed_step hnow (by
    rw [hw]
    exact hrpm)
  rw [hw] at hself
  have hns : ¬ Stale u.clock ⟨1, w⟩ := by
    simp only [Stale, seconds]
    change now ≤ w at hle
    omega
  obtain ⟨s', hus', hrpm'', hadm'⟩ := burst (s.limiter.maxRpm - 1) hself hns (by
    rw [hrpm']
    dsimp only
    omega)
  refine ⟨s', hsu.trans hus', ?_⟩
  -- the new window's requests are all at `now`, and `x` is within 60 seconds before
  have hxnow : x ≤ now := Int.le_trans (reachable_admitted_le hr ip x hx) hnow
  have hin : decide (x ≤ now ∧ now < x + seconds 60) = true := by simp [hxnow, hlt]
  have hself60 : x < x + seconds 60 := Int.lt_add_of_pos_right x (by decide)
  have hone : 0 < (s.admitted ip).countP fun y => decide (x ≤ y ∧ y < x + seconds 60) :=
    List.countP_pos_iff.mpr ⟨x, hx, by simp [hself60]⟩
  rw [hrpm'', hrpm', hadm', hadm, hclock]
  simp only [Window.within, List.countP_append, List.countP_replicate, List.countP_cons, hin,
    if_true]
  omega

/-- **Requests in 60 seconds.** As long as every call that opens a window comes
60 seconds after the address's allowed requests, no 60 seconds hold more than
`max_rpm` of them. Any call that opens a window earlier can be followed by a
burst over the bound. -/
theorem sliding_bound (s : Run) :
    (runs.Reachable Fresh s → ∀ ip a,
      Window.within (seconds 60) (s.admitted ip) a ≤ s.limiter.maxRpm) ∧
    ∀ c, runs.Reachable System.Any s → 1 ≤ s.limiter.maxRpm → s.clock ≤ c.t.now →
      ¬ Fresh s c → ∃ s', runs.Reaches System.Any s s' ∧
        ∃ a, s'.limiter.maxRpm < Window.within (seconds 60) (s'.admitted c.ip) a := by
  refine ⟨fun h ip => (reachable_bounded h ip).within_le, ?_⟩
  intro c hr hrpm hnow hfresh
  simp only [Fresh, not_forall, not_le] at hfresh
  obtain ⟨hopens, x, hx, hlt⟩ := hfresh
  obtain ⟨s', hreach, hover⟩ := window_overflows hr hrpm hnow hopens hx hlt
  exact ⟨s', hreach, x, hover⟩

/-- A limiter of two requests a minute. -/
def exTwoRpm : Run := ⟨{ maxRpm := 2 }, 0, []⟩

def exCall (ip : Str) (now : Int) : Call := ⟨ip, ⟨now, now⟩, .id _ _⟩

/-- A third request in the window is rejected. The next window opens 60 seconds after the
second one. -/
theorem sliding_bound_spread : ∃ s, runs.Reachable Fresh s ∧
    s.admitted (utf8 "a") = [seconds 91, seconds 90, seconds 30, 0] ∧
    ∀ a, Window.within (seconds 60) (s.admitted (utf8 "a")) a ≤ 2 := by
  obtain ⟨s, hrun, hreach⟩ :=
    System.exists_reachable (S := runs) (G := Fresh) (s := exTwoRpm)
      [exCall (utf8 "a") 0, exCall (utf8 "a") (seconds 30), exCall (utf8 "a") (seconds 59),
        exCall (utf8 "b") (seconds 59), exCall (utf8 "a") (seconds 90),
        exCall (utf8 "a") (seconds 91)] ⟨rfl, rfl⟩ (by decide)
  have hbound := (sliding_bound s).1 hreach (utf8 "a")
  have hstate : s.limiter.maxRpm = 2 ∧
      s.admitted (utf8 "a") = [seconds 91, seconds 90, seconds 30, 0] := by
    cases hrun
    decide
  rw [hstate.1] at hbound
  exact ⟨s, hreach, hstate.2, hbound⟩

/-- Requests after 0, 59, 60 and 60 seconds are all allowed: three of them in
the 60 seconds from the second one on. -/
theorem straddling_burst : ∃ s, runs.Reachable System.Any s ∧ 1 ≤ s.limiter.maxRpm ∧
    ∃ ip a, s.limiter.maxRpm < Window.within (seconds 60) (s.admitted ip) a := by
  obtain ⟨s, hrun, hreach⟩ :=
    System.exists_reachable (S := runs) (G := System.Any) (s := exTwoRpm)
      [exCall (utf8 "a") 0, exCall (utf8 "a") (seconds 59), exCall (utf8 "a") (seconds 60),
        exCall (utf8 "a") (seconds 60)] ⟨rfl, rfl⟩ (by decide)
  refine ⟨s, hreach, ?_⟩
  cases hrun
  exact ⟨by decide, utf8 "a", seconds 59, by decide⟩

/-! ## The cap on the table -/

/-- How many entries a purge at `now` keeps. -/
def live (l : RequestRateLimiter) (now : Int) : Nat :=
  Table.size (l.ipStates.keep fun _ st => !decide (elapsed now st ≥ 60))

/-- The call has a place in the table: its address is in it, or the table is
not full, or the call is not rejected and the purge frees a place. -/
def Fits (s : Run) (c : Call) : Prop :=
  c.ip ∈ s.limiter.ipStates ∨ s.limiter.size < s.limiter.maxTrackedIps ∨
    (1 ≤ s.limiter.maxRpm ∧ s.limiter.live c.t.now < s.limiter.maxTrackedIps)

instance (s : Run) (c : Call) : Decidable (Fits s c) :=
  inferInstanceAs (Decidable (_ ∨ _ ∨ _))

/-- A call of a tracked address adds no entry. -/
theorem checkRequest_size_tracked (hmem : ip ∈ l.ipStates) (hs : l.size ≤ l.maxTrackedIps) :
    (l.checkRequest ord ip t).2.size ≤ l.maxTrackedIps := by
  have hins : Table.size (l.ipStates.insert ip (l.countRequest ip t)) = l.size :=
    Table.size_insert_of_mem _ hmem
  simp only [size] at hins hs ⊢
  unfold checkRequest
  dsimp only
  split
  · dsimp only
    omega
  · rw [if_neg (by simp only [size]; omega)]
    dsimp only
    omega

/-- A call of a new address adds one. Over the cap, the purge leaves it and the
live ones, unless the call is rejected. -/
theorem checkRequest_size_new (ht : t.now ≤ t.fresh) (hmem : ip ∉ l.ipStates)
    (hcap : 1 ≤ l.maxTrackedIps) :
    (l.checkRequest ord ip t).2.size =
      if 1 ≤ l.maxRpm ∧ l.maxTrackedIps < l.size + 1 then l.live t.now + 1 else l.size + 1 := by
  have hnone : l.ipStates.lookup ip = none := AList.lookup_eq_none.mpr hmem
  obtain ⟨w, hw, hle⟩ := countRequest_opens (l := l) ht (by
    intro st hl
    rw [hnone] at hl
    cases hl)
  have hins : Table.size (l.ipStates.insert ip (l.countRequest ip t)) = l.size + 1 :=
    Table.size_insert_of_not_mem _ hmem
  have hkeep : Table.size (Table.keep (fun _ st => !decide (elapsed t.now st ≥ 60))
      (l.ipStates.insert ip (l.countRequest ip t))) = l.live t.now + 1 := by
    refine Table.size_keep_insert hmem ?_
    simpa [elapsed_ge] using countRequest_not_stale (l := l) ht
  have hreq : (l.countRequest ip t).requests = 1 := by rw [hw]
  unfold checkRequest
  dsimp only
  rw [hreq]
  by_cases hrpm : 1 ≤ l.maxRpm
  · rw [if_neg (by omega)]
    by_cases hover : l.maxTrackedIps < l.size + 1
    · rw [if_pos ⟨hcap, by simpa only [size, hins] using hover⟩, if_pos ⟨hrpm, hover⟩, ← hkeep]
      exact Table.size_keep_reorder ..
    · rw [if_neg (by simp only [size] at hins hover ⊢; omega), if_neg (fun h => hover h.2)]
      exact hins
  · have hreject : 1 > l.maxRpm := by omega
    have hkept : ¬ (1 ≤ l.maxRpm ∧ l.maxTrackedIps < l.size + 1) := fun h => hrpm h.1
    rw [if_pos hreject, if_neg hkept]
    exact hins

/-- A table within its cap stays so in exactly the calls that fit. -/
theorem step_size {s s' : Run} {c : Call} (hcap : 1 ≤ s.limiter.maxTrackedIps)
    (hs : s.limiter.size ≤ s.limiter.maxTrackedIps) (hst : runs.step s c = some s') :
    s'.limiter.size ≤ s'.limiter.maxTrackedIps ↔ Fits s c := by
  rw [step_maxTrackedIps hst]
  obtain ⟨_, h2, rfl⟩ := step_cases hst
  by_cases hmem : c.ip ∈ s.limiter.ipStates
  · exact iff_of_true (checkRequest_size_tracked hmem hs) (.inl hmem)
  · simp only [Fits, hmem, false_or]
    rw [checkRequest_size_new h2 hmem hcap]
    split <;> omega

theorem reachable_capped {s : Run} (h : runs.Reachable Fits s) :
    1 ≤ s.limiter.maxTrackedIps → s.limiter.size ≤ s.limiter.maxTrackedIps := by
  refine System.reachable_inv (I := fun s => 1 ≤ s.limiter.maxTrackedIps →
    s.limiter.size ≤ s.limiter.maxTrackedIps) ?_ ?_ h
  · intro s hs _
    have h0 : s.limiter.size = 0 := by
      simp only [size, hs.1]
      rfl
    omega
  · intro s c s' ih hg hst hcap
    rw [step_maxTrackedIps hst] at hcap
    exact (step_size hcap (ih hcap) hst).mpr hg

/-- **The cap on the table.** As long as every call fits, the table is within
its cap after every call. The first call that does not fit leaves it over the
cap. -/
theorem size_capped (s : Run) :
    (runs.Reachable Fits s → 1 ≤ s.limiter.maxTrackedIps →
      s.limiter.size ≤ s.limiter.maxTrackedIps) ∧
    ∀ c s', runs.Reachable Fits s → 1 ≤ s.limiter.maxTrackedIps →
      runs.step s c = some s' →
      (s'.limiter.size ≤ s'.limiter.maxTrackedIps ↔ Fits s c) :=
  ⟨reachable_capped, fun _ _ h hcap hst => step_size hcap (reachable_capped h hcap) hst⟩

/-- The third address fits into a table of two places: the purge erases an entry whose
window is over. -/
theorem size_capped_purged : ∃ s, runs.Reachable Fits s ∧ utf8 "a" ∉ s.limiter.ipStates ∧
    utf8 "b" ∈ s.limiter.ipStates ∧ utf8 "c" ∈ s.limiter.ipStates ∧
    s.limiter.size ≤ s.limiter.maxTrackedIps := by
  obtain ⟨s, hrun, hreach⟩ :=
    System.exists_reachable (S := runs) (G := Fits) (s := ⟨{ maxTrackedIps := 2 }, 0, []⟩)
      [exCall (utf8 "a") 0, exCall (utf8 "b") (seconds 30), exCall (utf8 "c") (seconds 60),
        exCall (utf8 "b") (seconds 61)] ⟨rfl, rfl⟩ (by decide)
  have hcapped := (size_capped s).1 hreach
  have hstate : 1 ≤ s.limiter.maxTrackedIps ∧ utf8 "a" ∉ s.limiter.ipStates ∧
      utf8 "b" ∈ s.limiter.ipStates ∧ utf8 "c" ∈ s.limiter.ipStates := by
    cases hrun
    decide
  obtain ⟨hcap, ha, hb, hc⟩ := hstate
  exact ⟨s, hreach, ha, hb, hc, hcapped hcap⟩

/-- Two addresses at the same instant fill a table of one place with two
entries: neither window is over, so the purge erases nothing. -/
theorem cap_exceeded : ∃ s, runs.Reachable System.Any s ∧ 1 ≤ s.limiter.maxTrackedIps ∧
    s.limiter.maxTrackedIps < s.limiter.size := by
  obtain ⟨s, hrun, hreach⟩ :=
    System.exists_reachable (S := runs) (G := System.Any) (s := ⟨{ maxTrackedIps := 1 }, 0, []⟩)
      [exCall (utf8 "a") 0, exCall (utf8 "b") 0] ⟨rfl, rfl⟩ (by decide)
  refine ⟨s, hreach, ?_⟩
  cases hrun
  decide

end RequestRateLimiter
end VoxtralServer
