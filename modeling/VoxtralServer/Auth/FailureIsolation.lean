import Mathlib.Data.List.Dedup
import VoxtralServer.Auth.AuthRateLimiter
import VoxtralServer.Lib.Reference

/-!
# The failure limiter counts each address apart

As long as the failure limiter has room for every address that records a
failure, it answers each of them like a counter that is fed with the calls of
that address only. The two methods treat an expired window differently, one
replaces it and the other erases it, and neither difference shows.

* `recordFailure_fits`: with room for every address nothing is evicted.
* `Follows`: the simulation relation between the table and such a counter.
* `refines_counters`: the answers to each address are those of its own counter,
  and queries change none of them.
-/

namespace VoxtralServer
namespace AuthRateLimiter

/-! ## The counter of one address -/

/-- What a call asks for. -/
inductive Query
  | recordFailure
  | isBlocked
deriving DecidableEq, Repr

/-- A window and the failures in it. -/
structure FailureWindow where
  count : Nat
  opened : Int
deriving DecidableEq, Repr

/-- The window that a failure at `now` falls in, with the failure counted. A
window that is not older than `windowSecs` goes on. -/
def FailureWindow.charge (windowSecs now : Int) : Option FailureWindow → FailureWindow
  | none => ⟨1, now⟩
  | some w => if now - w.opened ≤ seconds windowSecs then ⟨w.count + 1, w.opened⟩ else ⟨1, now⟩

/-- A window that is not older than `windowSecs` holds more failures than are
allowed. -/
def FailureWindow.blocks (maxFailures : Nat) (windowSecs now : Int) : Option FailureWindow → Bool
  | none => false
  | some w => decide (now - w.opened ≤ seconds windowSecs) && decide (w.count > maxFailures)

/-- A counter of the failures of one address. A query leaves it alone. -/
def failureCounter (maxFailures : Nat) (windowSecs : Int) :
    Machine (Option FailureWindow) (Query × Int) Bool where
  start := none
  next w
    | (.recordFailure, now) =>
      let w' := FailureWindow.charge windowSecs now w
      (decide (w'.count > maxFailures), some w')
    | (.isBlocked, now) => (FailureWindow.blocks maxFailures windowSecs now w, w)

/-! ## Runs with their answers -/

def Call.ip : Call → Str
  | .recordFailure ip _ _ | .isBlocked ip _ => ip

def Call.query : Call → Query × Int
  | .recordFailure _ t _ => (.recordFailure, t.now)
  | .isBlocked _ now => (.isBlocked, now)

/-- What the limiter answers. -/
def answer (l : AuthRateLimiter) : Call → Bool
  | .recordFailure ip t ord => (l.checkAndRecordFailure ord ip t).1
  | .isBlocked ip now => (l.isBlocked ip now).1

/-- A call that has returned. -/
structure Answered where
  ip : Str
  query : Query × Int
  answer : Bool
deriving DecidableEq, Repr

/-- A run and its calls so far, the latest first. -/
structure Session where
  run : Run
  log : List Answered := []

def Session.step (s : Session) (c : Call) : Option Session :=
  (runs.step s.run c).map fun run => ⟨run, ⟨c.ip, c.query, s.run.limiter.answer c⟩ :: s.log⟩

/-- The runs of a limiter that starts empty, with their answers. -/
def sessions : System Session Call where
  init s := runs.init s.run ∧ s.log = []
  step := Session.step

/-- The call reads the clock once. -/
def Instant (_ : Session) : Call → Prop
  | .recordFailure _ t _ => t.fresh = t.now
  | .isBlocked _ _ => True

instance (s : Session) (c : Call) : Decidable (Instant s c) :=
  match c with
  | .recordFailure _ t _ => inferInstanceAs (Decidable (t.fresh = t.now))
  | .isBlocked _ _ => .isTrue trivial

/-- The calls of an address with their answers, the latest first. -/
def Session.logOf (s : Session) (ip : Str) : List ((Query × Int) × Bool) :=
  (s.log.filter fun c => decide (c.ip = ip)).map fun c => (c.query, c.answer)

/-- What an address asked, the latest call first. -/
def Session.callsOf (s : Session) (ip : Str) : List (Query × Int) := (s.logOf ip).map Prod.fst

/-- What an address was answered, the latest answer first. -/
def Session.answersTo (s : Session) (ip : Str) : List Bool := (s.logOf ip).map Prod.snd

/-- The call records a failure. -/
def records (q : Query × Int) : Bool := q.1 == .recordFailure

/-- The distinct addresses that recorded a failure. -/
def Session.recorders (s : Session) : List Str :=
  ((s.log.filter fun c => records c.query).map Answered.ip).dedup

/-- The limiter has room for every address that recorded a failure, or tracks
any number of them. -/
def Session.Fits (s : Session) : Prop :=
  s.recorders.length ≤ s.run.limiter.maxTrackedIps ∨ s.run.limiter.maxTrackedIps = 0

variable {s s' : Session} {c : Call} {ip : Str}

theorem session_cases (h : sessions.step s c = some s') :
    runs.step s.run c = some s'.run ∧
      s'.log = ⟨c.ip, c.query, s.run.limiter.answer c⟩ :: s.log := by
  obtain ⟨run, hrun, rfl⟩ := Option.map_eq_some_iff.mp h
  exact ⟨hrun, rfl⟩

theorem step_logOf (h : sessions.step s c = some s') (ip : Str) :
    s'.logOf ip = if c.ip = ip then (c.query, s.run.limiter.answer c) :: s.logOf ip
      else s.logOf ip := by
  have hlog := (session_cases h).2
  by_cases hc : c.ip = ip <;> simp [Session.logOf, hlog, hc]

theorem recorders_subset (h : sessions.step s c = some s') : s.recorders ⊆ s'.recorders := by
  intro k hk
  rw [Session.recorders, List.mem_dedup] at hk ⊢
  rw [(session_cases h).2, List.filter_cons]
  split
  · exact List.mem_cons_of_mem _ hk
  · exact hk

theorem recordFailure_mem_recorders {t : Readings} {ord : IterOrder Str IpState}
    (h : sessions.step s (.recordFailure ip t ord) = some s') : ip ∈ s'.recorders := by
  rw [Session.recorders, List.mem_dedup, (session_cases h).2,
    List.filter_cons_of_pos (by rfl), List.map_cons]
  exact List.mem_cons_self

/-- The recorders of an earlier state are among those of a later one. -/
theorem step_fits (h : sessions.step s c = some s') (hfits : s'.Fits) : s.Fits := by
  have hparams := (step_params (session_cases h).1).2.2
  unfold Session.Fits at hfits ⊢
  rw [hparams] at hfits
  refine hfits.imp_left fun hle => Nat.le_trans ?_ hle
  exact ((List.nodup_dedup _).subperm (recorders_subset h)).length_le

/-! ## The simulation -/

/-- The counter of an address holds what its entry holds. Without an entry, it
holds a window that is expired, or none. Only recorders have entries. -/
structure Follows (ip : Str) (maxFailures : Nat) (windowSecs : Int) (s : Session)
    (w : Option FailureWindow) : Prop where
  max : s.run.limiter.maxFailures = maxFailures
  secs : s.run.limiter.windowSecs = windowSecs
  keys {k : Str} : k ∈ s.run.limiter.ipStates → k ∈ s.recorders
  tracked {st : IpState} : s.run.limiter.ipStates.lookup ip = some st →
    w = some ⟨st.failures, st.windowStart⟩
  erased : s.run.limiter.ipStates.lookup ip = none → ∀ v, w = some v →
    seconds windowSecs < s.run.clock - v.opened

variable {l : AuthRateLimiter} {ord : IterOrder Str IpState} {now : Int} {w : Option FailureWindow}
  {maxFailures : Nat} {windowSecs : Int}

/-- With room for every address, a recorded failure evicts nothing. -/
theorem recordFailure_fits {t : Readings} {names : List Str}
    (hkeys : ∀ k ∈ (l.written ip t).ipStates, k ∈ names)
    (hfits : names.length ≤ l.maxTrackedIps ∨ l.maxTrackedIps = 0) :
    l.checkAndRecordFailure ord ip t =
      (decide ((l.countFailure ip t).failures > l.maxFailures), l.written ip t) := by
  have hsize : (l.written ip t).size ≤ names.length := by
    have hsub : (l.written ip t).ipStates.keys ⊆ names :=
      fun k hk => hkeys k (AList.mem_keys.mpr hk)
    have hlen := ((AList.keys_nodup _).subperm hsub).length_le
    simpa [size, Table.size, AList.keys, List.keys] using hlen
  unfold checkAndRecordFailure
  dsimp only
  rw [if_neg (by omega)]

/-- The entry that a recorded failure writes is the window that its counter
charges. -/
theorem Follows.charged (h : Follows ip maxFailures windowSecs s w) (hnow : s.run.clock ≤ now) :
    FailureWindow.charge windowSecs now w =
      ⟨(s.run.limiter.countFailure ip ⟨now, now⟩).failures,
       (s.run.limiter.countFailure ip ⟨now, now⟩).windowStart⟩ := by
  cases hl : s.run.limiter.ipStates.lookup ip with
  | none =>
    have hfresh : s.run.limiter.countFailure ip ⟨now, now⟩ = ⟨1, now⟩ := by
      simp only [countFailure, hl, Option.getD_none]
      split <;> rfl
    rw [hfresh]
    cases w with
    | none => rfl
    | some v =>
      have hover := h.erased hl v rfl
      rw [FailureWindow.charge, if_neg (by omega)]
  | some st =>
    rw [h.tracked hl]
    simp only [FailureWindow.charge, countFailure, hl, Option.getD_some, expired, h.secs,
      decide_eq_true_eq, gt_iff_lt]
    split
    · rw [if_neg (by omega)]
    · rw [if_pos (by omega)]

/-- A query is answered like by the counter. -/
theorem Follows.queried (h : Follows ip maxFailures windowSecs s w) (hnow : s.run.clock ≤ now) :
    (s.run.limiter.isBlocked ip now).1 = FailureWindow.blocks maxFailures windowSecs now w := by
  unfold isBlocked
  split
  · next hl =>
    cases w with
    | none => rfl
    | some v =>
      have hover := h.erased hl v rfl
      have hold : ¬ now - v.opened ≤ seconds windowSecs := by omega
      simp [FailureWindow.blocks, hold]
  · next st hl =>
    rw [h.tracked hl]
    simp only [FailureWindow.blocks, expired, h.secs, h.max]
    by_cases hopen : now - st.windowStart ≤ seconds windowSecs
    · simp [hopen, Int.not_lt.mpr hopen]
    · simp [hopen, Int.not_le.mp hopen]

/-- A recorded failure charges the counter of its address and leaves the others. -/
theorem follows_recordFailure {addr : Str} {t : Readings}
    (h : Follows addr maxFailures windowSecs s w)
    (hst : sessions.step s (.recordFailure ip t ord) = some s') (hinst : t.fresh = t.now)
    (hfits : s'.Fits) :
    (s.run.limiter.checkAndRecordFailure ord ip t).1 =
        decide ((s.run.limiter.countFailure ip t).failures > maxFailures) ∧
      Follows addr maxFailures windowSecs s'
        (if ip = addr then some (FailureWindow.charge windowSecs t.now w) else w) := by
  have hrec := recordFailure_mem_recorders hst
  have hsub := recorders_subset hst
  obtain ⟨hmax, hsecs, hcap⟩ := step_params (session_cases hst).1
  obtain ⟨_, _, _, heq, hclock, hle, hrun⟩ | ⟨_, _, heq, _⟩ := step_cases (session_cases hst).1
  · cases heq
    have hkeys : ∀ k ∈ (s.run.limiter.written ip t).ipStates, k ∈ s'.recorders := by
      intro k hk
      rcases (AList.mem_insert _).mp hk with rfl | hk
      · exact hrec
      · exact hsub (h.keys hk)
    have hfree : s.run.limiter.checkAndRecordFailure ord ip t =
        (decide ((s.run.limiter.countFailure ip t).failures > s.run.limiter.maxFailures),
         s.run.limiter.written ip t) := recordFailure_fits hkeys (by rwa [← hcap])
    have hlim : s'.run.limiter = s.run.limiter.written ip t := by rw [hrun, hfree]
    have ht : t = ⟨t.now, t.now⟩ := by
      cases t
      exact congrArg (Readings.mk _) hinst
    refine ⟨by rw [hfree, h.max], hmax.trans h.max, hsecs.trans h.secs, ?_, ?_, ?_⟩
    · rw [hlim]
      exact hkeys _
    · intro st hl
      rw [hlim] at hl
      by_cases hne : ip = addr
      · subst hne
        rw [written_lookup_self] at hl
        cases hl
        rw [if_pos rfl, h.charged hclock, ← ht]
      · rw [written_lookup_of_ne (Ne.symm hne)] at hl
        rw [if_neg hne]
        exact h.tracked hl
    · intro hl v hv
      rw [hlim] at hl
      by_cases hne : ip = addr
      · subst hne
        rw [written_lookup_self] at hl
        cases hl
      · rw [written_lookup_of_ne (Ne.symm hne)] at hl
        rw [if_neg hne] at hv
        have := h.erased hl v hv
        rw [hrun]
        dsimp only
        omega
  · cases heq

/-- A query leaves the counters of all addresses. -/
theorem follows_isBlocked {addr : Str} (h : Follows addr maxFailures windowSecs s w)
    (hst : sessions.step s (.isBlocked ip now) = some s') :
    s.run.clock ≤ now ∧ Follows addr maxFailures windowSecs s' w := by
  have hsub := recorders_subset hst
  obtain ⟨hmax, hsecs, _⟩ := step_params (session_cases hst).1
  obtain ⟨_, _, _, heq, _⟩ | ⟨_, _, heq, hclock, hrun⟩ := step_cases (session_cases hst).1
  · cases heq
  · cases heq
    have hentry (k : Str) := isBlocked_entry s.run.limiter k ip now
    refine ⟨hclock, hmax.trans h.max, hsecs.trans h.secs, ?_, ?_, ?_⟩
    · intro k hk
      refine hsub (h.keys ?_)
      rw [hrun] at hk
      rw [← AList.lookup_isSome] at hk ⊢
      rcases hentry k with hsame | ⟨hnone, _⟩
      · rwa [hsame] at hk
      · rw [hnone] at hk
        cases hk
    · intro st hl
      rw [hrun] at hl
      rcases hentry addr with hsame | ⟨hnone, _⟩
      · exact h.tracked (hsame ▸ hl)
      · rw [hnone] at hl
        cases hl
    · intro hl v hv
      rw [hrun] at hl ⊢
      dsimp only at hl ⊢
      cases hold : s.run.limiter.ipStates.lookup addr with
      | none =>
        have := h.erased hold v hv
        omega
      | some st =>
        rcases hentry addr with hsame | ⟨_, hexp⟩
        · rw [hsame, hold] at hl
          cases hl
        · have hst := h.tracked hold
          rw [hv] at hst
          cases hst
          have hover := hexp st hold
          simpa [expired, h.secs] using hover

/-- The counter gives the caller's answer, and the table goes on following it. -/
theorem follows_step {addr : Str} (h : Follows addr maxFailures windowSecs s w)
    (hinst : Instant s c) (hst : sessions.step s c = some s') (hfits : s'.Fits) :
    (c.ip = addr ∧
      s.run.limiter.answer c = ((failureCounter maxFailures windowSecs).next w c.query).1 ∧
      Follows addr maxFailures windowSecs s'
        ((failureCounter maxFailures windowSecs).next w c.query).2) ∨
    (c.ip ≠ addr ∧ Follows addr maxFailures windowSecs s' w) := by
  cases c with
  | recordFailure ip t ord =>
    obtain ⟨hans, hfollows⟩ := follows_recordFailure h hst hinst hfits
    by_cases hip : ip = addr
    · subst hip
      rw [if_pos rfl] at hfollows
      obtain ⟨_, _, _, heq, hclock, _, _⟩ | ⟨_, _, heq, _⟩ := step_cases (session_cases hst).1
      · cases heq
        have ht : t = ⟨t.now, t.now⟩ := by
          cases t
          exact congrArg (Readings.mk _) hinst
        have hcharged := h.charged hclock
        rw [← ht] at hcharged
        refine .inl ⟨rfl, ?_, hfollows⟩
        rw [answer, hans]
        simp only [failureCounter, Call.query, hcharged]
      · cases heq
    · rw [if_neg hip] at hfollows
      exact .inr ⟨hip, hfollows⟩
  | isBlocked ip now =>
    obtain ⟨hclock, hfollows⟩ := follows_isBlocked h hst
    by_cases hip : ip = addr
    · subst hip
      exact .inl ⟨rfl, h.queried hclock, hfollows⟩
    · exact .inr ⟨hip, hfollows⟩

/-- What a session of a fitting limiter answers, and what it has counted. -/
theorem reachable_follows (h : sessions.Reachable Instant s) (hfits : s.Fits) (ip : Str) :
    s.answersTo ip =
      (failureCounter s.run.limiter.maxFailures s.run.limiter.windowSecs).answers
        (s.callsOf ip) := by
  obtain ⟨s₀, ⟨hempty, hlog⟩, hreach⟩ := h
  obtain ⟨hmax, hsecs⟩ := System.reaches_inv
    (I := fun t => t.run.limiter.maxFailures = s₀.run.limiter.maxFailures ∧
      t.run.limiter.windowSecs = s₀.run.limiter.windowSecs) (fun s c t hi _ hst => by
      obtain ⟨hm, hw, _⟩ := step_params (session_cases hst).1
      exact ⟨hm.trans hi.1, hw.trans hi.2⟩) hreach ⟨rfl, rfl⟩
  rw [hmax, hsecs]
  have hnone (k : Str) : s₀.run.limiter.ipStates.lookup k = none := by
    rw [show s₀.run.limiter.ipStates = ∅ from hempty]
    rfl
  refine (System.reaches_explained _ (Session.logOf · ip)
    (Follows ip s₀.run.limiter.maxFailures s₀.run.limiter.windowSecs) ?_
    (hreach.restrict (fun _ _ _ => step_fits) hfits) (by simp [Session.logOf, hlog])
    ⟨rfl, rfl, fun hk => ?_, fun hl => ?_, fun _ v hv => by cases hv⟩).1
  · rintro s c t w hw ⟨hinst, u, hu, hfits⟩ hst
    cases hu.symm.trans hst
    rw [step_logOf hst]
    rcases follows_step hw hinst hst hfits with ⟨hip, hans, hfollows⟩ | ⟨hip, hfollows⟩
    · exact .inr ⟨c.query, by rw [if_pos hip, hans], hfollows⟩
    · exact .inl ⟨if_neg hip, hfollows⟩
  · rw [← AList.lookup_isSome, hnone] at hk
    cases hk
  · rw [hnone] at hl
    cases hl

/-- **The failure limiter refines one counter for each address.** When every
call reads the clock once, and the limiter has room for every address that ever
records a failure or tracks any number of them, the answers to an address are
those of a counter that is fed with its calls only. Queries change no answer:
each one is what the counter gives after the failures recorded before it. -/
theorem refines_counters {s : Session} (h : sessions.Reachable Instant s) (hfits : s.Fits)
    (ip : Str) :
    s.answersTo ip = (failureCounter s.run.limiter.maxFailures
      s.run.limiter.windowSecs).answers (s.callsOf ip) ∧
    ∀ later earlier q a, s.logOf ip = later ++ (q, a) :: earlier →
      a = ((failureCounter s.run.limiter.maxFailures s.run.limiter.windowSecs).next
        ((failureCounter s.run.limiter.maxFailures s.run.limiter.windowSecs).after
          ((earlier.map Prod.fst).filter records)) q).1 := by
  have hanswers := reachable_follows h hfits ip
  refine ⟨hanswers, fun later earlier q a hlog => ?_⟩
  have hquiet : ∀ (w : Option FailureWindow) (q : Query × Int), records q = false →
      ((failureCounter s.run.limiter.maxFailures s.run.limiter.windowSecs).next w q).2 = w := by
    rintro w ⟨query, now⟩ hq
    cases query with
    | recordFailure => cases hq
    | isBlocked => rfl
  rw [Machine.after_filter hquiet]
  rw [Session.callsOf, hlog, List.map_append, List.map_cons] at hanswers
  have hget := Machine.answers_eq_append hanswers.symm
  rw [Session.answersTo, hlog, List.map_append, List.map_cons, List.length_map,
    ← List.length_map (f := Prod.snd), List.getElem?_append_right (Nat.le_refl _), Nat.sub_self,
    List.getElem?_cons_zero] at hget
  exact Option.some.inj hget

/-- A limiter that blocks at the second failure and tracks two addresses. -/
def exTwoPlaces : Session := ⟨⟨{ maxFailures := 1, maxTrackedIps := 2 }, 0⟩, []⟩

/-- Failures of an address within one window, with queries and another address
in between. The last failure comes after the window. -/
def exTwoFailures : List Call :=
  [.recordFailure (utf8 "a") ⟨0, 0⟩ (.id _ _),
   .isBlocked (utf8 "a") 1,
   .recordFailure (utf8 "b") ⟨2, 2⟩ (.id _ _),
   .recordFailure (utf8 "a") ⟨seconds 60, seconds 60⟩ (.id _ _),
   .isBlocked (utf8 "a") (seconds 60),
   .isBlocked (utf8 "a") (seconds 60 + 1),
   .recordFailure (utf8 "a") ⟨seconds 60 + 1, seconds 60 + 1⟩ (.id _ _)]

/-- The address is blocked up to the very end of its window, and starts anew
after it. -/
theorem refines_counters_boundary : ∃ s, sessions.Reachable Instant s ∧ s.Fits ∧
    s.run.limiter.maxTrackedIps = 2 ∧
    s.answersTo (utf8 "a") = [false, false, true, true, false, false] := by
  obtain ⟨s, hrun, hreach⟩ :=
    System.exists_reachable (S := sessions) (G := Instant) (s := exTwoPlaces) exTwoFailures
      ⟨rfl, rfl⟩ (by decide)
  have hanswers : s.Fits → s.answersTo (utf8 "a") = _ :=
    fun hfits => (refines_counters hreach hfits (utf8 "a")).1
  cases hrun
  exact ⟨_, hreach, .inl (by decide), rfl, (hanswers (.inl (by decide))).trans (by decide)⟩

end AuthRateLimiter
end VoxtralServer
