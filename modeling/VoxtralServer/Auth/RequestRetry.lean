import VoxtralServer.Auth.RequestRateLimiter

/-!
# When a rejected request may be retried

The request limiter answers a rejected call with a number of seconds, computed
from a truncated duration. Other addresses may call at any time, and their calls
may purge entries.

* `step_blockedUntil`: the window that rejects stays, as long as it is not over.
* `step_onlyWindow`: no other window opens without an admitted call.
* `retry_least`: the answer is the least number of seconds that suffices.
-/

namespace VoxtralServer
namespace RequestRateLimiter

variable {s s' : Run} {c : Call} {ip : Str} {w t : Int}

/-- No window opens later than the clock. -/
theorem reachable_start (h : runs.Reachable System.Any s) :
    ∀ k st, s.limiter.ipStates.lookup k = some st → st.windowStart ≤ s.clock := by
  refine System.reachable_inv
    (I := fun s => ∀ k st, s.limiter.ipStates.lookup k = some st → st.windowStart ≤ s.clock)
    ?_ ?_ h
  · intro s hs k st hst
    rw [hs.1] at hst
    cases hst
  · intro s c s' ih _ hst k st hl
    obtain ⟨h1, h2, rfl⟩ := step_cases hst
    exact checkRequest_start h2 (fun k st hl => Int.le_trans (ih k st hl) (Int.le_trans h1 h2)) hl

/-! ## Until the window ends -/

/-- Until `t` the address has a window that opened at `w` and is full. -/
def BlockedUntil (ip : Str) (w t : Int) (s : Run) : Prop :=
  s.clock ≤ t → ∃ st, s.limiter.ipStates.lookup ip = some st ∧ st.windowStart = w ∧
    s.limiter.maxRpm < st.requests

/-- A full window that is not over at `t` stays until then: calls of its address
count on in it, and a purge keeps it. -/
theorem step_blockedUntil (hlt : t < w + seconds 60) (h : BlockedUntil ip w t s)
    (hst : runs.step s c = some s') : BlockedUntil ip w t s' := by
  have hrpm := step_maxRpm hst
  intro hclock
  rw [hrpm]
  obtain ⟨h1, h2, rfl⟩ := step_cases hst
  obtain ⟨st, hl, hw, hfull⟩ := h (by dsimp only at hclock; omega)
  have hns : ¬ Stale c.t.now st := by
    simp only [Stale]
    dsimp only at hclock
    omega
  dsimp only
  by_cases hc : c.ip = ip
  · subst hc
    rw [checkRequest_self h2, countRequest_open hl hns]
    exact ⟨_, rfl, hw, Nat.lt_succ_of_lt hfull⟩
  · have hins : (s.limiter.ipStates.insert c.ip (s.limiter.countRequest c.ip c.t)).lookup ip =
        some st := (AList.lookup_insert_ne (Ne.symm hc)).trans hl
    rcases checkRequest_lookup (l := s.limiter) (t := c.t) ip with heq | ⟨_, st', hst', hstale⟩
    · exact ⟨st, heq.trans hins, hw, hfull⟩
    · -- a purged entry is stale, and this one is not
      rw [hins] at hst'
      cases hst'
      exact absurd hstale hns

/-- A call on a full window that is not over is rejected. -/
theorem BlockedUntil.rejects (h : BlockedUntil ip w t s) (hlt : t < w + seconds 60)
    (hc : c.ip = ip) (hst : runs.step s c = some s') (hnow : c.t.now ≤ t) :
    (s.limiter.checkRequest c.ord c.ip c.t).1 ≠ 0 := by
  subst hc
  obtain ⟨h1, _, _⟩ := step_cases hst
  obtain ⟨st, hl, hw, hfull⟩ := h (Int.le_trans h1 hnow)
  have hns : ¬ Stale c.t.now st := by
    simp only [Stale]
    omega
  rw [ne_eq, checkRequest_allowed, countRequest_open hl hns, Nat.not_le]
  exact Nat.lt_succ_of_lt hfull

/-! ## After the window ends -/

/-- The call is not an admitted one of the address. -/
def NotAdmitted (ip : Str) (s : Run) (c : Call) : Prop :=
  c.ip = ip → (s.limiter.checkRequest c.ord c.ip c.t).1 ≠ 0

/-- The address has no window but the one that opened at `w`. -/
def OnlyWindow (ip : Str) (w : Int) (s : Run) : Prop :=
  1 ≤ s.limiter.maxRpm ∧ ∀ st, s.limiter.ipStates.lookup ip = some st → st.windowStart = w

/-- A call that is rejected opens no window. -/
theorem step_onlyWindow (h : OnlyWindow ip w s) (hg : NotAdmitted ip s c)
    (hst : runs.step s c = some s') : OnlyWindow ip w s' := by
  obtain ⟨hrpm, hwindow⟩ := h
  refine ⟨step_maxRpm hst ▸ hrpm, fun st hl => ?_⟩
  obtain ⟨_, h2, rfl⟩ := step_cases hst
  by_cases hc : c.ip = ip
  · obtain ⟨old, hold, _, _, hcount, _⟩ := checkRequest_rejected h2 hrpm (hg hc)
    subst hc
    rw [checkRequest_self h2, hcount] at hl
    cases hl
    exact hwindow old hold
  · rcases checkRequest_other (l := s.limiter) (t := c.t) (Ne.symm hc) with heq | heq
    · rw [heq] at hl
      exact hwindow st hl
    · rw [heq] at hl
      cases hl

/-- The first call after the end of the only window is admitted. -/
theorem OnlyWindow.admits (h : OnlyWindow ip w s) (hc : c.ip = ip)
    (hst : runs.step s c = some s') (hnow : w + seconds 60 ≤ c.t.now) :
    (s.limiter.checkRequest c.ord c.ip c.t).1 = 0 := by
  obtain ⟨hrpm, hwindow⟩ := h
  obtain ⟨_, h2, _⟩ := step_cases hst
  have hopens : s.limiter.Opens c.ip c.t.now := by
    intro st hl
    have hw := hwindow st (hc ▸ hl)
    simp only [Stale]
    omega
  obtain ⟨v, hv, _⟩ := countRequest_opens h2 hopens
  rw [checkRequest_allowed, hv]
  exact hrpm

/-! ## The answer -/

/-- After a call at `t` that was answered `r`, `r` is the least whole number of
seconds after which the address is admitted. -/
structure LeastRetry (ip : Str) (t r : Int) (s : Run) : Prop where
  range : 1 ≤ r ∧ r ≤ 60
  tooEarly : ∀ u c u', runs.Reaches System.Any s u → c.ip = ip → runs.step u c = some u' →
    c.t.now ≤ t + seconds (r - 1) → (u.limiter.checkRequest c.ord c.ip c.t).1 ≠ 0
  sufficient : ∀ u c u', runs.Reaches (NotAdmitted ip) s u → c.ip = ip →
    runs.step u c = some u' → t + seconds r ≤ c.t.now →
    (u.limiter.checkRequest c.ord c.ip c.t).1 = 0

/-- **Retry.** The answer to a rejected call is the least number of seconds that
suffices, whatever the other addresses do in the meantime. -/
theorem retry_least (h : runs.Reachable System.Any s) (hrpm : 1 ≤ s.limiter.maxRpm)
    (hst : runs.step s c = some s') (hpos : 0 < (s.limiter.checkRequest c.ord c.ip c.t).1) :
    LeastRetry c.ip c.t.now (s.limiter.checkRequest c.ord c.ip c.t).1 s' := by
  have hrpm' := step_maxRpm hst
  obtain ⟨h1, h2, hs'⟩ := step_cases hst
  obtain ⟨st, hl, hns, hfull, hcount, hanswer⟩ :=
    checkRequest_rejected h2 hrpm (Int.ne_of_gt hpos)
  have hself : s'.limiter.ipStates.lookup c.ip = some { st with requests := st.requests + 1 } := by
    rw [hs', ← hcount]
    exact checkRequest_self h2
  -- the answer is 60 less the whole seconds since the window opened
  have hpast : 0 ≤ c.t.now - st.windowStart := by
    have := reachable_start h _ _ hl
    omega
  obtain ⟨hzero, hlow, hhigh⟩ := toSeconds_bounds hpast
  have hlt : ¬ elapsed c.t.now st ≥ 60 := fun he => hns (elapsed_ge.mp he)
  rw [hanswer]
  simp only [elapsed] at hlt ⊢
  simp only [seconds] at hlow hhigh
  have hearly : c.t.now + seconds (60 - toSeconds (c.t.now - st.windowStart) - 1) <
      st.windowStart + seconds 60 := by
    simp only [seconds]
    omega
  constructor
  · omega
  · intro u c' u' hreach hip hstep hnow
    have hblocked : BlockedUntil c.ip st.windowStart
        (c.t.now + seconds (60 - toSeconds (c.t.now - st.windowStart) - 1)) u :=
      System.reaches_inv (fun _ _ _ hi _ hst => step_blockedUntil hearly hi hst) hreach
        fun _ => ⟨_, hself, rfl, hrpm' ▸ hfull⟩
    exact hblocked.rejects hearly hip hstep hnow
  · intro u c' u' hreach hip hstep hnow
    have honly : OnlyWindow c.ip st.windowStart u := by
      refine System.reaches_inv (fun _ _ _ hi hg hst => step_onlyWindow hi hg hst) hreach
        ⟨hrpm' ▸ hrpm, fun st' hl' => ?_⟩
      rw [hself] at hl'
      cases hl'
      rfl
    refine honly.admits hip hstep ?_
    simp only [seconds] at hnow ⊢
    omega

/-- The third request in the same window comes two and a half seconds after it
opened. The answer is 58. -/
theorem retry_least_third : ∃ s s',
    runs.step s (exCall (utf8 "a") 2500000000) = some s' ∧
    LeastRetry (utf8 "a") 2500000000 58 s' := by
  obtain ⟨s, hrun, hreach⟩ :=
    System.exists_reachable (S := runs) (G := System.Any) (s := exTwoRpm)
      [exCall (utf8 "a") 0, exCall (utf8 "a") 0] ⟨rfl, rfl⟩ (by decide)
  have hstep := step_of (s := s) (c := exCall (utf8 "a") 2500000000)
  cases hrun
  have hst := hstep (by decide) (by decide)
  exact ⟨_, _, hst, retry_least hreach (by decide) hst (by decide)⟩

end RequestRateLimiter
end VoxtralServer
