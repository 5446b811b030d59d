import VoxtralServer.Auth.RequestRateLimiter
import VoxtralServer.Lib.Reference

/-!
# The request limiter isolates its clients

The request limiter counts all client addresses in one table, which a call of
one address may purge of the entries of others. Its answers to an address are
nevertheless those of a counter that is fed with the calls of that address only
and never purged: a purged entry would have been reset anyway.

* `Tracks`: the simulation relation between the table and such a counter.
* `isolated`: the answers to each address are those of its own counter.
-/

namespace VoxtralServer
namespace RequestRateLimiter

/-! ## The counter of one address -/

/-- A window and the calls in it. -/
structure FixedWindow where
  count : Nat
  opened : Int
deriving DecidableEq, Repr

/-- The window that a call at `now` falls in, with the call counted. A window
ends after 60 whole seconds. -/
def FixedWindow.charge (now : Int) : Option FixedWindow → FixedWindow
  | none => ⟨1, now⟩
  | some w => if toSeconds (now - w.opened) ≥ 60 then ⟨1, now⟩ else ⟨w.count + 1, w.opened⟩

/-- A counter of the calls of one address: zero as long as its window holds at
most `maxRpm` of them, else the seconds until the window ends. -/
def fixedWindow (maxRpm : Nat) : Machine (Option FixedWindow) Int Int where
  start := none
  next w now :=
    let w' := FixedWindow.charge now w
    (if w'.count ≤ maxRpm then 0 else 60 - toSeconds (now - w'.opened), some w')

/-! ## What a run shows to an address -/

/-- The call reads the clock once. -/
def Instant (_ : Run) (c : Call) : Prop := c.t.fresh = c.t.now

instance (s : Run) (c : Call) : Decidable (Instant s c) := inferInstanceAs (Decidable (_ = _))

/-- The calls of an address with their answers, the latest first. -/
def Run.logOf (s : Run) (ip : Str) : List (Int × Int) :=
  (s.log.filter fun c => decide (c.ip = ip)).map fun c => (c.now, c.answer)

/-- When an address called, the latest call first. -/
def Run.instantsOf (s : Run) (ip : Str) : List Int := (s.logOf ip).map Prod.fst

/-- What an address was answered, the latest answer first. -/
def Run.answersTo (s : Run) (ip : Str) : List Int := (s.logOf ip).map Prod.snd

theorem step_logOf {s s' : Run} {c : Call} (h : runs.step s c = some s') (ip : Str) :
    s'.logOf ip =
      if c.ip = ip then (c.t.now, (s.limiter.checkRequest c.ord c.ip c.t).1) :: s.logOf ip
      else s.logOf ip := by
  obtain ⟨_, _, rfl⟩ := step_cases h
  by_cases hc : c.ip = ip <;> simp [Run.logOf, hc]

/-! ## The simulation -/

/-- The counter of an address holds what its entry holds. Without an entry, it
holds a window that is over, or none. -/
structure Tracks (ip : Str) (maxRpm : Nat) (s : Run) (w : Option FixedWindow) : Prop where
  rpm : s.limiter.maxRpm = maxRpm
  tracked {st : IpState} : s.limiter.ipStates.lookup ip = some st →
    w = some ⟨st.requests, st.windowStart⟩
  purged : s.limiter.ipStates.lookup ip = none → ∀ v, w = some v →
    seconds 60 ≤ s.clock - v.opened

variable {l : RequestRateLimiter} {ord : IterOrder Str IpState} {ip : Str} {now : Int} {s s' : Run}
  {c : Call} {w : Option FixedWindow} {maxRpm : Nat}

/-- The entry that a call writes is the window that its counter charges. -/
theorem Tracks.charged (h : Tracks ip maxRpm s w) (hnow : s.clock ≤ now) :
    FixedWindow.charge now w =
      ⟨(s.limiter.countRequest ip ⟨now, now⟩).requests,
       (s.limiter.countRequest ip ⟨now, now⟩).windowStart⟩ := by
  cases hl : s.limiter.ipStates.lookup ip with
  | none =>
    have hzero : ¬ toSeconds (now - now) ≥ 60 := by simp [toSeconds]
    simp only [countRequest, entry, hl, Option.getD_none, elapsed, if_neg hzero]
    cases w with
    | none => rfl
    | some v =>
      have hover : toSeconds (now - v.opened) ≥ 60 := by
        have := h.purged hl v rfl
        exact (le_toSeconds (by decide)).mpr (by omega)
      rw [FixedWindow.charge, if_pos hover]
  | some st =>
    rw [h.tracked hl]
    simp only [FixedWindow.charge, countRequest, entry, hl, Option.getD_some, elapsed]
    split <;> rfl

/-- The answer is that of the counter, as long as one request is allowed. -/
theorem checkRequest_answer (ord : IterOrder Str IpState) (hrpm : 1 ≤ l.maxRpm) :
    (l.checkRequest ord ip ⟨now, now⟩).1 =
      if (l.countRequest ip ⟨now, now⟩).requests ≤ l.maxRpm then 0
      else 60 - toSeconds (now - (l.countRequest ip ⟨now, now⟩).windowStart) := by
  by_cases hroom : (l.countRequest ip ⟨now, now⟩).requests ≤ l.maxRpm
  · rw [if_pos hroom]
    exact (checkRequest_allowed ord).mpr hroom
  · rw [if_neg hroom]
    have hrejected : (l.checkRequest ord ip ⟨now, now⟩).1 ≠ 0 :=
      fun hzero => hroom ((checkRequest_allowed ord).mp hzero)
    obtain ⟨st, _, _, _, hcount, hanswer⟩ := checkRequest_rejected (Int.le_refl _) hrpm hrejected
    rw [hanswer, hcount, elapsed]

/-- The counter gives the caller's answer, and goes on tracking its entry. -/
theorem tracks_self (hrpm : 1 ≤ maxRpm) (h : Tracks c.ip maxRpm s w) (hinst : Instant s c)
    (hst : runs.step s c = some s') :
    (s.limiter.checkRequest c.ord c.ip c.t).1 = ((fixedWindow maxRpm).next w c.t.now).1 ∧
      Tracks c.ip maxRpm s' ((fixedWindow maxRpm).next w c.t.now).2 := by
  obtain ⟨hclock, hle, rfl⟩ := step_cases hst
  have ht : c.t = ⟨c.t.now, c.t.now⟩ := by
    cases ht : c.t with
    | mk now fresh =>
      simp only [Instant, ht] at hinst
      rw [hinst]
  have hcharged := h.charged hclock
  rw [← ht] at hcharged
  constructor
  · rw [ht, checkRequest_answer c.ord (h.rpm ▸ hrpm), ← ht, h.rpm]
    simp only [fixedWindow, hcharged]
  · have hself : (s.limiter.checkRequest c.ord c.ip c.t).2.ipStates.lookup c.ip =
        some (s.limiter.countRequest c.ip c.t) := checkRequest_self hle
    constructor
    · rw [← h.rpm]
      exact checkRequest_params.1
    · intro st hl
      rw [hself] at hl
      cases hl
      simp only [fixedWindow, hcharged]
    · intro hl
      rw [hself] at hl
      cases hl

/-- Calls of other addresses leave the counter, whatever they purge. -/
theorem tracks_other (hne : ip ≠ c.ip) (h : Tracks ip maxRpm s w)
    (hst : runs.step s c = some s') : Tracks ip maxRpm s' w := by
  obtain ⟨hclock, hle, rfl⟩ := step_cases hst
  have hins : (s.limiter.ipStates.insert c.ip (s.limiter.countRequest c.ip c.t)).lookup ip =
      s.limiter.ipStates.lookup ip := AList.lookup_insert_ne hne
  refine ⟨checkRequest_params.1.trans h.rpm, ?_, ?_⟩
  · intro st hl
    rcases checkRequest_lookup (l := s.limiter) (t := c.t) ip with heq | ⟨heq, _⟩
    · rw [heq, hins] at hl
      exact h.tracked hl
    · rw [heq] at hl
      cases hl
  · intro hl v hv
    rcases checkRequest_lookup (l := s.limiter) (t := c.t) ip with heq | ⟨_, st, hst, hstale⟩
    · rw [heq, hins] at hl
      have := h.purged hl v hv
      dsimp only
      omega
    · -- the purge erased a window that is over
      rw [hins] at hst
      have hentry := h.tracked hst
      rw [hv] at hentry
      cases hentry
      simp only [Stale] at hstale
      dsimp only
      omega

/-- **The request limiter isolates its clients.** When every call reads the
clock once, the answers to an address are those of a counter that is fed with
its calls only. So two runs with the same limit, in which an address calls at
the same instants, answer it the same, whatever the other addresses do, however
many are tracked, and in whatever order the purges visit them. -/
theorem isolated {s : Run} (h : runs.Reachable Instant s) (hrpm : 1 ≤ s.limiter.maxRpm)
    (ip : Str) :
    s.answersTo ip = (fixedWindow s.limiter.maxRpm).answers (s.instantsOf ip) ∧
    ∀ s', runs.Reachable Instant s' → s'.limiter.maxRpm = s.limiter.maxRpm →
      s'.instantsOf ip = s.instantsOf ip → s'.answersTo ip = s.answersTo ip := by
  have hall : ∀ t, runs.Reachable Instant t → 1 ≤ t.limiter.maxRpm →
      t.answersTo ip = (fixedWindow t.limiter.maxRpm).answers (t.instantsOf ip) := by
    rintro t ⟨s₀, ⟨hempty, hlog⟩, hreach⟩ hrpm
    have hkeep : t.limiter.maxRpm = s₀.limiter.maxRpm :=
      System.reaches_inv (I := fun t => t.limiter.maxRpm = s₀.limiter.maxRpm)
        (fun s c t hi _ hst => (step_maxRpm hst).trans hi) hreach rfl
    rw [hkeep] at hrpm ⊢
    refine (System.reaches_explained (fixedWindow s₀.limiter.maxRpm) (Run.logOf · ip)
      (Tracks ip s₀.limiter.maxRpm) ?_ hreach (by simp [Run.logOf, hlog])
      ⟨rfl, fun hl => ?_, fun _ v hv => by cases hv⟩).1
    · intro s c t w hw hinst hst
      rw [step_logOf hst]
      by_cases hc : c.ip = ip
      · subst hc
        obtain ⟨hans, htracks⟩ := tracks_self hrpm hw hinst hst
        exact .inr ⟨c.t.now, by rw [if_pos rfl, hans], htracks⟩
      · exact .inl ⟨if_neg hc, tracks_other (Ne.symm hc) hw hst⟩
    · rw [hempty] at hl
      cases hl
  refine ⟨hall s h hrpm, fun s' h' hrpm' hsame => ?_⟩
  rw [hall s h hrpm, hall s' h' (hrpm' ▸ hrpm), hrpm', hsame]

/-- Three calls of an address, and two of another one, which push the table over
its cap. The purge at the second of these erases the first address. -/
def exPurgedRun : List Call :=
  [exCall (utf8 "a") 0, exCall (utf8 "b") 1, exCall (utf8 "a") 2, exCall (utf8 "b") (seconds 61),
   exCall (utf8 "a") (seconds 62)]

/-- After the purge the address is answered like by a counter of its own. -/
theorem isolated_purged : ∃ s, runs.Reachable Instant s ∧ 1 ≤ s.limiter.maxRpm ∧
    s.limiter.maxTrackedIps = 1 ∧ s.answersTo (utf8 "a") = [0, 60, 0] := by
  obtain ⟨s, hrun, hreach⟩ :=
    System.exists_reachable (S := runs) (G := Instant)
      (s := ⟨{ maxRpm := 1, maxTrackedIps := 1 }, 0, []⟩) exPurgedRun ⟨rfl, rfl⟩ (by decide)
  have hanswers : 1 ≤ s.limiter.maxRpm → s.answersTo (utf8 "a") = _ :=
    fun hrpm => (isolated hreach hrpm (utf8 "a")).1
  cases hrun
  refine ⟨_, hreach, by decide, rfl, (hanswers (by decide)).trans ?_⟩
  decide

end RequestRateLimiter
end VoxtralServer
