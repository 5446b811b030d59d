import VoxtralServer.Auth.RequestRateLimiter

/-!
# The load that the request limiter admits

Windows of an address open at least 60 seconds apart, also when the entry was
erased in between: a purge erases stale entries only. The first requests of two
windows are then never within the same 60 seconds.

* `load_exact`: in every run, 60 seconds hold less than twice `max_rpm` admitted
  requests of an address, and for each limit a run reaches that bound.
* `rejected_busy`: a request is rejected only after `max_rpm` other calls of its
  address that returned within the last 60 seconds.
-/

namespace VoxtralServer
namespace RequestRateLimiter

/-! ## The windows of an address -/

/-- What is known of an address in every run. Its admitted requests come in one
batch for each window, and its entry, as long as there is one, is the window of
the last batch. -/
structure Loaded (s : Run) (ip : Str) (opened closing : Int) : Prop where
  batches : Window.Batches (seconds 60) s.limiter.maxRpm (s.admitted ip) opened closing
  opened_le : opened ≤ s.clock
  entry : ∀ st, s.limiter.ipStates.lookup ip = some st →
    closing = st.windowStart + seconds 60 ∧
    Window.since (s.admitted ip) opened ≤ st.requests ∧
    (1 ≤ s.limiter.maxRpm → 1 ≤ Window.since (s.admitted ip) opened)
  closed : s.limiter.ipStates.lookup ip = none → closing ≤ s.clock

/-- A call that opens a window comes after the one before it has closed. -/
theorem Loaded.closing_le {s : Run} {ip : Str} {opened closing now : Int}
    (h : Loaded s ip opened closing) (hnow : s.clock ≤ now) (hopens : s.limiter.Opens ip now) :
    closing ≤ now := by
  cases hl : s.limiter.ipStates.lookup ip with
  | none => exact Int.le_trans (h.closed hl) hnow
  | some st =>
    have hclosing := (h.entry st hl).1
    have hstale := hopens st hl
    simp only [Stale] at hstale
    omega

/-- A call that opens a window. Its request is the first of a batch, unless the
limit is zero. -/
theorem step_loaded_opens {s s' : Run} {c : Call} {opened closing : Int}
    (h : Loaded s c.ip opened closing) (hst : runs.step s c = some s')
    (hopens : s.limiter.Opens c.ip c.t.now) : ∃ closing', Loaded s' c.ip c.t.now closing' := by
  have hadm := step_admitted hst c.ip
  have hrpm := step_maxRpm hst
  obtain ⟨h1, h2, hs'⟩ := step_cases hst
  have hself : s'.limiter.ipStates.lookup c.ip = some (s.limiter.countRequest c.ip c.t) := by
    rw [hs']
    exact checkRequest_self h2
  have hclock : s'.clock = c.t.fresh := by rw [hs']
  obtain ⟨w, hw, hle⟩ := countRequest_opens h2 hopens
  have hclosing := h.closing_le h1 hopens
  have hturn : Window.Batches (seconds 60) s.limiter.maxRpm (s.admitted c.ip) c.t.now
      (w + seconds 60) := h.batches.turn (by decide) hclosing (by omega)
  have hzero : Window.since (s.admitted c.ip) c.t.now = 0 :=
    Window.since_eq_zero_of_lt fun x hx => Int.lt_of_lt_of_le (h.batches.lt_closing x hx) hclosing
  have hone : Window.since (c.t.now :: s.admitted c.ip) c.t.now = 1 := by
    rw [Window.since_cons (Int.le_refl _), hzero]
  have hpos : (0 : Int) < seconds 60 := by decide
  rw [hw] at hadm hself
  refine ⟨w + seconds 60, ?_, by rw [hclock]; exact h2, ?_, ?_⟩
  · rw [hadm, hrpm]
    split
    · next hroom =>
      exact hturn.add (Int.le_refl _) (by omega) (.inr rfl) (by rw [hzero]; exact hroom.2)
    · exact hturn
  · intro st hl
    rw [hself] at hl
    cases hl
    rw [hadm, hrpm]
    split
    · exact ⟨rfl, Nat.le_of_eq hone, fun _ => Nat.le_of_eq hone.symm⟩
    · next hfull =>
      exact ⟨rfl, by rw [hzero]; exact Nat.zero_le _, fun hroom => absurd ⟨rfl, hroom⟩ hfull⟩
  · intro hnone
    rw [hself] at hnone
    cases hnone

/-- A call in an open window. -/
theorem step_loaded_open {s s' : Run} {c : Call} {opened closing : Int}
    (h : Loaded s c.ip opened closing) (hst : runs.step s c = some s') {st : IpState}
    (hl : s.limiter.ipStates.lookup c.ip = some st) (hns : ¬ Stale c.t.now st) :
    Loaded s' c.ip opened closing := by
  have hadm := step_admitted hst c.ip
  have hrpm := step_maxRpm hst
  obtain ⟨h1, h2, hs'⟩ := step_cases hst
  have hself : s'.limiter.ipStates.lookup c.ip = some (s.limiter.countRequest c.ip c.t) := by
    rw [hs']
    exact checkRequest_self h2
  have hclock : s'.clock = c.t.fresh := by rw [hs']
  obtain ⟨hclosing, hsince, hfirst⟩ := h.entry st hl
  have hopened := h.opened_le
  have hlt : c.t.now < closing := by
    simp only [Stale] at hns
    omega
  rw [countRequest_open hl hns] at hadm hself
  refine ⟨?_, by omega, ?_, ?_⟩
  · rw [hadm, hrpm]
    split
    · next hroom =>
      have hroom := hroom.2
      dsimp only at hroom
      exact h.batches.add (by omega) hlt (.inl (hfirst (by omega))) (by omega)
    · exact h.batches
  · intro st' hl'
    rw [hself] at hl'
    cases hl'
    rw [hadm, hrpm]
    refine ⟨hclosing, ?_⟩
    split
    · rw [Window.since_cons (by omega)]
      exact ⟨Nat.succ_le_succ hsince, fun _ => Nat.succ_le_succ (Nat.zero_le _)⟩
    · exact ⟨Nat.le_succ_of_le hsince, hfirst⟩
  · intro hnone
    rw [hself] at hnone
    cases hnone

/-- A call of another address keeps the entry of this one, or erases it when its
window is over. -/
theorem step_loaded_other {s s' : Run} {c : Call} {ip : Str} {opened closing : Int}
    (hne : ip ≠ c.ip) (h : Loaded s ip opened closing) (hst : runs.step s c = some s') :
    Loaded s' ip opened closing := by
  have hadm := step_admitted hst ip
  rw [if_neg fun heq => hne heq.1.symm] at hadm
  have hrpm := step_maxRpm hst
  obtain ⟨h1, h2, hs'⟩ := step_cases hst
  have hclock : s'.clock = c.t.fresh := by rw [hs']
  have hins : (s.limiter.ipStates.insert c.ip (s.limiter.countRequest c.ip c.t)).lookup ip =
      s.limiter.ipStates.lookup ip := AList.lookup_insert_ne hne
  have hlimiter : s'.limiter = (s.limiter.checkRequest c.ord c.ip c.t).2 := by rw [hs']
  have hlookup : s'.limiter.ipStates.lookup ip = s.limiter.ipStates.lookup ip ∨
      s'.limiter.ipStates.lookup ip = none ∧
        ∃ st, s.limiter.ipStates.lookup ip = some st ∧ Stale c.t.now st := by
    rw [hlimiter, ← hins]
    exact checkRequest_lookup ip
  have hopened := h.opened_le
  constructor
  · rw [hadm, hrpm]
    exact h.batches
  · omega
  · intro st hl
    rw [hadm, hrpm]
    rcases hlookup with hsame | ⟨hgone, _⟩
    · exact h.entry st (hsame ▸ hl)
    · rw [hgone] at hl
      cases hl
  · intro hnone
    rcases hlookup with hsame | ⟨_, st, hl, hstale⟩
    · have := h.closed (hsame ▸ hnone)
      omega
    · have hclosing := (h.entry st hl).1
      simp only [Stale] at hstale
      omega

theorem reachable_loaded {s : Run} (h : runs.Reachable System.Any s) (ip : Str) :
    ∃ opened closing, Loaded s ip opened closing := by
  refine System.reachable_inv (I := fun s => ∃ opened closing, Loaded s ip opened closing) ?_ ?_ h
  · intro s hs
    have hadm : s.admitted ip = [] := by simp [Run.admitted, hs.2]
    refine ⟨s.clock - seconds 60, s.clock, ?_, ?_, ?_, fun _ => Int.le_refl _⟩
    · rw [hadm]
      exact .nil _ (by omega)
    · have : (0 : Int) < seconds 60 := by decide
      omega
    · intro st hl
      rw [hs.1] at hl
      cases hl
  · rintro s c s' ⟨opened, closing, hl⟩ _ hst
    by_cases hne : ip = c.ip
    · subst hne
      by_cases hopens : s.limiter.Opens c.ip c.t.now
      · exact ⟨_, step_loaded_opens hl hst hopens⟩
      · simp only [Opens, not_forall] at hopens
        obtain ⟨st, hst', hns⟩ := hopens
        exact ⟨_, _, step_loaded_open hl hst hst' hns⟩
    · exact ⟨_, _, step_loaded_other hne hl hst⟩

/-- In every run, 60 seconds hold less than twice the requests of a window. -/
theorem reachable_load {s : Run} (h : runs.Reachable System.Any s) (ip : Str) (a : Int) :
    Window.within (seconds 60) (s.admitted ip) a ≤ 2 * s.limiter.maxRpm - 1 := by
  obtain ⟨_, _, hl⟩ := reachable_loaded h ip
  exact hl.batches.within_le a

/-! ## The bound is reached -/

/-- The requests that an open window has room for can all be made now, and count
in it. -/
theorem fill {ip : Str} {w : Int} : ∀ (n r : Nat) {s : Run},
    s.limiter.ipStates.lookup ip = some ⟨r, w⟩ → ¬ Stale s.clock ⟨r, w⟩ →
    r + n ≤ s.limiter.maxRpm →
    ∃ s', runs.Reaches System.Any s s' ∧ s'.clock = s.clock ∧
      s'.limiter.maxRpm = s.limiter.maxRpm ∧
      s'.admitted ip = List.replicate n s.clock ++ s.admitted ip ∧
      s'.limiter.ipStates.lookup ip = some ⟨r + n, w⟩
  | 0, r, s, hl, _, _ => ⟨s, .refl s, rfl, rfl, rfl, hl⟩
  | n + 1, r, s, hl, hns, hroom => by
    have hcount := countRequest_open (t := ⟨s.clock, s.clock⟩) hl hns
    obtain ⟨u, hsu, hclock, hrpm, hadm, hself⟩ := allowed_step (s := s) (Int.le_refl _)
      (by rw [hcount]; dsimp only; omega)
    rw [hcount] at hself
    obtain ⟨s', hus', hclock', hrpm', hadm', hl'⟩ :=
      fill n (r + 1) hself (by rw [hclock]; exact hns) (by omega)
    refine ⟨s', hsu.trans hus', hclock'.trans hclock, hrpm'.trans hrpm, ?_, ?_⟩
    · rw [hadm', hadm, hclock, List.replicate_succ', List.append_assoc]
      rfl
    · rw [hl', Nat.add_right_comm, Nat.add_assoc]

/-- A window can be opened by its first request and filled at once. -/
theorem fill_window {s : Run} {ip : Str} {now : Int} (hnow : s.clock ≤ now)
    (hopens : s.limiter.Opens ip now) (hrpm : 1 ≤ s.limiter.maxRpm) :
    ∃ s', runs.Reaches System.Any s s' ∧ s'.limiter.maxRpm = s.limiter.maxRpm ∧
      s'.admitted ip = List.replicate s.limiter.maxRpm now ++ s.admitted ip := by
  obtain ⟨w, hw, hle⟩ := countRequest_opens (t := ⟨now, now⟩) (Int.le_refl _) hopens
  obtain ⟨u, hsu, hclock, hrpm', hadm, hself⟩ := allowed_step hnow (by rw [hw]; exact hrpm)
  rw [hw] at hself
  have hns : ¬ Stale u.clock ⟨1, w⟩ := by
    have : (0 : Int) < seconds 60 := by decide
    simp only [Stale]
    change now ≤ w at hle
    omega
  obtain ⟨s', hus', _, hrpm'', hadm', _⟩ := fill (s.limiter.maxRpm - 1) 1 hself hns (by omega)
  refine ⟨s', hsu.trans hus', hrpm''.trans hrpm', ?_⟩
  obtain ⟨n, hn⟩ : ∃ n, s.limiter.maxRpm = n + 1 := ⟨s.limiter.maxRpm - 1, by omega⟩
  rw [hadm', hadm, hclock, hn, Nat.add_sub_cancel, List.replicate_succ', List.append_assoc]
  rfl

/-- One request at the start, all others of its window a second before its end,
and a whole window right after it. -/
theorem load_reached (maxRpm : Nat) (h : 1 ≤ maxRpm) (ip : Str) :
    ∃ s, runs.Reachable System.Any s ∧ s.limiter.maxRpm = maxRpm ∧
      ∃ a, Window.within (seconds 60) (s.admitted ip) a = 2 * maxRpm - 1 := by
  let s₀ : Run := ⟨{ maxRpm := maxRpm }, 0, []⟩
  have hinit : runs.Reachable System.Any s₀ := .init ⟨rfl, rfl⟩
  have hcount : s₀.limiter.countRequest ip ⟨0, 0⟩ = ⟨1, 0⟩ := rfl
  have hroom : (s₀.limiter.countRequest ip ⟨0, 0⟩).requests ≤ maxRpm := by
    rw [hcount]
    exact h
  obtain ⟨s₁, h₁, hclock₁, hrpm₁, hadm₁, hl₁⟩ := allowed_step (Int.le_refl 0) hroom
  rw [hcount] at hl₁
  obtain _ | _ | m := maxRpm
  · omega
  · refine ⟨s₁, hinit.trans h₁, hrpm₁, 0, ?_⟩
    rw [hadm₁]
    rfl
  · have hmax : s₀.limiter.maxRpm = m + 2 := rfl
    have hlate : ¬ Stale (seconds 59) ⟨1, 0⟩ := by decide
    have hcount₂ := countRequest_open (t := ⟨seconds 59, seconds 59⟩) hl₁ hlate
    have hroom₂ : (s₁.limiter.countRequest ip ⟨seconds 59, seconds 59⟩).requests ≤
        s₁.limiter.maxRpm := by
      rw [hcount₂, hrpm₁]
      exact Nat.le_add_left 2 m
    obtain ⟨s₂, h₂, hclock₂, hrpm₂, hadm₂, hl₂⟩ :=
      allowed_step (by rw [hclock₁]; decide) hroom₂
    rw [hcount₂] at hl₂
    obtain ⟨s₃, h₃, hclock₃, hrpm₃, hadm₃, hl₃⟩ := fill m 2 hl₂
      (by rw [hclock₂]; exact hlate) (by omega)
    have hover : s₃.limiter.Opens ip (seconds 60) := by
      intro st hl
      rw [hl₃] at hl
      cases hl
      exact Int.le_refl _
    obtain ⟨s₄, h₄, hrpm₄, hadm₄⟩ :=
      fill_window (by rw [hclock₃, hclock₂]; decide) hover (by rw [hrpm₃, hrpm₂, hrpm₁]; exact h)
    have hrpm : s₃.limiter.maxRpm = m + 2 := by rw [hrpm₃, hrpm₂, hrpm₁]
    refine ⟨s₄, (((hinit.trans h₁).trans h₂).trans h₃).trans h₄, hrpm₄.trans hrpm, seconds 59, ?_⟩
    have hin60 : decide (seconds 59 ≤ seconds 60 ∧ seconds 60 < seconds 59 + seconds 60) = true :=
      by decide
    have hin59 : decide (seconds 59 ≤ seconds 59 ∧ seconds 59 < seconds 59 + seconds 60) = true :=
      by decide
    have hout : decide (seconds 59 ≤ 0 ∧ 0 < seconds 59 + seconds 60) = false := by decide
    have hadm₀ : s₀.admitted ip = [] := rfl
    rw [hadm₄, hadm₃, hadm₂, hadm₁, hadm₀, hclock₂, hrpm]
    simp only [Window.within, List.countP_append, List.countP_replicate, List.countP_cons,
      List.countP_nil, hin60, hin59, hout, if_true]
    simp only [Bool.false_eq_true, if_false]
    omega

/-- **The load of an address.** In every run, no 60 seconds hold more than
`2 * max_rpm - 1` admitted requests of an address, and for every limit and
address some run reaches that number. -/
theorem load_exact :
    (∀ s, runs.Reachable System.Any s → ∀ ip a,
      Window.within (seconds 60) (s.admitted ip) a ≤ 2 * s.limiter.maxRpm - 1) ∧
    ∀ maxRpm, 1 ≤ maxRpm → ∀ ip, ∃ s, runs.Reachable System.Any s ∧
      s.limiter.maxRpm = maxRpm ∧
      ∃ a, Window.within (seconds 60) (s.admitted ip) a = 2 * maxRpm - 1 :=
  ⟨fun _ h ip a => reachable_load h ip a, fun maxRpm h ip => load_reached maxRpm h ip⟩

/-! ## Rejections -/

/-- How many calls of an address in a run returned at `since` or later. -/
def returnedSince (moments : List (Run × Call)) (ip : Str) (since : Int) : Nat :=
  moments.countP fun m => decide (m.2.ip = ip ∧ since ≤ m.2.t.fresh)

theorem returnedSince_mono {moments : List (Run × Call)} {ip : Str} {a b : Int} (h : a ≤ b) :
    returnedSince moments ip b ≤ returnedSince moments ip a := by
  unfold returnedSince
  apply List.countP_mono_left
  intro m _ hm
  simp only [decide_eq_true_eq] at hm ⊢
  exact ⟨hm.1, Int.le_trans h hm.2⟩

theorem returnedSince_append (moments : List (Run × Call)) (s : Run) (c : Call) (ip : Str)
    (since : Int) : returnedSince (moments ++ [(s, c)]) ip since =
      returnedSince moments ip since + if c.ip = ip ∧ since ≤ c.t.fresh then 1 else 0 := by
  simp only [returnedSince, List.countP_append, List.countP_singleton, decide_eq_true_eq]

/-- Every request that an entry counts is a call that returned since its window
opened. -/
def Counted (moments : List (Run × Call)) (s : Run) : Prop :=
  ∀ ip st, s.limiter.ipStates.lookup ip = some st →
    st.windowStart ≤ s.clock ∧ st.requests ≤ returnedSince moments ip st.windowStart

theorem step_counted {moments : List (Run × Call)} {s s' : Run} {c : Call} (h : Counted moments s)
    (hst : runs.step s c = some s') : Counted (moments ++ [(s, c)]) s' := by
  obtain ⟨h1, h2, rfl⟩ := step_cases hst
  intro ip st hl
  rw [returnedSince_append]
  have hstarts : ∀ k st, s.limiter.ipStates.lookup k = some st → st.windowStart ≤ c.t.fresh :=
    fun k st hk => by
      have := (h k st hk).1
      omega
  by_cases hne : ip = c.ip
  · subst hne
    rw [checkRequest_self h2] at hl
    cases hl
    have hstart := countRequest_start h2 (hstarts c.ip)
    refine ⟨hstart, ?_⟩
    rw [if_pos ⟨rfl, hstart⟩]
    by_cases hopens : s.limiter.Opens c.ip c.t.now
    · obtain ⟨w, hw, _⟩ := countRequest_opens h2 hopens
      rw [hw]
      exact Nat.le_add_left ..
    · simp only [Opens, not_forall] at hopens
      obtain ⟨st, hst', hns⟩ := hopens
      rw [countRequest_open hst' hns]
      exact Nat.succ_le_succ (h c.ip st hst').2
  · have hkept : (s.limiter.checkRequest c.ord c.ip c.t).2.ipStates.lookup ip =
        s.limiter.ipStates.lookup ip ∨
        (s.limiter.checkRequest c.ord c.ip c.t).2.ipStates.lookup ip = none :=
      checkRequest_other hne
    rcases hkept with hsame | hgone
    · rw [hsame] at hl
      have hcount := (h ip st hl).2
      exact ⟨hstarts ip st hl, by omega⟩
    · rw [hgone] at hl
      cases hl

theorem history_counted {moments : List (Run × Call)} {s : Run}
    (h : runs.History System.Any moments s) : Counted moments s := by
  refine System.history_inv (I := Counted) ?_ (fun _ _ _ _ _ hi _ hst => step_counted hi hst) h
  intro s hs ip st hl
  rw [hs.1] at hl
  cases hl

/-- When a request is rejected, its address has been busy. -/
theorem Counted.rejected {moments : List (Run × Call)} {s : Run} (h : Counted moments s) {ip : Str}
    {t : Readings} (ht : t.now ≤ t.fresh) (ord : IterOrder Str IpState)
    (hreject : (s.limiter.checkRequest ord ip t).1 ≠ 0) :
    s.limiter.maxRpm ≤ returnedSince moments ip (t.now - seconds 60 + 1) := by
  by_cases hrpm : 1 ≤ s.limiter.maxRpm
  · obtain ⟨st, hl, hns, hover, _⟩ := checkRequest_rejected ht hrpm hreject
    have hcount := (h ip st hl).2
    simp only [Stale, not_le] at hns
    have hstart : t.now - seconds 60 + 1 ≤ st.windowStart := by omega
    exact Nat.le_trans (by omega) (Nat.le_trans hcount (returnedSince_mono hstart))
  · omega

/-- **Rejections.** When a request is rejected, at least `max_rpm` earlier calls
of the same address returned less than 60 seconds before, whatever other
addresses do and whatever a purge erases. -/
theorem rejected_busy {moments : List (Run × Call)} {s s' : Run} {c : Call}
    (h : runs.History System.Any moments s) (hst : runs.step s c = some s')
    (hreject : (s.limiter.checkRequest c.ord c.ip c.t).1 ≠ 0) :
    s.limiter.maxRpm ≤ returnedSince moments c.ip (c.t.now - seconds 60 + 1) :=
  (history_counted h).rejected (step_cases hst).2.1 c.ord hreject

/-- The third request in a minute, after two that were allowed. -/
theorem rejected_busy_two :
    2 ≤ returnedSince (runs.moments exTwoRpm [exCall (utf8 "a") 0, exCall (utf8 "a") 1])
      (utf8 "a") (2 - seconds 60 + 1) := by
  obtain ⟨s, hrun, hreaches⟩ :=
    System.exists_reaches (S := runs) (G := System.Any) (s := exTwoRpm)
      [exCall (utf8 "a") 0, exCall (utf8 "a") 1] (by decide)
  have hhistory : runs.History System.Any _ s := ⟨exTwoRpm, ⟨rfl, rfl⟩, System.runs_of_run _ hrun⟩
  cases hrun
  exact rejected_busy (c := exCall (utf8 "a") 2) hhistory (step_of (by decide) (by decide))
    (by decide)

end RequestRateLimiter
end VoxtralServer
