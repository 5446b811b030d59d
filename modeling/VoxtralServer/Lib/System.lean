import Mathlib.Logic.Function.Basic

/-!
# Guarded transition systems

A system is a set of initial states and a partial step function: `step s a` is
`some s'` when the action `a` is enabled in `s` and leads to `s'`.

A run is followed through a guard `G`, a condition on a state and the action
taken in it. With the guard `Any` every run is followed. With another guard
only the runs whose steps all meet it are.

* `reaches_inv`, `reachable_inv`: the invariant rule for guarded runs.
* `reachable_map`, `reachable_map_of`: a map that sends steps to steps or to no step
  at all sends reachable states to reachable states.
* `history_inv`: the invariant rule for runs with their moments, the actions taken
  and the states in which they were.
* `reaches_goal`: a measure that some enabled step always lowers leads to the
  goal.
* `run`, `reaches_of_run`, `exists_reachable`: the executable form, for concrete
  runs.
-/

/-- A set of initial states and a partial step function. -/
structure System (σ α : Type) where
  init : σ → Prop
  step : σ → α → Option σ

namespace System

variable {σ α τ β : Type}

/-- The guard that every step meets. -/
def Any : σ → α → Prop := fun _ _ => True

/-- `S.Reaches G s s'`: some steps, each meeting `G` in the state where it is
taken, lead from `s` to `s'`. -/
inductive Reaches (S : System σ α) (G : σ → α → Prop) : σ → σ → Prop
  | refl (s : σ) : Reaches S G s s
  | step {s t u : σ} {a : α} :
      Reaches S G s t → G t a → S.step t a = some u → Reaches S G s u

/-- `S.Reachable G s`: a run from an initial state whose steps all meet `G`
ends in `s`. -/
def Reachable (S : System σ α) (G : σ → α → Prop) (s : σ) : Prop :=
  ∃ s₀, S.init s₀ ∧ S.Reaches G s₀ s

variable {S : System σ α} {G H : σ → α → Prop}

theorem Reaches.one {s t : σ} {a : α} (hg : G s a) (h : S.step s a = some t) :
    S.Reaches G s t :=
  .step (.refl s) hg h

theorem Reaches.trans {s t u : σ} (h₁ : S.Reaches G s t) (h₂ : S.Reaches G t u) :
    S.Reaches G s u := by
  induction h₂ with
  | refl => exact h₁
  | step _ hg hs ih => exact .step ih hg hs

theorem Reaches.mono {s t : σ} (hGH : ∀ s a, G s a → H s a) (h : S.Reaches G s t) :
    S.Reaches H s t := by
  induction h with
  | refl => exact .refl _
  | step _ hg hs ih => exact .step ih (hGH _ _ hg) hs

/-- A run to a state with a property that no step brings about has it all along. -/
theorem Reaches.restrict {P : σ → Prop}
    (hback : ∀ s a t, S.step s a = some t → P t → P s) {s t : σ} (h : S.Reaches G s t)
    (ht : P t) : S.Reaches (fun s a => G s a ∧ ∃ u, S.step s a = some u ∧ P u) s t := by
  induction h with
  | refl => exact .refl _
  | step _ hg hs ih => exact .step (ih (hback _ _ _ hs ht)) ⟨hg, _, hs, ht⟩ hs

theorem Reachable.mono {s : σ} (hGH : ∀ s a, G s a → H s a) (h : S.Reachable G s) :
    S.Reachable H s :=
  let ⟨s₀, h₀, hr⟩ := h
  ⟨s₀, h₀, hr.mono hGH⟩

/-- A guarded run is a run. -/
theorem Reachable.any {s : σ} (h : S.Reachable G s) : S.Reachable Any s :=
  h.mono fun _ _ _ => trivial

theorem Reachable.init {s : σ} (h : S.init s) : S.Reachable G s :=
  ⟨s, h, .refl s⟩

theorem Reachable.trans {s t : σ} (hs : S.Reachable G s) (h : S.Reaches G s t) :
    S.Reachable G t :=
  let ⟨s₀, h₀, hr⟩ := hs
  ⟨s₀, h₀, hr.trans h⟩

theorem Reachable.step {s t : σ} {a : α} (hs : S.Reachable G s) (hg : G s a)
    (h : S.step s a = some t) : S.Reachable G t :=
  hs.trans (.one hg h)

/-! ## Invariants -/

/-- What every step that meets the guard preserves, a run preserves. -/
theorem reaches_inv {I : σ → Prop}
    (hstep : ∀ s a t, I s → G s a → S.step s a = some t → I t)
    {s t : σ} (h : S.Reaches G s t) (hs : I s) : I t := by
  induction h with
  | refl => exact hs
  | step _ hg hst ih => exact hstep _ _ _ ih hg hst

/-- What holds initially and every step that meets the guard preserves, holds
in every state that a guarded run reaches. -/
theorem reachable_inv {I : σ → Prop} (hinit : ∀ s, S.init s → I s)
    (hstep : ∀ s a t, I s → G s a → S.step s a = some t → I t)
    {s : σ} (h : S.Reachable G s) : I s :=
  let ⟨s₀, h₀, hr⟩ := h
  reaches_inv hstep hr (hinit s₀ h₀)

/-- The step of an invariant proof may use that the state it starts from is
reachable. -/
theorem reachable_inv_of {I : σ → Prop} (hinit : ∀ s, S.init s → I s)
    (hstep : ∀ s a t, S.Reachable G s → I s → G s a → S.step s a = some t → I t)
    {s : σ} (h : S.Reachable G s) : I s := by
  refine (reachable_inv (I := fun s => S.Reachable G s ∧ I s) ?_ ?_ h).2
  · intro s hs
    exact ⟨.init hs, hinit s hs⟩
  · rintro s a t ⟨hr, hi⟩ hg hst
    exact ⟨hr.step hg hst, hstep s a t hr hi hg hst⟩

/-! ## Runs with their moments -/

/-- `S.Runs G s moments t`: a run from `s` to `t`. Its moments are the actions
taken, each with the state in which it was taken. -/
inductive Runs (S : System σ α) (G : σ → α → Prop) (s : σ) : List (σ × α) → σ → Prop
  | refl : Runs S G s [] s
  | step {moments : List (σ × α)} {t u : σ} {a : α} : Runs S G s moments t → G t a →
      S.step t a = some u → Runs S G s (moments ++ [(t, a)]) u

theorem Runs.reaches {moments : List (σ × α)} {s t : σ} (h : S.Runs G s moments t) :
    S.Reaches G s t := by
  induction h with
  | refl => exact .refl s
  | step _ hg hst ih => exact .step ih hg hst

theorem Runs.mono {moments : List (σ × α)} {s t : σ} (hGH : ∀ s a, G s a → H s a)
    (h : S.Runs G s moments t) : S.Runs H s moments t := by
  induction h with
  | refl => exact .refl
  | step _ hg hst ih => exact .step ih (hGH _ _ hg) hst

theorem Runs.append {moments later : List (σ × α)} {s t u : σ} (h : S.Runs G s moments t)
    (hlater : S.Runs G t later u) : S.Runs G s (moments ++ later) u := by
  induction hlater with
  | refl => rwa [List.append_nil]
  | step _ hg hst ih =>
    rw [← List.append_assoc]
    exact .step ih hg hst

/-- A run from an initial state. -/
def History (S : System σ α) (G : σ → α → Prop) (moments : List (σ × α)) (s : σ) : Prop :=
  ∃ s₀, S.init s₀ ∧ S.Runs G s₀ moments s

theorem Reaches.runs {s t : σ} (h : S.Reaches G s t) : ∃ moments, S.Runs G s moments t := by
  induction h with
  | refl => exact ⟨[], .refl⟩
  | step _ hg hst ih =>
    obtain ⟨moments, hruns⟩ := ih
    exact ⟨_, .step hruns hg hst⟩

/-- Every reachable state has a run that leads to it. -/
theorem Reachable.history {s : σ} (h : S.Reachable G s) : ∃ moments, S.History G moments s :=
  let ⟨s₀, h₀, hr⟩ := h
  let ⟨moments, hruns⟩ := hr.runs
  ⟨moments, s₀, h₀, hruns⟩

theorem History.reachable {moments : List (σ × α)} {s : σ} (h : S.History G moments s) :
    S.Reachable G s :=
  let ⟨s₀, h₀, hr⟩ := h
  ⟨s₀, h₀, hr.reaches⟩

theorem History.step {moments : List (σ × α)} {s t : σ} {a : α} (h : S.History G moments s)
    (hg : G s a) (hst : S.step s a = some t) : S.History G (moments ++ [(s, a)]) t :=
  let ⟨s₀, h₀, hr⟩ := h
  ⟨s₀, h₀, hr.step hg hst⟩

theorem History.any {moments : List (σ × α)} {s : σ} (h : S.History G moments s) :
    S.History Any moments s :=
  let ⟨s₀, h₀, hr⟩ := h
  ⟨s₀, h₀, hr.mono fun _ _ _ => trivial⟩

/-- Every moment of a run is a step that meets the guard, from a reachable state. -/
theorem History.moment {moments : List (σ × α)} {s t : σ} {a : α} (h : S.History G moments s)
    (hmem : (t, a) ∈ moments) : S.Reachable G t ∧ G t a ∧ ∃ u, S.step t a = some u := by
  obtain ⟨s₀, h₀, hr⟩ := h
  induction hr with
  | refl => cases hmem
  | step hr hg hst ih =>
    rcases List.mem_append.mp hmem with hmem | hmem
    · exact ih hmem
    · cases List.mem_singleton.mp hmem
      exact ⟨⟨s₀, h₀, hr.reaches⟩, hg, _, hst⟩

/-- An invariant of the state and of the moments that led to it. -/
theorem history_inv {I : List (σ × α) → σ → Prop} (hinit : ∀ s, S.init s → I [] s)
    (hstep : ∀ moments s a t, S.Reachable G s → I moments s → G s a → S.step s a = some t →
      I (moments ++ [(s, a)]) t)
    {moments : List (σ × α)} {s : σ} (h : S.History G moments s) : I moments s := by
  obtain ⟨s₀, h₀, hr⟩ := h
  induction hr with
  | refl => exact hinit s₀ h₀
  | step hr hg hst ih => exact hstep _ _ _ _ ⟨s₀, h₀, hr.reaches⟩ ih hg hst

/-! ## Refinement -/

/-- `f` maps every step of `S` from a reachable state to a step of `T` or to no
step. -/
def Refines (S : System σ α) (T : System τ β) (f : σ → τ) : Prop :=
  (∀ s, S.init s → T.init (f s)) ∧
  ∀ s a t, S.Reachable Any s → S.step s a = some t →
    f t = f s ∨ ∃ b, T.step (f s) b = some (f t)

/-- A map whose steps meet the guard of `T` sends guarded runs to guarded runs. -/
theorem reachable_map_of {T : System τ β} {K : τ → β → Prop} {f : σ → τ}
    (hinit : ∀ s, S.init s → T.init (f s))
    (hstep : ∀ s a t, S.Reachable G s → G s a → S.step s a = some t →
      f t = f s ∨ ∃ b, K (f s) b ∧ T.step (f s) b = some (f t)) {s : σ}
    (h : S.Reachable G s) : T.Reachable K (f s) := by
  refine reachable_inv_of (I := fun s => T.Reachable K (f s)) ?_ ?_ h
  · intro s hs
    exact .init (hinit s hs)
  · intro s a t hr hi hg hst
    rcases hstep s a t hr hg hst with heq | ⟨b, hb, htb⟩
    · rw [heq]
      exact hi
    · exact hi.step hb htb

/-- A refinement map sends reachable states to reachable states, so every
invariant of `T` is one of `S`. -/
theorem reachable_map {T : System τ β} {f : σ → τ} (href : Refines S T f) {s : σ}
    (h : S.Reachable Any s) : T.Reachable Any (f s) :=
  reachable_map_of href.1 (fun s a t hr _ hst =>
    (href.2 s a t hr hst).imp_right fun ⟨b, hb⟩ => ⟨b, trivial, hb⟩) h

/-! ## Progress -/

/-- When, from every state of `I` that misses the goal, some enabled step that
meets the guard stays in `I` and lowers the measure, a run leads to the goal. -/
theorem reaches_goal {I goal : σ → Prop} (μ : σ → Nat)
    (hstep : ∀ s, I s → ¬ goal s → ∃ a t, G s a ∧ S.step s a = some t ∧ I t ∧ μ t < μ s) {s : σ}
    (hs : I s) : ∃ t, S.Reaches G s t ∧ goal t := by
  induction hn : μ s using Nat.strongRecOn generalizing s with
  | ind n ih =>
    by_cases hg : goal s
    · exact ⟨s, .refl s, hg⟩
    · obtain ⟨a, t, hga, hst, hit, hlt⟩ := hstep s hs hg
      obtain ⟨u, htu, hu⟩ := ih (μ t) (hn ▸ hlt) hit rfl
      exact ⟨u, (Reaches.one hga hst).trans htu, hu⟩

/-! ## Concrete runs -/

instance (s : σ) (a : α) : Decidable (Any s a) := .isTrue trivial

/-- Takes the actions in order; `none` when one of them is not enabled or does
not meet the guard. -/
def run (S : System σ α) (G : σ → α → Prop) [∀ s a, Decidable (G s a)] : σ → List α → Option σ
  | s, [] => some s
  | s, a :: as => if G s a then (S.step s a).bind fun t => S.run G t as else none

/-- The moments when the actions are taken in order. -/
def moments (S : System σ α) : σ → List α → List (σ × α)
  | _, [] => []
  | s, a :: as => (s, a) :: ((S.step s a).map fun t => S.moments t as).getD []

theorem runs_of_run [∀ s a, Decidable (G s a)] : ∀ (as : List α) {s t : σ},
    S.run G s as = some t → S.Runs G s (S.moments s as) t
  | [], s, t, h => by
    cases h
    exact .refl
  | a :: as, s, t, h => by
    simp only [run] at h
    split at h
    · next hg =>
      rw [Option.bind_eq_some_iff] at h
      obtain ⟨u, hu, ht⟩ := h
      have hmoments : S.moments s (a :: as) = [(s, a)] ++ S.moments u as := by
        simp only [moments, hu, Option.map_some, Option.getD_some, List.singleton_append]
      rw [hmoments]
      exact (Runs.step .refl hg hu).append (runs_of_run as ht)
    · cases h

theorem reaches_of_run [∀ s a, Decidable (G s a)] (as : List α) {s t : σ}
    (h : S.run G s as = some t) : S.Reaches G s t :=
  (runs_of_run as h).reaches

theorem reachable_of_run [∀ s a, Decidable (G s a)] (as : List α) {s t : σ} (hs : S.init s)
    (h : S.run G s as = some t) : S.Reachable G t :=
  ⟨s, hs, reaches_of_run as h⟩

/-- Actions that can be taken in order lead to a state. -/
theorem exists_reaches [∀ s a, Decidable (G s a)] (as : List α) {s : σ}
    (h : (S.run G s as).isSome = true) : ∃ t, S.run G s as = some t ∧ S.Reaches G s t := by
  obtain ⟨t, ht⟩ := Option.isSome_iff_exists.mp h
  exact ⟨t, ht, reaches_of_run as ht⟩

theorem exists_reachable [∀ s a, Decidable (G s a)] (as : List α) {s : σ} (hs : S.init s)
    (h : (S.run G s as).isSome = true) : ∃ t, S.run G s as = some t ∧ S.Reachable G t := by
  obtain ⟨t, ht, hreaches⟩ := exists_reaches as h
  exact ⟨t, ht, s, hs, hreaches⟩

end System
