import Mathlib.Data.List.Induction
import Mathlib.Tactic.Common

/-!
# Partial transition systems with labelled steps

A system is given by an executable step function `step : σ → α → Option σ`: `step s a` is the
state after action `a`, or `none` when `a` is not enabled in `s`. A *guard* `G : σ → α → Prop`
restricts the runs that are considered: `Reaches step G s t` says that `t` is reached from `s`
by enabled actions each of which meets the guard in the state it is taken in.
-/

namespace Transition

variable {σ α : Type*} {step : σ → α → Option σ} {G G' : σ → α → Prop} {s t u : σ}

/-- Execute a list of actions, failing at the first one that is not enabled. -/
def run (step : σ → α → Option σ) (s : σ) : List α → Option σ
  | [] => some s
  | a :: as => (step s a).bind fun t => run step t as

@[simp] lemma run_nil : run step s [] = some s := rfl

@[simp] lemma run_cons (a : α) (as : List α) :
    run step s (a :: as) = (step s a).bind fun t => run step t as := rfl

lemma run_concat (as : List α) (a : α) :
    run step s (as ++ [a]) = (run step s as).bind fun t => step t a := by
  induction as generalizing s with
  | nil => simp
  | cons b as ih =>
    rw [List.cons_append, run_cons, run_cons, Option.bind_assoc]
    exact congrArg _ (funext fun t => ih)

/-- In the run of `as` an action was taken with `P`. -/
def Happened (step : σ → α → Option σ) (P : σ → α → Prop) (s : σ) (as : List α) : Prop :=
  ∃ before a after t, as = before ++ a :: after ∧ run step s before = some t ∧ P t a

/-- What happened stays. -/
lemma Happened.concat {P : σ → α → Prop} {as : List α} (h : Happened step P s as) (a : α) :
    Happened step P s (as ++ [a]) := by
  obtain ⟨before, b, after, t, rfl, ht, hP⟩ := h
  exact ⟨before, b, after ++ [a], t, by simp, ht, hP⟩

lemma Happened.last {P : σ → α → Prop} {as : List α} {a : α} (h : run step s as = some t)
    (hP : P t a) : Happened step P s (as ++ [a]) :=
  ⟨as, a, [], t, rfl, h, hP⟩

/-- The invariant rule for runs, where the invariant may speak of the actions taken. -/
theorem invariant_of_run {I : List α → σ → Prop} {as : List α} (h : run step s as = some t)
    (h₀ : I [] s)
    (hstep : ∀ as t a u, run step s as = some t → I as t → step t a = some u → I (as ++ [a]) u) :
    I as t := by
  induction as using List.reverseRecOn generalizing t with
  | nil =>
    obtain rfl := Option.some.inj h
    exact h₀
  | append_singleton as a ih =>
    rw [run_concat] at h
    obtain ⟨r, hr, hs⟩ := Option.bind_eq_some_iff.mp h
    exact hstep as r a t hr (ih hr) hs

/-- Reachability through steps that meet the guard `G`. -/
inductive Reaches (step : σ → α → Option σ) (G : σ → α → Prop) (s : σ) : σ → Prop where
  | refl : Reaches step G s s
  | next {t u : σ} {a : α} (h : Reaches step G s t) (hG : G t a) (hs : step t a = some u) :
      Reaches step G s u

namespace Reaches

lemma single {a : α} (hG : G s a) (hs : step s a = some t) : Reaches step G s t :=
  .next .refl hG hs

lemma trans (h : Reaches step G s t) (h' : Reaches step G t u) : Reaches step G s u := by
  induction h' with
  | refl => exact h
  | next _ hG hs ih => exact .next ih hG hs

/-- A weaker guard admits more runs. -/
lemma mono (hG : ∀ t a, G t a → G' t a) (h : Reaches step G s t) : Reaches step G' s t := by
  induction h with
  | refl => exact .refl
  | next _ hg hs ih => exact .next ih (hG _ _ hg) hs

/-- The invariant rule: what holds initially and is kept by every guarded step holds in every
state reached. -/
theorem invariant {I : σ → Prop} (h : Reaches step G s t) (h₀ : I s)
    (hstep : ∀ t a u, I t → G t a → step t a = some u → I u) : I t := by
  induction h with
  | refl => exact h₀
  | next _ hG hs ih => exact hstep _ _ _ ih hG hs

end Reaches

section Guarded

variable [∀ s a, Decidable (G s a)]

/-- Execute a list of actions, failing at the first one that is not enabled or that violates
the guard. -/
def guardedRun (step : σ → α → Option σ) (G : σ → α → Prop) [∀ s a, Decidable (G s a)]
    (s : σ) : List α → Option σ
  | [] => some s
  | a :: as => if G s a then (step s a).bind fun t => guardedRun step G t as else none

lemma reaches_of_guardedRun {as : List α} (h : guardedRun step G s as = some t) :
    Reaches step G s t := by
  induction as generalizing s with
  | nil =>
    simp only [guardedRun, Option.some.injEq] at h
    exact h ▸ .refl
  | cons a as ih =>
    simp only [guardedRun] at h
    split_ifs at h with hG
    obtain ⟨r, hr, hrun⟩ := Option.bind_eq_some_iff.mp h
    exact (Reaches.single hG hr).trans (ih hrun)

/-- A state with a decidable property is reached by executing `as`. -/
lemma exists_reaches_of_guardedRun (step : σ → α → Option σ) (G : σ → α → Prop)
    [∀ s a, Decidable (G s a)] (s : σ) (as : List α) (p : σ → Bool)
    (h : (guardedRun step G s as).any p = true) : ∃ t, Reaches step G s t ∧ p t = true := by
  obtain ⟨t, ht, hp⟩ := (Option.any_eq_true _ _).mp h
  exact ⟨t, reaches_of_guardedRun ht, hp⟩

end Guarded

end Transition
