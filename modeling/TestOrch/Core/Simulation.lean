import TestOrch.Core.Effect
import TestOrch.Core.Transition

/-!
# Programs that a transition system follows

A program that runs without interruption and a transition system that cuts it into steps describe
the same thing where a run of the system can be laid beside every run of the program. A *match*
`R s m` says that the state `m` of the system shows what the state `s` of the program shows.
`Eff.Sim step G R P x Q E` says that from a matching state with `P` the system has a run, through
steps that meet the guard `G`, to a state that matches what `x` leaves, with `Q a` if `x` returned
`a` and with `E e` if it raised `e`. The rules take a program apart along its structure; the rules
about `Moves` let the system go on where the program stands still.
-/

universe u

open Transition

namespace Eff

variable {σ ε μ act : Type*} {α β : Type u}

/-- The system follows the program `x` from `P`. -/
def Sim (step : μ → act → Option μ) (G : μ → act → Prop) (R : σ → μ → Prop) (P : μ → Prop)
    (x : Eff σ ε α) (Q : α → μ → Prop) (E : ε → μ → Prop) : Prop :=
  ∀ s m, R s m → P m → ∃ m', Reaches step G m m' ∧ R (x s).2 m' ∧
    match (x s).1 with
    | .ok a => Q a m'
    | .error e => E e m'

/-- The system gets from `P` to `Q` and still matches whatever it matched. -/
def Moves (step : μ → act → Option μ) (G : μ → act → Prop) (R : σ → μ → Prop)
    (P Q : μ → Prop) : Prop :=
  ∀ m, P m → ∃ m', Reaches step G m m' ∧ (∀ s, R s m → R s m') ∧ Q m'

variable {step : μ → act → Option μ} {G : μ → act → Prop} {R : σ → μ → Prop}

section Moves

variable {P Q Q' : μ → Prop}

lemma Moves.of_imp (h : ∀ m, P m → Q m) : Moves step G R P Q :=
  fun m hm => ⟨m, .refl, fun _ hR => hR, h m hm⟩

lemma Moves.trans (h : Moves step G R P Q) (h' : Moves step G R Q Q') : Moves step G R P Q' := by
  intro m hm
  obtain ⟨m₁, hreach, hkeep, hQ⟩ := h m hm
  obtain ⟨m₂, hreach', hkeep', hQ'⟩ := h' m₁ hQ
  exact ⟨m₂, hreach.trans hreach', fun s hR => hkeep' s (hkeep s hR), hQ'⟩

/-- The system takes one step. -/
lemma Moves.single (h : ∀ m, P m → ∃ a m', G m a ∧ step m a = some m' ∧
    (∀ s, R s m → R s m') ∧ Q m') : Moves step G R P Q := by
  intro m hm
  obtain ⟨a, m', hG, hstep, hkeep, hQ⟩ := h m hm
  exact ⟨m', .single hG hstep, hkeep, hQ⟩

end Moves

namespace Sim

variable {P P' : μ → Prop} {Q Q' : α → μ → Prop} {T : β → μ → Prop} {E E' F : ε → μ → Prop}
  {x : Eff σ ε α}

/-- The system moves before the program starts. -/
lemma before (hm : Moves step G R P' P) (hx : Sim step G R P x Q E) : Sim step G R P' x Q E := by
  intro s m hR hP
  obtain ⟨m₁, hreach, hkeep, hP₁⟩ := hm m hP
  obtain ⟨m₂, hreach', hR₂, hend⟩ := hx s m₁ (hkeep s hR) hP₁
  exact ⟨m₂, hreach.trans hreach', hR₂, hend⟩

/-- The system moves once the program has ended. -/
lemma after (hx : Sim step G R P x Q E) (hQ : ∀ a, Moves step G R (Q a) (Q' a))
    (hE : ∀ e, Moves step G R (E e) (E' e)) : Sim step G R P x Q' E' := by
  intro s m hR hP
  obtain ⟨m₁, hreach, hR₁, hend⟩ := hx s m hR hP
  cases hxs : (x s).1 with
  | error e =>
    rw [hxs] at hend
    obtain ⟨m₂, hreach', hkeep, hE₂⟩ := hE e m₁ hend
    exact ⟨m₂, hreach.trans hreach', hkeep _ hR₁, hE₂⟩
  | ok a =>
    rw [hxs] at hend
    obtain ⟨m₂, hreach', hkeep, hQ₂⟩ := hQ a m₁ hend
    exact ⟨m₂, hreach.trans hreach', hkeep _ hR₁, hQ₂⟩

lemma after_return (hx : Sim step G R P x Q E) (hQ : ∀ a, Moves step G R (Q a) (Q' a)) :
    Sim step G R P x Q' E :=
  hx.after hQ fun _ => .of_imp fun _ h => h

lemma after_raise (hx : Sim step G R P x Q E) (hE : ∀ e, Moves step G R (E e) (E' e)) :
    Sim step G R P x Q E' :=
  hx.after (fun _ => .of_imp fun _ h => h) hE

/-- A program whose effects the match does not show: the system waits. -/
lemma quiet (h : ∀ m, Keeps (fun s => R s m) x) :
    Sim step G R P x (fun _ => P) fun _ => P := by
  intro s m hR hP
  refine ⟨m, .refl, (h m).apply s hR, ?_⟩
  cases (x s).1 <;> exact hP

lemma exists_ {ι : Sort*} {P : ι → μ → Prop} (h : ∀ i, Sim step G R (P i) x Q E) :
    Sim step G R (fun m => ∃ i, P i m) x Q E :=
  fun s m hR ⟨i, hP⟩ => h i s m hR hP

/-- A fact that does not depend on the state may be assumed. -/
lemma of_and {p : Prop} (h : p → Sim step G R P x Q E) :
    Sim step G R (fun m => P m ∧ p) x Q E :=
  fun s m hR hP => h hP.2 s m hR hP.1

protected lemma pure {a : α} (h : ∀ m, P m → Q a m) :
    Sim step G R P (Pure.pure a : Eff σ ε α) Q E :=
  fun _ m hR hP => ⟨m, .refl, hR, h m hP⟩

protected lemma raise {e : ε} (h : ∀ m, P m → E e m) : Sim step G R P (raise e : Eff σ ε α) Q E :=
  fun _ m hR hP => ⟨m, .refl, hR, h m hP⟩

protected lemma bind {f : α → Eff σ ε β} (hx : Sim step G R P x Q E)
    (hf : ∀ a, Sim step G R (Q a) (f a) T E) : Sim step G R P (x >>= f) T E := by
  intro s m hR hP
  obtain ⟨m₁, hreach, hR₁, hend⟩ := hx s m hR hP
  simp only [Bind.bind]
  rcases hxs : x s with ⟨e | a, s'⟩
  · rw [hxs] at hR₁ hend
    exact ⟨m₁, hreach, hR₁, hend⟩
  · rw [hxs] at hR₁ hend
    obtain ⟨m₂, hreach', hR₂, hend₂⟩ := hf a s' m₁ hR₁ hend
    exact ⟨m₂, hreach.trans hreach', hR₂, hend₂⟩

protected lemma tryExcept {h : ε → Eff σ ε α} (hx : Sim step G R P x Q E)
    (hh : ∀ e, Sim step G R (E e) (h e) Q F) : Sim step G R P (tryExcept x h) Q F := by
  intro s m hR hP
  obtain ⟨m₁, hreach, hR₁, hend⟩ := hx s m hR hP
  simp only [Eff.tryExcept]
  rcases hxs : x s with ⟨e | a, s'⟩
  · rw [hxs] at hR₁ hend
    obtain ⟨m₂, hreach', hR₂, hend₂⟩ := hh e s' m₁ hR₁ hend
    exact ⟨m₂, hreach.trans hreach', hR₂, hend₂⟩
  · rw [hxs] at hR₁ hend
    exact ⟨m₁, hreach, hR₁, hend⟩

/-- The system follows the closing part after a return and after an exception alike. -/
protected lemma tryFinally {f : Eff σ ε PUnit} (hx : Sim step G R P x Q E)
    (hQ : ∀ a, Sim step G R (Q a) f (fun _ => Q' a) F)
    (hE : ∀ e, Sim step G R (E e) f (fun _ => F e) F) :
    Sim step G R P (tryFinally x f) Q' F := by
  intro s m hR hP
  obtain ⟨m₁, hreach, hR₁, hend⟩ := hx s m hR hP
  simp only [Eff.tryFinally]
  rcases hxs : x s with ⟨e | a, s'⟩
  · rw [hxs] at hR₁ hend
    obtain ⟨m₂, hreach', hR₂, hend₂⟩ := hE e s' m₁ hR₁ hend
    refine ⟨m₂, hreach.trans hreach', ?_⟩
    rcases hfs : f s' with ⟨e' | u, s''⟩ <;> simpa [hfs] using And.intro hR₂ hend₂
  · rw [hxs] at hR₁ hend
    obtain ⟨m₂, hreach', hR₂, hend₂⟩ := hQ a s' m₁ hR₁ hend
    refine ⟨m₂, hreach.trans hreach', ?_⟩
    rcases hfs : f s' with ⟨e' | u, s''⟩ <;> simpa [hfs] using And.intro hR₂ hend₂

end Sim

end Eff
