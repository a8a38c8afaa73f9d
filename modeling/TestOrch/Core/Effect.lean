import Mathlib.Tactic.Common

/-!
# Computations that may raise

`Eff σ ε α` is a computation over a state `σ` that returns a value of type `α` or raises an
exception of type `ε`; what it did to the state before raising is kept. `Eff.Spec P x Q E` says that
from a state with `P` the computation `x` either returns `a` in a state with `Q a` or raises `e` in
a state with `E e`; the rules below take a program apart along its structure.
-/

universe u

/-- A computation over `σ` that returns or raises. -/
def Eff (σ ε : Type*) (α : Type u) := σ → Except ε α × σ

namespace Eff

variable {σ ε : Type*} {α β : Type u}

instance : Monad (Eff σ ε) where
  pure a := fun s => (.ok a, s)
  bind x f := fun s =>
    match x s with
    | (.ok a, s') => f a s'
    | (.error e, s') => (.error e, s')

def raise (e : ε) : Eff σ ε α := fun s => (.error e, s)

def gets (f : σ → α) : Eff σ ε α := fun s => (.ok (f s), s)

def modify (f : σ → σ) : Eff σ ε PUnit := fun s => (.ok ⟨⟩, f s)

/-- Run a fallible computation that does not touch the state. -/
def lift (x : Except ε α) : Eff σ ε α := fun s => (x, s)

@[simp] lemma lift_ok_bind (a : α) (f : α → Eff σ ε β) : (lift (.ok a) >>= f) = f a := rfl

/-- `try: x except e: h e`. -/
def tryExcept (x : Eff σ ε α) (h : ε → Eff σ ε α) : Eff σ ε α := fun s =>
  match x s with
  | (.ok a, s') => (.ok a, s')
  | (.error e, s') => h e s'

/-- `try: x finally: f`; an exception of `f` replaces the outcome of `x`. -/
def tryFinally (x : Eff σ ε α) (f : Eff σ ε PUnit) : Eff σ ε α := fun s =>
  let (r, s') := x s
  match f s' with
  | (.ok _, s'') => (r, s'')
  | (.error e, s'') => (.error e, s'')

/-- From `P`, the computation returns with `Q` or raises with `E`. -/
def Spec (P : σ → Prop) (x : Eff σ ε α) (Q : α → σ → Prop) (E : ε → σ → Prop) : Prop :=
  ∀ s, P s → match x s with
    | (.ok a, s') => Q a s'
    | (.error e, s') => E e s'

section Rules

variable {P P' : σ → Prop} {Q Q' : α → σ → Prop} {R : β → σ → Prop} {E E' F : ε → σ → Prop}
  {x : Eff σ ε α}

lemma Spec.conseq (h : Spec P x Q E) (hP : ∀ s, P' s → P s) (hQ : ∀ a s, Q a s → Q' a s)
    (hE : ∀ e s, E e s → E' e s) : Spec P' x Q' E' := by
  intro s hs
  have hx := h s (hP s hs)
  rcases heq : x s with ⟨e | a, s'⟩
  · exact hE e s' (by simpa [heq] using hx)
  · exact hQ a s' (by simpa [heq] using hx)

lemma Spec.pure {a : α} (h : ∀ s, P s → Q a s) : Spec P (Pure.pure a) Q E := h

lemma Spec.raise {e : ε} (h : ∀ s, P s → E e s) : Spec P (raise e) Q E := h

lemma Spec.modify {f : σ → σ} {Q : PUnit → σ → Prop} (h : ∀ s, P s → Q ⟨⟩ (f s)) :
    Spec P (modify f) Q E := h

lemma Spec.bind {f : α → Eff σ ε β} (hx : Spec P x Q E) (hf : ∀ a, Spec (Q a) (f a) R E) :
    Spec P (x >>= f) R E := by
  intro s hs
  have h := hx s hs
  simp only [Bind.bind]
  rcases hxs : x s with ⟨e | a, s'⟩
  · simpa [hxs] using h
  · exact hf a s' (by simpa [hxs] using h)

lemma Spec.tryExcept {h : ε → Eff σ ε α} (hx : Spec P x Q E) (hh : ∀ e, Spec (E e) (h e) Q F) :
    Spec P (tryExcept x h) Q F := by
  intro s hs
  have hxs := hx s hs
  simp only [Eff.tryExcept]
  rcases heq : x s with ⟨e | a, s'⟩
  · exact hh e s' (by simpa [heq] using hxs)
  · simpa [heq] using hxs

/-- The closing part runs after a return and after an exception alike. -/
lemma Spec.tryFinally {f : Eff σ ε PUnit} (hx : Spec P x Q E)
    (hQ : ∀ a, Spec (Q a) f (fun _ => Q' a) F) (hE : ∀ e, Spec (E e) f (fun _ => F e) F) :
    Spec P (tryFinally x f) Q' F := by
  intro s hs
  have hxs := hx s hs
  simp only [Eff.tryFinally]
  rcases heq : x s with ⟨e | a, s'⟩
  · have hf := hE e s' (by simpa [heq] using hxs)
    rcases hfs : f s' with ⟨e' | u, s''⟩ <;> simpa [hfs] using hf
  · have hf := hQ a s' (by simpa [heq] using hxs)
    rcases hfs : f s' with ⟨e' | u, s''⟩ <;> simpa [hfs] using hf

/-- A fact that does not depend on the state may be assumed. -/
lemma Spec.of_and {p : Prop} (h : p → Spec P x Q E) : Spec (fun s => P s ∧ p) x Q E :=
  fun s hs => h hs.2 s hs.1

/-- From `P` the computation ends in a state with `R`, whether it returns or raises. -/
abbrev Ends (P : σ → Prop) (x : Eff σ ε α) (R : σ → Prop) : Prop :=
  Spec P x (fun _ => R) fun _ => R

lemma Ends.apply {R : σ → Prop} (h : Ends P x R) (s : σ) (hs : P s) : R (x s).2 := by
  have hx := h s hs
  rcases heq : x s with ⟨e | a, s'⟩ <;> simpa [heq] using hx

end Rules

/-- The computation keeps `P`, whether it returns or raises. -/
abbrev Keeps (P : σ → Prop) (x : Eff σ ε α) : Prop := Ends P x P

namespace Keeps

variable {P : σ → Prop} {x : Eff σ ε α}

lemma pure (a : α) : Keeps P (Pure.pure a : Eff σ ε α) := Spec.pure fun _ h => h

lemma lift (r : Except ε α) : Keeps P (lift r : Eff σ ε α) := by
  intro s hs
  cases r <;> exact hs

lemma bind {f : α → Eff σ ε β} (hx : Keeps P x) (hf : ∀ a, Keeps P (f a)) : Keeps P (x >>= f) :=
  Spec.bind hx hf

lemma tryExcept {h : ε → Eff σ ε α} (hx : Keeps P x) (hh : ∀ e, Keeps P (h e)) :
    Keeps P (tryExcept x h) :=
  Spec.tryExcept hx hh

lemma tryFinally {f : Eff σ ε PUnit} (hx : Keeps P x) (hf : Keeps P f) :
    Keeps P (tryFinally x f) :=
  Spec.tryFinally hx (fun _ => hf) fun _ => hf

end Keeps

end Eff
