import Mathlib.Algebra.Order.Group.Defs
import Mathlib.Data.Set.Basic
import Mathlib.Logic.Relation
import Mathlib.Tactic.Common

/-!
# Greedy placement

Pieces of one size are put, one after the other, each on a place that carries the least among those
that are open. Places may close on the way and none opens. `Balanced B` says that the loads of the
open places lie within `B` of each other; a bound that is at least the size of a piece is never
exceeded (`Balanced.run`), whatever the loads at the start.
-/

namespace Greedy

variable {ι α : Type*} [AddCommGroup α] [LinearOrder α] [IsOrderedAddMonoid α]

/-- The load of each place, and the places that are open. -/
@[ext]
structure State (ι α : Type*) where
  load : ι → α
  isOpen : Set ι

/-- A piece of size `d` goes to a least loaded open place. -/
def Step (d : α) (s s' : State ι α) : Prop :=
  ∃ c ∈ s.isOpen, (∀ i ∈ s.isOpen, s.load c ≤ s.load i) ∧ s'.isOpen ⊆ s.isOpen ∧
    s'.load c = s.load c + d ∧ ∀ i ≠ c, s'.load i = s.load i

/-- The loads of any two open places differ by at most `B`. -/
def Balanced (B : α) (s : State ι α) : Prop :=
  ∀ i ∈ s.isOpen, ∀ j ∈ s.isOpen, s.load i - s.load j ≤ B

variable {d B : α} {s s' : State ι α}

/-- The place that gets the piece was the least, so it rises at most `d` above the others. -/
lemma Balanced.step (h : Balanced B s) (h₀ : 0 ≤ d) (hd : d ≤ B) (hs : Step d s s') :
    Balanced B s' := by
  obtain ⟨c, hc, hleast, hsub, hload, hother⟩ := hs
  intro i hi j hj
  by_cases hic : i = c
  · subst hic
    rw [hload]
    by_cases hji : j = i
    · subst hji
      rw [hload, sub_self]
      exact h₀.trans hd
    · rw [hother j hji]
      have hle : s.load i - s.load j ≤ 0 := sub_nonpos.mpr (hleast j (hsub hj))
      calc s.load i + d - s.load j = s.load i - s.load j + d := by rw [add_sub_right_comm]
        _ ≤ 0 + d := by gcongr
        _ ≤ B := by rwa [zero_add]
  · rw [hother i hic]
    by_cases hjc : j = c
    · subst hjc
      rw [hload]
      calc s.load i - (s.load j + d) ≤ s.load i - s.load j := by
            gcongr
            exact le_add_of_nonneg_right h₀
        _ ≤ B := h i (hsub hi) j hc
    · rw [hother j hjc]
      exact h i (hsub hi) j (hsub hj)

/-- The bound holds over any number of pieces. -/
theorem Balanced.run (h : Balanced B s) (h₀ : 0 ≤ d) (hd : d ≤ B)
    (hs : Relation.ReflTransGen (Step d) s s') : Balanced B s' := by
  induction hs with
  | refl => exact h
  | tail _ hstep ih => exact ih.step h₀ hd hstep

end Greedy
