import Mathlib.Data.Set.Finite.Lemmas
import Mathlib.Logic.Relation

/-!
# Waiting for what others hold

Each of some processes holds resources and waits for at most one more. If the resources can be
ranked so that everybody waits for one that ranks above all that it holds, then nobody waits for
itself through others, and at the end of every chain of waits stands a process that waits for
nobody.
-/

/-- Who holds which resources, and who waits for which one. -/
structure WaitFor (ι ρ : Type*) where
  holds : ι → ρ → Prop
  awaits : ι → Option ρ

namespace WaitFor

variable {ι ρ κ : Type*} {s : WaitFor ι ρ} {rank : ρ → κ} {p q : ι} {r : ρ}

/-- What `p` waits for is held by `q`. -/
def Edge (s : WaitFor ι ρ) (p q : ι) : Prop := ∃ r, s.awaits p = some r ∧ s.holds q r

/-- What a process waits for ranks above all that it holds. -/
def Ranked [LT κ] (s : WaitFor ι ρ) (rank : ρ → κ) : Prop :=
  ∀ p r r', s.awaits p = some r → s.holds p r' → rank r' < rank r

/-- Along a chain of waits the ranks grow. -/
lemma rank_lt_of_transGen [Preorder κ] (hs : s.Ranked rank) (h : Relation.TransGen s.Edge p q)
    (hq : s.awaits q = some r) : ∃ r', s.awaits p = some r' ∧ rank r' < rank r := by
  induction h generalizing r with
  | single hedge =>
    obtain ⟨r', hr', hheld⟩ := hedge
    exact ⟨r', hr', hs _ _ _ hq hheld⟩
  | tail _ hedge ih =>
    obtain ⟨r₁, hr₁, hheld⟩ := hedge
    obtain ⟨r', hr', hlt⟩ := ih hr₁
    exact ⟨r', hr', hlt.trans (hs _ _ _ hq hheld)⟩

/-- Nobody waits for itself through others. -/
theorem acyclic [Preorder κ] (hs : s.Ranked rank) (p : ι) : ¬ Relation.TransGen s.Edge p p := by
  intro h
  obtain ⟨_, ⟨r, hr, -⟩, -⟩ := Relation.TransGen.head'_iff.mp h
  obtain ⟨r', hr', hlt⟩ := rank_lt_of_transGen hs h hr
  obtain rfl := Option.some.inj (hr.symm.trans hr')
  exact lt_irrefl _ hlt

/-- Behind every process stands one that waits for nobody. -/
theorem exists_free [LinearOrder κ] (hs : s.Ranked rank)
    (hfinite : {p | (s.awaits p).isSome = true}.Finite) (p : ι) :
    ∃ q, Relation.ReflTransGen s.Edge p q ∧ ∀ q', ¬ s.Edge q q' := by
  by_contra hno
  push Not at hno
  -- everybody behind `p` waits, and one of them for the resource with the highest rank
  have hwaits : ∀ q, Relation.ReflTransGen s.Edge p q → (s.awaits q).isSome = true := by
    intro q hq
    obtain ⟨_, r, hr, -⟩ := hno q hq
    exact Option.isSome_of_mem hr
  have hbehind : {q | Relation.ReflTransGen s.Edge p q}.Finite := hfinite.subset hwaits
  let height (q : ι) : WithBot κ := (s.awaits q).elim ⊥ fun r => rank r
  obtain ⟨q, hq, hmax⟩ := Set.exists_max_image _ height hbehind ⟨p, .refl⟩
  obtain ⟨q', r, hr, hheld⟩ := hno q hq
  have hq' := hq.tail ⟨r, hr, hheld⟩
  obtain ⟨r', hr'⟩ := Option.isSome_iff_exists.mp (hwaits q' hq')
  have hle := hmax q' hq'
  simp only [height, hr, hr', Option.elim_some, WithBot.coe_le_coe] at hle
  exact absurd (hs q' r' r hr' hheld) (not_lt.mpr hle)

end WaitFor
