import Mathlib.Tactic.Common
import Mathlib.Data.List.Perm.Basic

/-!
# Pools of processes over a shared store

A pool of processes is a list in which a process is named by its position: processes are only
appended and replaced in place, so a position never changes its owner. The first part has the
lookup and counting equations for replacing one process.

The second part is the write of a column by an object-relational session: the session holds the
value it loaded and the value it was given since, and a commit stores the new value only when it
differs from the loaded one. A value stored by somebody else in between is overwritten in that
case and kept in the other.
-/

namespace Pool

variable {π : Type*} {ps : List π} {i j : ℕ} {a b : π}

/-- Looking up any position after process `i` was replaced. -/
lemma getElem?_set_of_get (h : ps[i]? = some a) (b : π) (j : ℕ) :
    (ps.set i b)[j]? = if j = i then some b else ps[j]? := by
  have hi : i < ps.length := (List.getElem?_eq_some_iff.mp h).1
  rw [List.getElem?_set]
  by_cases hj : j = i
  · subst hj
    simp [hi]
  · rw [if_neg hj, if_neg (Ne.symm hj)]

/-- A process started at the end of the pool: the others keep their positions. -/
lemma getElem?_append_singleton (b : π) (j : ℕ) :
    (ps ++ [b])[j]? = if j = ps.length then some b else ps[j]? := by
  rw [List.getElem?_append]
  by_cases hlt : j < ps.length
  · rw [if_pos hlt, if_neg (by omega)]
  · rw [if_neg hlt]
    by_cases hj : j = ps.length
    · subst hj
      simp
    · rw [if_neg hj, List.getElem?_eq_none (by simp; omega), List.getElem?_eq_none (by omega)]

lemma getElem?_append_of_get (h : ps[i]? = some a) {qs : List π} : (ps ++ qs)[i]? = some a := by
  rw [List.getElem?_append_left (List.getElem?_eq_some_iff.mp h).1, h]

/-- Replacing `a` by `b` changes the number of processes of a kind by what the two contribute. -/
lemma countP_set_of_get (p : π → Bool) (h : ps[i]? = some a) (b : π) :
    (ps.set i b).countP p + (if p a then 1 else 0) = ps.countP p + (if p b then 1 else 0) := by
  obtain ⟨hi, ha⟩ := List.getElem?_eq_some_iff.mp h
  have hle : (if p a then 1 else 0) ≤ ps.countP p := by
    split_ifs with hp
    · exact List.countP_pos_iff.mpr ⟨a, ha ▸ List.getElem_mem hi, hp⟩
    · exact Nat.zero_le _
  rw [List.countP_set hi, ha]
  omega

lemma countP_set_same {p : π → Bool} (h : ps[i]? = some a) (hb : p b = p a) :
    (ps.set i b).countP p = ps.countP p := by
  have := countP_set_of_get p h b
  rw [hb] at this
  omega

lemma countP_set_succ {p : π → Bool} (h : ps[i]? = some a) (ha : p a = false) (hb : p b = true) :
    (ps.set i b).countP p = ps.countP p + 1 := by
  have := countP_set_of_get p h b
  simpa [ha, hb] using this

lemma countP_set_pred {p : π → Bool} (h : ps[i]? = some a) (ha : p a = true) (hb : p b = false) :
    (ps.set i b).countP p + 1 = ps.countP p := by
  have := countP_set_of_get p h b
  simpa [ha, hb] using this

/-- Taking out `a` takes its contribution. -/
lemma countP_eraseIdx_of_get (p : π → Bool) (h : ps[i]? = some a) :
    (ps.eraseIdx i).countP p + (if p a then 1 else 0) = ps.countP p := by
  obtain ⟨hi, rfl⟩ := List.getElem?_eq_some_iff.mp h
  rw [← (List.getElem_cons_eraseIdx_perm hi).countP_eq p, List.countP_cons]

/-- A process that is of the kind contributes to the count. -/
lemma countP_pos_of_get {p : π → Bool} (h : ps[i]? = some a) (hp : p a = true) :
    0 < ps.countP p :=
  List.countP_pos_iff.mpr ⟨a, List.mem_of_getElem? h, hp⟩

/-- Processes of a kind that is covered by two others. -/
lemma countP_le_add {p q r : π → Bool} (h : ∀ a, p a = true → q a = true ∨ r a = true) :
    ps.countP p ≤ ps.countP q + ps.countP r := by
  induction ps with
  | nil => simp
  | cons a ps ih =>
    simp only [List.countP_cons]
    by_cases hp : p a = true
    · rcases h a hp with ha | ha <;> simp only [hp, ha, if_true] <;> omega
    · simp only [hp, Bool.false_eq_true, if_false]
      omega

/-- Two processes of a kind at different positions count twice. -/
lemma two_le_countP {p : π → Bool} (hij : i ≠ j) (hi : ps[i]? = some a) (hj : ps[j]? = some b)
    (ha : p a = true) (hb : p b = true) (c : π) (hc : p c = false) : 2 ≤ ps.countP p := by
  have hset := countP_set_of_get p hi c
  have hj' : (ps.set i c)[j]? = some b := by rw [getElem?_set_of_get hi, if_neg (Ne.symm hij), hj]
  have := countP_pos_of_get hj' hb
  simp only [ha, hc, if_true, Bool.false_eq_true, if_false] at hset
  omega

/-- Replacing `a` by `b` changes what the processes contribute by what the two do. -/
lemma filterMap_set_perm {β : Type*} (f : π → Option β) (h : ps[i]? = some a) (b : π) :
    ((f a).toList ++ (ps.set i b).filterMap f).Perm ((f b).toList ++ ps.filterMap f) := by
  induction ps generalizing i with
  | nil => simp at h
  | cons c ps ih =>
    cases i with
    | zero =>
      obtain rfl : c = a := by simpa using h
      simp only [List.set_cons_zero, List.filterMap_cons]
      cases f c <;> cases f b <;> simp [List.Perm.swap]
    | succ i =>
      have hperm := ih (i := i) (by simpa using h)
      simp only [List.set_cons_succ, List.filterMap_cons]
      cases f c with
      | none => exact hperm
      | some x => exact (List.perm_middle.trans (hperm.cons x)).trans List.perm_middle.symm

/-- Every process satisfies `P`, which may depend on its position. -/
def All (ps : List π) (P : ℕ → π → Prop) : Prop := ∀ i a, ps[i]? = some a → P i a

instance {P : ℕ → π → Prop} [∀ i a, Decidable (P i a)] : Decidable (All ps P) :=
  decidable_of_iff (∀ i : Fin ps.length, P i ps[i]) <| by
    simp only [All, List.getElem?_eq_some_iff, forall_exists_index]
    exact ⟨fun h i a hi ha => ha ▸ h ⟨i, hi⟩, fun h i => h i _ i.isLt rfl⟩

section All

variable {P Q : ℕ → π → Prop}

@[simp] lemma all_nil : All ([] : List π) P := by simp [All]

lemma All.mono (h : All ps P) (hPQ : ∀ i a, P i a → Q i a) : All ps Q :=
  fun i a hi => hPQ i a (h i a hi)

/-- One process moved: it has to satisfy the new condition, and so do the others. -/
lemma all_set (h : ps[i]? = some a) :
    All (ps.set i b) P ↔ P i b ∧ ∀ j c, j ≠ i → ps[j]? = some c → P j c := by
  simp only [All, getElem?_set_of_get h]
  constructor
  · intro hall
    exact ⟨hall i b (by simp), fun j c hj hc => hall j c (by simp [hj, hc])⟩
  · rintro ⟨hb, hall⟩ j c hc
    by_cases hj : j = i
    · subst hj
      obtain rfl : b = c := by simpa using hc
      exact hb
    · exact hall j c hj (by simpa [hj] using hc)

/-- A process was started. -/
lemma all_append_singleton : All (ps ++ [b]) P ↔ All ps P ∧ P ps.length b := by
  simp only [All, getElem?_append_singleton]
  constructor
  · intro hall
    refine ⟨fun j c hc => hall j c ?_, hall ps.length b (by simp)⟩
    have hj : j ≠ ps.length := by
      rintro rfl
      simp at hc
    simp [hj, hc]
  · rintro ⟨hall, hb⟩ j c hc
    by_cases hj : j = ps.length
    · subst hj
      obtain rfl : b = c := by simpa using hc
      exact hb
    · exact hall j c (by simpa [hj] using hc)

end All

end Pool

section WriteBack

variable {α : Type*} [DecidableEq α]

/-- What a commit leaves in a column that the session loaded as `loaded` and set to `new`, when
the store meanwhile holds `stored`. -/
def writeBack (loaded new stored : α) : α := if new = loaded then stored else new

/-- Nobody interfered: the session's value is stored. -/
@[simp] lemma writeBack_self (loaded new : α) : writeBack loaded new loaded = new := by
  unfold writeBack
  split_ifs with h
  · exact h.symm
  · rfl

/-- A column the session did not change keeps what is stored. -/
@[simp] lemma writeBack_unchanged (loaded stored : α) :
    writeBack loaded loaded stored = stored := by
  simp [writeBack]

/-- A changed column is overwritten, whatever is stored. -/
lemma writeBack_of_ne {loaded new : α} (h : new ≠ loaded) (stored : α) :
    writeBack loaded new stored = new := by
  simp [writeBack, h]

end WriteBack
