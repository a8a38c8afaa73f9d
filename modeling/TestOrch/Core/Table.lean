import Mathlib.Data.List.Nodup
import Mathlib.Data.List.Pairwise

/-!
# Keyed tables

A `Table key` is a list of rows, in the order the store returns them, in which no two rows
have the same key: what a relational table with a unique column holds. Reading by key, updating
the rows with given keys and inserting under the uniqueness constraint are the operations; each
comes with the equation that says what a later read by key sees.
-/

variable {κ ρ : Type*}

/-- Rows with pairwise distinct keys. -/
structure Table (key : ρ → κ) where
  rows : List ρ
  nodup : (rows.map key).Nodup

namespace Table

variable [DecidableEq κ] {key : ρ → κ}

def empty (key : ρ → κ) : Table key := ⟨[], by simp⟩

def get? (t : Table key) (k : κ) : Option ρ := t.rows.find? fun r => key r = k

/-- Apply `f` to every row whose key is in `ks`; `f` may not change a row's key. -/
def modify (t : Table key) (ks : List κ) (f : ρ → ρ) (hf : ∀ r, key (f r) = key r) : Table key where
  rows := t.rows.map fun r => if key r ∈ ks then f r else r
  nodup := by
    have h : key ∘ (fun r => if key r ∈ ks then f r else r) = key := by
      funext r
      by_cases hr : key r ∈ ks <;> simp [hr, hf]
    rw [List.map_map, h]
    exact t.nodup

/-- Append a row whose key is free. -/
def append (t : Table key) (r : ρ) (h : key r ∉ t.rows.map key) : Table key where
  rows := t.rows ++ [r]
  nodup := by
    rw [List.map_append, List.map_singleton, ← List.concat_eq_append]
    exact t.nodup.concat h

/-- Insert a row; `none` when its key is taken (the unique constraint is violated). -/
def insert? (t : Table key) (r : ρ) : Option (Table key) :=
  if h : key r ∈ t.rows.map key then none else some (t.append r h)

/-- Remove the row with key `k`, if there is one. -/
def erase (t : Table key) (k : κ) : Table key where
  rows := t.rows.filter fun r => key r ≠ k
  nodup := t.nodup.sublist (List.filter_sublist.map _)

@[simp] lemma get?_empty (k : κ) : (empty key).get? k = none := rfl

lemma key_of_get? {t : Table key} {k : κ} {r : ρ} (h : t.get? k = some r) : key r = k := by
  simpa using List.find?_some h

lemma mem_of_get? {t : Table key} {k : κ} {r : ρ} (h : t.get? k = some r) : r ∈ t.rows :=
  List.mem_of_find?_eq_some h

/-- Keys being distinct, membership and reading by key agree. -/
lemma get?_of_mem {t : Table key} {r : ρ} (h : r ∈ t.rows) : t.get? (key r) = some r := by
  cases hr : t.get? (key r) with
  | none =>
    have := List.find?_eq_none.mp hr r h
    simp at this
  | some r' =>
    have hk : key r' = key r := key_of_get? hr
    rw [List.inj_on_of_nodup_map t.nodup (mem_of_get? hr) h hk]

lemma get?_eq_none_iff {t : Table key} {k : κ} : t.get? k = none ↔ k ∉ t.rows.map key := by
  simp only [get?, List.find?_eq_none, decide_eq_true_eq, List.mem_map, not_exists, not_and]

@[simp] lemma get?_modify (t : Table key) (ks : List κ) (f : ρ → ρ)
    (hf : ∀ r, key (f r) = key r) (k : κ) :
    (t.modify ks f hf).get? k = if k ∈ ks then (t.get? k).map f else t.get? k := by
  simp only [get?, modify]
  induction t.rows with
  | nil => simp
  | cons r rs ih =>
    have hk : key (if key r ∈ ks then f r else r) = key r := by split_ifs <;> simp [hf]
    by_cases hr : key r = k
    · subst hr
      by_cases hks : key r ∈ ks <;> simp [hks, hf]
    · simp [hk, hr, ih]

lemma map_key_modify (t : Table key) (ks : List κ) (f : ρ → ρ) (hf : ∀ r, key (f r) = key r) :
    (t.modify ks f hf).rows.map key = t.rows.map key := by
  rw [modify, List.map_map]
  apply List.map_congr_left
  intro r _
  rw [Function.comp_apply]
  split_ifs
  · exact hf r
  · rfl

/-- Two changes that agree on the rows with the given keys. -/
lemma modify_congr {t : Table key} {ks : List κ} {f g : ρ → ρ} {hf : ∀ r, key (f r) = key r}
    {hg : ∀ r, key (g r) = key r} (h : ∀ r ∈ t.rows, key r ∈ ks → f r = g r) :
    t.modify ks f hf = t.modify ks g hg := by
  simp only [modify, mk.injEq]
  apply List.map_congr_left
  intro r hr
  split_ifs with hk
  · exact h r hr hk
  · rfl

/-- A change that leaves the rows with the given keys as they are changes nothing. -/
lemma modify_eq_self {t : Table key} {ks : List κ} {f : ρ → ρ} {hf : ∀ r, key (f r) = key r}
    (h : ∀ r ∈ t.rows, key r ∈ ks → f r = r) : t.modify ks f hf = t := by
  have hid : t.modify ks f hf = t.modify ks id fun _ => rfl := modify_congr h
  rw [hid]
  cases t
  simp [modify]

/-- A change that leaves the row with the given key as it is, if there is one, changes nothing. -/
lemma modify_eq_self_of_get? {t : Table key} {k : κ} {f : ρ → ρ} (hf : ∀ r, key (f r) = key r)
    (h : ∀ r, t.get? k = some r → f r = r) : t.modify [k] f hf = t := by
  apply modify_eq_self
  intro r hr hk
  apply h
  rw [← List.mem_singleton.mp hk, get?_of_mem hr]

/-- Two changes that agree on the row with the given key, if there is one. -/
lemma modify_congr_of_get? {t : Table key} {k : κ} {f g : ρ → ρ} (hf : ∀ r, key (f r) = key r)
    (hg : ∀ r, key (g r) = key r) (h : ∀ r, t.get? k = some r → f r = g r) :
    t.modify [k] f hf = t.modify [k] g hg := by
  apply modify_congr
  intro r hr hk
  apply h
  rw [← List.mem_singleton.mp hk, get?_of_mem hr]

/-- Two changes of the same rows, one after the other. -/
lemma modify_modify (t : Table key) (ks : List κ) (f g : ρ → ρ) (hf : ∀ r, key (f r) = key r)
    (hg : ∀ r, key (g r) = key r) :
    (t.modify ks f hf).modify ks g hg =
      t.modify ks (fun r => g (f r)) fun r => (hg (f r)).trans (hf r) := by
  simp only [modify, List.map_map, mk.injEq]
  apply List.map_congr_left
  intro r _
  by_cases hr : key r ∈ ks <;> simp [hr, hf]

lemma insert?_eq_none_iff {t : Table key} {r : ρ} :
    t.insert? r = none ↔ ∃ r', t.get? (key r) = some r' := by
  rw [← Option.isSome_iff_exists, Option.isSome_iff_ne_none, ne_eq, get?_eq_none_iff, not_not]
  simp [insert?]

/-- A successful insert happened under a free key, and later reads see the new row. -/
lemma get?_insert? {t t' : Table key} {r : ρ} (h : t.insert? r = some t') :
    t.get? (key r) = none ∧ ∀ k, t'.get? k = if k = key r then some r else t.get? k := by
  simp only [insert?] at h
  split_ifs at h with hr
  obtain rfl := Option.some.inj h
  have hnone : t.get? (key r) = none := get?_eq_none_iff.mpr hr
  refine ⟨hnone, fun k => ?_⟩
  have happ : (t.append r hr).get? k = (t.get? k).or ([r].find? fun r' => key r' = k) :=
    List.find?_append
  rw [happ]
  by_cases hk : k = key r
  · subst hk
    simp [hnone]
  · simp [hk, Ne.symm hk]

@[simp] lemma mem_erase {t : Table key} {k : κ} {r : ρ} :
    r ∈ (t.erase k).rows ↔ r ∈ t.rows ∧ key r ≠ k := by
  simp [erase]

@[simp] lemma get?_erase (t : Table key) (k k' : κ) :
    (t.erase k).get? k' = if k' = k then none else t.get? k' := by
  split_ifs with hk
  · subst hk
    rw [get?_eq_none_iff, List.mem_map]
    rintro ⟨r, hr, rfl⟩
    exact (mem_erase.mp hr).2 rfl
  · simp only [get?, erase, List.find?_filter]
    congr 1
    funext r
    by_cases hr : key r = k'
    · simp [hr, hk]
    · simp [hr]

lemma map_key_insert? {t t' : Table key} {r : ρ} (h : t.insert? r = some t') :
    t'.rows.map key = t.rows.map key ++ [key r] := by
  simp only [insert?] at h
  split_ifs at h with hr
  obtain rfl := Option.some.inj h
  simp [append]

lemma mem_insert? {t t' : Table key} {r r' : ρ} (h : t.insert? r = some t') :
    r' ∈ t'.rows ↔ r' ∈ t.rows ∨ r' = r := by
  simp only [insert?] at h
  split_ifs at h with hr
  obtain rfl := Option.some.inj h
  simp [append]

/-! ### Rows that replace those with their key -/

/-- Write a row in the place of the one with its key, if there is one. -/
def put (t : Table key) (r : ρ) : Table key :=
  (t.erase (key r)).append r (by simp)

/-- Write rows, one after the other. -/
def putAll (t : Table key) (l : List ρ) : Table key := l.foldl put t

lemma putAll_cons (t : Table key) (r : ρ) (l : List ρ) :
    t.putAll (r :: l) = (t.put r).putAll l := rfl

lemma putAll_concat (t : Table key) (l : List ρ) (r : ρ) :
    t.putAll (l ++ [r]) = (t.putAll l).put r := List.foldl_concat _ _ _ _

lemma rows_put (t : Table key) (r : ρ) :
    (t.put r).rows = (t.rows.filter fun r' => key r' ≠ key r) ++ [r] := rfl

/-- Of the rows that are written with one key, the last is left. -/
lemma rows_putAll (t : Table key) (l : List ρ) :
    (t.putAll l).rows = (t.rows.filter fun r => key r ∉ l.map key) ++
      l.pwFilter fun r r' => key r ≠ key r' := by
  induction l generalizing t with
  | nil => simp [putAll]
  | cons r l ih =>
    have hlast : (∀ r' ∈ l.pwFilter fun r r' => key r ≠ key r', key r ≠ key r') ↔
        key r ∉ l.map key := by
      rw [List.forall_mem_pwFilter]
      · simp only [List.mem_map, not_exists, not_and, ne_eq, eq_comm]
      · intro r₁ r₂ r₃ h
        by_contra hno
        push Not at hno
        exact h (hno.1.trans hno.2)
    have hold : ((t.rows.filter fun r' => key r' ≠ key r).filter fun r' => key r' ∉ l.map key) =
        t.rows.filter fun r' => key r' ∉ (r :: l).map key := by
      rw [List.filter_filter]
      apply List.filter_congr
      intro r' _
      rw [Bool.eq_iff_iff]
      simp only [List.map_cons, List.mem_cons, not_or, Bool.and_eq_true, decide_eq_true_eq, ne_eq]
      exact and_comm
    rw [putAll_cons, ih, rows_put, List.filter_append, hold, List.append_assoc]
    congr 1
    by_cases hr : key r ∈ l.map key
    · rw [List.pwFilter_cons_of_neg (mt hlast.mp (not_not.mpr hr)), List.filter_cons_of_neg
        (by simpa using hr)]
      rfl
    · rw [List.pwFilter_cons_of_pos (hlast.mpr hr), List.filter_cons_of_pos (by simpa using hr)]
      rfl

lemma rows_putAll_empty (l : List ρ) :
    ((empty key).putAll l).rows = l.pwFilter fun r r' => key r ≠ key r' := rows_putAll _ _

lemma mem_putAll {t : Table key} {l : List ρ} {r : ρ} (h : r ∈ (t.putAll l).rows) :
    r ∈ t.rows ∨ r ∈ l := by
  rw [rows_putAll, List.mem_append] at h
  exact h.imp (fun h => (List.mem_filter.mp h).1) fun h => List.pwFilter_subset l h

lemma length_putAll_le (t : Table key) (l : List ρ) :
    (t.putAll l).rows.length ≤ t.rows.length + l.length := by
  rw [rows_putAll, List.length_append]
  exact Nat.add_le_add (List.length_filter_le _ _) (List.pwFilter_sublist l).length_le

lemma pwFilter_eq_self_iff {l : List ρ} :
    (l.pwFilter fun r r' => key r ≠ key r') = l ↔ (l.map key).Nodup := by
  rw [List.pwFilter_eq_self, List.Nodup, List.pairwise_map]

/-- Rows with new keys are all kept, in the order of the writes. -/
lemma rows_putAll_of_nodup {t : Table key} {l : List ρ}
    (h : ((t.rows ++ l).map key).Nodup) : (t.putAll l).rows = t.rows ++ l := by
  rw [List.map_append, List.nodup_append'] at h
  have hold : ∀ r ∈ t.rows, key r ∉ l.map key := fun r hr => h.2.2 (List.mem_map_of_mem hr)
  rw [rows_putAll, pwFilter_eq_self_iff.mpr h.2.1, List.filter_eq_self.mpr (by simpa using hold)]

/-- As many rows as writes are left exactly if no two writes have the same key. -/
lemma length_putAll_empty_iff {l : List ρ} :
    ((empty key).putAll l).rows.length = l.length ↔ (l.map key).Nodup := by
  rw [rows_putAll_empty, ← pwFilter_eq_self_iff]
  exact ⟨(List.pwFilter_sublist l).eq_of_length, congrArg List.length⟩

/-- What is written under other keys does not matter for the rows with a property of the key. -/
lemma filter_rows_putAll {p : ρ → Bool} (hp : ∀ r r', key r = key r' → p r = p r')
    {t u : Table key} (l : List ρ) (h : u.rows = t.rows.filter p) :
    (t.putAll l).rows.filter p = (u.putAll (l.filter p)).rows := by
  induction l generalizing t u with
  | nil => exact h.symm
  | cons r l ih =>
    rw [putAll_cons]
    cases hr : p r with
    | true =>
      rw [List.filter_cons_of_pos hr, putAll_cons]
      apply ih
      rw [rows_put, rows_put, List.filter_append, h, List.filter_filter, List.filter_filter,
        List.filter_cons_of_pos hr, List.filter_nil]
      simp only [Bool.and_comm]
    | false =>
      rw [List.filter_cons_of_neg (by simp [hr])]
      apply ih
      rw [rows_put, List.filter_append, List.filter_cons_of_neg (by simp [hr]), List.filter_nil,
        List.append_nil, List.filter_filter, h]
      apply List.filter_congr
      intro r' _
      by_cases hk : key r' = key r
      · rw [hp r' r hk, hr, Bool.false_and]
      · simp [hk]

end Table
