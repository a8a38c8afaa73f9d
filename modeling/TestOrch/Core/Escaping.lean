import Mathlib.Data.List.Basic

/-!
# Escaping characters

A rule `(c, code)` says that `code` is written for the character `c`. Escaping by replacing one
character after the other is a substitution in one pass as long as no replacement rewrites what an
earlier one has written. If all codes begin with one mark, which is escaped itself, and none is the
beginning of another, the substitution can be undone from left to right.
-/

namespace Escaping

variable {α : Type*}

/-- What is written for some of the characters. -/
abbrev Rules (α : Type*) := List (α × List α)

/-- The mark `m` is escaped, stands at the beginning of each code and nowhere else in it, and no
code is the beginning of another. -/
structure Marked (m : α) (rules : Rules α) : Prop where
  escaped : ∃ r ∈ rules, r.1 = m
  head : ∀ r ∈ rules, r.2.head? = some m
  tail : ∀ r ∈ rules, m ∉ r.2.tail
  prefixFree : ∀ r ∈ rules, ∀ s ∈ rules, r.2 <+: s.2 → r = s

/-- A code is the mark with something behind it. -/
lemma Marked.code_eq {m : α} {rules : Rules α} (h : Marked m rules) {r : α × List α}
    (hr : r ∈ rules) : ∃ t, r.2 = m :: t ∧ m ∉ t := by
  have hhead := h.head r hr
  have htail := h.tail r hr
  cases hcode : r.2 with
  | nil =>
    rw [hcode] at hhead
    cases hhead
  | cons a t =>
    rw [hcode] at hhead htail
    obtain rfl := Option.some.inj hhead
    exact ⟨t, rfl, htail⟩

variable [DecidableEq α]

/-- Replace the occurrences of `old` from left to right; the next `skip` elements belong to the one
that was found last. -/
def replaceFrom (old new : List α) : ℕ → List α → List α
  | _, [] => []
  | skip + 1, _ :: l => replaceFrom old new skip l
  | 0, a :: l =>
    if old <+: a :: l then new ++ replaceFrom old new (old.length - 1) l
    else a :: replaceFrom old new 0 l

/-- Replace the occurrences of a pattern that is not empty. -/
def replaceAll (old new l : List α) : List α := replaceFrom old new 0 l

/-- Apply the rules one after the other, each to the whole text. -/
def replaceEach (rules : Rules α) (l : List α) : List α :=
  rules.foldl (fun l r => replaceAll [r.1] r.2 l) l

/-- What is written for a character. -/
def code (rules : Rules α) (c : α) : List α :=
  ((rules.find? fun r => r.1 = c).map Prod.snd).getD [c]

/-- Write all characters in one pass. -/
def substitute (rules : Rules α) (l : List α) : List α := l.flatMap (code rules)

/-- Read the codes from left to right; the next `skip` elements belong to the one that was read
last. -/
def decodeFrom (rules : Rules α) : ℕ → List α → List α
  | _, [] => []
  | skip + 1, _ :: l => decodeFrom rules skip l
  | 0, a :: l =>
    match rules.find? fun r => r.2 <+: a :: l with
    | some r => r.1 :: decodeFrom rules (r.2.length - 1) l
    | none => a :: decodeFrom rules 0 l

/-- Read the codes of a text. -/
def decode (rules : Rules α) (l : List α) : List α := decodeFrom rules 0 l

/-- No rule rewrites what an earlier one has written, and no character has two rules. -/
def Orderly (rules : Rules α) : Prop := rules.Pairwise fun r s => s.1 ≠ r.1 ∧ s.1 ∉ r.2

instance (rules : Rules α) : Decidable (Orderly rules) :=
  inferInstanceAs (Decidable (List.Pairwise _ _))

variable {rules : Rules α} {l l' : List α} {c m : α}

/-! ### One pass -/

lemma replaceAll_singleton (new l : List α) :
    replaceAll [c] new l = l.flatMap fun d => if d = c then new else [d] := by
  unfold replaceAll
  induction l with
  | nil => rfl
  | cons d l ih =>
    rw [replaceFrom, List.flatMap_cons, List.length_singleton, Nat.sub_self, ih]
    by_cases h : d = c
    · subst h
      rw [if_pos (by simp), if_pos rfl]
    · rw [if_neg (by simpa using Ne.symm h), if_neg h, List.singleton_append]

lemma code_of_not_mem (h : ∀ r ∈ rules, r.1 ≠ c) : code rules c = [c] := by
  have hnone : rules.find? (fun r => r.1 = c) = none := by
    simpa using h
  rw [code, hnone]
  rfl

/-- A character is written as itself, or by one of its rules. -/
lemma code_cases (rules : Rules α) (c : α) :
    (code rules c = [c] ∧ ∀ r ∈ rules, r.1 ≠ c) ∨
      ∃ r ∈ rules, r.1 = c ∧ code rules c = r.2 := by
  cases h : rules.find? (fun r => r.1 = c) with
  | none =>
    have hno : ∀ r ∈ rules, r.1 ≠ c := by
      simpa using h
    exact .inl ⟨code_of_not_mem hno, hno⟩
  | some r =>
    refine .inr ⟨r, List.mem_of_find?_eq_some h, by simpa using List.find?_some h, ?_⟩
    rw [code, h]
    rfl

lemma code_cons (r : α × List α) (rules : Rules α) (c : α) :
    code (r :: rules) c = if c = r.1 then r.2 else code rules c := by
  by_cases h : c = r.1
  · subst h
    simp [code]
  · simp [code, h, Ne.symm h]

/-- Characters without a rule are written as they are. -/
lemma substitute_of_forall (h : ∀ c ∈ l, ∀ r ∈ rules, r.1 ≠ c) : substitute rules l = l := by
  induction l with
  | nil => rfl
  | cons c l ih =>
    rw [substitute, List.flatMap_cons, code_of_not_mem (h c List.mem_cons_self), ← substitute,
      ih fun d hd => h d (List.mem_cons_of_mem c hd), List.singleton_append]

lemma substitute_append : substitute rules (l ++ l') = substitute rules l ++ substitute rules l' :=
  List.flatMap_append

/-- Orderly rules can be applied one after the other. -/
theorem replaceEach_eq_substitute (h : Orderly rules) (l : List α) :
    replaceEach rules l = substitute rules l := by
  induction rules generalizing l with
  | nil => exact (substitute_of_forall (by simp)).symm
  | cons r rules ih =>
    obtain ⟨hr, hrules⟩ := List.pairwise_cons.mp h
    have hcode : substitute rules r.2 = r.2 := by
      apply substitute_of_forall
      rintro c hc s hs rfl
      exact (hr s hs).2 hc
    rw [replaceEach, List.foldl_cons, ← replaceEach, ih hrules, replaceAll_singleton, substitute,
      List.flatMap_assoc, substitute]
    congr 1
    funext c
    rw [code_cons]
    split_ifs
    · exact hcode
    · exact List.flatMap_singleton ..

/-! ### What is written -/

/-- A character that has a rule is only written as part of a code. -/
lemma not_mem_substitute (hrule : ∃ r ∈ rules, r.1 = c) (hcodes : ∀ r ∈ rules, c ∉ r.2) :
    c ∉ substitute rules l := by
  intro hc
  obtain ⟨d, -, hd⟩ := List.mem_flatMap.mp hc
  rcases code_cases rules d with ⟨hself, hno⟩ | ⟨r, hr, -, hcode⟩
  · rw [hself, List.mem_singleton] at hd
    obtain ⟨r, hr, rfl⟩ := hrule
    exact hno r hr hd
  · rw [hcode] at hd
    exact hcodes r hr hd

/-- Every mark that is written begins a code. -/
theorem Marked.exists_code (h : Marked m rules) {pre post : List α}
    (heq : substitute rules l = pre ++ m :: post) : ∃ r ∈ rules, r.2 <+: m :: post := by
  induction l generalizing pre with
  | nil => simp [substitute] at heq
  | cons c l ih =>
    rw [substitute, List.flatMap_cons, ← substitute] at heq
    rcases List.append_eq_append_iff.mp heq with ⟨a, -, hl⟩ | ⟨a, hcode, hpost⟩
    · exact ih hl
    · cases a with
      | nil =>
        have hnext : substitute rules l = [] ++ m :: post := hpost.symm
        exact ih hnext
      | cons b t =>
        -- the mark stands within what is written for `c`
        obtain ⟨rfl, hpost⟩ : m = b ∧ post = t ++ substitute rules l := by
          simpa using hpost
        rcases code_cases rules c with ⟨hself, hno⟩ | ⟨r, hr, -, hr'⟩
        · have hmem : m ∈ code rules c := by simp [hcode]
          rw [hself, List.mem_singleton] at hmem
          obtain ⟨r, hr, hm⟩ := h.escaped
          exact absurd (hm.trans hmem) (hno r hr)
        · refine ⟨r, hr, ?_⟩
          obtain ⟨u, hu, hmu⟩ := h.code_eq hr
          rw [hr', hu] at hcode
          cases pre with
          | nil =>
            rw [hu, hcode, hpost]
            exact List.prefix_append (m :: t) _
          | cons p pre =>
            obtain ⟨-, rfl⟩ : m = p ∧ u = pre ++ m :: t := by simpa using hcode
            simp at hmu

/-! ### Reading back -/

lemma decodeFrom_skip (t l : List α) :
    decodeFrom rules t.length (t ++ l) = decodeFrom rules 0 l := by
  induction t with
  | nil => rfl
  | cons a t ih => exact ih

/-- A code is read as its character, whatever follows. -/
lemma Marked.decode_code (h : Marked m rules) {r : α × List α} (hr : r ∈ rules) (l : List α) :
    decode rules (r.2 ++ l) = r.1 :: decode rules l := by
  obtain ⟨t, ht, -⟩ := h.code_eq hr
  have hfind : rules.find? (fun s => s.2 <+: m :: (t ++ l)) = some r := by
    cases hs : rules.find? (fun s => s.2 <+: m :: (t ++ l)) with
    | none =>
      have hno := List.find?_eq_none.mp hs r hr
      rw [ht] at hno
      simp at hno
    | some s =>
      -- of two codes at the same place one begins with the other
      have hmem := List.mem_of_find?_eq_some hs
      have hpre : s.2 <+: m :: (t ++ l) := by simpa using List.find?_some hs
      have hpre' : r.2 <+: m :: (t ++ l) := by
        rw [ht]
        exact List.prefix_append (m :: t) l
      rcases List.prefix_or_prefix_of_prefix hpre hpre' with hle | hle
      · rw [h.prefixFree s hmem r hr hle]
      · rw [h.prefixFree r hr s hmem hle]
  rw [ht, decode, List.cons_append, decodeFrom, hfind]
  show r.1 :: decodeFrom rules (r.2.length - 1) (t ++ l) = _
  rw [ht, List.length_cons, Nat.add_sub_cancel, decodeFrom_skip]
  rfl

/-- A character that is not the mark is read as itself. -/
lemma Marked.decode_cons (h : Marked m rules) (hc : c ≠ m) (l : List α) :
    decode rules (c :: l) = c :: decode rules l := by
  have hfind : rules.find? (fun r => r.2 <+: c :: l) = none := by
    rw [List.find?_eq_none]
    intro r hr
    obtain ⟨t, ht, -⟩ := h.code_eq hr
    rw [ht]
    simpa using fun hm : m = c => absurd hm.symm hc
  rw [decode, decodeFrom, hfind]
  rfl

/-- What was written is read back. -/
theorem Marked.decode_substitute (h : Marked m rules) (l : List α) :
    decode rules (substitute rules l) = l := by
  induction l with
  | nil => rfl
  | cons c l ih =>
    rw [substitute, List.flatMap_cons, ← substitute]
    rcases code_cases rules c with ⟨hself, hno⟩ | ⟨r, hr, rfl, hcode⟩
    · have hc : c ≠ m := by
        rintro rfl
        obtain ⟨r, hr, hm⟩ := h.escaped
        exact hno r hr hm
      rw [hself, List.singleton_append, h.decode_cons hc, ih]
    · rw [hcode, h.decode_code hr, ih]

end Escaping
