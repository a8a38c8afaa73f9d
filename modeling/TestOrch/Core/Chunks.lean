import Mathlib.Data.Finset.Card
import Mathlib.Order.Monotone.Basic
import TestOrch.Core.Separated

/-!
# Lines from chunks

A text arrives in chunks, and a reader takes each chunk, without the newlines at its end, for one
line. It returns the lines of the text if and only if no chunk has a newline before other text, and
each chunk that has text arrives when as many lines as chunks have ended. The same holds if chunks
and text are decoded, by a decoder that works line by line (`decoded_lines_iff`).
-/

namespace Chunks

variable {α : Type*} [DecidableEq α] {nl : α}

/-- The lines of a text; each is ended by a newline, the last one maybe by the end of the text. -/
def lines (nl : α) (l : List α) : List (List α) := Separated.terminated (l.splitOn nl)

/-- A chunk without the newlines at its end. -/
def textOf (nl : α) (chunk : List α) : List α := chunk.rdropWhile (· = nl)

/-- The newlines before chunk `i`. -/
def before (nl : α) (chunks : List (List α)) (i : ℕ) : ℕ := (chunks.take i).flatten.count nl

/-- Each chunk with text comes when as many lines as chunks have ended, and in the end as many have
ended as there are chunks; only the last may be missing, if its chunk has text. -/
structure Aligned (nl : α) (chunks : List (List α)) : Prop where
  text : ∀ i (h : i < chunks.length), textOf nl chunks[i] ≠ [] → before nl chunks i = i
  total : chunks.flatten.count nl = chunks.length ∨
    chunks.flatten.count nl + 1 = chunks.length ∧
      ∃ chunk, chunks.getLast? = some chunk ∧ textOf nl chunk ≠ []

/-- Line `j` of a text, whose last line may be empty. -/
def lineAt (nl : α) (l : List α) (j : ℕ) : List α := (l.splitOn nl).getD j []

/-! ### The lines of a chunk and what follows -/

lemma length_splitOn (l : List α) : (l.splitOn nl).length = l.count nl + 1 := by
  induction l with
  | nil => rfl
  | cons a l ih =>
    rw [List.splitOn_cons_eq_if_modifyHead]
    by_cases ha : a = nl
    · simp [ha, ih]
    · simp [ha, ih]

lemma lineAt_newline_zero (l : List α) : lineAt nl (nl :: l) 0 = [] := by
  simp [lineAt, List.splitOn_cons_eq_if_modifyHead]

lemma lineAt_newline_succ (l : List α) (j : ℕ) : lineAt nl (nl :: l) (j + 1) = lineAt nl l j := by
  simp [lineAt, List.splitOn_cons_eq_if_modifyHead]

lemma lineAt_cons_zero {a : α} (ha : a ≠ nl) (l : List α) :
    lineAt nl (a :: l) 0 = a :: lineAt nl l 0 := by
  rw [lineAt, lineAt, List.splitOn_cons_eq_if_modifyHead, if_neg (by simpa using ha)]
  cases h : l.splitOn nl with
  | nil => exact absurd h (List.splitOn_ne_nil nl l)
  | cons w ws => rfl

lemma lineAt_cons_succ {a : α} (ha : a ≠ nl) (l : List α) (j : ℕ) :
    lineAt nl (a :: l) (j + 1) = lineAt nl l (j + 1) := by
  rw [lineAt, lineAt, List.splitOn_cons_eq_if_modifyHead, if_neg (by simpa using ha)]
  cases h : l.splitOn nl with
  | nil => exact absurd h (List.splitOn_ne_nil nl l)
  | cons w ws => rfl

lemma lineAt_text_append {t : List α} (ht : nl ∉ t) (l : List α) (j : ℕ) :
    lineAt nl (t ++ l) j = (if j = 0 then t else []) ++ lineAt nl l j := by
  induction t with
  | nil => cases j <;> rfl
  | cons a t ih =>
    rw [List.mem_cons, not_or] at ht
    have ha : a ≠ nl := fun h => ht.1 h.symm
    cases j with
    | zero =>
      rw [List.cons_append, lineAt_cons_zero ha, ih ht.2]
      rfl
    | succ j =>
      rw [List.cons_append, lineAt_cons_succ ha, ih ht.2]
      rfl

lemma lineAt_newlines_append (k : ℕ) (l : List α) (j : ℕ) :
    lineAt nl (List.replicate k nl ++ l) j = if k ≤ j then lineAt nl l (j - k) else [] := by
  induction k generalizing j with
  | zero => simp
  | succ k ih =>
    rw [List.replicate_succ, List.cons_append]
    cases j with
    | zero => rw [lineAt_newline_zero, if_neg (by omega)]
    | succ j =>
      rw [lineAt_newline_succ, ih]
      simp

/-- A chunk is its text and the newlines at its end. -/
lemma exists_textOf_append (nl : α) (chunk : List α) :
    ∃ k, chunk = textOf nl chunk ++ List.replicate k nl := by
  have hend : chunk.rtakeWhile (· = nl) =
      List.replicate (chunk.rtakeWhile (· = nl)).length nl := by
    rw [List.eq_replicate_iff]
    exact ⟨rfl, fun a ha => by simpa using List.mem_rtakeWhile_imp ha⟩
  refine ⟨(chunk.rtakeWhile (· = nl)).length, ?_⟩
  rw [← hend]
  exact List.rdropWhile_append_rtakeWhile.symm

/-- These are all of its newlines, if the text has none. -/
lemma eq_textOf_append {chunk : List α} (h : nl ∉ textOf nl chunk) :
    chunk = textOf nl chunk ++ List.replicate (chunk.count nl) nl := by
  obtain ⟨k, hk⟩ := exists_textOf_append nl chunk
  have hcount : chunk.count nl = k := by
    conv_lhs => rw [hk]
    rw [List.count_append, List.count_eq_zero.mpr h, List.count_replicate_self, Nat.zero_add]
  rwa [hcount]

lemma lineAt_chunk_append {chunk : List α} (h : nl ∉ textOf nl chunk) (l : List α) (j : ℕ) :
    lineAt nl (chunk ++ l) j = (if j = 0 then textOf nl chunk else []) ++
      if chunk.count nl ≤ j then lineAt nl l (j - chunk.count nl) else [] := by
  conv_lhs => rw [eq_textOf_append h]
  rw [List.append_assoc, lineAt_text_append h, lineAt_newlines_append]

lemma before_zero (chunks : List (List α)) : before nl chunks 0 = 0 := by
  rfl

lemma before_cons_succ (chunk : List α) (chunks : List (List α)) (i : ℕ) :
    before nl (chunk :: chunks) (i + 1) = chunk.count nl + before nl chunks i := by
  rw [before, List.take_succ_cons, List.flatten_cons, List.count_append]
  rfl

lemma before_mono (chunks : List (List α)) : Monotone (before nl chunks) := by
  induction chunks with
  | nil =>
    intro i j _
    simp [before]
  | cons chunk chunks ih =>
    intro i j hij
    cases i with
    | zero => exact Nat.zero_le _
    | succ i =>
      cases j with
      | zero => omega
      | succ j =>
        rw [before_cons_succ, before_cons_succ]
        exact Nat.add_le_add_left (ih (Nat.le_of_succ_le_succ hij)) _

variable {chunks : List (List α)}

/-- A line has text if and only if some chunk has text for it. -/
lemma lineAt_ne_nil_iff (h : ∀ chunk ∈ chunks, nl ∉ textOf nl chunk) {j : ℕ} :
    lineAt nl chunks.flatten j ≠ [] ↔
      ∃ i, ∃ hi : i < chunks.length, textOf nl chunks[i] ≠ [] ∧ before nl chunks i = j := by
  induction chunks generalizing j with
  | nil => cases j <;> simp [lineAt]
  | cons chunk chunks ih =>
    obtain ⟨hchunk, hchunks⟩ := List.forall_mem_cons.mp h
    rw [List.flatten_cons, lineAt_chunk_append hchunk, ne_eq, List.append_eq_nil_iff, not_and_or]
    constructor
    · rintro (hfirst | hrest)
      · obtain ⟨rfl, htext⟩ : j = 0 ∧ textOf nl chunk ≠ [] := by simpa using hfirst
        exact ⟨0, Nat.zero_lt_succ _, htext, before_zero _⟩
      · obtain ⟨hle, hline⟩ : chunk.count nl ≤ j ∧
            lineAt nl chunks.flatten (j - chunk.count nl) ≠ [] := by simpa using hrest
        obtain ⟨i, hi, htext, hbefore⟩ := (ih hchunks).mp hline
        refine ⟨i + 1, Nat.succ_lt_succ hi, htext, ?_⟩
        rw [before_cons_succ, hbefore]
        omega
    · rintro ⟨i, hi, htext, hbefore⟩
      cases i with
      | zero =>
        rw [before_zero] at hbefore
        rw [if_pos hbefore.symm]
        exact .inl htext
      | succ i =>
        rw [before_cons_succ] at hbefore
        right
        rw [if_pos (by omega)]
        exact (ih hchunks).mpr ⟨i, Nat.lt_of_succ_lt_succ hi, htext, by omega⟩

/-- A line that only one chunk can have text for is the text of this chunk. -/
lemma lineAt_eq_textOf (h : ∀ chunk ∈ chunks, nl ∉ textOf nl chunk) {j m : ℕ}
    (hm : m < chunks.length) (honly : ∀ i (hi : i < chunks.length), textOf nl chunks[i] ≠ [] →
      (before nl chunks i = j ↔ i = m)) :
    lineAt nl chunks.flatten j = textOf nl chunks[m] := by
  induction chunks generalizing j m with
  | nil => cases hm
  | cons chunk chunks ih =>
    obtain ⟨hchunk, hchunks⟩ := List.forall_mem_cons.mp h
    have hfirst := honly 0 (Nat.zero_lt_succ _)
    have hnext : ∀ i (hi : i < chunks.length), textOf nl chunks[i] ≠ [] →
        (chunk.count nl + before nl chunks i = j ↔ i + 1 = m) := by
      intro i hi htext
      rw [← before_cons_succ]
      exact honly (i + 1) (Nat.succ_lt_succ hi) htext
    rw [before_zero, List.getElem_cons_zero] at hfirst
    rw [List.flatten_cons, lineAt_chunk_append hchunk]
    cases m with
    | zero =>
      -- The line is that of the first chunk, and no later chunk adds text to it.
      have hrest : (if chunk.count nl ≤ j then lineAt nl chunks.flatten (j - chunk.count nl)
          else []) = [] := by
        by_contra hne
        obtain ⟨hle, hline⟩ : chunk.count nl ≤ j ∧
          lineAt nl chunks.flatten (j - chunk.count nl) ≠ [] := by simpa using hne
        obtain ⟨i, hi, htext, hbefore⟩ := (lineAt_ne_nil_iff hchunks).mp hline
        exact absurd ((hnext i hi htext).mp (by omega)) (Nat.succ_ne_zero i)
      rw [hrest, List.append_nil, List.getElem_cons_zero]
      split_ifs with hj
      · rfl
      · by_contra hne
        exact hj ((hfirst (Ne.symm hne)).mpr rfl).symm
    | succ m =>
      have hm : m < chunks.length := Nat.lt_of_succ_lt_succ hm
      -- The line is that of a later chunk, and the first one adds no text.
      have hempty : (if j = 0 then textOf nl chunk else []) = [] := by
        split_ifs with hj
        · by_contra hne
          exact absurd ((hfirst hne).mp hj.symm) (Nat.succ_ne_zero m).symm
        · rfl
      rw [hempty, List.nil_append, List.getElem_cons_succ]
      split_ifs with hle
      · apply ih hchunks hm
        intro i hi htext
        rw [← Nat.succ_inj (b := m), ← hnext i hi htext]
        omega
      · by_contra hne
        have hj := (hnext m hm (Ne.symm hne)).mpr rfl
        omega

/-! ### The lines of a text -/

lemma splitOn_eq (l : List α) :
    l.splitOn nl = (List.range (l.count nl + 1)).map (lineAt nl l) := by
  apply List.ext_getElem
  · rw [length_splitOn, List.length_map, List.length_range]
  · intro j hj hj'
    rw [List.getElem_map, List.getElem_range, lineAt, List.getD_eq_getElem?_getD,
      List.getElem?_eq_getElem hj, Option.getD_some]

/-- The last line counts if it has text. -/
lemma lines_eq (l : List α) : lines nl l =
    (List.range (if lineAt nl l (l.count nl) = [] then l.count nl else l.count nl + 1)).map
      (lineAt nl l) := by
  have hsplit : l.splitOn nl = (List.range (l.count nl)).map (lineAt nl l) ++
      [lineAt nl l (l.count nl)] := by
    rw [splitOn_eq, List.range_succ, List.map_append, List.map_singleton]
  rw [lines, Separated.terminated, hsplit, List.getLast?_concat]
  split_ifs with hlast
  · rw [hlast, List.dropLast_concat]
  · split
    · next heq => exact absurd (Option.some.inj heq) hlast
    · rw [List.range_succ, List.map_append, List.map_singleton]

lemma le_count_of_lineAt {l : List α} {j : ℕ} (h : lineAt nl l j ≠ []) : j ≤ l.count nl := by
  by_contra hj
  apply h
  rw [lineAt, List.getD_eq_getElem?_getD, List.getElem?_eq_none (by rw [length_splitOn]; omega),
    Option.getD_none]

/-- A monotone map of finitely many numbers onto themselves is the identity. -/
lemma eq_self_of_surjOn {S : Finset ℕ} {f : ℕ → ℕ} (hmono : Monotone f) (hmaps : Set.MapsTo f S S)
    (hsurj : Set.SurjOn f S S) : ∀ i ∈ S, f i = i := by
  have hinj := Finset.injOn_of_surjOn_of_card_le f hmaps hsurj le_rfl
  intro i
  induction i using Nat.strongRecOn with
  | ind i ih =>
    intro hi
    rcases lt_trichotomy (f i) i with hlt | heq | hgt
    · -- the value is a fixed point below
      have hfix := ih (f i) hlt (hmaps hi)
      exact absurd (hinj (hmaps hi) hi hfix) hlt.ne
    · exact heq
    · -- then nothing is mapped to `i`
      obtain ⟨k, hk, hki⟩ := hsurj hi
      rcases lt_trichotomy k i with hlt | rfl | hgt'
      · exact absurd (hki.symm.trans (ih k hlt hk)) hlt.ne'
      · exact hki
      · exact absurd (hmono hgt'.le) (by omega)

/-! ### When the chunks are the lines -/

/-- Chunks that are blank where the lines are blank are aligned. -/
theorem aligned_of_blank (h : ∀ chunk ∈ chunks, nl ∉ textOf nl chunk)
    (hblank : (lines nl chunks.flatten).map List.isEmpty =
      chunks.map fun chunk => (textOf nl chunk).isEmpty) : Aligned nl chunks := by
  have hlength := congrArg List.length hblank
  rw [lines_eq, List.length_map, List.length_map, List.length_range, List.length_map] at hlength
  have hline : ∀ j (hj : j < chunks.length),
      lineAt nl chunks.flatten j ≠ [] ↔ textOf nl chunks[j] ≠ [] := by
    intro j hj
    have hget : ((lines nl chunks.flatten).map List.isEmpty)[j]? =
        (chunks.map fun chunk => (textOf nl chunk).isEmpty)[j]? := by rw [hblank]
    rw [lines_eq, List.map_map, List.getElem?_map, List.getElem?_range (by omega),
      List.getElem?_map, List.getElem?_eq_getElem hj] at hget
    have heq : (lineAt nl chunks.flatten j).isEmpty = (textOf nl chunks[j]).isEmpty :=
      Option.some.inj hget
    rw [ne_eq, ne_eq, ← List.isEmpty_iff, ← List.isEmpty_iff, heq]
  -- The lines with text are as many as the chunks with text, and in the same places.
  let S := (Finset.range chunks.length).filter fun i => lineAt nl chunks.flatten i ≠ []
  have hS : ∀ {i}, i ∈ S ↔ i < chunks.length ∧ lineAt nl chunks.flatten i ≠ [] := by
    intro i
    rw [Finset.mem_filter, Finset.mem_range]
  have hlt : ∀ {j}, lineAt nl chunks.flatten j ≠ [] → j < chunks.length := by
    intro j hj
    have hle := le_count_of_lineAt hj
    split_ifs at hlength with hlast
    · rcases hle.eq_or_lt with rfl | hlt
      · exact absurd hlast hj
      · omega
    · omega
  have hmaps : Set.MapsTo (before nl chunks) S S := by
    intro i hi
    obtain ⟨hi, htext⟩ := hS.mp hi
    have hne : lineAt nl chunks.flatten (before nl chunks i) ≠ [] :=
      (lineAt_ne_nil_iff h).mpr ⟨i, hi, (hline i hi).mp htext, rfl⟩
    exact hS.mpr ⟨hlt hne, hne⟩
  have hsurj : Set.SurjOn (before nl chunks) S S := by
    intro j hj
    obtain ⟨i, hi, htext, rfl⟩ := (lineAt_ne_nil_iff h).mp (hS.mp hj).2
    exact ⟨i, hS.mpr ⟨hi, (hline i hi).mpr htext⟩, rfl⟩
  have hself := eq_self_of_surjOn (before_mono chunks) hmaps hsurj
  constructor
  · exact fun i hi htext => hself i (hS.mpr ⟨hi, (hline i hi).mpr htext⟩)
  · split_ifs at hlength with hlast
    · exact .inl hlength
    · obtain ⟨i, hi, htext, hbefore⟩ := (lineAt_ne_nil_iff h).mp hlast
      have hfix := hself i (hS.mpr ⟨hi, (hline i hi).mpr htext⟩)
      refine .inr ⟨hlength, chunks[i], ?_, htext⟩
      rw [List.getLast?_eq_getElem?, List.getElem?_eq_getElem (by omega)]
      congr 2
      omega

/-- The texts of aligned chunks are the lines. -/
theorem lines_of_aligned (h : ∀ chunk ∈ chunks, nl ∉ textOf nl chunk) (halign : Aligned nl chunks) :
    lines nl chunks.flatten = chunks.map (textOf nl) := by
  -- First there are as many lines as chunks.
  have hlength : (if lineAt nl chunks.flatten (chunks.flatten.count nl) = [] then
      chunks.flatten.count nl else chunks.flatten.count nl + 1) = chunks.length := by
    rcases halign.total with htotal | ⟨htotal, chunk, hlast, htext⟩
    · rw [if_pos, htotal]
      by_contra hne
      obtain ⟨i, hi, htext, hbefore⟩ := (lineAt_ne_nil_iff h).mp hne
      rw [halign.text i hi htext] at hbefore
      omega
    · have hi : chunks.flatten.count nl < chunks.length := by omega
      have hchunk : chunks[chunks.flatten.count nl] = chunk := by
        rw [List.getLast?_eq_getElem?, List.getElem?_eq_getElem (by omega)] at hlast
        rw [← Option.some.inj hlast]
        congr 1
        omega
      rw [← hchunk] at htext
      rw [if_neg, htotal]
      exact (lineAt_ne_nil_iff h).mpr ⟨_, hi, htext, halign.text _ hi htext⟩
  rw [lines_eq, hlength]
  apply List.ext_getElem
  · rw [List.length_map, List.length_map, List.length_range]
  · intro j hj hj'
    rw [List.length_map] at hj'
    rw [List.getElem_map, List.getElem_range, List.getElem_map]
    apply lineAt_eq_textOf h hj'
    intro i hi htext
    rw [halign.text i hi htext]

/-! ### Decoded chunks -/

/-- A decoder that works line by line and gives something for every text that is not empty. -/
structure Decoder {β : Type*} (nl : α) (nl' : β) (d : List α → List β) : Prop where
  newline : ∀ a b, d (a ++ nl :: b) = d a ++ nl' :: d b
  free : ∀ a, nl ∉ a → nl' ∉ d a
  blank : ∀ a, d a = [] ↔ a = []

section Decoding

variable {β : Type*} {nl' : β} {d : List α → List β}

omit [DecidableEq α] in
lemma Decoder.mem (hd : Decoder nl nl' d) {l : List α} (h : nl ∈ l) : nl' ∈ d l := by
  obtain ⟨a, b, rfl⟩ := List.append_of_mem h
  rw [hd.newline]
  exact List.mem_append_right _ List.mem_cons_self

omit [DecidableEq α] in
lemma Decoder.intercalate (hd : Decoder nl nl' d) (ws : List (List α)) :
    d ([nl].intercalate ws) = [nl'].intercalate (ws.map d) := by
  induction ws with
  | nil => exact (hd.blank _).mpr rfl
  | cons w ws ih =>
    cases ws with
    | nil => rw [List.map_singleton, List.intercalate_singleton, List.intercalate_singleton]
    | cons v ws =>
      rw [List.map_cons] at ih
      rw [List.map_cons, List.map_cons, List.intercalate_cons_cons, List.intercalate_cons_cons,
        List.append_assoc, List.singleton_append, hd.newline, ih, List.append_assoc,
        List.singleton_append]

/-- What is decoded ends with a newline only if the text does. -/
lemma Decoder.getLast?_ne (hd : Decoder nl nl' d) {t : List α} (ht : t.getLast? ≠ some nl) :
    (d t).getLast? ≠ some nl' := by
  by_cases hmem : nl ∈ t
  · -- after the last newline there is more
    obtain ⟨a, w, rfl, hw⟩ : ∃ a w, t = a ++ nl :: w ∧ nl ∉ w := by
      have hrev := List.mem_reverse.mpr hmem
      obtain ⟨w, a, ha, hw⟩ := List.eq_append_cons_of_mem hrev
      refine ⟨a.reverse, w.reverse, ?_, by simpa using hw⟩
      rw [← List.reverse_inj, ha]
      simp
    have hne : w ≠ [] := by
      rintro rfl
      exact ht (by simp)
    obtain ⟨b, l, hb⟩ := List.exists_cons_of_ne_nil (mt (hd.blank w).mp hne)
    intro hlast
    rw [hd.newline, hb, List.getLast?_append_of_ne_nil _ (List.cons_ne_nil _ _),
      List.getLast?_cons_cons] at hlast
    have hfree := hd.free w hw
    rw [hb] at hfree
    exact hfree (List.mem_of_getLast? hlast)
  · exact fun hlast => hd.free t hmem (List.mem_of_getLast? hlast)

variable [DecidableEq β]

lemma Decoder.splitOn (hd : Decoder nl nl' d) (l : List α) :
    (d l).splitOn nl' = (l.splitOn nl).map d := by
  have hjoin := hd.intercalate (l.splitOn nl)
  rw [List.intercalate_splitOn] at hjoin
  rw [hjoin]
  apply List.splitOn_intercalate
  · intro part hpart
    obtain ⟨w, hw, rfl⟩ := List.mem_map.mp hpart
    exact hd.free w (Separated.not_mem_of_mem_splitOn hw)
  · simp

/-- The lines of a decoded text are the decoded lines. -/
lemma Decoder.lines (hd : Decoder nl nl' d) (l : List α) :
    Chunks.lines nl' (d l) = (Chunks.lines nl l).map d := by
  rw [Chunks.lines, Chunks.lines, hd.splitOn, Separated.terminated_map hd.blank]

/-- The text of a decoded chunk is its decoded text. -/
lemma Decoder.textOf (hd : Decoder nl nl' d) (chunk : List α) :
    Chunks.textOf nl' (d chunk) = d (Chunks.textOf nl chunk) := by
  -- Newlines at the end stay newlines at the end, one by one.
  have hnewlines : ∀ t k, d (t ++ List.replicate k nl) = d t ++ List.replicate k nl' := by
    intro t k
    induction k generalizing t with
    | zero => simp
    | succ k ih =>
      have hnil : d [] = [] := (hd.blank []).mpr rfl
      have hlast : ∀ u, d (u ++ [nl]) = d u ++ [nl'] := fun u => by rw [hd.newline, hnil]
      rw [List.replicate_succ', ← List.append_assoc, hlast, ih, List.replicate_succ',
        List.append_assoc]
  obtain ⟨k, hk⟩ := exists_textOf_append nl chunk
  have hdrop : ∀ l : List β, (l ++ List.replicate k nl').rdropWhile (· = nl') =
      l.rdropWhile (· = nl') := by
    intro l
    simp [List.rdropWhile]
  conv_lhs => rw [hk]
  rw [hnewlines, Chunks.textOf, hdrop, List.rdropWhile_eq_self_iff]
  -- What is before them ends with something else, and so does what is decoded of it.
  have hend : (Chunks.textOf nl chunk).getLast? ≠ some nl := by
    intro hlast
    have hne : chunk.rdropWhile (· = nl) ≠ [] := List.ne_nil_of_mem (List.mem_of_getLast? hlast)
    have hnot := List.rdropWhile_last_not _ _ hne
    rw [Chunks.textOf, List.getLast?_eq_getLast_of_ne_nil hne] at hlast
    simp [Option.some.inj hlast] at hnot
  intro hne hlast
  apply hd.getLast?_ne hend
  rw [List.getLast?_eq_getLast_of_ne_nil hne]
  simpa using hlast

/-- Decoded chunk by chunk, the texts are the lines of the decoded text exactly if no chunk has a
newline before other text and the chunks are aligned. -/
theorem decoded_lines_iff (hd : Decoder nl nl' d) (chunks : List (List α)) :
    (chunks.map fun chunk => textOf nl' (d chunk)) = lines nl' (d chunks.flatten) ↔
      (∀ chunk ∈ chunks, nl ∉ textOf nl chunk) ∧ Aligned nl chunks := by
  have hisEmpty : ∀ l, (d l).isEmpty = l.isEmpty := fun l => by
    rw [Bool.eq_iff_iff, List.isEmpty_iff, List.isEmpty_iff, hd.blank]
  simp only [hd.textOf, hd.lines]
  constructor
  · intro heq
    have hfree : ∀ chunk ∈ chunks, nl ∉ textOf nl chunk := by
      intro chunk hchunk hmem
      have htext : d (textOf nl chunk) ∈ (lines nl chunks.flatten).map d := by
        rw [← heq]
        exact List.mem_map_of_mem hchunk
      obtain ⟨line, hline, hsame⟩ := List.mem_map.mp htext
      have hline := Separated.not_mem_of_mem_splitOn (Separated.terminated_subset _ hline)
      exact hd.free line hline (hsame ▸ hd.mem hmem)
    refine ⟨hfree, aligned_of_blank hfree ?_⟩
    have hblank := congrArg (List.map List.isEmpty) heq
    simpa [Function.comp_def, hisEmpty] using hblank.symm
  · rintro ⟨hfree, halign⟩
    rw [lines_of_aligned hfree halign, List.map_map]
    rfl

end Decoding

end Chunks
