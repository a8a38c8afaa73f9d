import Mathlib.Data.List.DropRight

/-!
# Separated pieces

A text is split at a separator, each part is trimmed, and the empty ones are left out. The pieces
that are read this way can be joined with the separator, and are read again from the joined text.
-/

namespace Separated

variable {α : Type*}

/-- Drop the elements with `space` at both ends. -/
def trim (space : α → Bool) (l : List α) : List α := (l.dropWhile space).rdropWhile space

/-- The trimmed parts between separators that are not empty. -/
def pieces [DecidableEq α] (sep : α) (space : α → Bool) (l : List α) : List (List α) :=
  ((l.splitOn sep).map (trim space)).filter (· ≠ [])

/-- The parts of a text whose separators end them: what follows the last one is a part only if it
is not empty. -/
def terminated (parts : List (List α)) : List (List α) :=
  match parts.getLast? with
  | some [] => parts.dropLast
  | _ => parts

variable {sep : α} {space : α → Bool} {l : List α}

@[simp] lemma trim_nil : trim space [] = [] := by
  rfl

lemma trim_subset : trim space l ⊆ l :=
  List.Subset.trans (List.rdropWhile_prefix _ _).subset (List.dropWhile_suffix _).subset

/-- Nothing is left to trim. -/
lemma trim_trim : trim space (trim space l) = trim space l := by
  have hhead : (trim space l).dropWhile space = trim space l := by
    cases h : trim space l with
    | nil => rfl
    | cons a w =>
      -- what is left begins like the text after the first trimming
      obtain ⟨rest, hrest⟩ := List.rdropWhile_prefix space (l.dropWhile space)
      have ha := List.head?_dropWhile_not space l
      rw [← hrest, ← trim, h] at ha
      exact List.dropWhile_cons_of_neg (by simpa using ha)
  rw [trim, hhead, trim, List.rdropWhile_idempotent]

/-- Between spaces on both sides a text that has none at its ends is what trimming leaves. -/
lemma trim_append {before body after : List α} (hbefore : ∀ a ∈ before, space a)
    (hafter : ∀ a ∈ after, space a) (hhead : ∃ a l, body = a :: l ∧ space a = false)
    (hlast : ∃ l a, body = l ++ [a] ∧ space a = false) :
    trim space (before ++ body ++ after) = body := by
  have hleft : (before ++ body ++ after).dropWhile space = body ++ after := by
    obtain ⟨a, l, rfl, ha⟩ := hhead
    rw [List.append_assoc, List.dropWhile_append_of_pos hbefore, List.cons_append,
      List.dropWhile_cons_of_neg (by simp [ha])]
  obtain ⟨l, a, rfl, ha⟩ := hlast
  rw [trim, hleft, List.rdropWhile, List.reverse_append,
    List.dropWhile_append_of_pos fun a ha => hafter a (List.mem_reverse.mp ha),
    List.reverse_append, List.reverse_singleton, List.singleton_append,
    List.dropWhile_cons_of_neg (by simp [ha])]
  simp

/-- A text is what trimming leaves of it, between spaces. -/
lemma exists_trim (space : α → Bool) (l : List α) :
    ∃ before after, l = before ++ trim space l ++ after ∧ (∀ a ∈ before, space a) ∧
      ∀ a ∈ after, space a := by
  refine ⟨l.takeWhile space, (l.dropWhile space).rtakeWhile space, ?_,
    fun _ => List.mem_takeWhile_imp, fun _ => List.mem_rtakeWhile_imp⟩
  rw [List.append_assoc, trim, List.rdropWhile_append_rtakeWhile, List.takeWhile_append_dropWhile]

/-- Words joined with a separator begin like the first of them and end like the last. -/
lemma exists_intercalate (sep : α) {p : α → Prop} {ws : List (List α)} (hws : ws ≠ [])
    (h : ∀ w ∈ ws, w ≠ [] ∧ ∀ a ∈ w, p a) :
    (∃ a l, [sep].intercalate ws = a :: l ∧ p a) ∧
      ∃ l a, [sep].intercalate ws = l ++ [a] ∧ p a := by
  induction ws with
  | nil => exact absurd rfl hws
  | cons w ws ih =>
    obtain ⟨hne, hp⟩ := h w List.mem_cons_self
    obtain ⟨a, w', rfl⟩ := List.exists_cons_of_ne_nil hne
    cases ws with
    | nil =>
      have hlast := List.dropLast_append_getLast hne
      refine ⟨⟨a, w', by simp [List.intercalate], hp a List.mem_cons_self⟩, (a :: w').dropLast,
        (a :: w').getLast hne, ?_, hp _ (List.getLast_mem hne)⟩
      rw [hlast]
      simp [List.intercalate]
    | cons v ws =>
      have hstep : [sep].intercalate ((a :: w') :: v :: ws) =
          (a :: w') ++ sep :: [sep].intercalate (v :: ws) := by
        rw [List.intercalate_cons_cons, List.append_assoc, List.singleton_append]
      obtain ⟨-, l, b, hl, hb⟩ := ih (List.cons_ne_nil _ _) fun w hw =>
        h w (List.mem_cons_of_mem _ hw)
      refine ⟨⟨a, _, hstep, hp a List.mem_cons_self⟩, (a :: w') ++ sep :: l, b, ?_, hb⟩
      rw [hstep, hl]
      simp

lemma terminated_subset (parts : List (List α)) : terminated parts ⊆ parts := by
  unfold terminated
  split
  · exact List.dropLast_subset parts
  · exact List.Subset.refl parts

lemma terminated_of_ne_nil {parts : List (List α)} (h : ∀ p ∈ parts, p ≠ []) :
    terminated parts = parts := by
  unfold terminated
  split
  · next hlast => exact absurd rfl (h [] (List.mem_of_getLast? hlast))
  · rfl

lemma terminated_map {β : Type*} {f : List α → List β} (hf : ∀ l, f l = [] ↔ l = [])
    (parts : List (List α)) : terminated (parts.map f) = (terminated parts).map f := by
  unfold terminated
  rw [List.getLast?_map]
  cases parts.getLast? with
  | none => rfl
  | some last =>
    cases last with
    | nil =>
      rw [Option.map_some, (hf []).mpr rfl]
      exact List.map_dropLast.symm
    | cons a l =>
      rw [Option.map_some]
      split
      · next heq => exact absurd ((hf _).mp (Option.some.inj heq)) (List.cons_ne_nil a l)
      · rfl

/-- No part of a split text has an element to split at. -/
lemma not_of_mem_splitOnP {p : α → Bool} {v : List α} (h : v ∈ l.splitOnP p) :
    ∀ a ∈ v, p a = false := by
  induction l generalizing v with
  | nil =>
    rw [List.splitOnP_nil, List.mem_singleton] at h
    simp [h]
  | cons a l ih =>
    rw [List.splitOnP_cons_eq_if_modifyHead] at h
    split_ifs at h with ha
    · rcases List.mem_cons.mp h with rfl | h
      · simp
      · exact ih h
    · cases hl : l.splitOnP p with
      | nil => exact absurd hl (List.splitOnP_ne_nil p l)
      | cons w ws =>
        rw [hl] at h ih
        rcases List.mem_cons.mp h with rfl | h
        · exact List.forall_mem_cons.mpr ⟨by simpa using ha, ih List.mem_cons_self⟩
        · exact ih (List.mem_cons_of_mem w h)

/-- Words without an element to split at are the parts of the text in which they are joined. -/
lemma splitOnP_intercalate {p : α → Bool} (hsep : p sep = true) {ws : List (List α)}
    (hws : ws ≠ []) (h : ∀ w ∈ ws, ∀ a ∈ w, p a = false) :
    ([sep].intercalate ws).splitOnP p = ws := by
  induction ws with
  | nil => exact absurd rfl hws
  | cons w ws ih =>
    have hw := h w List.mem_cons_self
    cases ws with
    | nil =>
      rw [List.intercalate_singleton]
      exact List.splitOnP_eq_singleton hw
    | cons v ws =>
      rw [List.intercalate_cons_cons, List.append_assoc, List.singleton_append,
        List.splitOnP_append_cons_of_forall_mem hw _ hsep,
        ih (List.cons_ne_nil v ws) fun w hw => h w (List.mem_cons_of_mem _ hw)]

/-- What is in a joined text is the separator or in one of the words. -/
lemma mem_intercalate {a : α} {ws : List (List α)} (h : a ∈ [sep].intercalate ws) :
    a = sep ∨ ∃ w ∈ ws, a ∈ w := by
  induction ws with
  | nil => cases h
  | cons w ws ih =>
    cases ws with
    | nil =>
      rw [List.intercalate_singleton] at h
      exact .inr ⟨w, List.mem_cons_self, h⟩
    | cons v ws =>
      rw [List.intercalate_cons_cons, List.mem_append, List.mem_append, List.mem_singleton] at h
      rcases h with (h | h) | h
      · exact .inr ⟨w, List.mem_cons_self, h⟩
      · exact .inl h
      · rcases ih h with h | ⟨u, hu, h⟩
        · exact .inl h
        · exact .inr ⟨u, List.mem_cons_of_mem w hu, h⟩

/-- A text is cut at the first element that is not one of those in front. -/
lemma append_cons_inj {p : α → Prop} {s t m : List α} {a b : α} (hs : ∀ c ∈ s, p c)
    (ht : ∀ c ∈ t, p c) (ha : ¬ p a) (hb : ¬ p b) (h : s ++ a :: l = t ++ b :: m) :
    s = t ∧ a = b ∧ l = m := by
  induction s generalizing t with
  | nil =>
    cases t with
    | nil => simpa using h
    | cons c t =>
      obtain ⟨rfl, -⟩ := List.cons.inj h
      exact absurd (ht a List.mem_cons_self) ha
  | cons c s ih =>
    cases t with
    | nil =>
      obtain ⟨rfl, -⟩ := List.cons.inj h
      exact absurd (hs c List.mem_cons_self) hb
    | cons d t =>
      obtain ⟨rfl, htail⟩ := List.cons.inj h
      obtain ⟨rfl, hrest⟩ := ih (fun c hc => hs c (List.mem_cons_of_mem _ hc))
        (fun c hc => ht c (List.mem_cons_of_mem _ hc)) htail
      exact ⟨rfl, hrest⟩

/-- No part of a split text has the separator. -/
lemma not_mem_of_mem_splitOn [DecidableEq α] {v : List α} (h : v ∈ l.splitOn sep) : sep ∉ v := by
  rw [List.splitOn_eq_splitOnP] at h
  intro hsep
  simpa using not_of_mem_splitOnP h sep hsep

variable [DecidableEq α]

lemma mem_pieces {w : List α} :
    w ∈ pieces sep space l ↔ (∃ v ∈ l.splitOn sep, trim space v = w) ∧ w ≠ [] := by
  simp [pieces]

/-- A piece has no separator. -/
lemma sep_not_mem_of_mem_pieces {w : List α} (h : w ∈ pieces sep space l) : sep ∉ w := by
  obtain ⟨⟨v, hv, rfl⟩, -⟩ := mem_pieces.mp h
  intro hsep
  exact not_mem_of_mem_splitOn hv (trim_subset hsep)

lemma trim_of_mem_pieces {w : List α} (h : w ∈ pieces sep space l) : trim space w = w := by
  obtain ⟨⟨v, -, rfl⟩, -⟩ := mem_pieces.mp h
  exact trim_trim

/-- Trimmed words without separators are the pieces of the joined text. -/
lemma pieces_intercalate {ws : List (List α)} (hsep : ∀ w ∈ ws, sep ∉ w)
    (htrim : ∀ w ∈ ws, trim space w = w) (hne : ∀ w ∈ ws, w ≠ []) :
    pieces sep space ([sep].intercalate ws) = ws := by
  cases ws with
  | nil => simp [pieces]
  | cons w ws =>
    have hmap : (w :: ws).map (trim space) = w :: ws := by
      conv_rhs => rw [← List.map_id (w :: ws)]
      exact List.map_congr_left htrim
    rw [pieces, List.splitOn_intercalate sep hsep (List.cons_ne_nil w ws), hmap,
      List.filter_eq_self]
    simpa using hne

/-- The pieces of a text are read again when they are joined. -/
theorem pieces_join (l : List α) :
    pieces sep space ([sep].intercalate (pieces sep space l)) = pieces sep space l :=
  pieces_intercalate (fun _ => sep_not_mem_of_mem_pieces) (fun _ => trim_of_mem_pieces)
    fun _ h => (mem_pieces.mp h).2

end Separated
