import Mathlib.Data.List.Basic

/-!
# The angle brackets of a text

`angles l` are the characters `<` and `>` of a text, in order. A text that is put together from
parts has those of its parts, so a writer that leaves them out, or keeps them, does so for a whole
text if it does for each character.
-/

namespace Markup

/-- The angle brackets of a text. -/
def angles (l : List Char) : List Char := l.filter fun c => c = '<' || c = '>'

variable {l l' : List Char} {c : Char}

@[simp] lemma angles_nil : angles [] = [] := by
  rfl

@[simp] lemma angles_append : angles (l ++ l') = angles l ++ angles l' :=
  List.filter_append ..

lemma angles_cons : angles (c :: l) = angles [c] ++ angles l := by
  rw [← angles_append, List.singleton_append]

lemma angles_singleton (h₁ : c ≠ '<') (h₂ : c ≠ '>') : angles [c] = [] := by
  simp [angles, h₁, h₂]

lemma angles_cons_of_ne (h₁ : c ≠ '<') (h₂ : c ≠ '>') : angles (c :: l) = angles l := by
  rw [angles_cons, angles_singleton h₁ h₂, List.nil_append]

lemma angles_eq_nil : angles l = [] ↔ ∀ c ∈ l, c ≠ '<' ∧ c ≠ '>' := by
  simp [angles, List.filter_eq_nil_iff]

lemma angles_eq_nil_of_subset (h : l ⊆ l') (hl' : angles l' = []) : angles l = [] := by
  rw [angles_eq_nil] at hl' ⊢
  intro c hc
  exact hl' c (h hc)

lemma angles_replicate (n : ℕ) (h : angles [c] = []) : angles (List.replicate n c) = [] := by
  apply angles_eq_nil_of_subset _ h
  intro d hd
  rw [List.eq_of_mem_replicate hd]
  exact List.mem_singleton_self c

lemma angles_leftpad (n : ℕ) (h : angles [c] = []) : angles (l.leftpad n c) = angles l := by
  rw [List.leftpad, angles_append, angles_replicate _ h, List.nil_append]

/-- A writer that keeps the brackets of each character keeps those of a text. -/
lemma angles_flatMap_eq {f : Char → List Char} (h : ∀ c, angles (f c) = angles [c]) :
    angles (l.flatMap f) = angles l := by
  induction l with
  | nil => rfl
  | cons c l ih => rw [List.flatMap_cons, angles_append, h, ih, ← angles_cons]

lemma angles_intercalate {sep : List Char} (hsep : angles sep = []) (ls : List (List Char)) :
    angles (sep.intercalate ls) = ls.flatMap angles := by
  induction ls with
  | nil => rfl
  | cons l ls ih =>
    cases ls with
    | nil => simp
    | cons l' ls =>
      rw [List.intercalate_cons_cons, angles_append, angles_append, hsep, ih, List.append_nil,
        ← List.flatMap_cons]

/-- The digits of a number are no brackets. -/
lemma angles_toDigits {b : ℕ} (hb : 1 < b) (n : ℕ) : angles (Nat.toDigits b n) = [] := by
  induction n using Nat.strongRecOn with
  | ind n ih =>
    have hdigit : ∀ d, angles [Nat.digitChar d] = [] := fun d =>
      angles_singleton (Nat.digitChar_ne '<' (by decide)) (Nat.digitChar_ne '>' (by decide))
    rw [Nat.toDigits_eq_if hb]
    split_ifs with hlt
    · apply hdigit
    · have hless : n / b < n := Nat.div_lt_self (by omega) hb
      rw [angles_append, ih _ hless, hdigit, List.append_nil]

end Markup
