import TestOrch.Core.Separated

/-!
# Lines of a text

Readers differ in what ends a line: a newline, also a carriage return or both of them, or any
character that starts a new line somewhere. Lines that have none of these and are joined with
newlines are read as they were; no reader ever returns a line that has one.
-/

namespace Lines

/-- All characters that end a line for some reader. -/
def boundaries : List Char :=
  ['\n', '\r', '\x0b', '\x0c', '\x1c', '\x1d', '\x1e', '\u0085', '\u2028', '\u2029']

/-- The characters that end a line for a reader. -/
structure Breaks where
  isBreak : Char → Bool
  newline : isBreak '\n' = true
  mem_boundaries : ∀ c, isBreak c = true → c ∈ boundaries

/-- Only a newline ends a line. -/
def Breaks.newlineOnly : Breaks := ⟨(· = '\n'), rfl, by simp [boundaries]⟩

/-- A carriage return before a newline is dropped. -/
def joinCrLf : List Char → List Char
  | [] => []
  | c :: rest => if c = '\r' ∧ rest.head? = some '\n' then joinCrLf rest else c :: joinCrLf rest

/-- The parts between the breaks; a carriage return and a newline are one break. -/
def parts (b : Breaks) (text : List Char) : List (List Char) :=
  (if b.isBreak '\r' then joinCrLf text else text).splitOnP b.isBreak

/-- The lines of a text: nothing follows a break at its end. -/
def lines (b : Breaks) (text : List Char) : List (List Char) :=
  Separated.terminated (parts b text)

/-- No break is in the text. -/
def Unbroken (b : Breaks) (text : List Char) : Prop := ∀ c ∈ text, b.isBreak c = false

variable {b : Breaks}

lemma Unbroken.append {s t : List Char} (hs : Unbroken b s) (ht : Unbroken b t) :
    Unbroken b (s ++ t) := by
  intro c hc
  rcases List.mem_append.mp hc with hc | hc
  · exact hs c hc
  · exact ht c hc

/-- No line that is read has a break. -/
lemma unbroken_of_mem_lines {text line : List Char} (h : line ∈ lines b text) :
    Unbroken b line :=
  Separated.not_of_mem_splitOnP (Separated.terminated_subset _ h)

lemma joinCrLf_of_not_mem {text : List Char} (h : '\r' ∉ text) : joinCrLf text = text := by
  induction text with
  | nil => rfl
  | cons c text ih =>
    rw [List.mem_cons, not_or] at h
    rw [joinCrLf, if_neg fun hno => h.1 hno.1.symm, ih h.2]

/-- Unbroken lines that are not empty are read as they were. -/
lemma lines_intercalate {ws : List (List Char)} (h : ∀ w ∈ ws, w ≠ [] ∧ Unbroken b w) :
    lines b (['\n'].intercalate ws) = ws := by
  by_cases hws : ws = []
  · subst hws
    have hnil : joinCrLf [] = [] := rfl
    simp [lines, Separated.terminated, parts, hnil]
  · have hjoin : (if b.isBreak '\r' then joinCrLf (['\n'].intercalate ws)
        else ['\n'].intercalate ws) = ['\n'].intercalate ws := by
      split_ifs with hcr
      · apply joinCrLf_of_not_mem
        intro hmem
        rcases Separated.mem_intercalate hmem with hno | ⟨w, hw, hmem⟩
        · exact absurd hno (by decide)
        · have hfree := (h w hw).2 _ hmem
          rw [hcr] at hfree
          cases hfree
      · rfl
    have hparts : parts b (['\n'].intercalate ws) = ws := by
      rw [parts, hjoin]
      exact Separated.splitOnP_intercalate b.newline hws fun w hw => (h w hw).2
    rw [lines, hparts, Separated.terminated_of_ne_nil fun w hw => (h w hw).1]

end Lines
