import TestOrch.Backend.StatusRender
import TestOrch.Shared.PyValue

/-!
# Escaping of pushed fragments (`backend/main.py`, `backend/services/status_render.py`)

Both files have the same `_escape`, which replaces the ampersand, `<` and `>` one after the other in
the whole text. Since the ampersand comes first, no replacement touches an entity that was written
before, and the three together are the substitution in one pass that `escape` is
(`escapePasses_eq_escape`). The original text can be read back from the three entities, also if it
has entities of its own.
-/

namespace TestOrch

/-- The three replacements of `_escape`, in their order. -/
def escapePasses (text : String) : String :=
  replace (replace (replace text "&" "&amp;") "<" "&lt;") ">" "&gt;"

def entities : Escaping.Rules Char :=
  [('&', "&amp;".toList), ('<', "&lt;".toList), ('>', "&gt;".toList)]

/-- Read the three entities of a text from left to right. -/
def unescape (text : String) : String := String.ofList (Escaping.decode entities text.toList)

lemma entities_orderly : Escaping.Orderly entities := by
  decide

lemma entities_marked : Escaping.Marked '&' entities where
  escaped := by decide
  head := by decide
  tail := by decide
  prefixFree := by decide

lemma toList_escapePasses (text : String) :
    (escapePasses text).toList = Escaping.substitute entities text.toList := by
  rw [← Escaping.replaceEach_eq_substitute entities_orderly]
  simp only [escapePasses, replace, String.toList_ofList]
  rfl

lemma code_entities (c : Char) : Escaping.code entities c =
    (if c = '&' then "&amp;" else if c = '<' then "&lt;" else if c = '>' then "&gt;"
      else String.singleton c).toList := by
  have hnil : Escaping.code [] c = [c] := by
    rfl
  simp only [entities, Escaping.code_cons, hnil]
  split_ifs
  · rfl
  · rfl
  · rfl
  · simp

/-- Joining without a separator. -/
lemma intercalate_nil_sep {α : Type*} (ls : List (List α)) : [].intercalate ls = ls.flatten := by
  induction ls with
  | nil => rfl
  | cons l ls ih =>
    cases ls with
    | nil => simp
    | cons l' ls => rw [List.intercalate_cons_cons, ih, List.append_nil, ← List.flatten_cons]

lemma toList_escape (text : String) :
    (escape text).toList = Escaping.substitute entities text.toList := by
  have hcode : (String.toList ∘ fun c => if c = '&' then "&amp;" else if c = '<' then "&lt;" else
      if c = '>' then "&gt;" else String.singleton c) = Escaping.code entities := by
    funext c
    exact (code_entities c).symm
  rw [escape, String.toList_intercalate, List.map_map, hcode]
  exact intercalate_nil_sep _

/-- The replacements one after the other are the substitution in one pass. -/
lemma escapePasses_eq_escape (text : String) : escapePasses text = escape text := by
  apply String.toList_inj.mp
  rw [toList_escapePasses, toList_escape]

lemma escapePasses_append (s t : String) :
    escapePasses (s ++ t) = escapePasses s ++ escapePasses t := by
  apply String.toList_inj.mp
  simp only [toList_escapePasses, String.toList_append, Escaping.substitute_append]

lemma unescape_escapePasses (text : String) : unescape (escapePasses text) = text := by
  rw [unescape, toList_escapePasses, entities_marked.decode_substitute, String.ofList_toList]

lemma not_mem_escapePasses {c : Char} (hc : c ∈ ['<', '>']) (text : String) :
    c ∉ (escapePasses text).toList := by
  rw [toList_escapePasses]
  simp only [List.mem_cons, List.not_mem_nil, or_false] at hc
  rcases hc with rfl | rfl <;> exact Escaping.not_mem_substitute (by decide) (by decide)

/-- What `_escape` does to a text, and that it can be undone. -/
theorem escapePasses_spec :
    (∀ text, escapePasses text = escape text) ∧
    (∀ text, '<' ∉ (escapePasses text).toList ∧ '>' ∉ (escapePasses text).toList) ∧
    (∀ text pre post, (escapePasses text).toList = pre ++ '&' :: post →
      ∃ entity ∈ ["&amp;", "&lt;", "&gt;"], entity.toList <+: '&' :: post) ∧
    (∀ s t, escapePasses (s ++ t) = escapePasses s ++ escapePasses t) ∧
    (∀ text, unescape (escapePasses text) = text) ∧
    Function.Injective escapePasses := by
  refine ⟨escapePasses_eq_escape,
    fun text => ⟨not_mem_escapePasses (by decide) text, not_mem_escapePasses (by decide) text⟩, ?_,
    escapePasses_append, unescape_escapePasses, ?_⟩
  · intro text pre post h
    rw [toList_escapePasses] at h
    obtain ⟨r, hr, hpre⟩ := entities_marked.exists_code h
    simp only [entities, List.mem_cons, List.not_mem_nil, or_false] at hr
    rcases hr with rfl | rfl | rfl
    · exact ⟨"&amp;", by decide, hpre⟩
    · exact ⟨"&lt;", by decide, hpre⟩
    · exact ⟨"&gt;", by decide, hpre⟩
  · exact Function.LeftInverse.injective unescape_escapePasses

end TestOrch
