import TestOrch.Core.Separated
import TestOrch.Core.Utf8

/-!
# The syntax that LDAP texts share

Attribute descriptions (RFC 4512), pairs of hexadecimal digits, and texts in which a backslash
begins what stands for something else. An escape is longer than what it stands for, so a text
stands for its own octets if and only if it has none (`Reading.eq_iff`).
-/

namespace LdapSyntax

/-! ### Attribute descriptions -/

/-- A character of a key string. -/
def IsKeychar (c : Char) : Prop := c.isAlphanum ∨ c = '-'

/-- A short name of an attribute type. -/
def IsDescr (l : List Char) : Prop := ∃ a m, l = a :: m ∧ a.isAlpha ∧ ∀ c ∈ m, IsKeychar c

/-- A number without leading zeros. -/
def IsNumber (l : List Char) : Prop :=
  l ≠ [] ∧ (∀ c ∈ l, c.isDigit) ∧ (l.head? = some '0' → l = ['0'])

/-- An object identifier, by name or by its two or more numbers. -/
def IsOid (l : List Char) : Prop :=
  IsDescr l ∨
    ∃ n n' ns, (∀ m ∈ n :: n' :: ns, IsNumber m) ∧ l = ['.'].intercalate (n :: n' :: ns)

def IsOption (l : List Char) : Prop := l ≠ [] ∧ ∀ c ∈ l, IsKeychar c

/-- An attribute type with options. -/
def IsAttributeDescription (l : List Char) : Prop :=
  ∃ oid, ∃ options : List (List Char),
    IsOid oid ∧ (∀ o ∈ options, IsOption o) ∧ l = oid ++ options.flatMap (';' :: ·)

/-- A character that may stand in an attribute description. -/
def IsAttributeChar (c : Char) : Prop := IsKeychar c ∨ c = '.' ∨ c = ';'

instance : DecidablePred IsKeychar := fun c => inferInstanceAs (Decidable (c.isAlphanum ∨ c = '-'))

instance : DecidablePred IsAttributeChar := fun c =>
  inferInstanceAs (Decidable (IsKeychar c ∨ c = '.' ∨ c = ';'))

lemma isKeychar_of_isDigit {c : Char} (h : c.isDigit) : IsKeychar c := by
  left
  simp [Char.isAlphanum, h]

lemma IsOid.ne_nil {l : List Char} (h : IsOid l) : l ≠ [] := by
  rcases h with ⟨a, m, rfl, -, -⟩ | ⟨n, n', ns, -, rfl⟩
  · exact List.cons_ne_nil a m
  · rw [List.intercalate_cons_cons]
    simp

lemma IsOid.chars {l : List Char} (h : IsOid l) : ∀ c ∈ l, IsAttributeChar c := by
  rcases h with ⟨a, m, rfl, ha, hm⟩ | ⟨n, n', ns, hns, rfl⟩
  · refine List.forall_mem_cons.mpr ⟨.inl (.inl ?_), fun c hc => .inl (hm c hc)⟩
    simp [Char.isAlphanum, ha]
  · intro c hc
    rcases Separated.mem_intercalate hc with rfl | ⟨m, hm, hcm⟩
    · exact .inr (.inl rfl)
    · exact .inl (isKeychar_of_isDigit ((hns m hm).2.1 c hcm))

lemma IsOid.isAttributeDescription {l : List Char} (h : IsOid l) : IsAttributeDescription l :=
  ⟨l, [], h, by simp, by simp⟩

lemma IsAttributeDescription.ne_nil {l : List Char} (h : IsAttributeDescription l) : l ≠ [] := by
  obtain ⟨oid, options, hoid, -, rfl⟩ := h
  exact List.append_ne_nil_of_left_ne_nil hoid.ne_nil _

lemma IsAttributeDescription.chars {l : List Char} (h : IsAttributeDescription l) :
    ∀ c ∈ l, IsAttributeChar c := by
  obtain ⟨oid, options, hoid, hoptions, rfl⟩ := h
  intro c hc
  rcases List.mem_append.mp hc with hc | hc
  · exact hoid.chars c hc
  · obtain ⟨o, ho, hc⟩ := List.mem_flatMap.mp hc
    rcases List.mem_cons.mp hc with rfl | hc
    · exact .inr (.inr rfl)
    · exact .inl ((hoptions o ho).2 c hc)

/-! ### Escapes -/

/-- The value of a hexadecimal digit. -/
def hexValue? (c : Char) : Option ℕ :=
  if '0' ≤ c ∧ c ≤ '9' then some (c.toNat - '0'.toNat)
  else if 'A' ≤ c ∧ c ≤ 'F' then some (c.toNat - 'A'.toNat + 10)
  else if 'a' ≤ c ∧ c ≤ 'f' then some (c.toNat - 'a'.toNat + 10)
  else none

/-- Two hexadecimal digits are an octet. -/
inductive IsHexpair : List Char → UInt8 → Prop
  | digits {a b : Char} {m n : ℕ} (ha : hexValue? a = some m) (hb : hexValue? b = some n) :
      IsHexpair [a, b] (UInt8.ofNat (16 * m + n))

/-- A text stands for octets: for its own if no escape is in it, for fewer otherwise. -/
def Reading (l : List Char) (o : List UInt8) : Prop :=
  '\\' ∉ l ∧ o = Utf8.encode l ∨ '\\' ∈ l ∧ o.length < (Utf8.encode l).length

namespace Reading

lemma nil : Reading [] [] := .inl ⟨List.not_mem_nil, rfl⟩

lemma char {c : Char} (hc : c ≠ '\\') : Reading [c] (String.utf8EncodeChar c) := by
  refine .inl ⟨by simpa using hc.symm, ?_⟩
  rw [Utf8.encode_singleton]

lemma escape {l : List Char} {o : List UInt8} (h : o.length ≤ (Utf8.encode l).length) :
    Reading ('\\' :: l) o := by
  refine .inr ⟨List.mem_cons_self, ?_⟩
  have hpos := Char.utf8Size_pos '\\'
  rw [Utf8.length_encode_cons]
  omega

lemma escape_hexpair {l : List Char} {b : UInt8} (h : IsHexpair l b) : Reading ('\\' :: l) [b] := by
  cases h with
  | @digits a a' m n ha hb =>
    apply escape
    have hpos := Char.utf8Size_pos a
    rw [Utf8.length_encode_cons, List.length_singleton]
    omega

lemma length_le {l : List Char} {o : List UInt8} (h : Reading l o) :
    o.length ≤ (Utf8.encode l).length := by
  rcases h with ⟨-, rfl⟩ | ⟨-, h⟩
  · exact le_rfl
  · exact h.le

lemma append {l m : List Char} {o o' : List UInt8} (hl : Reading l o) (hm : Reading m o') :
    Reading (l ++ m) (o ++ o') := by
  have hle := hl.length_le
  have hle' := hm.length_le
  rcases hl with ⟨hl, rfl⟩ | ⟨hl, hlen⟩
  · rcases hm with ⟨hm, rfl⟩ | ⟨hm, hlen⟩
    · exact .inl ⟨by simp [hl, hm], (Utf8.encode_append l m).symm⟩
    · refine .inr ⟨List.mem_append_right l hm, ?_⟩
      rw [Utf8.encode_append, List.length_append, List.length_append]
      omega
  · refine .inr ⟨List.mem_append_left m hl, ?_⟩
    rw [Utf8.encode_append, List.length_append, List.length_append]
    omega

/-- A text stands for its own octets if and only if it has no escape. -/
lemma eq_iff {l : List Char} {o : List UInt8} (h : Reading l o) :
    o = Utf8.encode l ↔ '\\' ∉ l := by
  rcases h with ⟨hl, ho⟩ | ⟨hl, hlen⟩
  · exact iff_of_true ho hl
  · refine iff_of_false ?_ (not_not_intro hl)
    rintro rfl
    exact lt_irrefl _ hlen

end Reading

end LdapSyntax
