import TestOrch.Core.LdapSyntax

/-!
# LDAP search filters

The filters of RFC 4515 and the texts that stand for them. A text between the `=` of an equality
test and its closing parenthesis is that test against the text itself, and nothing else, if and
only if none of its characters is reserved (`equality_iff`).
-/

namespace LdapFilter

open LdapSyntax Utf8

inductive FilterType where
  | equal
  | approx
  | greaterorequal
  | lessorequal

def FilterType.sign : FilterType → List Char
  | .equal => ['=']
  | .approx => ['~', '=']
  | .greaterorequal => ['>', '=']
  | .lessorequal => ['<', '=']

/-- A search filter. In a substring test the first part is the initial one and the last part the
final one; either may be empty. -/
inductive Filter where
  | and (filters : List Filter)
  | or (filters : List Filter)
  | not (filter : Filter)
  | simple (type : FilterType) (attr : List Char) (value : List UInt8)
  | present (attr : List Char)
  | substring (attr : List Char) (parts : List (List UInt8))
  | extensible (attr : Option (List Char)) (dnattrs : Bool) (rule : Option (List Char))
      (value : List UInt8)

/-- The characters that must be escaped in a value. -/
def reserved : List Char := ['\x00', '(', ')', '*', '\\']

inductive IsValue : List Char → List UInt8 → Prop
  | nil : IsValue [] []
  | normal {c : Char} {v : List Char} {o : List UInt8} (hc : c ∉ reserved) (h : IsValue v o) :
      IsValue (c :: v) (String.utf8EncodeChar c ++ o)
  | escaped {p v : List Char} {b : UInt8} {o : List UInt8} (hp : IsHexpair p b)
      (h : IsValue v o) : IsValue ('\\' :: p ++ v) (b :: o)

/-- The part of an extensible match that asks for the attributes of the DN. -/
inductive IsDnattrs : List Char → Bool → Prop
  | none : IsDnattrs [] false
  | dn {d n : Char} (hd : d = 'd' ∨ d = 'D') (hn : n = 'n' ∨ n = 'N') : IsDnattrs [':', d, n] true

/-- The part of an extensible match that names a matching rule. -/
inductive IsMatchingrule : List Char → Option (List Char) → Prop
  | none : IsMatchingrule [] none
  | rule {oid : List Char} (h : IsOid oid) : IsMatchingrule (':' :: oid) (some oid)

/-- A filter about one attribute, without its parentheses. -/
inductive IsItem : List Char → Filter → Prop
  | simple {type : FilterType} {attr v : List Char} {o : List UInt8}
      (hattr : IsAttributeDescription attr) (hv : IsValue v o) :
      IsItem (attr ++ type.sign ++ v) (.simple type attr o)
  | present {attr : List Char} (hattr : IsAttributeDescription attr) :
      IsItem (attr ++ ['=', '*']) (.present attr)
  | substring {attr v w : List Char} {vs : List (List Char)} {os : List (List UInt8)}
      (hattr : IsAttributeDescription attr) (hparts : List.Forall₂ IsValue (v :: w :: vs) os)
      -- one asterisk by itself asks for presence only
      (hne : v :: w :: vs ≠ [[], []]) :
      IsItem (attr ++ '=' :: ['*'].intercalate (v :: w :: vs)) (.substring attr os)
  | extensible {attr rule : Option (List Char)} {dnattrs : Bool} {d r v : List Char}
      {o : List UInt8} (hattr : ∀ a ∈ attr, IsAttributeDescription a) (hd : IsDnattrs d dnattrs)
      (hr : IsMatchingrule r rule) (hone : attr.isSome ∨ rule.isSome) (hv : IsValue v o) :
      IsItem (attr.getD [] ++ (d ++ (r ++ ':' :: '=' :: v))) (.extensible attr dnattrs rule o)

inductive IsFilter : List Char → Filter → Prop
  | and {ts : List (List Char)} {fs : List Filter} (hne : fs ≠ [])
      (h : List.Forall₂ IsFilter ts fs) : IsFilter ('(' :: ('&' :: ts.flatten) ++ [')']) (.and fs)
  | or {ts : List (List Char)} {fs : List Filter} (hne : fs ≠ [])
      (h : List.Forall₂ IsFilter ts fs) : IsFilter ('(' :: ('|' :: ts.flatten) ++ [')']) (.or fs)
  | not {t : List Char} {f : Filter} (h : IsFilter t f) :
      IsFilter ('(' :: ('!' :: t) ++ [')']) (.not f)
  | item {t : List Char} {f : Filter} (h : IsItem t f) : IsFilter ('(' :: t ++ [')']) f

variable {attr v : List Char} {o : List UInt8} {f : Filter}

/-! ### Values -/

lemma IsValue.reading (h : IsValue v o) : Reading v o := by
  induction h with
  | nil => exact .nil
  | @normal c v o hc _ ih =>
    have hesc : c ≠ '\\' := by
      rintro rfl
      exact hc (by decide)
    exact (Reading.char hesc).append ih
  | escaped hp _ ih => exact (Reading.escape_hexpair hp).append ih

/-- Without an escape, no character of a value is reserved. -/
lemma IsValue.plain (h : IsValue v o) (hesc : '\\' ∉ v) : ∀ c ∈ v, c ∉ reserved := by
  induction h with
  | nil => simp
  | normal hc _ ih =>
    exact List.forall_mem_cons.mpr ⟨hc, ih fun h => hesc (List.mem_cons_of_mem _ h)⟩
  | escaped => exact absurd List.mem_cons_self hesc

lemma isValue_encode (h : ∀ c ∈ v, c ∉ reserved) : IsValue v (encode v) := by
  induction v with
  | nil => exact .nil
  | cons c v ih =>
    obtain ⟨hc, hv⟩ := List.forall_mem_cons.mp h
    exact .normal hc (ih hv)

lemma not_mem_of_plain (h : ∀ c ∈ v, c ∉ reserved) {c : Char} (hc : c ∈ reserved) : c ∉ v :=
  fun hv => h c hv hc

/-! ### An attribute with a value -/

lemma not_isAttributeChar_equals : ¬ IsAttributeChar '=' := by
  decide

/-- The sign of a comparison begins with what is not in an attribute description. -/
lemma FilterType.sign_eq (type : FilterType) :
    ∃ a l, type.sign = a :: l ∧ ¬ IsAttributeChar a ∧ (a = '=' → type = .equal ∧ l = []) := by
  cases type with
  | equal => exact ⟨'=', [], rfl, by decide, fun _ => ⟨rfl, rfl⟩⟩
  | approx => exact ⟨'~', ['='], rfl, by decide, fun h => absurd h (by decide)⟩
  | greaterorequal => exact ⟨'>', ['='], rfl, by decide, fun h => absurd h (by decide)⟩
  | lessorequal => exact ⟨'<', ['='], rfl, by decide, fun h => absurd h (by decide)⟩

/-- Behind its attribute an extensible match has a colon. -/
lemma extensible_eq {rule : Option (List Char)} {dnattrs : Bool} {d r : List Char}
    (hd : IsDnattrs d dnattrs) (hr : IsMatchingrule r rule) (v : List Char) :
    ∃ l, d ++ (r ++ ':' :: '=' :: v) = ':' :: l := by
  cases hd with
  | none =>
    cases hr with
    | none => exact ⟨_, rfl⟩
    | rule => exact ⟨_, rfl⟩
  | dn => exact ⟨_, rfl⟩

/-- An attribute description with an `=` is a test of that attribute. -/
lemma isItem_iff (hattr : IsAttributeDescription attr) :
    IsItem (attr ++ '=' :: v) f ↔
      (∃ o, IsValue v o ∧ f = .simple .equal attr o) ∨ (v = ['*'] ∧ f = .present attr) ∨
        ∃ u w vs os, List.Forall₂ IsValue (u :: w :: vs) os ∧ u :: w :: vs ≠ [[], []] ∧
          v = ['*'].intercalate (u :: w :: vs) ∧ f = .substring attr os := by
  constructor
  · -- No `=` is in an attribute description, so the first one splits the text.
    generalize ht : attr ++ '=' :: v = t
    intro h
    cases h with
    | @simple type attr' v' o hattr' hv =>
      obtain ⟨a, l, hsign, ha, hequal⟩ := type.sign_eq
      rw [hsign, List.append_assoc, List.cons_append] at ht
      obtain ⟨rfl, rfl, rfl⟩ := Separated.append_cons_inj hattr.chars hattr'.chars
        not_isAttributeChar_equals ha ht
      obtain ⟨rfl, rfl⟩ := hequal rfl
      exact .inl ⟨o, hv, rfl⟩
    | present hattr' =>
      obtain ⟨rfl, -, rfl⟩ := Separated.append_cons_inj hattr.chars hattr'.chars
        not_isAttributeChar_equals not_isAttributeChar_equals ht
      exact .inr (.inl ⟨rfl, rfl⟩)
    | @substring attr' u w vs os hattr' hparts hne =>
      obtain ⟨rfl, -, rfl⟩ := Separated.append_cons_inj hattr.chars hattr'.chars
        not_isAttributeChar_equals not_isAttributeChar_equals ht
      exact .inr (.inr ⟨u, w, vs, os, hparts, hne, rfl, rfl⟩)
    | @extensible attr' rule dnattrs d r v' o hattr' hd hr hone hv =>
      -- An extensible match has a colon where the `=` is.
      obtain ⟨l, hl⟩ := extensible_eq hd hr v'
      have hchars : ∀ c ∈ attr'.getD [], IsAttributeChar c := by
        cases attr' with
        | none => simp
        | some a => exact (hattr' a rfl).chars
      rw [hl] at ht
      obtain ⟨-, hcolon, -⟩ := Separated.append_cons_inj hattr.chars hchars
        not_isAttributeChar_equals (by decide) ht
      cases hcolon
  · rintro (⟨o, hv, rfl⟩ | ⟨rfl, rfl⟩ | ⟨u, w, vs, os, hparts, hne, rfl, rfl⟩)
    · have h : IsItem (attr ++ FilterType.equal.sign ++ v) _ := .simple hattr hv
      rwa [FilterType.sign, List.append_assoc, List.singleton_append] at h
    · exact .present hattr
    · exact .substring hattr hparts hne

/-- In parentheses, what begins with an attribute description is a filter about it. -/
lemma isFilter_iff (hattr : IsAttributeDescription attr) {rest : List Char} :
    IsFilter ('(' :: (attr ++ rest) ++ [')']) f ↔ IsItem (attr ++ rest) f := by
  refine ⟨?_, .item⟩
  -- the other filters begin with a sign that is not in an attribute description
  have hhead : ∀ {a : Char} {l : List Char}, ¬ IsAttributeChar a → attr ++ rest ≠ a :: l := by
    intro a l ha h
    obtain ⟨c, attr', hc⟩ := List.exists_cons_of_ne_nil hattr.ne_nil
    have hchar := hattr.chars c (by simp [hc])
    rw [hc, List.cons_append] at h
    obtain ⟨rfl, -⟩ := List.cons.inj h
    exact ha hchar
  have hbody : ∀ {s t : List Char}, '(' :: s ++ [')'] = '(' :: t ++ [')'] → s = t :=
    fun h => List.append_cancel_right (List.cons.inj h).2
  generalize ht : '(' :: (attr ++ rest) ++ [')'] = t
  intro h
  cases h with
  | and => exact absurd (hbody ht) (hhead (by decide))
  | or => exact absurd (hbody ht) (hhead (by decide))
  | not => exact absurd (hbody ht) (hhead (by decide))
  | item h => rwa [hbody ht]

/-- A text is exactly an equality test of an attribute against it if and only if it has no reserved
character. -/
theorem equality_iff (hattr : IsAttributeDescription attr) (v : List Char) :
    (∀ f, IsFilter ('(' :: (attr ++ '=' :: v) ++ [')']) f ↔ f = .simple .equal attr (encode v)) ↔
      ∀ c ∈ v, c ∉ reserved := by
  constructor
  · intro h
    have hitem := (isItem_iff hattr).mp ((isFilter_iff hattr).mp ((h _).mpr rfl))
    rcases hitem with ⟨o, hv, ho⟩ | ⟨-, hf⟩ | ⟨_, _, _, _, _, _, _, hf⟩
    · obtain rfl : encode v = o := by injection ho
      exact hv.plain (hv.reading.eq_iff.mp rfl)
    · cases hf
    · cases hf
  · intro hv f
    rw [isFilter_iff hattr, isItem_iff hattr]
    constructor
    · have hasterisk := not_mem_of_plain hv (c := '*') (by decide)
      rintro (⟨o, ho, rfl⟩ | ⟨rfl, -⟩ | ⟨u, w, vs, -, -, -, rfl, -⟩)
      · rw [ho.reading.eq_iff.mpr (not_mem_of_plain hv (by decide))]
      · exact absurd List.mem_cons_self hasterisk
      · rw [List.intercalate_cons_cons] at hasterisk
        simp at hasterisk
    · rintro rfl
      exact .inl ⟨encode v, isValue_encode hv, rfl⟩

end LdapFilter
