import TestOrch.Core.LdapSyntax

/-!
# Distinguished names

The names of RFC 4514 and the texts that stand for them. A text written for a list of attributes
with values, one to each relative name, stands for exactly these if and only if every value can
stand there as it is (`text_iff`).
-/

namespace DistinguishedName

open LdapSyntax Utf8

/-- The value of an attribute: a string, or the octets of its BER encoding. -/
inductive AttributeValue where
  | string (octets : List UInt8)
  | hexstring (octets : List UInt8)

structure AttributeTypeAndValue where
  type : List Char
  value : AttributeValue

/-- A relative distinguished name. -/
abbrev Rdn := List AttributeTypeAndValue

/-- The characters that are escaped wherever they stand in a value. -/
def reserved : List Char := ['\x00', '"', '+', ',', ';', '<', '>', '\\']

/-- The characters that a backslash may be put in front of. -/
def paired : List Char := ['\\', '"', '+', ',', ';', '<', '>', ' ', '#', '=']

/-- A character within a value. -/
def IsStringchar (c : Char) : Prop := c ∉ reserved

/-- The first character of a value. -/
def IsLeadchar (c : Char) : Prop := IsStringchar c ∧ c ≠ ' ' ∧ c ≠ '#'

/-- The last character of a value that has more than one. -/
def IsTrailchar (c : Char) : Prop := IsStringchar c ∧ c ≠ ' '

/-- A character or an escape. -/
inductive IsUnit (p : Char → Prop) : List Char → List UInt8 → Prop
  | char {c : Char} (hc : p c) : IsUnit p [c] (String.utf8EncodeChar c)
  | pair {c : Char} (hc : c ∈ paired) : IsUnit p ['\\', c] (String.utf8EncodeChar c)
  | hexpair {l : List Char} {b : UInt8} (h : IsHexpair l b) : IsUnit p ('\\' :: l) [b]

/-- What follows the first character of a string. -/
inductive IsRest : List Char → List UInt8 → Prop
  | last {l : List Char} {o : List UInt8} (h : IsUnit IsTrailchar l o) : IsRest l o
  | cons {l m : List Char} {o o' : List UInt8} (h : IsUnit IsStringchar l o) (hm : IsRest m o') :
      IsRest (l ++ m) (o ++ o')

inductive IsString : List Char → List UInt8 → Prop
  | nil : IsString [] []
  | one {l : List Char} {o : List UInt8} (h : IsUnit IsLeadchar l o) : IsString l o
  | more {l m : List Char} {o o' : List UInt8} (h : IsUnit IsLeadchar l o) (hm : IsRest m o') :
      IsString (l ++ m) (o ++ o')

inductive IsAttributeValue : List Char → AttributeValue → Prop
  | string {l : List Char} {o : List UInt8} (h : IsString l o) : IsAttributeValue l (.string o)
  | hexstring {ls : List (List Char)} {o : List UInt8} (hne : ls ≠ [])
      (h : List.Forall₂ IsHexpair ls o) : IsAttributeValue ('#' :: ls.flatten) (.hexstring o)

inductive IsAttribute : List Char → AttributeTypeAndValue → Prop
  | intro {t v : List Char} {value : AttributeValue} (ht : IsOid t)
      (hv : IsAttributeValue v value) : IsAttribute (t ++ '=' :: v) ⟨t, value⟩

/-- A relative distinguished name. -/
inductive IsRdn : List Char → Rdn → Prop
  | one {l : List Char} {a : AttributeTypeAndValue} (h : IsAttribute l a) : IsRdn l [a]
  | cons {l m : List Char} {a : AttributeTypeAndValue} {rdn : Rdn} (h : IsAttribute l a)
      (hm : IsRdn m rdn) : IsRdn (l ++ '+' :: m) (a :: rdn)

/-- A distinguished name of one or more relative ones. -/
inductive IsRdnSequence : List Char → List Rdn → Prop
  | one {l : List Char} {rdn : Rdn} (h : IsRdn l rdn) : IsRdnSequence l [rdn]
  | cons {l m : List Char} {rdn : Rdn} {dn : List Rdn} (h : IsRdn l rdn)
      (hm : IsRdnSequence m dn) : IsRdnSequence (l ++ ',' :: m) (rdn :: dn)

inductive IsDn : List Char → List Rdn → Prop
  | nil : IsDn [] []
  | rdns {l : List Char} {dn : List Rdn} (h : IsRdnSequence l dn) : IsDn l dn

/-- A value that can stand in a distinguished name as it is. -/
def Plain (v : List Char) : Prop :=
  (∀ c ∈ v, IsStringchar c) ∧ v.head? ≠ some ' ' ∧ v.head? ≠ some '#' ∧ v.getLast? ≠ some ' '

/-- A type and a value that are written as they are. -/
abbrev Entry := List Char × List Char

def Entry.text (x : Entry) : List Char := x.1 ++ '=' :: x.2

/-- The relative name that an entry is to stand for. -/
def Entry.rdn (x : Entry) : Rdn := [⟨x.1, .string (encode x.2)⟩]

/-- The text of a name, one entry to each relative name. -/
def text (xs : List Entry) : List Char := [','].intercalate (xs.map Entry.text)

variable {l m v : List Char} {o o' : List UInt8}

/-! ### Values -/

lemma ne_backslash {c : Char} (h : IsStringchar c) : c ≠ '\\' := by
  rintro rfl
  exact h (by decide)

section Unit

variable {p : Char → Prop}

lemma IsUnit.reading (hp : ∀ c, p c → IsStringchar c) (h : IsUnit p l o) : Reading l o := by
  cases h with
  | char hc => exact .char (ne_backslash (hp _ hc))
  | pair =>
    apply Reading.escape
    rw [encode_singleton]
  | hexpair h => exact .escape_hexpair h

/-- Without an escape, it is a character. -/
lemma IsUnit.char_of_not_mem (h : IsUnit p l o) (hesc : '\\' ∉ l) : ∃ c, l = [c] ∧ p c := by
  cases h with
  | @char c hc => exact ⟨c, rfl, hc⟩
  | pair => exact absurd List.mem_cons_self hesc
  | hexpair => exact absurd List.mem_cons_self hesc

end Unit

lemma IsRest.reading (h : IsRest l o) : Reading l o := by
  induction h with
  | last h => exact h.reading fun c hc => hc.1
  | cons h _ ih => exact (h.reading fun c hc => hc).append ih

lemma IsString.reading (h : IsString l o) : Reading l o := by
  cases h with
  | nil => exact .nil
  | one h => exact h.reading fun c hc => hc.1
  | more h hm => exact (h.reading fun c hc => hc.1).append hm.reading

lemma IsRest.plain (h : IsRest l o) (hesc : '\\' ∉ l) :
    (∀ c ∈ l, IsStringchar c) ∧ ∃ c, l.getLast? = some c ∧ c ≠ ' ' := by
  induction h with
  | last h =>
    obtain ⟨c, rfl, hc⟩ := h.char_of_not_mem hesc
    exact ⟨by simpa using hc.1, c, rfl, hc.2⟩
  | @cons l m o o' h _ ih =>
    rw [List.mem_append, not_or] at hesc
    obtain ⟨c, rfl, hc⟩ := h.char_of_not_mem hesc.1
    obtain ⟨hm, d, hlast, hd⟩ := ih hesc.2
    refine ⟨List.forall_mem_cons.mpr ⟨hc, hm⟩, d, ?_, hd⟩
    rw [List.getLast?_append, hlast]
    rfl

/-- Without an escape, a string is plain. -/
lemma IsString.plain (h : IsString l o) (hesc : '\\' ∉ l) : Plain l := by
  cases h with
  | nil => simp [Plain]
  | one h =>
    obtain ⟨c, rfl, hc, hspace, hsharp⟩ := h.char_of_not_mem hesc
    simp [Plain, hc, hspace, hsharp]
  | more h hm =>
    rw [List.mem_append, not_or] at hesc
    obtain ⟨c, rfl, hc, hspace, hsharp⟩ := h.char_of_not_mem hesc.1
    obtain ⟨hm, d, hlast, hd⟩ := hm.plain hesc.2
    refine ⟨List.forall_mem_cons.mpr ⟨hc, hm⟩, by simpa using hspace, by simpa using hsharp, ?_⟩
    rw [List.getLast?_append, hlast]
    simpa using hd

lemma isRest_encode (hne : v ≠ []) (hchars : ∀ c ∈ v, IsStringchar c)
    (hlast : v.getLast? ≠ some ' ') : IsRest v (encode v) := by
  induction v with
  | nil => exact absurd rfl hne
  | cons c v ih =>
    obtain ⟨hc, hv⟩ := List.forall_mem_cons.mp hchars
    cases v with
    | nil =>
      have h : IsRest [c] (String.utf8EncodeChar c) :=
        .last (.char ⟨hc, by simpa using hlast⟩)
      rwa [encode_singleton]
    | cons d v =>
      rw [List.getLast?_cons_cons] at hlast
      exact .cons (.char hc) (ih (List.cons_ne_nil d v) hv hlast)

lemma isString_encode (h : Plain v) : IsString v (encode v) := by
  obtain ⟨hchars, hspace, hsharp, hlast⟩ := h
  cases v with
  | nil => exact .nil
  | cons c v =>
    obtain ⟨hc, hv⟩ := List.forall_mem_cons.mp hchars
    have hlead : IsUnit IsLeadchar [c] (String.utf8EncodeChar c) :=
      .char ⟨hc, by simpa using hspace, by simpa using hsharp⟩
    cases v with
    | nil =>
      have h := IsString.one hlead
      rwa [encode_singleton]
    | cons d v =>
      rw [List.getLast?_cons_cons] at hlast
      exact .more hlead (isRest_encode (List.cons_ne_nil d v) hv hlast)

lemma IsAttributeValue.eq_of_plain {value : AttributeValue} (hv : IsAttributeValue v value)
    (h : Plain v) : value = .string (encode v) := by
  cases hv with
  | string hs =>
    have hesc : '\\' ∉ v := fun hmem => ne_backslash (h.1 _ hmem) rfl
    rw [hs.reading.eq_iff.mpr hesc]
  | hexstring => exact absurd rfl h.2.2.1

/-! ### Separators -/

lemma not_mem_of_isHexpair {b : UInt8} (h : IsHexpair l b) {c : Char} (hc : hexValue? c = none) :
    c ∉ l := by
  cases h with
  | digits ha hb =>
    rw [List.mem_pair, not_or]
    constructor
    · rintro rfl
      simp [hc] at ha
    · rintro rfl
      simp [hc] at hb

/-- A separator is no character of a type and needs an escape in a value. -/
structure IsSeparator (c : Char) : Prop where
  reserved : c ∈ reserved
  not_attribute : ¬ IsAttributeChar c
  ne_equals : c ≠ '='
  ne_sharp : c ≠ '#'
  hexValue : hexValue? c = none

lemma comma_isSeparator : IsSeparator ',' := by
  constructor <;> decide

lemma plus_isSeparator : IsSeparator '+' := by
  constructor <;> decide

lemma IsAttributeValue.not_mem {value : AttributeValue} (hv : IsAttributeValue v value)
    (hesc : '\\' ∉ v) {c : Char} (hc : IsSeparator c) : c ∉ v := by
  cases hv with
  | string hs => exact fun hmem => (hs.plain hesc).1 c hmem hc.reserved
  | @hexstring ls o hne h =>
    rw [List.mem_cons, not_or]
    refine ⟨hc.ne_sharp, ?_⟩
    clear hesc hne
    induction h with
    | nil => simp
    | cons hl _ ih =>
      rw [List.flatten_cons, List.mem_append, not_or]
      exact ⟨not_mem_of_isHexpair hl hc.hexValue, ih⟩

/-- Without an escape, an attribute has no separator. -/
lemma IsAttribute.not_mem {a : AttributeTypeAndValue} (h : IsAttribute l a) (hesc : '\\' ∉ l)
    {c : Char} (hc : IsSeparator c) : c ∉ l := by
  cases h with
  | intro ht hv =>
    rw [List.mem_append, List.mem_cons, not_or, not_or] at hesc ⊢
    exact ⟨fun hmem => hc.not_attribute (ht.chars c hmem), hc.ne_equals, hv.not_mem hesc.2.2 hc⟩

/-- Without an escape, a relative name has no comma. -/
lemma IsRdn.comma_not_mem {rdn : Rdn} (h : IsRdn l rdn) (hesc : '\\' ∉ l) : ',' ∉ l := by
  induction h with
  | one h => exact h.not_mem hesc comma_isSeparator
  | cons h _ ih =>
    rw [List.mem_append, List.mem_cons, not_or, not_or] at hesc ⊢
    exact ⟨h.not_mem hesc.1 comma_isSeparator, by decide, ih hesc.2.2⟩

/-! ### Entries as they are -/

variable {x : Entry} {xs : List Entry} {rdn : Rdn} {dn : List Rdn}

lemma text_singleton (x : Entry) : text [x] = x.text := List.intercalate_singleton

lemma text_cons_cons (x y : Entry) (xs : List Entry) :
    text (x :: y :: xs) = x.text ++ ',' :: text (y :: xs) := by
  rw [text, List.map_cons, List.map_cons, List.intercalate_cons_cons, List.append_assoc]
  rfl

lemma isAttribute_iff (ht : IsOid x.1) {a : AttributeTypeAndValue} :
    IsAttribute x.text a ↔ ∃ value, IsAttributeValue x.2 value ∧ a = ⟨x.1, value⟩ := by
  constructor
  · generalize htext : x.text = l
    intro h
    cases h with
    | @intro t v value ht' hv =>
      have hequals : ¬ IsAttributeChar '=' := by decide
      obtain ⟨rfl, -, rfl⟩ := Separated.append_cons_inj ht.chars ht'.chars hequals hequals htext
      exact ⟨value, hv, rfl⟩
  · rintro ⟨value, hv, rfl⟩
    exact .intro ht hv

/-- The type is not escaped, so an escape is in the value. -/
lemma backslash_not_mem_text (ht : IsOid x.1) (hx : Plain x.2) : '\\' ∉ x.text := by
  rw [Entry.text, List.mem_append, List.mem_cons, not_or, not_or]
  refine ⟨fun hmem => absurd (ht.chars _ hmem) (by decide), by decide, fun hmem => ?_⟩
  exact ne_backslash (hx.1 _ hmem) rfl

lemma isAttribute_rdn (ht : IsOid x.1) (hx : Plain x.2) :
    IsAttribute x.text ⟨x.1, .string (encode x.2)⟩ :=
  .intro ht (.string (isString_encode hx))

/-- A plain entry is exactly its relative name. -/
lemma isRdn_iff (ht : IsOid x.1) (hx : Plain x.2) : IsRdn x.text rdn ↔ rdn = x.rdn := by
  constructor
  · generalize htext : x.text = l
    intro h
    cases h with
    | one h =>
      rw [← htext] at h
      obtain ⟨value, hv, rfl⟩ := (isAttribute_iff ht).mp h
      rw [hv.eq_of_plain hx]
      rfl
    | cons =>
      have hplus := (isAttribute_rdn ht hx).not_mem (backslash_not_mem_text ht hx) plus_isSeparator
      rw [htext] at hplus
      simp at hplus
  · rintro rfl
    exact .one (isAttribute_rdn ht hx)

lemma isRdnSequence_singleton (ht : IsOid x.1) (hx : Plain x.2) :
    IsRdnSequence x.text dn ↔ dn = [x.rdn] := by
  constructor
  · generalize htext : x.text = l
    intro h
    cases h with
    | one h =>
      rw [← htext] at h
      rw [(isRdn_iff ht hx).mp h]
    | cons =>
      have hcomma :=
        (isAttribute_rdn ht hx).not_mem (backslash_not_mem_text ht hx) comma_isSeparator
      rw [htext] at hcomma
      simp at hcomma
  · rintro rfl
    exact .one ((isRdn_iff ht hx).mpr rfl)

/-- Without escapes, a plain entry ends at the first comma. -/
lemma isRdnSequence_cons (ht : IsOid x.1) (hx : Plain x.2) (hm : '\\' ∉ m) :
    IsRdnSequence (x.text ++ ',' :: m) dn ↔ ∃ rdns, IsRdnSequence m rdns ∧ dn = x.rdn :: rdns := by
  have hesc := backslash_not_mem_text ht hx
  have hcomma := (isAttribute_rdn ht hx).not_mem hesc comma_isSeparator
  have hescs : '\\' ∉ x.text ++ ',' :: m := by simp [hesc, hm]
  constructor
  · generalize htext : x.text ++ ',' :: m = l at hescs
    intro h
    cases h with
    | one h =>
      -- one relative name would have a comma without an escape
      have hnot := h.comma_not_mem hescs
      rw [← htext] at hnot
      simp at hnot
    | cons h hrdns =>
      have hnot := h.comma_not_mem fun hmem => hescs (List.mem_append_left _ hmem)
      obtain ⟨rfl, -, rfl⟩ := Separated.append_cons_inj (p := (· ≠ ','))
        (fun c hc heq => hcomma (heq ▸ hc)) (fun c hc heq => hnot (heq ▸ hc)) (by simp)
        (by simp) htext
      rw [(isRdn_iff ht hx).mp h]
      exact ⟨_, hrdns, rfl⟩
  · rintro ⟨rdns, h, rfl⟩
    exact .cons ((isRdn_iff ht hx).mpr rfl) h

lemma backslash_not_mem_texts (ht : ∀ x ∈ xs, IsOid x.1) (h : ∀ x ∈ xs, Plain x.2) :
    '\\' ∉ text xs := by
  intro hmem
  rcases Separated.mem_intercalate hmem with heq | ⟨w, hw, hmem⟩
  · cases heq
  · obtain ⟨x, hx, rfl⟩ := List.mem_map.mp hw
    exact backslash_not_mem_text (ht x hx) (h x hx) hmem

/-- Plain entries are exactly their relative names. -/
lemma isRdnSequence_iff (hxs : xs ≠ []) (ht : ∀ x ∈ xs, IsOid x.1) (h : ∀ x ∈ xs, Plain x.2) :
    IsRdnSequence (text xs) dn ↔ dn = xs.map Entry.rdn := by
  induction xs generalizing dn with
  | nil => exact absurd rfl hxs
  | cons x xs ih =>
    obtain ⟨htx, htxs⟩ := List.forall_mem_cons.mp ht
    obtain ⟨hx, hplain⟩ := List.forall_mem_cons.mp h
    cases xs with
    | nil =>
      rw [text_singleton]
      exact isRdnSequence_singleton htx hx
    | cons y ys =>
      have hm := backslash_not_mem_texts htxs hplain
      rw [text_cons_cons, isRdnSequence_cons htx hx hm]
      constructor
      · rintro ⟨rdns, hrdns, rfl⟩
        rw [(ih (List.cons_ne_nil y ys) htxs hplain).mp hrdns]
        rfl
      · rintro rfl
        exact ⟨_, (ih (List.cons_ne_nil y ys) htxs hplain).mpr rfl, rfl⟩

/-! ### What stands for the entries -/

/-- A text that stands for an entry is the one of the entry, which is plain, or a longer one. -/
lemma IsRdn.text_or_longer (h : IsRdn l x.rdn) :
    (Plain x.2 ∧ l = x.text) ∨ (encode x.text).length < (encode l).length := by
  generalize hr : x.rdn = rdn at h
  cases h with
  | one h =>
    cases h with
    | @intro t v value ht hv =>
      obtain ⟨rfl, rfl⟩ : x.1 = t ∧ .string (encode x.2) = value := by
        simpa [Entry.rdn] using hr
      cases hv with
      | string hs =>
        rcases hs.reading with ⟨hesc, heq⟩ | ⟨-, hlen⟩
        · obtain rfl := encode_injective heq
          exact .inl ⟨hs.plain hesc, rfl⟩
        · right
          simp only [Entry.text, encode_append, encode_cons, List.length_append]
          omega
  | cons h hm =>
    -- an entry is one attribute
    cases hm <;> simp [Entry.rdn] at hr

/-- A text that stands for entries is theirs, and they are plain, or it is longer. -/
lemma IsRdnSequence.text_or_longer (h : IsRdnSequence l dn) (hdn : dn = xs.map Entry.rdn) :
    ((∀ x ∈ xs, Plain x.2) ∧ l = text xs) ∨ (encode (text xs)).length < (encode l).length := by
  induction h generalizing xs with
  | one hr =>
    obtain ⟨x, rfl, rfl⟩ := List.map_eq_singleton_iff.mp hdn.symm
    rw [text_singleton, List.forall_mem_singleton]
    exact hr.text_or_longer
  | @cons l m rdn dn hr hm ih =>
    cases xs with
    | nil => cases hdn
    | cons x xs =>
      obtain ⟨rfl, htail⟩ := List.cons.inj hdn
      cases xs with
      | nil =>
        rw [htail] at hm
        cases hm
      | cons y ys =>
        rw [text_cons_cons]
        rcases hr.text_or_longer with ⟨hx, rfl⟩ | hlen
        · rcases ih htail with ⟨hxs, rfl⟩ | hlen'
          · exact .inl ⟨List.forall_mem_cons.mpr ⟨hx, hxs⟩, rfl⟩
          · right
            -- The first name is as short as can be, and the rest is longer.
            simp only [encode_append, encode_cons, List.length_append]
            omega
        · right
          -- The first name is longer, and the rest is not shorter.
          have hle : (encode (text (y :: ys))).length ≤ (encode m).length := by
            rcases ih htail with ⟨-, rfl⟩ | hlen'
            · exact le_rfl
            · exact hlen'.le
          simp only [encode_append, encode_cons, List.length_append]
          omega

/-- The text of entries is exactly their relative names if and only if all of them are plain. -/
theorem text_iff (hxs : xs ≠ []) (ht : ∀ x ∈ xs, IsOid x.1) :
    (∀ dn, IsDn (text xs) dn ↔ dn = xs.map Entry.rdn) ↔ ∀ x ∈ xs, Plain x.2 := by
  have hne : text xs ≠ [] := by
    obtain ⟨x, ys, rfl⟩ := List.exists_cons_of_ne_nil hxs
    have hx : x.text ≠ [] := List.append_ne_nil_of_left_ne_nil (ht x List.mem_cons_self).ne_nil _
    cases ys with
    | nil => rwa [text_singleton]
    | cons y ys =>
      rw [text_cons_cons]
      exact List.append_ne_nil_of_left_ne_nil hx _
  have hsequence : ∀ dn, IsDn (text xs) dn ↔ IsRdnSequence (text xs) dn := by
    intro dn
    refine ⟨fun h => ?_, .rdns⟩
    generalize htext : text xs = l at h hne
    cases h with
    | nil => exact absurd rfl hne
    | rdns h => exact h
  constructor
  · intro h
    rcases ((hsequence _).mp ((h _).mpr rfl)).text_or_longer rfl with ⟨hplain, -⟩ | hlen
    · exact hplain
    · exact absurd hlen (lt_irrefl _)
  · intro h dn
    rw [hsequence, isRdnSequence_iff hxs ht h]

end DistinguishedName
