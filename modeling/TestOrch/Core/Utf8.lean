import Mathlib.Data.Nat.Notation
import Mathlib.Tactic.Common

/-!
# UTF-8

A decoder that reads one octet at a time and puts a replacement character in the place of what is
not well formed: of each longest beginning of a character that is not continued, and of each octet
that begins none. A newline is an octet by itself wherever it stands, so text is decoded line by
line (`decode_newline`).
-/

namespace Utf8

def encode (text : List Char) : List UInt8 := text.flatMap String.utf8EncodeChar

/-- What an octet within a character may be: after some first octets the bounds are narrower. -/
inductive Bounds where
  | tail
  | afterE0
  | afterED
  | afterF0
  | afterF4
  deriving DecidableEq

def Bounds.low : Bounds → ℕ
  | .afterE0 => 0xA0
  | .afterF0 => 0x90
  | _ => 0x80

def Bounds.high : Bounds → ℕ
  | .afterED => 0x9F
  | .afterF4 => 0x8F
  | _ => 0xBF

/-- Where the decoder stands between two octets: between characters, or in one of which `left`
octets are to come, with the bits that it has so far. -/
inductive State where
  | start
  | inside (left code : ℕ) (bounds : Bounds)

def replacement : Char := '\uFFFD'

/-- The first octet of a character. -/
def lead (b : ℕ) : List Char × State :=
  if b < 0x80 then ([Char.ofNat b], .start)
  else if b < 0xC2 then ([replacement], .start)
  else if b < 0xE0 then ([], .inside 1 (b - 0xC0) .tail)
  else if b < 0xF0 then
    ([], .inside 2 (b - 0xE0) (if b = 0xE0 then .afterE0 else if b = 0xED then .afterED else .tail))
  else if b < 0xF5 then
    ([], .inside 3 (b - 0xF0) (if b = 0xF0 then .afterF0 else if b = 0xF4 then .afterF4 else .tail))
  else ([replacement], .start)

/-- One octet: the characters that are known after it, and where the decoder stands. -/
def step : State → ℕ → List Char × State
  | .start, b => lead b
  | .inside left code bounds, b =>
    if bounds.low ≤ b ∧ b ≤ bounds.high then
      if left = 1 then ([Char.ofNat (code * 64 + (b - 0x80))], .start)
      else ([], .inside (left - 1) (code * 64 + (b - 0x80)) .tail)
    else (replacement :: (lead b).1, (lead b).2)

/-- The end of the text. -/
def finish : State → List Char
  | .start => []
  | .inside .. => [replacement]

/-- The characters of the octets that follow. -/
def decodeFrom (s : State) : List UInt8 → List Char
  | [] => finish s
  | b :: rest => (step s b.toNat).1 ++ decodeFrom (step s b.toNat).2 rest

/-- The text of octets, well formed or not. -/
def decode (octets : List UInt8) : List Char := decodeFrom .start octets

/-! ### Newlines -/

lemma low_ge (bounds : Bounds) : 0x80 ≤ bounds.low := by
  cases bounds <;> decide

lemma step_inside (left code : ℕ) (bounds : Bounds) (b : ℕ) :
    step (.inside left code bounds) b =
      if bounds.low ≤ b ∧ b ≤ bounds.high then
        if left = 1 then ([Char.ofNat (code * 64 + (b - 0x80))], .start)
        else ([], .inside (left - 1) (code * 64 + (b - 0x80)) .tail)
      else (replacement :: (lead b).1, (lead b).2) := rfl

/-- A newline ends what is not complete and starts anew. -/
lemma step_newline (s : State) : step s 10 = (finish s ++ ['\n'], .start) := by
  cases s with
  | start => rfl
  | inside left code bounds =>
    have hlow := low_ge bounds
    rw [step_inside, if_neg (by omega)]
    rfl

lemma decodeFrom_newline (s : State) (a b : List UInt8) :
    decodeFrom s (a ++ 10 :: b) = decodeFrom s a ++ '\n' :: decode b := by
  induction a generalizing s with
  | nil =>
    have hstep := step_newline s
    simp only [List.nil_append, decodeFrom, decode]
    rw [show (10 : UInt8).toNat = 10 from rfl, hstep, List.append_assoc, List.singleton_append]
  | cons c a ih => rw [List.cons_append, decodeFrom, ih, decodeFrom, List.append_assoc]

/-- Text is decoded line by line. -/
lemma decode_newline (a b : List UInt8) : decode (a ++ 10 :: b) = decode a ++ '\n' :: decode b :=
  decodeFrom_newline .start a b

/-- The bits of a character that is complete are those of one beyond ASCII. -/
def State.Beyond : State → Prop
  | .start => True
  | .inside left code bounds =>
    2 ≤ code ∨ (2 ≤ left ∧ (1 ≤ code ∨ bounds = .afterE0 ∨ bounds = .afterF0))

lemma beyond_lead (b : ℕ) : (lead b).2.Beyond := by
  unfold lead
  split_ifs <;> simp [State.Beyond] <;> omega

lemma beyond_step {s : State} (h : s.Beyond) (b : ℕ) : (step s b).2.Beyond := by
  cases s with
  | start => exact beyond_lead b
  | inside left code bounds =>
    rw [step_inside]
    split_ifs with hb hleft
    · trivial
    · simp only [State.Beyond] at h ⊢
      rcases h with h | ⟨-, h | rfl | rfl⟩
      · omega
      · omega
      · simp only [Bounds.low] at hb
        omega
      · simp only [Bounds.low] at hb
        omega
    · exact beyond_lead b

lemma ofNat_ne_newline {n : ℕ} (h : n ≠ 10) : Char.ofNat n ≠ '\n' := by
  intro hc
  by_cases hvalid : n.isValidChar
  · have hn : Char.ofNat n = Char.ofNatAux n hvalid := dif_pos hvalid
    exact h (congrArg Char.toNat (hn.symm.trans hc))
  · have hn : Char.ofNat n = '\x00' := dif_neg hvalid
    cases hn.symm.trans hc

lemma newline_not_mem_lead {b : ℕ} (hb : b ≠ 10) : '\n' ∉ (lead b).1 := by
  have hreplacement : '\n' ≠ replacement := by decide
  have hne := (ofNat_ne_newline hb).symm
  unfold lead
  split_ifs <;> simp [hreplacement, hne]

/-- A newline comes from its octet only. -/
lemma newline_not_mem_step {s : State} (h : s.Beyond) {b : ℕ} (hb : b ≠ 10) :
    '\n' ∉ (step s b).1 := by
  have hreplacement : '\n' ≠ replacement := by decide
  cases s with
  | start => exact newline_not_mem_lead hb
  | inside left code bounds =>
    rw [step_inside]
    split_ifs with hbounds hleft
    · simp only [State.Beyond] at h
      have hne : code * 64 + (b - 0x80) ≠ 10 := by omega
      simpa using (ofNat_ne_newline hne).symm
    · exact List.not_mem_nil
    · simpa [hreplacement] using newline_not_mem_lead hb

lemma newline_not_mem_decodeFrom {s : State} (h : s.Beyond) {octets : List UInt8}
    (hoctets : 10 ∉ octets) : '\n' ∉ decodeFrom s octets := by
  induction octets generalizing s with
  | nil =>
    cases s with
    | start => exact List.not_mem_nil
    | inside left code bounds => simp [decodeFrom, finish, replacement]
  | cons b rest ih =>
    rw [List.mem_cons, not_or] at hoctets
    rw [decodeFrom, List.mem_append, not_or]
    refine ⟨newline_not_mem_step h ?_, ih (beyond_step h _) hoctets.2⟩
    intro hb
    exact hoctets.1 (UInt8.toNat_inj.mp hb.symm)

/-- Octets without a newline are text without one. -/
lemma newline_not_mem_decode {octets : List UInt8} (h : 10 ∉ octets) : '\n' ∉ decode octets :=
  newline_not_mem_decodeFrom (s := .start) trivial h

/-- An octet gives a character, or it begins one. -/
lemma step_ne (s : State) (b : ℕ) : (step s b).1 ≠ [] ∨ (step s b).2 ≠ .start := by
  have hlead : (lead b).1 ≠ [] ∨ (lead b).2 ≠ .start := by
    unfold lead
    split_ifs <;> simp
  cases s with
  | start => exact hlead
  | inside left code bounds =>
    rw [step_inside]
    split_ifs <;> simp

lemma decodeFrom_ne_nil {s : State} {octets : List UInt8} (h : s ≠ .start ∨ octets ≠ []) :
    decodeFrom s octets ≠ [] := by
  induction octets generalizing s with
  | nil =>
    cases s with
    | start => simp at h
    | inside left code bounds => exact List.cons_ne_nil _ _
  | cons b rest ih =>
    rw [decodeFrom]
    rcases step_ne s b.toNat with hne | hne
    · exact List.append_ne_nil_of_left_ne_nil hne _
    · exact List.append_ne_nil_of_right_ne_nil _ (ih (.inl hne))

/-- Only no octets are the empty text. -/
lemma decode_eq_nil {octets : List UInt8} : decode octets = [] ↔ octets = [] := by
  constructor
  · intro h
    by_contra hne
    exact decodeFrom_ne_nil (.inr hne) h
  · rintro rfl
    rfl

/-! ### What is well formed -/

lemma encode_cons (c : Char) (text : List Char) :
    encode (c :: text) = String.utf8EncodeChar c ++ encode text := rfl

@[simp] lemma encode_singleton (c : Char) : encode [c] = String.utf8EncodeChar c :=
  List.append_nil _

@[simp] lemma length_encode_cons (c : Char) (text : List Char) :
    (encode (c :: text)).length = c.utf8Size + (encode text).length := by
  rw [encode_cons, List.length_append, String.length_utf8EncodeChar]

@[simp] lemma encode_append (s t : List Char) : encode (s ++ t) = encode s ++ encode t :=
  List.flatMap_append

lemma decodeFrom_ofNat (s : State) {b : ℕ} (h : b < 256) (rest : List UInt8) :
    decodeFrom s (UInt8.ofNat b :: rest) = (step s b).1 ++ decodeFrom (step s b).2 rest := by
  have hb : (UInt8.ofNat b).toNat = b := by
    rw [UInt8.toNat_ofNat']
    exact Nat.mod_eq_of_lt h
  rw [decodeFrom, hb]

/-- A character goes on. -/
lemma decodeFrom_inside {left code : ℕ} {bounds : Bounds} {b : ℕ} (hlow : bounds.low ≤ b)
    (hhigh : b ≤ bounds.high) (rest : List UInt8) :
    decodeFrom (.inside (left + 2) code bounds) (UInt8.ofNat b :: rest) =
      decodeFrom (.inside (left + 1) (code * 64 + (b - 0x80)) .tail) rest := by
  have hbyte : b < 256 := by
    cases bounds <;> simp only [Bounds.high] at hhigh <;> omega
  rw [decodeFrom_ofNat _ hbyte, step_inside, if_pos ⟨hlow, hhigh⟩, if_neg (by omega)]
  rfl

/-- A character ends. -/
lemma decodeFrom_last {code : ℕ} {bounds : Bounds} {b : ℕ} (hlow : bounds.low ≤ b)
    (hhigh : b ≤ bounds.high) (rest : List UInt8) :
    decodeFrom (.inside 1 code bounds) (UInt8.ofNat b :: rest) =
      Char.ofNat (code * 64 + (b - 0x80)) :: decode rest := by
  have hbyte : b < 256 := by
    cases bounds <;> simp only [Bounds.high] at hhigh <;> omega
  rw [decodeFrom_ofNat _ hbyte, step_inside, if_pos ⟨hlow, hhigh⟩, if_pos rfl]
  rfl

/-- A character is read from its octets. -/
lemma decode_encodeChar (c : Char) (rest : List UInt8) :
    decode (String.utf8EncodeChar c ++ rest) = c :: decode rest := by
  have hc : Char.ofNat c.val.toNat = c := Char.ofNat_toNat c
  have hvalid : c.val.toNat < 0xD800 ∨ 0xDFFF < c.val.toNat ∧ c.val.toNat < 0x110000 := c.valid
  unfold String.utf8EncodeChar decode
  generalize c.val.toNat = v at hc hvalid
  dsimp only
  split_ifs with h₁ h₂ h₃
  · -- One octet.
    rw [List.singleton_append, decodeFrom_ofNat _ (by omega), step, lead, if_pos (by omega), hc]
    rfl
  · -- Two octets.
    have hcode : (v / 64 % 0x20 + 0xc0 - 0xc0) * 64 + (v % 0x40 + 0x80 - 0x80) = v := by omega
    rw [List.cons_append, List.singleton_append, decodeFrom_ofNat _ (by omega), step, lead,
      if_neg (by omega), if_neg (by omega), if_pos (by omega), List.nil_append,
      decodeFrom_last (by simp only [Bounds.low]; omega) (by simp only [Bounds.high]; omega),
      hcode, hc]
    rfl
  · -- Three octets; the second one is bounded so that no surrogate and no longer form fits.
    have hbounds : (if v / 4096 % 0x10 + 0xe0 = 0xE0 then Bounds.afterE0
          else if v / 4096 % 0x10 + 0xe0 = 0xED then .afterED else .tail).low ≤
            v / 64 % 0x40 + 0x80 ∧
        v / 64 % 0x40 + 0x80 ≤ (if v / 4096 % 0x10 + 0xe0 = 0xE0 then Bounds.afterE0
          else if v / 4096 % 0x10 + 0xe0 = 0xED then .afterED else .tail).high := by
      split_ifs <;> simp only [Bounds.low, Bounds.high] <;> omega
    have hcode : ((v / 4096 % 0x10 + 0xe0 - 0xe0) * 64 + (v / 64 % 0x40 + 0x80 - 0x80)) * 64 +
        (v % 0x40 + 0x80 - 0x80) = v := by omega
    rw [List.cons_append, List.cons_append, List.singleton_append, decodeFrom_ofNat _ (by omega),
      step, lead, if_neg (by omega), if_neg (by omega), if_neg (by omega), if_pos (by omega),
      List.nil_append, decodeFrom_inside hbounds.1 hbounds.2,
      decodeFrom_last (by simp only [Bounds.low]; omega) (by simp only [Bounds.high]; omega),
      hcode, hc]
    rfl
  · -- Four octets, bounded in the same way.
    have hbounds : (if v / 262144 % 0x08 + 0xf0 = 0xF0 then Bounds.afterF0
          else if v / 262144 % 0x08 + 0xf0 = 0xF4 then .afterF4 else .tail).low ≤
            v / 4096 % 0x40 + 0x80 ∧
        v / 4096 % 0x40 + 0x80 ≤ (if v / 262144 % 0x08 + 0xf0 = 0xF0 then Bounds.afterF0
          else if v / 262144 % 0x08 + 0xf0 = 0xF4 then .afterF4 else .tail).high := by
      split_ifs <;> simp only [Bounds.low, Bounds.high] <;> omega
    have hcode : (((v / 262144 % 0x08 + 0xf0 - 0xf0) * 64 + (v / 4096 % 0x40 + 0x80 - 0x80)) * 64 +
        (v / 64 % 0x40 + 0x80 - 0x80)) * 64 + (v % 0x40 + 0x80 - 0x80) = v := by omega
    rw [List.cons_append, List.cons_append, List.cons_append, List.singleton_append,
      decodeFrom_ofNat _ (by omega), step, lead, if_neg (by omega), if_neg (by omega),
      if_neg (by omega), if_neg (by omega), if_pos (by omega), List.nil_append,
      decodeFrom_inside hbounds.1 hbounds.2,
      decodeFrom_inside (by simp only [Bounds.low]; omega) (by simp only [Bounds.high]; omega),
      decodeFrom_last (by simp only [Bounds.low]; omega) (by simp only [Bounds.high]; omega),
      hcode, hc]
    rfl

/-- A text is read from its octets. -/
theorem decode_encode (text : List Char) : decode (encode text) = text := by
  induction text with
  | nil => rfl
  | cons c text ih => rw [encode_cons, decode_encodeChar, ih]

lemma encode_injective : Function.Injective encode :=
  Function.LeftInverse.injective decode_encode

end Utf8
