import Mathlib.Algebra.Order.Ring.Nat
import Mathlib.Tactic.Ring
import TestOrch.Core.Separated
import TestOrch.Shared.Json
import TestOrch.Shared.PyFormat

/-!
# `int(value)`

A string is an integer if between spaces it is a sign, or none, before decimal digits in groups that
are separated by single underscores (`intOfStr_eq_ok`). Digits and spaces beyond ASCII count as
well. Of a `float` the fraction is cut off, and a `bool` is a number.
-/

namespace TestOrch

/-! ### Strings -/

/-- The zeros of the decimal digits in Unicode 15; the digits up to nine follow each of them. -/
def decimalZeros : List ℕ :=
  [0x30, 0x660, 0x6f0, 0x7c0, 0x966, 0x9e6, 0xa66, 0xae6, 0xb66, 0xbe6, 0xc66, 0xce6, 0xd66, 0xde6,
    0xe50, 0xed0, 0xf20, 0x1040, 0x1090, 0x17e0, 0x1810, 0x1946, 0x19d0, 0x1a80, 0x1a90, 0x1b50,
    0x1bb0, 0x1c40, 0x1c50, 0xa620, 0xa8d0, 0xa900, 0xa9d0, 0xa9f0, 0xaa50, 0xabf0, 0xff10,
    0x104a0, 0x10d30, 0x11066, 0x110f0, 0x11136, 0x111d0, 0x112f0, 0x11450, 0x114d0, 0x11650,
    0x116c0, 0x11730, 0x118e0, 0x11950, 0x11c50, 0x11d50, 0x11da0, 0x11f50, 0x16a60, 0x16ac0,
    0x16b50, 0x1d7ce, 0x1d7d8, 0x1d7e2, 0x1d7ec, 0x1d7f6, 0x1e140, 0x1e2f0, 0x1e4f0, 0x1e950,
    0x1fbf0]

/-- `unicodedata.decimal(c)`. -/
def unicodeDecimal? (c : Char) : Option ℕ :=
  (decimalZeros.find? fun first => first ≤ c.toNat && c.toNat < first + 10).map (c.toNat - ·)

/-- The digits and spaces beyond ASCII are read as their ASCII counterparts; any other character
there is one that no integer has. -/
def asciiOf (c : Char) : Char :=
  if c.toNat < 127 then c
  else if isSpace c then ' '
  else match unicodeDecimal? c with
    | some d => d.digitChar
    | none => '?'

/-- The ASCII characters that may surround an integer. -/
def isCSpace (c : Char) : Bool := c = ' ' || (9 ≤ c.toNat && c.toNat ≤ 13)

/-- Whether there is a minus sign, and what follows the sign. -/
def takeSign : List Char → Bool × List Char
  | '-' :: l => (true, l)
  | '+' :: l => (false, l)
  | l => (false, l)

def isDigits (group : List Char) : Bool := !group.isEmpty && group.all Char.isDigit

def signed (negative : Bool) (digits : List Char) : ℤ :=
  if negative then -(Nat.ofDigitChars 10 digits 0 : ℤ) else Nat.ofDigitChars 10 digits 0

/-- `int(s)` of a string. -/
def intOfStr (printable : Char → Bool) (s : String) : Except PyError ℤ :=
  let (negative, body) := takeSign (Separated.trim isCSpace (s.toList.map asciiOf))
  let groups := body.splitOn '_'
  let digits := groups.flatten
  if groups.all isDigits then
    if digits.length ≤ maxStrDigits then .ok (signed negative digits)
    else .error (.valueError
      (s!"Exceeds the limit ({maxStrDigits} digits) for integer string conversion: value has " ++
        s!"{digits.length} digits; use sys.set_int_max_str_digits() to increase the limit"))
  else
    let text := PyValue.reprStr printable s
    .error (.valueError s!"invalid literal for int() with base 10: {text}")

/-- The signs, each with whether it is a minus. -/
inductive IsSign : Bool → List Char → Prop
  | none : IsSign false []
  | plus : IsSign false ['+']
  | minus : IsSign true ['-']

/-- The string is a decimal literal of `n`. -/
def IntLiteral (s : String) (n : ℤ) : Prop :=
  ∃ (before after sign : List Char) (negative : Bool) (groups : List (List Char)),
    s.toList.map asciiOf = before ++ (sign ++ ['_'].intercalate groups) ++ after ∧
    (∀ c ∈ before, isCSpace c) ∧ (∀ c ∈ after, isCSpace c) ∧ IsSign negative sign ∧
    groups ≠ [] ∧ (∀ group ∈ groups, isDigits group) ∧
    groups.flatten.length ≤ maxStrDigits ∧ n = signed negative groups.flatten

lemma isDigits_iff {group : List Char} :
    isDigits group = true ↔ group ≠ [] ∧ ∀ c ∈ group, c.isDigit := by
  simp [isDigits]

/-- The code of a digit. -/
lemma toNat_of_isDigit {c : Char} (h : c.isDigit = true) : 48 ≤ c.toNat ∧ c.toNat ≤ 57 := by
  simpa [Char.isDigit, UInt32.le_iff_toNat_le] using h

lemma not_isCSpace_of_isDigit {c : Char} (h : c.isDigit = true) : isCSpace c = false := by
  obtain ⟨hlow, -⟩ := toNat_of_isDigit h
  have hspace : c ≠ ' ' := by
    rintro rfl
    exact absurd h (by decide)
  have hcontrol : ¬ c.toNat ≤ 13 := by omega
  simp [isCSpace, hspace, hcontrol]

lemma underscore_not_mem {group : List Char} (h : isDigits group = true) : '_' ∉ group := by
  intro hmem
  exact absurd ((isDigits_iff.mp h).2 _ hmem) (by decide)

lemma takeSign_append {negative : Bool} {sign : List Char} (hsign : IsSign negative sign) {c : Char}
    (hc : c.isDigit = true) (l : List Char) :
    takeSign (sign ++ c :: l) = (negative, c :: l) := by
  cases hsign with
  | none =>
    rw [List.nil_append]
    unfold takeSign
    split
    · simp_all
    · simp_all
    · rfl
  | plus => rfl
  | minus => rfl

lemma exists_takeSign (l : List Char) :
    ∃ sign, IsSign (takeSign l).1 sign ∧ l = sign ++ (takeSign l).2 := by
  unfold takeSign
  split
  · exact ⟨_, .minus, rfl⟩
  · exact ⟨_, .plus, rfl⟩
  · exact ⟨_, .none, rfl⟩

/-- Trimming a literal leaves its sign and digits. -/
lemma trim_literal {before after sign : List Char} {negative : Bool} {groups : List (List Char)}
    (hbefore : ∀ c ∈ before, isCSpace c) (hafter : ∀ c ∈ after, isCSpace c)
    (hsign : IsSign negative sign) (hne : groups ≠ [])
    (hgroups : ∀ group ∈ groups, isDigits group) :
    takeSign (Separated.trim isCSpace (before ++ (sign ++ ['_'].intercalate groups) ++ after)) =
      (negative, ['_'].intercalate groups) := by
  obtain ⟨⟨a, l, hhead, ha⟩, l', b, hlast, hb⟩ := Separated.exists_intercalate '_' hne
    fun group h => isDigits_iff.mp (hgroups group h)
  have htrim : Separated.trim isCSpace (before ++ (sign ++ ['_'].intercalate groups) ++ after) =
      sign ++ ['_'].intercalate groups := by
    apply Separated.trim_append hbefore hafter
    · cases hsign with
      | none => exact ⟨a, l, hhead, not_isCSpace_of_isDigit ha⟩
      | plus => exact ⟨'+', _, rfl, rfl⟩
      | minus => exact ⟨'-', _, rfl, rfl⟩
    · exact ⟨sign ++ l', b, by rw [hlast, List.append_assoc], not_isCSpace_of_isDigit hb⟩
  rw [htrim, hhead, takeSign_append hsign ha]

/-- `int(s)` returns exactly on the decimal literals, with their value. -/
lemma intOfStr_eq_ok {printable : Char → Bool} {s : String} {n : ℤ} :
    intOfStr printable s = .ok n ↔ IntLiteral s n := by
  constructor
  · intro h
    obtain ⟨before, after, htext, hbefore, hafter⟩ :=
      Separated.exists_trim isCSpace (s.toList.map asciiOf)
    obtain ⟨sign, hsign, hbody⟩ :=
      exists_takeSign (Separated.trim isCSpace (s.toList.map asciiOf))
    unfold intOfStr at h
    dsimp only at h
    split_ifs at h with hgroups hlength
    refine ⟨before, after, sign, _, _, ?_, hbefore, hafter, hsign, List.splitOn_ne_nil '_' _,
      List.all_eq_true.mp hgroups, hlength, (Except.ok.inj h).symm⟩
    rw [List.intercalate_splitOn, ← hbody, ← htext]
  · rintro ⟨before, after, sign, negative, groups, htext, hbefore, hafter, hsign, hne, hgroups,
      hlength, rfl⟩
    have hsplit : (['_'].intercalate groups).splitOn '_' = groups :=
      List.splitOn_intercalate '_' (fun group h => underscore_not_mem (hgroups group h)) hne
    rw [intOfStr, htext, trim_literal hbefore hafter hsign hne hgroups]
    dsimp only
    rw [hsplit, if_pos (List.all_eq_true.mpr hgroups), if_pos hlength]

lemma ofDigitChars_lt {digits : List Char} (h : ∀ c ∈ digits, c.isDigit) :
    Nat.ofDigitChars 10 digits 0 < 10 ^ digits.length := by
  induction digits with
  | nil => decide
  | cons c digits ih =>
    have hrest := ih fun c hc => h c (List.mem_cons_of_mem _ hc)
    obtain ⟨-, hdigit⟩ := toNat_of_isDigit (h c List.mem_cons_self)
    have hvalue : 10 * 0 + (c.toNat - '0'.toNat) ≤ 9 := by
      have hzero : '0'.toNat = 48 := rfl
      omega
    rw [Nat.ofDigitChars_cons, Nat.ofDigitChars_eq_ofDigitChars_zero, List.length_cons]
    calc 10 ^ digits.length * (10 * 0 + (c.toNat - '0'.toNat)) + Nat.ofDigitChars 10 digits 0
        < 10 ^ digits.length * 9 + 10 ^ digits.length := by
          exact Nat.add_lt_add_of_le_of_lt (Nat.mul_le_mul_left _ hvalue) hrest
      _ = 10 ^ (digits.length + 1) := by ring

/-- What a string denotes is short enough to be written again. -/
lemma IntLiteral.printable {s : String} {n : ℤ} (h : IntLiteral s n) :
    TestOrch.printable n = true := by
  obtain ⟨-, -, -, negative, groups, -, -, -, -, -, hgroups, hlength, rfl⟩ := h
  have hdigits : ∀ c ∈ groups.flatten, c.isDigit = true := by
    intro c hc
    obtain ⟨group, hgroup, hc⟩ := List.mem_flatten.mp hc
    exact (isDigits_iff.mp (hgroups group hgroup)).2 c hc
  have hvalue : (signed negative groups.flatten).natAbs =
      Nat.ofDigitChars 10 groups.flatten 0 := by
    unfold signed
    split_ifs <;> simp
  have hbound : ∀ m, groups.flatten.length ≤ m →
      Nat.ofDigitChars 10 groups.flatten 0 < Nat.pow 10 m := fun m hm =>
    (ofDigitChars_lt hdigits).trans_le (Nat.pow_le_pow_right (by decide) hm)
  unfold TestOrch.printable
  rw [hvalue]
  exact decide_eq_true (hbound maxStrDigits hlength)

/-! ### Other values -/

/-- `int(x)` of a `float`: the fraction is cut off. -/
def PyFloat.toInt : PyFloat → Except PyError ℤ
  | .finite q => .ok (if 0 ≤ q then ⌊q⌋ else ⌈q⌉)
  | .negZero => .ok 0
  | .infinity _ => .error (.overflowError "cannot convert float infinity to integer")
  | .nan => .error (.valueError "cannot convert float NaN to integer")

/-- `int(value)`. -/
def PyValue.toInt (printable : Char → Bool) : PyValue → Except PyError ℤ
  | .bool b => .ok (if b then 1 else 0)
  | .int i => .ok i
  | .float x => x.toInt
  | .str s => intOfStr printable s
  | v => .error (.typeError
      ("int() argument must be a string, a bytes-like object or a real number, not " ++
        s!"'{v.typeName}'"))

end TestOrch
