import Mathlib.Data.Int.Log
import Mathlib.Data.List.DropRight
import TestOrch.Shared.HostStats
import TestOrch.Shared.PyValue

/-!
# Texts of Python values

What `str`, `repr` and `format(value, ".<n>f")` give for the values that a JSON text decodes to.
-/

namespace TestOrch

/-! ### Numbers -/

/-- The `float` nearest to `q`, as if exponents had no upper bound. -/
def nearestFloat (q : ℚ) : ℚ :=
  if q = 0 then 0
  else
    let e := max (Int.log 2 |q| - 52) (-1074)
    roundHalfEven (q / 2 ^ e) * 2 ^ e

/-- From here on an integer is nearer to `2 ** 1024` than to any `float`. -/
@[irreducible] def floatBound : ℕ := Nat.pow 2 1024 - Nat.pow 2 970

/-- `float(i)`. -/
def floatOfInt (i : ℤ) : Except PyError ℚ :=
  if i.natAbs < floatBound then .ok (nearestFloat i)
  else .error (.overflowError "int too large to convert to float")

/-- The decimal digits of `n`, with zeros before them up to the given width. -/
def paddedDigits (width n : ℕ) : List Char := (Nat.toDigits 10 n).leftpad width '0'

/-- A sign and `q` with `n` decimals. -/
def fixedText (negative : Bool) (q : ℚ) (n : ℕ) : List Char :=
  let scaled := (roundHalfEven (q * 10 ^ n)).natAbs
  (if negative then ['-'] else []) ++ Nat.toDigits 10 (scaled / 10 ^ n) ++
    if n = 0 then [] else '.' :: paddedDigits n (scaled % 10 ^ n)

/-- `format(x, ".<n>f")` of a `float`. -/
def PyFloat.fixed (n : ℕ) : PyFloat → List Char
  | .finite q => fixedText (q < 0) |q| n
  | .negZero => fixedText true 0 n
  | .infinity negative => (if negative then "-inf" else "inf").toList
  | .nan => "nan".toList

/-- Among the decimals with `n` digits one that rounds to `q`, the nearest if possible; it is given
as an integer and a power of ten. -/
def decimal? (q : ℚ) (n : ℕ) : Option (ℕ × ℤ) :=
  let x := Int.log 10 q + 1 - n
  let near := roundHalfEven (q / 10 ^ x)
  let other := if near ≤ q / 10 ^ x then near + 1 else near - 1
  ([near, other].find? fun (m : ℤ) => nearestFloat (m * 10 ^ x) = q).map fun m => (m.natAbs, x)

/-- The shortest digits that round to the positive `float` `q`, and where their point stands. -/
def shortestDigits (q : ℚ) : List Char × ℤ :=
  match (List.range' 1 17).findSome? (decimal? q) with
  | some (m, x) =>
    let digits := Nat.toDigits 10 m
    (digits.rdropWhile (· = '0'), x + digits.length)
  | none => ([], 0)

/-- Digits with their point, or with an exponent if the point is far off. -/
def pointText (digits : List Char) (point : ℤ) : List Char :=
  if -4 < point ∧ point ≤ 16 then
    if point ≤ 0 then ['0', '.'] ++ List.replicate point.natAbs '0' ++ digits
    else if digits.length ≤ point then
      digits ++ List.replicate (point.natAbs - digits.length) '0' ++ ['.', '0']
    else digits.take point.natAbs ++ '.' :: digits.drop point.natAbs
  else
    digits.take 1 ++ (if digits.length ≤ 1 then [] else '.' :: digits.drop 1) ++
      (if point < 1 then ['e', '-'] else ['e', '+']) ++ paddedDigits 2 (point - 1).natAbs

/-- `repr(x)` of a `float`. -/
def PyFloat.repr : PyFloat → List Char
  | .finite q =>
    if q = 0 then "0.0".toList
    else
      let (digits, point) := shortestDigits |q|
      (if q < 0 then ['-'] else []) ++ pointText digits point
  | .negZero => "-0.0".toList
  | .infinity negative => (if negative then "-inf" else "inf").toList
  | .nan => "nan".toList

namespace PyValue

/-- `format(value, ".<n>f")`. -/
def fixed (value : PyValue) (n : ℕ) : Except PyError String :=
  match value with
  | .bool b => .ok (String.ofList ((PyFloat.finite (if b then 1 else 0)).fixed n))
  | .int i => do
    let q ← floatOfInt i
    pure (String.ofList ((PyFloat.finite q).fixed n))
  | .float x => .ok (String.ofList (x.fixed n))
  | .str _ => .error (.valueError "Unknown format code 'f' for object of type 'str'")
  | v => .error (.typeError s!"unsupported format string passed to {v.typeName}.__format__")

/-! ### Other values -/

section Repr

-- `str.isprintable` of a character beyond ASCII
variable (printable : Char → Bool)

/-- An escape with the code of the character in hexadecimal digits. -/
def hexEscape (letter : Char) (width : ℕ) (c : Char) : List Char :=
  '\\' :: letter :: (Nat.toDigits 16 c.toNat).leftpad width '0'

/-- How `repr` writes one character of a string. -/
def reprChar (quote c : Char) : List Char :=
  if c = quote ∨ c = '\\' then ['\\', c]
  else if c = '\t' then ['\\', 't']
  else if c = '\n' then ['\\', 'n']
  else if c = '\r' then ['\\', 'r']
  else if c.toNat < 32 ∨ c.toNat = 127 then hexEscape 'x' 2 c
  else if c.toNat < 127 ∨ printable c then [c]
  else if c.toNat ≤ 0xff then hexEscape 'x' 2 c
  else if c.toNat ≤ 0xffff then hexEscape 'u' 4 c
  else hexEscape 'U' 8 c

/-- The quotes that `repr` puts around a string. -/
def quoteOf (s : String) : Char := if '\'' ∈ s.toList ∧ '"' ∉ s.toList then '"' else '\''

/-- `repr(s)` of a string. -/
def reprStr (s : String) : String :=
  let quote := quoteOf s
  String.ofList (quote :: s.toList.flatMap (reprChar printable quote) ++ [quote])

/-- A tuple from the texts of its elements; a single one is followed by a comma. -/
def tupleText : List String → String
  | [x] => "(" ++ x ++ ",)"
  | xs => "(" ++ ", ".intercalate xs ++ ")"

mutual

/-- `repr(value)`; of a value that no JSON text decodes to, the address is left out. -/
def repr : PyValue → String
  | .none => "None"
  | .bool b => if b then "True" else "False"
  | .int i => toString i
  | .float x => String.ofList x.repr
  | .str s => reprStr printable s
  | .list xs => "[" ++ ", ".intercalate (reprList xs) ++ "]"
  | .tuple xs => tupleText (reprList xs)
  | .dict items => "\x7b" ++ ", ".intercalate (reprItems items) ++ "\x7d"
  | .object name _ => "<" ++ name ++ " object>"

def reprList : List PyValue → List String
  | [] => []
  | x :: xs => repr x :: reprList xs

def reprItems : List (PyValue × PyValue) → List String
  | [] => []
  | (key, value) :: rest => (repr key ++ ": " ++ repr value) :: reprItems rest

end

/-- `str(value)`, which is also `format(value, "")`. -/
def text : PyValue → String
  | .str s => s
  | v => repr printable v

end Repr

end PyValue

end TestOrch
