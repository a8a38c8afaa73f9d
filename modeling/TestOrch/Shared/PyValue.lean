import Mathlib.Data.Rat.Defs
import TestOrch.Core.Escaping
import TestOrch.Core.Separated

/-!
# The Python values that the services exchange

The values that can stand in a broker payload or be passed to a constructor, the exceptions that
the guards raise, and the built-in conversions that the decoders call. Strings are sequences of
Unicode scalar values. Numbers are exact: an `int` is an integer and a finite `float` the rational
it denotes.
-/

namespace TestOrch

/-- A Python `float`; zero with a minus sign is kept apart because it prints differently. -/
inductive PyFloat where
  | finite (q : ℚ)
  | negZero
  | infinity (negative : Bool)
  | nan
  deriving DecidableEq

/-- A Python value. `object` stands for everything that no JSON text decodes to; `mapping` tells
whether it is an instance of `Mapping`. -/
inductive PyValue where
  | none
  | bool (b : Bool)
  | int (i : ℤ)
  | float (x : PyFloat)
  | str (s : String)
  | list (xs : List PyValue)
  | tuple (xs : List PyValue)
  | dict (items : List (PyValue × PyValue))
  | object (typeName : String) (mapping : Bool)

/-- The exceptions raised by the code itself or by the conversions it calls, with their messages. -/
inductive PyError where
  | typeError (message : String)
  | valueError (message : String)
  | keyError (message : String)
  | assertionError (message : String)
  | attributeError (message : String)
  | overflowError (message : String)
  | recursionError (message : String)
  deriving DecidableEq, Repr

namespace PyValue

/-- `type(value).__name__`. -/
def typeName : PyValue → String
  | .none => "NoneType"
  | .bool _ => "bool"
  | .int _ => "int"
  | .float _ => "float"
  | .str _ => "str"
  | .list _ => "list"
  | .tuple _ => "tuple"
  | .dict _ => "dict"
  | .object name _ => name

/-- `isinstance(value, Mapping)`. -/
def isMapping : PyValue → Bool
  | .dict _ => true
  | .object _ mapping => mapping
  | _ => false

/-- `bool(value)`. -/
def truthy : PyValue → Bool
  | .none => false
  | .bool b => b
  | .int i => i != 0
  | .float (.finite q) => q != 0
  | .float .negZero => false
  | .float _ => true
  | .str s => s != ""
  | .list xs => !xs.isEmpty
  | .tuple xs => !xs.isEmpty
  | .dict items => !items.isEmpty
  | .object _ _ => true

/-- `list(value)`: a dict gives its keys and a string its characters. -/
def toList : PyValue → Except PyError (List PyValue)
  | .str s => .ok (s.toList.map fun c => .str (String.singleton c))
  | .list xs => .ok xs
  | .tuple xs => .ok xs
  | .dict items => .ok (items.map Prod.fst)
  | v => .error (.typeError s!"'{v.typeName}' object is not iterable")

/-- The number that a `bool`, an `int` or a finite `float` equals. -/
def numeric : PyValue → Option ℚ
  | .bool b => some (if b then 1 else 0)
  | .int i => some i
  | .float (.finite q) => some q
  | .float .negZero => some 0
  | _ => Option.none

/-- Equality of dictionary keys decoded from JSON: numbers are compared by value across their
types, and `nan` equals nothing. -/
def keyEq : PyValue → PyValue → Bool
  | .none, .none => true
  | .str s, .str t => s == t
  | .float (.infinity m), .float (.infinity n) => m == n
  | a, b =>
    match a.numeric, b.numeric with
    | some p, some q => p == q
    | _, _ => false

/-- Whether the value may be a dictionary key. -/
def hashable : PyValue → Bool
  | .list _ => false
  | .dict _ => false
  | _ => true

/-- `d[key] = value` on the items of a dict: the first key stays, the last value wins. -/
def insertItem (items : List (PyValue × PyValue)) (key value : PyValue) :
    List (PyValue × PyValue) :=
  if items.any fun kv => kv.1.keyEq key then
    items.map fun kv => if kv.1.keyEq key then (kv.1, value) else kv
  else items ++ [(key, value)]

/-- One element of the sequence given to `dict(...)`: it must unpack into a key and a value. -/
def updatePair (index : ℕ) (items : List (PyValue × PyValue)) (element : PyValue) :
    Except PyError (List (PyValue × PyValue)) :=
  match element.toList with
  | .error _ => .error (.typeError
      s!"cannot convert dictionary update sequence element #{index} to a sequence")
  | .ok [key, value] =>
    if key.hashable then .ok (insertItem items key value)
    else .error (.typeError s!"unhashable type: '{key.typeName}'")
  | .ok xs => .error (.valueError
      s!"dictionary update sequence element #{index} has length {xs.length}; 2 is required")

/-- `dict(value)`: a copy of a mapping, or the dict built from a sequence of pairs. -/
def toDict (v : PyValue) : Except PyError (List (PyValue × PyValue)) :=
  match v with
  | .dict items => .ok items
  | v => do
    let elements ← v.toList
    (elements.zipIdx).foldlM (fun items (element, index) => updatePair index items element) []

/-- `d.get(key)` for a string key. -/
def item? (items : List (PyValue × PyValue)) (key : String) : Option PyValue :=
  (items.find? fun kv => kv.1.keyEq (.str key)).map Prod.snd

end PyValue

/-! ### Methods of strings -/

/-- `str.isspace` for one character. -/
def isSpace (c : Char) : Bool :=
  let n := c.toNat
  (9 ≤ n && n ≤ 13) || (28 ≤ n && n ≤ 32) || n == 0x85 || n == 0xa0 || n == 0x1680 ||
    (0x2000 ≤ n && n ≤ 0x200a) || n == 0x2028 || n == 0x2029 || n == 0x202f || n == 0x205f ||
    n == 0x3000

/-- `s.strip()`. -/
def strip (s : String) : String :=
  String.ofList (((s.toList.dropWhile isSpace).reverse.dropWhile isSpace).reverse)

/-- `s.split(",")`. -/
def splitComma (s : String) : List String :=
  (s.toList.splitOn ',').map String.ofList

/-- `[t.strip() for t in s.split(",") if t.strip()]`, the way both sides read a tag string. -/
def commaPieces (s : String) : List String :=
  ((splitComma s).map strip).filter (· != "")

/-- `text.replace(old, new)` for a pattern that is not empty. -/
def replace (text old new : String) : String :=
  String.ofList (Escaping.replaceAll old.toList new.toList text.toList)

lemma toList_strip (s : String) : (strip s).toList = Separated.trim isSpace s.toList := by
  rw [strip, String.toList_ofList]
  rfl

lemma commaPieces_eq (s : String) :
    commaPieces s = (Separated.pieces ',' isSpace s.toList).map String.ofList := by
  have hstrip : strip ∘ String.ofList = String.ofList ∘ Separated.trim isSpace := by
    funext l
    apply String.toList_inj.mp
    simp [toList_strip]
  have hne : ((· != "") : String → Bool) ∘ String.ofList = fun l => decide (l ≠ []) := by
    funext l
    rw [Bool.eq_iff_iff]
    simp
  rw [commaPieces, splitComma, List.map_map, hstrip, ← List.map_map, List.filter_map, hne,
    Separated.pieces]

lemma mem_commaPieces {s t : String} :
    t ∈ commaPieces s ↔ (∃ p ∈ splitComma s, strip p = t) ∧ t ≠ "" := by
  simp [commaPieces]

end TestOrch
