import TestOrch.Shared.PyValue

/-!
# Validation guards (`shared/validation.py`)

The `require_*` functions either raise or return their argument unchanged. Here the returned value
also carries what was checked: a `NonEmptyStr` cannot be blank and a `PositiveInt` is positive.
-/

namespace TestOrch

/-- A string that is not empty and not only whitespace. -/
abbrev NonEmptyStr := { s : String // strip s ≠ "" }

abbrev PositiveInt := { i : ℤ // 0 < i }

def requireNonEmptyStr (value : PyValue) (name : String) : Except PyError NonEmptyStr :=
  match value with
  | .str s =>
    if h : strip s = "" then .error (.valueError s!"{name} must not be empty") else .ok ⟨s, h⟩
  | v => .error (.typeError s!"{name} must be a str, got {v.typeName}")

/-- `require_positive_int`; a `bool` is rejected although it is an `int` for Python. -/
def requirePositiveInt (value : PyValue) (name : String) : Except PyError PositiveInt :=
  match value with
  | .int i => if h : 0 < i then .ok ⟨i, h⟩ else .error (.valueError s!"{name} must be > 0, got {i}")
  | v => .error (.typeError s!"{name} must be an int, got {v.typeName}")

def requireMapping (value : PyValue) (name : String) : Except PyError PyValue :=
  if value.isMapping then .ok value
  else .error (.typeError s!"{name} must be a mapping, got {value.typeName}")

/-- The guard returns its argument unchanged. -/
lemma requireNonEmptyStr_ok {v : PyValue} {name : String} {s : NonEmptyStr}
    (h : requireNonEmptyStr v name = .ok s) : v = .str s := by
  unfold requireNonEmptyStr at h
  split at h
  · split_ifs at h with hs
    obtain rfl := Except.ok.inj h
    rfl
  · cases h

/-- On a string the guard accepts exactly the non-blank ones. -/
lemma requireNonEmptyStr_str (s : NonEmptyStr) (name : String) :
    requireNonEmptyStr (.str s) name = .ok s := by
  simp [requireNonEmptyStr, s.property]

end TestOrch
