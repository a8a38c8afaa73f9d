import TestOrch.Shared.PyInt
import TestOrch.Worker.ConfigFiles

/-!
# The timeout of a pytest run (`PytestRunner` in `worker/translation_layer.py`)

`write_config` converts `timeout_seconds` with `int`, rejects what is not positive, and only then
touches the disk. The conversion takes more than integers: `True` counts as one second and of a
fraction the integer part is taken, while an infinite timeout raises an `OverflowError` that is not
translated. All other timeouts are handled as documented (`timeoutHandled_iff`). Values are nested
less deeply than the recursion limit of the interpreter, so `str` and `json.dump` return.
-/

namespace TestOrch

def requirePositiveTimeout (seconds : ℤ) : Except PyError ℤ :=
  if seconds ≤ 0 then .error (.valueError "timeout_seconds must be positive") else .ok seconds

/-- The error of a timeout that cannot be used. -/
def invalidTimeout (printable : Char → Bool) (timeout : PyValue) : PyError :=
  let text := timeout.text printable
  .valueError s!"Invalid timeout_seconds: {text}"

/-- The `try` statement that converts the timeout. -/
def parseTimeout (printable : Char → Bool) (timeout : PyValue) : Except PyError ℤ :=
  match timeout.toInt printable >>= requirePositiveTimeout with
  | .error (.valueError _) => .error (invalidTimeout printable timeout)
  | .error (.typeError _) => .error (invalidTimeout printable timeout)
  | result => result

namespace Runner

variable (runner : Runner)

/-- `timeout_str`. -/
def timeout : PyValue := runner.get "timeout_seconds" (.str "600")

/-- `cfg`. -/
def pytestConfig (seconds : ℤ) : List (PyValue × PyValue) :=
  [(.str "markers", runner.get "markers" (.list [])),
    (.str "target_dut", runner.get "target_dut" (.str "")),
    (.str "timeout_seconds", .int seconds),
    (.str "extra_args", runner.get "extra_args" (.list []))]

/-- `PytestRunner.write_config`. -/
def writePytestConfig (printable : Char → Bool) (floatRepr : PyFloat → String) (disk : Disk) :
    ConfigEff String := do
  let seconds ← Eff.lift ((parseTimeout printable runner.timeout).mapError .code)
  runner.writeInto disk "pytest_config.json"
    (ConfigFile.json <$> PyValue.encode floatRepr (.dict (runner.pytestConfig seconds)))

end Runner

/-! ### What is documented -/

/-- The integer that a timeout denotes. -/
def Denotes : PyValue → ℤ → Prop
  | .int i, n => n = i
  | .float (.finite q), n => q = n
  | .float .negZero, n => n = 0
  | .str s, n => IntLiteral s n
  | _, _ => False

/-- A timeout that denotes a positive integer is written with the other fields as they are, any
other one is a `ValueError` that leaves the disk alone. -/
structure TimeoutHandled (printable : Char → Bool) (floatRepr : PyFloat → String)
    (runner : Runner) : Prop where
  accepts : ∀ n, 0 < n → Denotes runner.timeout n →
    ∀ disk s, runner.Accepts disk "pytest_config.json" →
      ∃ text, runner.writePytestConfig printable floatRepr disk s =
          (.ok runner.dir,
            (s.makeDir runner.dir).put (runner.file "pytest_config.json") (.json text)) ∧
        text.decode = .dict (runner.pytestConfig n)
  rejects : (∀ n, 0 < n → ¬ Denotes runner.timeout n) →
    ∀ disk s, ∃ message, runner.writePytestConfig printable floatRepr disk s =
      (.error (.code (.valueError message)), s)

/-- The timeouts on which `int` does what is documented of `write_config`: not `True`, no infinity,
and no number above one with a fraction. -/
def PlainTimeout : PyValue → Prop
  | .bool b => b = false
  | .float (.finite q) => q ≤ 1 ∨ q.den = 1
  | .float (.infinity _) => False
  | _ => True

/-- How large a finite `float` can be. -/
def InFloatRange : PyValue → Prop
  | .float (.finite q) => |q| < floatBound
  | _ => True

/-! ### Converting the timeout -/

section Parsing

variable {printable : Char → Bool} {v : PyValue} {n : ℤ}

lemma parseTimeout_of_pos (h : v.toInt printable = .ok n) (hn : 0 < n) :
    parseTimeout printable v = .ok n := by
  rw [parseTimeout, h, Except.ok_bind, requirePositiveTimeout, if_neg (by omega)]

lemma parseTimeout_of_nonpos (h : v.toInt printable = .ok n) (hn : n ≤ 0) :
    parseTimeout printable v = .error (invalidTimeout printable v) := by
  rw [parseTimeout, h, Except.ok_bind, requirePositiveTimeout, if_pos hn]

lemma parseTimeout_of_valueError {message : String}
    (h : v.toInt printable = .error (.valueError message)) :
    parseTimeout printable v = .error (invalidTimeout printable v) := by
  rw [parseTimeout, h]
  rfl

lemma parseTimeout_of_typeError {message : String}
    (h : v.toInt printable = .error (.typeError message)) :
    parseTimeout printable v = .error (invalidTimeout printable v) := by
  rw [parseTimeout, h]
  rfl

lemma intOfStr_error {s : String} {e : PyError} (h : intOfStr printable s = .error e) :
    ∃ message, e = .valueError message := by
  unfold intOfStr at h
  dsimp only at h
  split_ifs at h
  · exact ⟨_, (Except.error.inj h).symm⟩
  · exact ⟨_, (Except.error.inj h).symm⟩

/-- What a timeout denotes is what `int` makes of it. -/
lemma toInt_of_denotes (h : Denotes v n) : v.toInt printable = .ok n := by
  cases v with
  | int i => exact congrArg Except.ok h.symm
  | str s => exact intOfStr_eq_ok.mpr h
  | float x =>
    cases x with
    | finite q =>
      obtain rfl : q = n := h
      simp [PyValue.toInt, PyFloat.toInt]
    | negZero => exact congrArg Except.ok h.symm
    | infinity _ => cases h
    | nan => cases h
  | _ => cases h

/-- A plain number with a positive integer part has no fraction. -/
lemma eq_toInt_of_pos {q : ℚ} (hplain : q ≤ 1 ∨ q.den = 1)
    (h : 0 < if 0 ≤ q then ⌊q⌋ else ⌈q⌉) : q = (if 0 ≤ q then ⌊q⌋ else ⌈q⌉ : ℤ) := by
  split_ifs at h ⊢ with hq
  · have hone : (1 : ℚ) ≤ q := by
      have hle := Int.floor_le q
      have hfloor : (1 : ℚ) ≤ ⌊q⌋ := by exact_mod_cast h
      exact hfloor.trans hle
    rcases hplain with hle | hden
    · rw [le_antisymm hle hone]
      simp
    · have hint : q = (q.num : ℚ) := ((Rat.den_eq_one_iff q).mp hden).symm
      rw [hint, Int.floor_intCast]
  · have hceil : ⌈q⌉ ≤ 0 := Int.ceil_le.mpr (by exact_mod_cast (not_le.mp hq).le)
    omega

/-- A plain timeout that denotes no positive integer is invalid. -/
lemma parseTimeout_invalid (hplain : PlainTimeout v) (h : ∀ n, 0 < n → ¬ Denotes v n) :
    parseTimeout printable v = .error (invalidTimeout printable v) := by
  cases v with
  | bool b =>
    obtain rfl : b = false := hplain
    exact parseTimeout_of_nonpos rfl le_rfl
  | int i =>
    exact parseTimeout_of_nonpos rfl (not_lt.mp fun hi => h i hi rfl)
  | float x =>
    cases x with
    | finite q =>
      refine parseTimeout_of_nonpos rfl ?_
      by_contra hpos
      exact h _ (not_le.mp hpos) (eq_toInt_of_pos hplain (not_le.mp hpos))
    | negZero => exact parseTimeout_of_nonpos rfl le_rfl
    | infinity _ => cases hplain
    | nan => exact parseTimeout_of_valueError rfl
  | str s =>
    cases hs : intOfStr printable s with
    | ok n =>
      exact parseTimeout_of_nonpos hs (not_lt.mp fun hn => h n hn (intOfStr_eq_ok.mp hs))
    | error e =>
      obtain ⟨message, rfl⟩ := intOfStr_error hs
      exact parseTimeout_of_valueError hs
  | none => exact parseTimeout_of_typeError rfl
  | list xs => exact parseTimeout_of_typeError rfl
  | tuple xs => exact parseTimeout_of_typeError rfl
  | dict items => exact parseTimeout_of_typeError rfl
  | object name mapping => exact parseTimeout_of_typeError rfl

/-- Cutting off the fraction does not make a number larger. -/
lemma abs_toInt_le (q : ℚ) : |((if 0 ≤ q then ⌊q⌋ else ⌈q⌉ : ℤ) : ℚ)| ≤ |q| := by
  split_ifs with hq
  · rw [abs_of_nonneg (by exact_mod_cast Int.floor_nonneg.mpr hq), abs_of_nonneg hq]
    exact Int.floor_le q
  · have hneg : q ≤ 0 := (not_le.mp hq).le
    have hceil : ⌈q⌉ ≤ 0 := Int.ceil_le.mpr (by exact_mod_cast hneg)
    rw [abs_of_nonpos (by exact_mod_cast hceil), abs_of_nonpos hneg, neg_le_neg_iff]
    exact Int.le_ceil q

lemma printable_of_lt_floatBound {i : ℤ} (h : i.natAbs < floatBound) :
    TestOrch.printable i = true := by
  have hpow : ∀ k m n, k ≤ n → Nat.pow 2 k - m ≤ Nat.pow 10 n := fun k m n hk =>
    calc Nat.pow 2 k - m ≤ Nat.pow 2 k := Nat.sub_le _ _
      _ ≤ Nat.pow 10 k := Nat.pow_le_pow_left (by decide) k
      _ ≤ Nat.pow 10 n := Nat.pow_le_pow_right (by decide) hk
  have hdigits : 1024 ≤ maxStrDigits := by decide
  unfold floatBound at h
  unfold TestOrch.printable
  exact decide_eq_true (h.trans_le (hpow 1024 (Nat.pow 2 970) maxStrDigits hdigits))

/-- The seconds can be written. -/
lemma printable_toInt (hjson : v.isJson = true) (hrange : InFloatRange v)
    (h : v.toInt printable = .ok n) : TestOrch.printable n = true := by
  cases v with
  | bool b =>
    obtain rfl := Except.ok.inj h
    apply printable_of_natAbs_lt
    cases b <;> decide
  | int i =>
    obtain rfl := Except.ok.inj h
    exact hjson
  | str s => exact (intOfStr_eq_ok.mp h).printable
  | float x =>
    cases x with
    | finite q =>
      obtain rfl := Except.ok.inj h
      apply printable_of_lt_floatBound
      have hlt := (abs_toInt_le q).trans_lt hrange
      rw [← Int.cast_abs, Int.abs_eq_natAbs] at hlt
      exact_mod_cast hlt
    | negZero =>
      obtain rfl := Except.ok.inj h
      exact printable_of_natAbs_lt (by decide)
    | infinity _ => cases h
    | nan => cases h
  | _ => cases h

end Parsing

/-! ### Writing the config file -/

namespace Runner

variable {runner : Runner} {printable : Char → Bool} {floatRepr : PyFloat → String}

lemma isJson_get (hjson : PyValue.isJsonItems runner.vars = true) {key : String} {default : PyValue}
    (hdefault : default.isJson = true) : (runner.get key default).isJson = true := by
  unfold get
  cases hv : PyValue.item? runner.vars key with
  | none => exact hdefault
  | some v => exact PyValue.isJson_of_item? hjson hv

/-- The four fields come back from the file as they were written. -/
lemma encode_pytestConfig (floatRepr : PyFloat → String)
    (hjson : PyValue.isJsonItems runner.vars = true) {n : ℤ} (hn : TestOrch.printable n = true) :
    ∃ text, PyValue.encode floatRepr (.dict (runner.pytestConfig n)) = .ok text ∧
      text.decode = .dict (runner.pytestConfig n) := by
  apply PyValue.encode_of_isJson
  have hkeys : (PyValue.strKeys (runner.pytestConfig n)).Nodup := by
    simp only [pytestConfig, PyValue.strKeys_str, PyValue.strKeys_nil]
    decide
  have hmarkers : (runner.get "markers" (.list [])).isJson = true := isJson_get hjson rfl
  have htarget : (runner.get "target_dut" (.str "")).isJson = true := isJson_get hjson rfl
  have hargs : (runner.get "extra_args" (.list [])).isJson = true := isJson_get hjson rfl
  rw [PyValue.isJson, decide_eq_true hkeys]
  simp [pytestConfig, PyValue.isJsonItems, PyValue.isJson, hn, hmarkers, htarget, hargs]

/-- A timeout that converts to a positive number is written. -/
lemma writePytestConfig_of_ok (hjson : PyValue.isJsonItems runner.vars = true)
    (hrange : InFloatRange runner.timeout) {n : ℤ}
    (hint : runner.timeout.toInt printable = .ok n) (hn : 0 < n) {disk : Disk}
    (hdisk : runner.Accepts disk "pytest_config.json") (s : RunsDir) :
    ∃ text, runner.writePytestConfig printable floatRepr disk s =
        (.ok runner.dir,
          (s.makeDir runner.dir).put (runner.file "pytest_config.json") (.json text)) ∧
      text.decode = .dict (runner.pytestConfig n) := by
  have htimeout : runner.timeout.isJson = true := isJson_get hjson rfl
  obtain ⟨text, hencode, hdecode⟩ :=
    encode_pytestConfig floatRepr hjson (printable_toInt htimeout hrange hint)
  refine ⟨text, ?_, hdecode⟩
  rw [← writeInto_eq hdisk, writePytestConfig, parseTimeout_of_pos hint hn]
  show runner.writeInto disk "pytest_config.json" (ConfigFile.json <$> _) s = _
  rw [hencode]
  rfl

/-- A timeout that cannot be converted leaves the disk alone. -/
lemma writePytestConfig_of_error {e : PyError}
    (h : parseTimeout printable runner.timeout = .error e) (disk : Disk) (s : RunsDir) :
    runner.writePytestConfig printable floatRepr disk s = (.error (.code e), s) := by
  rw [writePytestConfig, h]
  rfl

end Runner

section Handled

variable {printable : Char → Bool} {floatRepr : PyFloat → String} {runner : Runner}

/-- A timeout that is converted to a positive integer is written, so it has to denote one. -/
lemma TimeoutHandled.exists_denotes (h : TimeoutHandled printable floatRepr runner)
    (hitems : PyValue.isJsonItems runner.vars = true) (hrange : InFloatRange runner.timeout) {n : ℤ}
    (hn : 0 < n) (hint : runner.timeout.toInt printable = .ok n) :
    ∃ n, 0 < n ∧ Denotes runner.timeout n := by
  by_contra hnone
  push Not at hnone
  obtain ⟨message, hrun⟩ := h.rejects hnone .healthy ⟨[], []⟩
  obtain ⟨text, hwrite, -⟩ :=
    Runner.writePytestConfig_of_ok hitems hrange hint hn (runner.accepts_healthy _) ⟨[], []⟩
  rw [hwrite] at hrun
  cases hrun

/-- The error of an infinite timeout is not translated. -/
lemma TimeoutHandled.ne_infinity (h : TimeoutHandled printable floatRepr runner)
    (negative : Bool) : runner.timeout ≠ .float (.infinity negative) := by
  intro hv
  have hraise : parseTimeout printable runner.timeout =
      .error (.overflowError "cannot convert float infinity to integer") := by
    rw [hv]
    rfl
  have hrun : runner.writePytestConfig printable floatRepr .healthy ⟨[], []⟩ = _ :=
    Runner.writePytestConfig_of_error hraise .healthy ⟨[], []⟩
  obtain ⟨message, hvalue⟩ := h.rejects (by simp [hv, Denotes]) .healthy ⟨[], []⟩
  rw [hrun] at hvalue
  cases hvalue

end Handled

/-- The timeout is handled as documented exactly if it is not `True`, no infinity, and no number
above one with a fraction. -/
theorem timeoutHandled_iff {printable : Char → Bool} {floatRepr : PyFloat → String}
    {runner : Runner} (hjson : (PyValue.dict runner.vars).isJson = true)
    (hrange : InFloatRange runner.timeout) :
    TimeoutHandled printable floatRepr runner ↔ PlainTimeout runner.timeout := by
  obtain ⟨-, hitems⟩ := Bool.and_eq_true_iff.mp hjson
  constructor
  · intro h
    cases hv : runner.timeout with
    | bool b =>
      cases b with
      | false => rfl
      | true =>
        -- `int(True)` is 1, but `True` denotes no number.
        obtain ⟨n, -, hdenotes⟩ := h.exists_denotes hitems hrange one_pos (by rw [hv]; rfl)
        rw [hv] at hdenotes
        cases hdenotes
    | float x =>
      cases x with
      | finite q =>
        -- `int` cuts the fraction off instead of refusing the number.
        by_contra hfraction
        obtain ⟨hone, hden⟩ := not_or.mp hfraction
        have hfloor : 0 < ⌊q⌋ := Int.floor_pos.mpr (not_le.mp hone).le
        have hq : 0 ≤ q := Int.floor_nonneg.mp hfloor.le
        have hint : runner.timeout.toInt printable = .ok ⌊q⌋ := by
          simp [hv, PyValue.toInt, PyFloat.toInt, hq]
        obtain ⟨n, -, hdenotes⟩ := h.exists_denotes hitems hrange hfloor hint
        rw [hv] at hdenotes
        obtain rfl : q = n := hdenotes
        exact hden (Rat.den_intCast n)
      | infinity negative => exact absurd hv (h.ne_infinity negative)
      | _ => trivial
    | _ => trivial
  · intro hplain
    constructor
    · intro n hn hdenotes disk s hdisk
      exact Runner.writePytestConfig_of_ok hitems hrange (toInt_of_denotes hdenotes) hn hdisk s
    · intro hnone disk s
      exact ⟨_, Runner.writePytestConfig_of_error (parseTimeout_invalid hplain hnone) disk s⟩

def timeoutRunner (timeout : PyValue) : Runner :=
  ⟨"/runs", ⟨"pytest-run", by decide⟩, [(.str "timeout_seconds", timeout)]⟩

theorem fiveMinutes_handled :
    TimeoutHandled (fun c => ' ' ≤ c ∧ c ≤ '~') (fun _ => "0.0") (timeoutRunner (.str "300")) :=
  (timeoutHandled_iff (by decide) (by exact trivial)).mpr (by exact trivial)

/-- An infinite timeout raises an exception that is no `ValueError`. -/
theorem infiniteTimeout_not_handled :
    ¬ ∀ (printable : Char → Bool) (floatRepr : PyFloat → String) (runner : Runner),
      (PyValue.dict runner.vars).isJson = true → InFloatRange runner.timeout →
        TimeoutHandled printable floatRepr runner := by
  intro h
  obtain ⟨message, hrun⟩ := (h (fun _ => false) (fun _ => "")
    (timeoutRunner (.float (.infinity false))) (by decide) trivial).rejects
      (fun _ _ hno => hno) .healthy ⟨[], []⟩
  cases hrun

end TestOrch
