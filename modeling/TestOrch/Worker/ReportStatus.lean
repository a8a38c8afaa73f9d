import Mathlib.Data.List.Dedup
import TestOrch.Backend.RowMarkup
import TestOrch.Shared.Validation

/-!
# The reply to a host-status poll (`report_status` in `worker/tasks.py`)

A worker reads its machine, checks the snapshot (`__post_init__` in `shared/host_stats.py`) and
publishes it as JSON; the backend renders it as a row. Rounding keeps the order of two readings, so
whatever the machine reads the checks pass and the row is rendered (`reportStatus_row`).
-/

namespace TestOrch

/-- What is free and what there is in all, in bytes. -/
structure Usage where
  available : ℚ
  total : ℚ
  nonneg : 0 ≤ available
  le_total : available ≤ total

/-- `sys.maxsize`: no list is longer. -/
def maxSize : ℕ := 9223372036854775807

/-- The names of the logged-in users, one for each session. -/
abbrev UserNames := { names : List String // names.length ≤ maxSize }

/-- What `collect_host_stats` reads. -/
structure Machine where
  cpuPercent : ℚ
  memory : Usage
  pathExists : String → Bool
  /-- `os.makedirs` makes the directory. -/
  makedirs : String → Bool
  diskUsage : String → Usage
  /-- `psutil.users()`, if it does not raise. -/
  users : Option UserNames

/-! ### Comparing floats -/

namespace PyFloat

/-- The number that a `float` which is no infinity denotes. -/
def value : PyFloat → ℚ
  | .finite q => q
  | _ => 0

/-- `a <= b`. -/
def le : PyFloat → PyFloat → Bool
  | .nan, _ => false
  | _, .nan => false
  | .infinity true, _ => true
  | _, .infinity false => true
  | .infinity false, _ => false
  | _, .infinity true => false
  | a, b => a.value ≤ b.value

/-- `x + q`. -/
def add (x : PyFloat) (q : ℚ) : PyFloat :=
  match x with
  | .finite p => .finite (p + q)
  | .negZero => .finite q
  | x => x

@[simp] lemma finite_le_finite (p q : ℚ) : le (.finite p) (.finite q) = decide (p ≤ q) := rfl

@[simp] lemma finite_add (p q : ℚ) : (PyFloat.finite p).add q = .finite (p + q) := rfl

end PyFloat

/-! ### The snapshot -/

/-- `assert condition, message`. -/
def assertThat (condition : Bool) (message : String) : Except PyError Unit :=
  if condition then .ok () else .error (.assertionError message)

def tolerance : ℚ := 1 / 1000000

def HostStats.postInit (s : HostStats) : Except PyError Unit := do
  let cpu := String.ofList s.cpuPercent.repr
  assertThat (s.hostId ≠ "") "host_id must be non-empty str"
  assertThat (PyFloat.le (.finite 0) s.cpuPercent && s.cpuPercent.le (.finite 100))
    s!"cpu_percent out of range: {cpu}"
  assertThat (PyFloat.le (.finite 0) s.ramAvailableMb) "ram_available_mb must be >= 0"
  assertThat (PyFloat.le (.finite 0) s.ramTotalMb) "ram_total_mb must be >= 0"
  assertThat (s.ramAvailableMb.le (s.ramTotalMb.add tolerance)) "avail RAM > total RAM"
  assertThat (PyFloat.le (.finite 0) s.diskAvailableGb) "disk_available_gb must be >= 0"
  assertThat (PyFloat.le (.finite 0) s.diskTotalGb) "disk_total_gb must be >= 0"
  assertThat (s.diskAvailableGb.le (s.diskTotalGb.add tolerance)) "avail disk > total disk"
  assertThat (0 ≤ s.activeUsers) "active_users must be >= 0"

/-- `round(q, n)`. -/
def roundDecimals (n : ℕ) (q : ℚ) : ℚ := roundHalfEven (q * 10 ^ n) / 10 ^ n

namespace Machine

variable (machine : Machine)

/-- The path whose disk is measured: the given one, if it can be made where it is missing. -/
def diskPath (path : String) : String :=
  if machine.pathExists path || machine.makedirs path then path else "/"

def disk (path : String) : Usage := machine.diskUsage (machine.diskPath path)

def activeUsers : ℕ :=
  match machine.users with
  | some names => names.val.dedup.length
  | none => 0

def snapshot (hostId diskPath : String) : HostStats :=
  { hostId := hostId
    cpuPercent := .finite (collectedCpu machine.cpuPercent)
    ramAvailableMb := .finite (roundDecimals 1 (machine.memory.available / (1024 * 1024)))
    ramTotalMb := .finite (roundDecimals 1 (machine.memory.total / (1024 * 1024)))
    diskAvailableGb := .finite (roundDecimals 2 ((machine.disk diskPath).available / 1024 ^ 3))
    diskTotalGb := .finite (roundDecimals 2 ((machine.disk diskPath).total / 1024 ^ 3))
    activeUsers := machine.activeUsers
    online := true }

end Machine

def collectHostStats (hostId diskPath : PyValue) (machine : Machine) :
    Except PyError HostStats := do
  let hostId ← requireNonEmptyStr hostId "host_id"
  let diskPath ← requireNonEmptyStr diskPath "disk_path"
  let stats := machine.snapshot hostId diskPath
  stats.postInit
  pure stats

/-- `report_status`: the exchange and the JSON text that is published on it. -/
def reportStatus (floatRepr : PyFloat → String) (correlationId hostId diskPath : PyValue)
    (machine : Machine) : Except PyError (String × Json) := do
  let correlationId ← requireNonEmptyStr correlationId "correlation_id"
  let stats ← collectHostStats hostId diskPath machine
  let body ← PyValue.encode floatRepr (.dict stats.toDict)
  pure ("host_status." ++ correlationId, body)

/-! ### Rounding -/

lemma roundDecimals_mono (n : ℕ) {p q : ℚ} (h : p ≤ q) : roundDecimals n p ≤ roundDecimals n q := by
  have hscaled : p * 10 ^ n ≤ q * 10 ^ n := mul_le_mul_of_nonneg_right h (by positivity)
  have hround : (roundHalfEven (p * 10 ^ n) : ℚ) ≤ roundHalfEven (q * 10 ^ n) :=
    Int.cast_le.mpr (roundHalfEven_mono hscaled)
  exact div_le_div_of_nonneg_right hround (by positivity)

lemma roundDecimals_zero (n : ℕ) : roundDecimals n 0 = 0 := by
  have hround : roundHalfEven 0 = 0 := roundHalfEven_intCast 0
  rw [roundDecimals, zero_mul, hround, Int.cast_zero, zero_div]

lemma roundDecimals_nonneg (n : ℕ) {q : ℚ} (h : 0 ≤ q) : 0 ≤ roundDecimals n q := by
  rw [← roundDecimals_zero n]
  exact roundDecimals_mono n h

/-- In any unit and rounded, no more is available than there is. -/
lemma Usage.rounded (u : Usage) (n : ℕ) {unit : ℚ} (hunit : 0 < unit) :
    0 ≤ roundDecimals n (u.available / unit) ∧ 0 ≤ roundDecimals n (u.total / unit) ∧
      roundDecimals n (u.available / unit) ≤ roundDecimals n (u.total / unit) + tolerance := by
  have hle : u.available / unit ≤ u.total / unit := div_le_div_of_nonneg_right u.le_total hunit.le
  have hnonneg : 0 ≤ u.available / unit := div_nonneg u.nonneg hunit.le
  have htolerance : (0 : ℚ) ≤ tolerance := by norm_num [tolerance]
  refine ⟨roundDecimals_nonneg n hnonneg, roundDecimals_nonneg n (hnonneg.trans hle), ?_⟩
  exact (roundDecimals_mono n hle).trans (le_add_of_nonneg_right htolerance)

/-! ### The reply of a machine -/

lemma ne_empty_of_nonEmptyStr (s : NonEmptyStr) : s.val ≠ "" := by
  intro h
  exact s.property (by rw [h]; rfl)

lemma Machine.activeUsers_le (machine : Machine) : machine.activeUsers ≤ maxSize := by
  unfold Machine.activeUsers
  cases machine.users with
  | none => exact Nat.zero_le _
  | some names => exact (List.dedup_sublist _).length_le.trans names.property

/-- The checks pass. -/
lemma Machine.postInit_snapshot (machine : Machine) (hostId : NonEmptyStr) (diskPath : String) :
    (machine.snapshot hostId diskPath).postInit = .ok () := by
  obtain ⟨hcpu₀, hcpu₁⟩ := collectedCpu_mem machine.cpuPercent
  obtain ⟨hram, hramTotal, hramLe⟩ :=
    machine.memory.rounded 1 (show (0 : ℚ) < 1024 * 1024 by norm_num)
  obtain ⟨hdisk, hdiskTotal, hdiskLe⟩ :=
    (machine.disk diskPath).rounded 2 (show (0 : ℚ) < 1024 ^ 3 by norm_num)
  have hhost := ne_empty_of_nonEmptyStr hostId
  simp [HostStats.postInit, snapshot, assertThat, Except.ok_bind, *]

lemma collectHostStats_eq (machine : Machine) (hostId diskPath : NonEmptyStr) :
    collectHostStats (.str hostId) (.str diskPath) machine =
      .ok (machine.snapshot hostId diskPath) := by
  rw [collectHostStats, requireNonEmptyStr_str, requireNonEmptyStr_str, Except.ok_bind,
    Except.ok_bind]
  dsimp only
  rw [machine.postInit_snapshot hostId diskPath]
  rfl

/-- Nothing in the dict of a snapshot is lost in its text. -/
lemma Machine.plain_snapshot (machine : Machine) (hostId diskPath : String) :
    (PyValue.dict (machine.snapshot hostId diskPath).toDict).plain = true := by
  have husers : TestOrch.printable (machine.activeUsers : ℤ) = true := by
    apply printable_of_natAbs_lt
    rw [Int.natAbs_natCast]
    exact machine.activeUsers_le.trans_lt (by decide)
  have hkeys : (PyValue.strKeys (machine.snapshot hostId diskPath).toDict).Nodup := by
    simp only [HostStats.toDict, PyValue.strKeys_str, PyValue.strKeys_nil]
    decide
  rw [PyValue.plain, decide_eq_true hkeys]
  simp [HostStats.toDict, snapshot, PyValue.plainItems, PyValue.plain, husers]

/-- `format(q, ".<n>f")`. -/
def decimals (n : ℕ) (q : ℚ) : String := String.ofList ((PyFloat.finite q).fixed n)

def Machine.row (machine : Machine) (hostId diskPath : String) : String :=
  rowText (escape hostId) (decimals 1 (collectedCpu machine.cpuPercent))
    (decimals 1 (roundDecimals 1 (machine.memory.available / (1024 * 1024))))
    (decimals 0 (roundDecimals 1 (machine.memory.total / (1024 * 1024))))
    (decimals 2 (roundDecimals 2 ((machine.disk diskPath).available / 1024 ^ 3)))
    (decimals 0 (roundDecimals 2 ((machine.disk diskPath).total / 1024 ^ 3)))
    (toString machine.activeUsers)

lemma Machine.statusRow_snapshot (machine : Machine) (hostId diskPath : String)
    (loads : String → Loaded) (printable : Char → Bool) :
    statusRow (.builtin loads printable) (machine.snapshot hostId diskPath).toDict =
      .ok (machine.row hostId diskPath) := by
  rw [statusRow_eq_ok]
  exact ⟨_, _, _, _, _, rfl, rfl, rfl, rfl, rfl, rfl⟩

/-- Whatever a machine reads, its reply to a poll passes all checks and is published as a text that
the backend renders as the row with the escaped host and the collected figures. -/
theorem reportStatus_row (machine : Machine) (correlationId hostId diskPath : NonEmptyStr)
    (floatRepr : PyFloat → String) :
    ∃ stats body, collectHostStats (.str hostId) (.str diskPath) machine = .ok stats ∧
      stats.postInit = .ok () ∧
      reportStatus floatRepr (.str correlationId) (.str hostId) (.str diskPath) machine =
        .ok ("host_status." ++ correlationId.val, body) ∧
      PyValue.encode floatRepr (.dict stats.toDict) = .ok body ∧
      ∀ (loads : String → Loaded) (printable : Char → Bool) (text : String),
        loads text = .value body →
          renderStatusRow (.builtin loads printable) text = .ok (machine.row hostId diskPath) ∧
            machine.row hostId diskPath ≠ "" := by
  have hcollect := collectHostStats_eq machine hostId diskPath
  obtain ⟨body, hencode, hdecode⟩ :=
    PyValue.encode_of_plain floatRepr _ (machine.plain_snapshot hostId diskPath)
  refine ⟨_, body, hcollect, machine.postInit_snapshot hostId diskPath, ?_, hencode, ?_⟩
  · rw [reportStatus, requireNonEmptyStr_str, Except.ok_bind, hcollect, Except.ok_bind, hencode]
    rfl
  · intro loads printable text htext
    refine ⟨renderStatusRow_eq_ok.mpr (.inr ⟨_, ?_, machine.statusRow_snapshot _ _ _ _⟩),
      rowText_ne_empty _ _ _ _ _ _ _⟩
    show (loads text).items? = _
    rw [htext, Loaded.items?, hdecode]

end TestOrch
