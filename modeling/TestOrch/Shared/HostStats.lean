import Mathlib.Data.Rat.Floor
import Mathlib.Tactic.Linarith
import TestOrch.Shared.PyValue

/-!
# The collected load (`shared/host_stats.py`)

`collect_host_stats` clamps the CPU reading and rounds it to one decimal. Readings are rationals;
the other figures of a snapshot come here as they are, in the dict of a reply.
-/

namespace TestOrch

/-- `round(q)`: the nearest integer, the even one of two. -/
def roundHalfEven (q : ℚ) : ℤ :=
  let below := ⌊q⌋
  if q - below < 1 / 2 then below
  else if 1 / 2 < q - below then below + 1
  else if below % 2 = 0 then below else below + 1

/-- `round(q, 1)`. -/
def roundTenth (q : ℚ) : ℚ := roundHalfEven (q * 10) / 10

/-- The `cpu_percent` that is collected for a reading of `psutil.cpu_percent`. -/
def collectedCpu (reading : ℚ) : ℚ := roundTenth (max 0 (min 100 reading))

lemma roundHalfEven_intCast (n : ℤ) : roundHalfEven n = n := by
  simp [roundHalfEven]

/-- Rounding does not leave an interval between integers. -/
lemma roundHalfEven_mem {q : ℚ} {m n : ℤ} (hm : (m : ℚ) ≤ q) (hn : q ≤ n) :
    m ≤ roundHalfEven q ∧ roundHalfEven q ≤ n := by
  have hfloor : m ≤ ⌊q⌋ := Int.le_floor.mpr hm
  have hle : (⌊q⌋ : ℚ) ≤ q := Int.floor_le q
  rcases eq_or_lt_of_le hn with rfl | hlt
  · rw [roundHalfEven_intCast]
    exact ⟨by exact_mod_cast hm, le_rfl⟩
  · have hbelow : ⌊q⌋ < n := Int.floor_lt.mpr hlt
    unfold roundHalfEven
    dsimp only
    split_ifs <;> omega

/-- Rounding keeps the order. -/
lemma roundHalfEven_mono {p q : ℚ} (h : p ≤ q) : roundHalfEven p ≤ roundHalfEven q := by
  rcases (Int.floor_le_floor h).lt_or_eq with hlt | heq
  · have hnext : ∀ r : ℚ, r ≤ (⌊r⌋ + 1 : ℤ) := by
      intro r
      exact_mod_cast (Int.lt_floor_add_one r).le
    calc roundHalfEven p ≤ ⌊p⌋ + 1 := (roundHalfEven_mem (Int.floor_le p) (hnext p)).2
      _ ≤ ⌊q⌋ := hlt
      _ ≤ roundHalfEven q := (roundHalfEven_mem (Int.floor_le q) (hnext q)).1
  · unfold roundHalfEven
    dsimp only
    rw [heq]
    split_ifs <;> first | omega | linarith

lemma roundTenth_mem {q : ℚ} (h₀ : 0 ≤ q) (h₁ : q ≤ 100) :
    0 ≤ roundTenth q ∧ roundTenth q ≤ 100 := by
  have hround : 0 ≤ roundHalfEven (q * 10) ∧ roundHalfEven (q * 10) ≤ 1000 := by
    apply roundHalfEven_mem
    · push_cast
      linarith
    · push_cast
      linarith
  have hlow : (0 : ℚ) ≤ roundHalfEven (q * 10) := by exact_mod_cast hround.1
  have hhigh : (roundHalfEven (q * 10) : ℚ) ≤ 1000 := by exact_mod_cast hround.2
  unfold roundTenth
  constructor
  · linarith
  · linarith

/-- The assertion `0.0 <= cpu_percent <= 100.0` of a snapshot holds of what is collected. -/
lemma collectedCpu_mem (reading : ℚ) : 0 ≤ collectedCpu reading ∧ collectedCpu reading ≤ 100 :=
  roundTenth_mem (le_max_left ..) (max_le (by norm_num) (min_le_left ..))

/-- What was collected once would be collected again. -/
lemma collectedCpu_collectedCpu (reading : ℚ) :
    collectedCpu (collectedCpu reading) = collectedCpu reading := by
  obtain ⟨h₀, h₁⟩ := collectedCpu_mem reading
  have hclamp : max 0 (min 100 (collectedCpu reading)) = collectedCpu reading := by
    rw [min_eq_right h₁, max_eq_right h₀]
  rw [collectedCpu, hclamp]
  unfold collectedCpu roundTenth
  rw [div_mul_cancel₀ _ (by norm_num : (10 : ℚ) ≠ 0), roundHalfEven_intCast]

/-- `HostStats`, without the assertions of `__post_init__`. -/
structure HostStats where
  hostId : String
  cpuPercent : PyFloat
  ramAvailableMb : PyFloat
  ramTotalMb : PyFloat
  diskAvailableGb : PyFloat
  diskTotalGb : PyFloat
  activeUsers : ℤ
  online : Bool

def HostStats.toDict (s : HostStats) : List (PyValue × PyValue) :=
  [(.str "host_id", .str s.hostId), (.str "cpu_percent", .float s.cpuPercent),
    (.str "ram_available_mb", .float s.ramAvailableMb),
    (.str "ram_total_mb", .float s.ramTotalMb),
    (.str "disk_available_gb", .float s.diskAvailableGb),
    (.str "disk_total_gb", .float s.diskTotalGb), (.str "active_users", .int s.activeUsers),
    (.str "online", .bool s.online)]

end TestOrch
