import TestOrch.Backend.Models

/-!
# The maintenance sweep (`backend/services/maintenance.py`)

What the two stages of the sweep read from the tables and what they store. How the stages interleave
with the other services is in `TestOrch.System`.
-/

namespace TestOrch

/-- `_ACTIVE_STATES`. -/
def TestStatus.active : TestStatus → Bool
  | DISPATCHED | RUNNING => true
  | PENDING | PASSED | FAILED | CANCELLED => false

lemma TestStatus.not_terminal_of_active {s : TestStatus} (h : s.active = true) :
    s.terminal = false := by
  cases s <;> simp_all [active, terminal]

/-- `is_stale` of `sweep_stale_hosts`; a naive timestamp is read as UTC. -/
def WorkerHost.isStale (h : WorkerHost) (cutoff : ℤ) : Bool :=
  match h.lastHeartbeat with
  | none => true
  | some hb => hb.instant < cutoff

/-- The hosts that `sweep_stale_hosts` marks offline. -/
def staleHosts (hosts : Inventory) (cutoff : ℤ) : List WorkerHost :=
  hosts.rows.filter fun h => h.isOnline && h.isStale cutoff

/-- What the commit of `sweep_stale_hosts` stores. -/
def markOffline (hosts : Inventory) (affected : List String) : Inventory :=
  hosts.modify affected (fun h => { h with isOnline := false }) fun _ => rfl

/-- The runs that `fail_orphaned_runs` loads. -/
def orphanedRuns (execs : Executions) (hostIds : List String) : List TestExecution :=
  execs.rows.filter fun r =>
    (match r.targetHostId with
      | some h => h ∈ hostIds
      | none => false) && r.status.active

/-- What a commit stores that fails the runs with the given test ids. -/
def failRuns (execs : Executions) (testIds : List String) (now : ℤ) : Executions :=
  execs.modify testIds (fun r => { r with status := .FAILED, updatedAt := now }) fun _ => rfl

/-- The reservations of the failed runs, each of which is released. -/
def reservationsOf (runs : List TestExecution) : List String :=
  runs.filterMap fun r => r.qualiReservationId.filter (· ≠ "")

lemma mem_staleHosts {hosts : Inventory} {cutoff : ℤ} {h : WorkerHost} :
    h ∈ staleHosts hosts cutoff ↔
      h ∈ hosts.rows ∧ h.isOnline = true ∧ h.isStale cutoff = true := by
  simp [staleHosts]

lemma mem_orphanedRuns {execs : Executions} {hostIds : List String} {r : TestExecution} :
    r ∈ orphanedRuns execs hostIds ↔
      r ∈ execs.rows ∧ (∃ h ∈ hostIds, r.targetHostId = some h) ∧ r.status.active = true := by
  simp only [orphanedRuns, List.mem_filter, Bool.and_eq_true, and_congr_right_iff,
    and_congr_left_iff]
  intro _ _
  cases r.targetHostId <;> simp

@[simp] lemma get?_markOffline (hosts : Inventory) (affected : List String) (k : String) :
    (markOffline hosts affected).get? k =
      if k ∈ affected then (hosts.get? k).map fun h => { h with isOnline := false }
      else hosts.get? k :=
  Table.get?_modify ..

@[simp] lemma get?_failRuns (execs : Executions) (testIds : List String) (now : ℤ) (k : String) :
    (failRuns execs testIds now).get? k =
      if k ∈ testIds then
        (execs.get? k).map fun r => { r with status := .FAILED, updatedAt := now }
      else execs.get? k :=
  Table.get?_modify ..

end TestOrch
