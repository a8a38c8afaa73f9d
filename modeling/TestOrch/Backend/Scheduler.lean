import Mathlib.Data.List.MinMax
import Mathlib.Data.String.Basic
import Mathlib.Data.Prod.Lex
import Mathlib.Algebra.Order.Ring.Rat
import TestOrch.Core.Except
import TestOrch.Backend.Models

/-!
# Filter-and-rank placement (`backend/services/scheduler.py`)

The pure part of the scheduler: the queue name of a host, the filter, the workload score and the
choice among the rows of the inventory. What `dispatch` does with the database and the broker
around this choice is in `TestOrch.System`.
-/

namespace TestOrch

def queueNameFor (hostId : String) : Except PyError String := do
  let h ← requireNonEmptyStr (.str hostId) "host_id"
  pure ("queue_" ++ h.val)

/-- `_workload_score`, with its assertions. -/
def workloadScore (host : WorkerHost) : Except PyError ℚ :=
  if host.activeContainers < 0 then .error (.assertionError "active_containers must be >= 0")
  else if host.cpuUtilization < 0 then .error (.assertionError "cpu_utilization must be >= 0")
  else
    let score : ℚ := host.activeContainers * 20 + host.cpuUtilization
    if score < 0 then .error (.assertionError "workload score must be non-negative") else .ok score

def passesFilter (host : WorkerHost) (bundle : TestBundleRequest) : Bool :=
  if !host.isOnline then false
  else if host.activeContainers ≥ host.maxContainers then false
  else if bundle.requiresEmulation && !host.supportsEmulation then false
  else if !bundle.requiredHwTags.isEmpty &&
      !(bundle.requiredHwTags.all fun t => host.tagSet.contains t) then false
  else true

/-- The sort key `(_workload_score(h), h.host_id)` of a scored row, ordered like a Python tuple. -/
def rankKey (scored : ℚ × WorkerHost) : ℚ ×ₗ String := toLex (scored.1, scored.2.hostId)

def scoreRow (host : WorkerHost) : Except PyError (ℚ × WorkerHost) := do
  pure (← workloadScore host, host)

/-- `min(survivors, key=...)`: every key is evaluated, the first least row wins. -/
def lightest (survivors : List WorkerHost) : Except PyError (Option (ℚ × WorkerHost)) := do
  pure ((← survivors.mapM scoreRow).argmin rankKey)

structure RankedHost where
  hostId : String
  score : ℚ
  deriving DecidableEq

/-- `select_host` on the rows of the inventory. -/
def selectHost (hosts : List WorkerHost) (bundle : TestBundleRequest) :
    Except PyError (Option RankedHost) := do
  let survivors := hosts.filter fun h => passesFilter h bundle
  match ← lightest survivors with
  | none => pure none
  | some (score, best) =>
    if survivors.any fun h => h.hostId = best.hostId then pure (some ⟨best.hostId, score⟩)
    else .error (.assertionError "selected host not among survivors")

/-- The choice made by `dispatch` on the locked rows: the row to reserve and its queue. -/
def chooseHost (hosts : List WorkerHost) (bundle : TestBundleRequest) :
    Except PyError (Option (WorkerHost × String)) := do
  match ← lightest (hosts.filter fun h => passesFilter h bundle) with
  | none => pure none
  | some (_, chosen) => pure (some (chosen, ← queueNameFor chosen.hostId))

lemma queueNameFor_ok {hostId queue : String} (h : queueNameFor hostId = .ok queue) :
    queue = "queue_" ++ hostId := by
  obtain ⟨s, hs, h⟩ := Except.bind_eq_ok.mp h
  have hval : hostId = s.val := by simpa using requireNonEmptyStr_ok hs
  rw [hval]
  exact (Except.pure_eq_ok.mp h).symm

/-- Different hosts have different queues. -/
lemma queueNameFor_inj {a b queue : String} (ha : queueNameFor a = .ok queue)
    (hb : queueNameFor b = .ok queue) : a = b := by
  have h : "queue_" ++ a = "queue_" ++ b := (queueNameFor_ok ha).symm.trans (queueNameFor_ok hb)
  simpa using h

lemma passesFilter_iff {host : WorkerHost} {bundle : TestBundleRequest} :
    passesFilter host bundle = true ↔
      host.isOnline = true ∧ host.activeContainers < host.maxContainers ∧
      (bundle.requiresEmulation = true → host.supportsEmulation = true) ∧
      ∀ t ∈ bundle.requiredHwTags, t ∈ host.tagSet := by
  unfold passesFilter
  cases hon : host.isOnline <;> cases hem : bundle.requiresEmulation <;>
    cases hse : host.supportsEmulation <;> cases htags : bundle.requiredHwTags <;>
    by_cases hcap : host.activeContainers ≥ host.maxContainers <;> simp_all

/-- The lightest survivor is a survivor, and its score is its workload. -/
lemma lightest_mem {survivors : List WorkerHost} {score : ℚ} {chosen : WorkerHost}
    (h : lightest survivors = .ok (some (score, chosen))) :
    chosen ∈ survivors ∧ workloadScore chosen = .ok score := by
  obtain ⟨scored, hs, h⟩ := Except.bind_eq_ok.mp h
  have hmin : (score, chosen) ∈ scored := List.argmin_mem (Except.pure_eq_ok.mp h)
  obtain ⟨host, hmem, hhost⟩ := Except.exists_mem_of_mapM hs _ hmin
  obtain ⟨w, hw, hhost⟩ := Except.bind_eq_ok.mp hhost
  simp only [Except.pure_eq_ok, Prod.mk.injEq] at hhost
  obtain ⟨rfl, rfl⟩ := hhost
  exact ⟨hmem, hw⟩

lemma activeContainers_nonneg {host : WorkerHost} {score : ℚ} (h : workloadScore host = .ok score) :
    0 ≤ host.activeContainers := by
  unfold workloadScore at h
  split_ifs at h with hneg
  · exact not_lt.mp hneg

/-- The row that `dispatch` reserves is one of the locked rows, has no negative count and passes the
filter. -/
lemma chooseHost_spec {hosts : List WorkerHost} {bundle : TestBundleRequest}
    {chosen : WorkerHost} {queue : String}
    (h : chooseHost hosts bundle = .ok (some (chosen, queue))) :
    chosen ∈ hosts ∧ passesFilter chosen bundle = true ∧
      queueNameFor chosen.hostId = .ok queue ∧ 0 ≤ chosen.activeContainers := by
  obtain ⟨best, hbest, h⟩ := Except.bind_eq_ok.mp h
  cases best with
  | none => simp at h
  | some best =>
    obtain ⟨score, host⟩ := best
    obtain ⟨q, hq, h⟩ := Except.bind_eq_ok.mp h
    simp only [Except.pure_eq_ok, Option.some.injEq, Prod.mk.injEq] at h
    obtain ⟨rfl, rfl⟩ := h
    obtain ⟨hsurvivor, hscore⟩ := lightest_mem hbest
    obtain ⟨hmem, hpass⟩ := List.mem_filter.mp hsurvivor
    exact ⟨hmem, hpass, hq, activeContainers_nonneg hscore⟩

end TestOrch
