import TestOrch.Backend.SweepPair
import TestOrch.Core.Transition
import TestOrch.System.Submit

/-!
# The reapers

`run_maintenance_sweep` of `backend/services/maintenance.py`, with its two commits, and `reap_stale`
of `worker/tasks.py`, cut at their accesses to the database.
-/

namespace TestOrch

inductive SweepPc where
  | start
  /-- The online hosts are read next. -/
  | read (cutoff : ℤ)
  /-- The hosts found stale are marked offline next. -/
  | mark (cutoff : ℤ) (affected : List WorkerHost)
  /-- The orphaned runs are read next. -/
  | select (hostIds : List String)
  /-- The orphaned runs are failed next. -/
  | fail (orphaned : List TestExecution)
  | done
  | raised
  deriving DecidableEq

/-- The commit of `sweep_stale_hosts`, where no lock holds it up. -/
def World.commitOffline (w : World) (hostIds : List String) : World :=
  { w with hosts := markOffline w.hosts hostIds }

def World.commitFailed (w : World) (testIds : List String) : World :=
  { w with execs := failRuns w.execs testIds w.clock }

/-- The attempts to release the reservations of failed runs. -/
def World.releaseAll (w : World) (runs : List TestExecution) : World :=
  { w with released := w.released ++ reservationsOf runs }

def sweepStep (p : ℕ) (maxAge : ℤ) (w : World) (pc : SweepPc) (o : Outcome) :
    Option (World × SweepPc) :=
  match pc, o with
  | .start, .ok _ => some (w, .read (w.clock - maxAge))
  | .read cutoff, .ok _ =>
    let affected := staleHosts w.hosts cutoff
    some (w, if affected = [] then .done else .mark cutoff affected)
  | .mark _ affected, .ok _ =>
    let hostIds := affected.map WorkerHost.hostId
    if hostIds.any fun h => w.blocked p h then none
    else some (w.commitOffline hostIds, .select hostIds)
  | .select hostIds, .ok _ =>
    let orphaned := orphanedRuns w.execs hostIds
    some (w.releaseAll orphaned, if orphaned = [] then .done else .fail orphaned)
  | .fail orphaned, .ok _ =>
    some (w.commitFailed (orphaned.map TestExecution.testId), .done)
  | .done, _ => none
  | .raised, _ => none
  | _, .raises => some (w, .raised)

inductive SweepRule (p : ℕ) (maxAge : ℤ) (w : World) :
    SweepPc → Outcome → World → SweepPc → Prop
  | start {url} : SweepRule p maxAge w .start (.ok url) w (.read (w.clock - maxAge))
  | readNone {url cutoff} (h : staleHosts w.hosts cutoff = []) :
      SweepRule p maxAge w (.read cutoff) (.ok url) w .done
  | read {url cutoff} (h : staleHosts w.hosts cutoff ≠ []) :
      SweepRule p maxAge w (.read cutoff) (.ok url) w (.mark cutoff (staleHosts w.hosts cutoff))
  | mark {url cutoff affected}
      (h : ∀ r ∈ affected, w.blocked p r.hostId = false) :
      SweepRule p maxAge w (.mark cutoff affected) (.ok url)
        (w.commitOffline (affected.map WorkerHost.hostId))
        (.select (affected.map WorkerHost.hostId))
  | selectNone {url hostIds} (h : orphanedRuns w.execs hostIds = []) :
      SweepRule p maxAge w (.select hostIds) (.ok url) w .done
  | select {url hostIds} :
      SweepRule p maxAge w (.select hostIds) (.ok url)
        (w.releaseAll (orphanedRuns w.execs hostIds)) (.fail (orphanedRuns w.execs hostIds))
  | fail {url orphaned} :
      SweepRule p maxAge w (.fail orphaned) (.ok url)
        (w.commitFailed (orphaned.map TestExecution.testId)) .done
  | raises {pc} (hdone : pc ≠ .done) (hraised : pc ≠ .raised) :
      SweepRule p maxAge w pc .raises w .raised

inductive ReapPc where
  | start
  /-- The stuck runs are read next. -/
  | read (cutoff : ℤ)
  | fail (stuck : List TestExecution)
  | done
  deriving DecidableEq

/-- The runs that `reap_stale` loads on a host. -/
def stuckRuns (execs : Executions) (hostId : String) (cutoff : ℤ) : List TestExecution :=
  execs.rows.filter fun r =>
    r.targetHostId = some hostId && r.status = .RUNNING && r.updatedAt < cutoff

def reapStep (hostId : String) (w : World) (pc : ReapPc) (o : Outcome) :
    Option (World × ReapPc) :=
  match pc, o with
  | .start, .ok _ => some (w, .read (w.clock - seconds 7200))
  | .read cutoff, .ok _ =>
    let stuck := stuckRuns w.execs hostId cutoff
    some (w.releaseAll stuck, .fail stuck)
  | .fail stuck, .ok _ => some (w.commitFailed (stuck.map TestExecution.testId), .done)
  | .done, _ => none
  | _, .raises => some (w, .done)

inductive ReapRule (hostId : String) (w : World) : ReapPc → Outcome → World → ReapPc → Prop
  | start {url} : ReapRule hostId w .start (.ok url) w (.read (w.clock - seconds 7200))
  | read {url cutoff} :
      ReapRule hostId w (.read cutoff) (.ok url) (w.releaseAll (stuckRuns w.execs hostId cutoff))
        (.fail (stuckRuns w.execs hostId cutoff))
  | fail {url stuck} :
      ReapRule hostId w (.fail stuck) (.ok url)
        (w.commitFailed (stuck.map TestExecution.testId)) .done
  | fails {pc} (hdone : pc ≠ .done) : ReapRule hostId w pc .raises w .done

variable {p : ℕ} {maxAge : ℤ} {hostId : String} {w w' : World} {o : Outcome}

@[simp] lemma World.status_commitFailed (testIds : List String) (k : String) :
    (w.commitFailed testIds).status k =
      if k ∈ testIds then (w.status k).map fun _ => .FAILED else w.status k := by
  simp only [World.status, World.commitFailed, get?_failRuns]
  split_ifs
  · cases w.execs.get? k <;> rfl
  · rfl

lemma mem_stuckRuns {execs : Executions} {cutoff : ℤ} {r : TestExecution} :
    r ∈ stuckRuns execs hostId cutoff ↔ r ∈ execs.rows ∧ r.targetHostId = some hostId ∧
      r.status = .RUNNING ∧ r.updatedAt < cutoff := by
  simp [stuckRuns, and_assoc]

/-- Every step of a sweep is an instance of a rule. -/
theorem SweepRule.of_sweepStep {pc pc' : SweepPc}
    (h : sweepStep p maxAge w pc o = some (w', pc')) : SweepRule p maxAge w pc o w' pc' := by
  cases o with
  | raises =>
    cases pc <;> simp only [sweepStep, Option.some.injEq, Prod.mk.injEq, reduceCtorEq] at h
    all_goals
      obtain ⟨rfl, rfl⟩ := h
      exact .raises (by simp) (by simp)
  | ok url =>
    cases pc with
    | start =>
      obtain ⟨rfl, rfl⟩ := Prod.mk.inj (Option.some.inj h)
      exact .start
    | read cutoff =>
      simp only [sweepStep, Option.some.injEq, Prod.mk.injEq] at h
      obtain ⟨rfl, rfl⟩ := h
      split_ifs with hnil
      · exact .readNone hnil
      · exact .read hnil
    | mark cutoff affected =>
      simp only [sweepStep] at h
      split_ifs at h with hblocked
      obtain ⟨rfl, rfl⟩ := Prod.mk.inj (Option.some.inj h)
      exact .mark (by simpa using hblocked)
    | select hostIds =>
      simp only [sweepStep, Option.some.injEq, Prod.mk.injEq] at h
      obtain ⟨rfl, rfl⟩ := h
      split_ifs with hnil
      · simpa [hnil, World.releaseAll, reservationsOf] using SweepRule.selectNone hnil
      · exact .select
    | fail orphaned =>
      obtain ⟨rfl, rfl⟩ := Prod.mk.inj (Option.some.inj h)
      exact .fail
    | done => cases h
    | raised => cases h

/-- Every step of `reap_stale` is an instance of a rule. -/
theorem ReapRule.of_reapStep {pc pc' : ReapPc}
    (h : reapStep hostId w pc o = some (w', pc')) : ReapRule hostId w pc o w' pc' := by
  cases o with
  | raises =>
    cases pc <;> simp only [reapStep, Option.some.injEq, Prod.mk.injEq, reduceCtorEq] at h
    all_goals
      obtain ⟨rfl, rfl⟩ := h
      exact .fails (by simp)
  | ok url =>
    cases pc with
    | start =>
      obtain ⟨rfl, rfl⟩ := Prod.mk.inj (Option.some.inj h)
      exact .start
    | read cutoff =>
      obtain ⟨rfl, rfl⟩ := Prod.mk.inj (Option.some.inj h)
      exact .read
    | fail stuck =>
      obtain ⟨rfl, rfl⟩ := Prod.mk.inj (Option.some.inj h)
      exact .fail
    | done => cases h

/-! ### A sweep whose steps nothing interrupts -/

def World.sweepStore (w : World) : SweepStore := ⟨w.hosts, w.execs, w.released⟩

/-- With no other process and no exception, the steps of a sweep end with what the two functions
leave. -/
theorem exists_sweep_alone (p : ℕ) (maxAge : ℤ) (w : World)
    (hfree : ∀ k, w.blocked p k = false) : ∃ w',
      Transition.Reaches (fun s o => sweepStep p maxAge s.1 s.2 o) (fun _ o => o = .ok none)
        (w, .start) (w', .done) ∧
      w'.sweepStore = sweptStore w.sweepStore (w.clock - maxAge) w.clock := by
  have hstart : Transition.Reaches (fun s o => sweepStep p maxAge s.1 s.2 o)
      (fun _ o => o = .ok none) (w, .start) (w, .read (w.clock - maxAge)) := .single rfl rfl
  set stale := staleHosts w.hosts (w.clock - maxAge) with hstale
  by_cases hnil : stale = []
  · have hread : sweepStep p maxAge w (.read (w.clock - maxAge)) (.ok none) = some (w, .done) := by
      simp [sweepStep, ← hstale, hnil]
    refine ⟨w, .next hstart rfl hread, (sweptStore_of_nil ?_).symm⟩
    exact List.map_eq_nil_iff.mpr hnil
  · set hostIds := stale.map WorkerHost.hostId with hhostIds
    have hread : sweepStep p maxAge w (.read (w.clock - maxAge)) (.ok none) =
        some (w, .mark (w.clock - maxAge) stale) := by
      simp [sweepStep, ← hstale, hnil]
    have hmark : sweepStep p maxAge w (.mark (w.clock - maxAge) stale) (.ok none) =
        some (w.commitOffline hostIds, .select hostIds) := by
      simp [sweepStep, hfree, ← hhostIds]
    have hselect := (hstart.next (a := .ok none) rfl hread).next (a := .ok none) rfl hmark
    by_cases hnone : orphanedRuns w.execs hostIds = []
    · have hdone : sweepStep p maxAge (w.commitOffline hostIds) (.select hostIds) (.ok none) =
          some ((w.commitOffline hostIds).releaseAll (orphanedRuns w.execs hostIds), .done) := by
        simp [sweepStep, World.commitOffline, hnone]
      refine ⟨_, hselect.next (a := .ok none) rfl hdone, ?_⟩
      have hexecs : failRuns w.execs ((orphanedRuns w.execs hostIds).map TestExecution.testId)
          w.clock = w.execs := by
        rw [hnone]
        exact failRuns_nil w.execs
      exact congrArg (fun execs => SweepStore.mk (markOffline w.hosts hostIds) execs
        (w.released ++ reservationsOf (orphanedRuns w.execs hostIds))) hexecs.symm
    · have hfail : sweepStep p maxAge (w.commitOffline hostIds) (.select hostIds) (.ok none) =
          some ((w.commitOffline hostIds).releaseAll (orphanedRuns w.execs hostIds),
            .fail (orphanedRuns w.execs hostIds)) := by
        simp [sweepStep, World.commitOffline, hnone]
      exact ⟨_, (hselect.next (a := .ok none) rfl hfail).next (a := .ok none) rfl rfl, rfl⟩

end TestOrch
