import TestOrch.Worker.Tasks
import TestOrch.System.Submit

/-!
# Executions of a test (`run_test_bundle` in `worker/tasks.py`)

One process is one execution of the task on a worker, cut at its accesses to the database and to
Docker. A delivered message starts one; several executions of the same test can be under way at the
same time.
-/

namespace TestOrch

inductive TaskPc where
  /-- Before `_set_status(RUNNING)`. -/
  | setup
  | runningRead
  | runningCommit (loaded : TestExecution)
  /-- The `try` block: the config is written next. -/
  | prepare
  | start
  | stream
  | wait
  | collect
  | verdictRead
  | verdictCommit (loaded : TestExecution)
  /-- The `except` clause. -/
  | failedRead
  | failedCommit (loaded : TestExecution)
  | release
  /-- The `finally` clause. -/
  | cleanup
  | decrementRead
  | decrementCommit (loaded : WorkerHost)
  | close
  | ended
  /-- An exception left the task before the `try` statement. -/
  | aborted
  /-- An exception left the `finally` clause before the decrement. -/
  | unreleased
  deriving DecidableEq

/-- The execution is in the body of the `try` statement. -/
def TaskPc.inTry : TaskPc → Bool
  | .prepare | .start | .stream | .wait | .collect | .verdictRead | .verdictCommit _ => true
  | _ => false

def TaskPc.executing : TaskPc → Bool
  | .ended | .aborted | .unreleased => false
  | _ => true

/-- `_decrement_active_containers` has returned. -/
def TaskPc.released : TaskPc → Bool
  | .close | .ended => true
  | _ => false

/-- An execution with its local variables. -/
structure Task where
  host : String
  bundle : TestBundleRequest
  /-- `container` is bound. -/
  started : Bool
  exitCode : Option ℤ
  artifactUrl : Option String
  /-- The value to return, once the verdict is stored. -/
  result : Option TestStatus
  pc : TaskPc

namespace Task

abbrev testId (t : Task) : String := t.bundle.testId.val

/-- A message was handed to the worker of `host`. -/
def init (host : String) (bundle : TestBundleRequest) : Task :=
  ⟨host, bundle, false, none, none, none, .setup⟩

def final (t : Task) : TestStatus := if t.exitCode = some 0 then .PASSED else .FAILED

end Task

/-- The exit code of the container that execution `p` started for a test. -/
def Daemon.exitCode (d : Daemon) (testId : NonEmptyStr) (p : ℕ) : Option ℤ :=
  match d.statusOf testId p with
  | some (.exited code) => some code
  | _ => none

def taskStep (p : ℕ) (w : World) (t : Task) (o : Outcome) : Option (World × Task) :=
  let go (pc : TaskPc) : Option (World × Task) := some (w, { t with pc := pc })
  match t.pc, o with
  | .setup, .ok _ => go .runningRead
  | .setup, .raises => go .aborted
  | .runningRead, .ok _ =>
    match w.execs.get? t.testId with
    | some row => go (.runningCommit row)
    | none => go .prepare
  | .runningRead, .raises => go .aborted
  | .runningCommit row, .ok _ =>
    some (w.commitRun p t.testId row (row.assign .RUNNING (some t.host) none),
      { t with pc := .prepare })
  | .runningCommit _, .raises => go .aborted
  | .prepare, .ok _ =>
    match getRunner t.bundle.runnerType with
    | .ok _ => go .start
    | .error _ => none
  | .start, .ok _ =>
    ((w.docker t.host).run t.bundle.testId p).map fun d =>
      (w.setDaemon t.host d, { t with started := true, pc := .stream })
  | .stream, .ok _ => go .wait
  | .wait, .ok _ =>
    ((w.docker t.host).exitCode t.bundle.testId p).map fun code =>
      (w, { t with exitCode := some code, pc := .collect })
  | .collect, .ok url => some (w, { t with artifactUrl := url, pc := .verdictRead })
  | .verdictRead, .ok _ =>
    match w.execs.get? t.testId with
    | some row => go (.verdictCommit row)
    | none => some (w, { t with result := some t.final, pc := .cleanup })
  | .verdictCommit row, .ok _ =>
    some (w.commitRun p t.testId row (row.assign t.final none t.artifactUrl),
      { t with result := some t.final, pc := .cleanup })
  | .failedRead, .ok _ =>
    match w.execs.get? t.testId with
    | some row => go (.failedCommit row)
    | none => go .release
  | .failedRead, .raises => go .cleanup
  | .failedCommit row, .ok _ =>
    some (w.commitRun p t.testId row (row.assign .FAILED none none), { t with pc := .release })
  | .failedCommit _, .raises => go .cleanup
  | .release, _ =>
    some ({ w with
      released := w.released ++ (t.bundle.qualiReservationId.map Subtype.val).toList },
      { t with pc := .cleanup })
  | .cleanup, .ok _ =>
    some (w.setDaemon t.host ((w.docker t.host).remove (containerPrefix ++ t.testId)),
      { t with pc := .decrementRead })
  | .cleanup, .raises => go .unreleased
  | .decrementRead, .ok _ =>
    match w.hosts.get? t.host with
    | some row => if row.activeContainers > 0 then go (.decrementCommit row) else go .close
    | none => go .close
  | .decrementRead, .raises => go .unreleased
  | .decrementCommit row, .ok _ =>
    (w.commitHost p t.host row row.decrement).map fun w' => (w', { t with pc := .close })
  | .decrementCommit _, .raises => go .unreleased
  | .close, .ok _ => go .ended
  | .close, .raises => some (w, { t with result := none, pc := .ended })
  | .ended, _ => none
  | .aborted, _ => none
  | .unreleased, _ => none
  -- an exception in the body of the `try` statement
  | _, .raises => go .failedRead

/-- The steps of an execution, one rule for each thing it can do. -/
inductive TaskRule (p : ℕ) (w : World) (t : Task) : Outcome → World → Task → Prop
  | setup {url} (hpc : t.pc = .setup) : TaskRule p w t (.ok url) w { t with pc := .runningRead }
  | abort (hpc : t.pc = .setup ∨ t.pc = .runningRead ∨ ∃ row, t.pc = .runningCommit row) :
      TaskRule p w t .raises w { t with pc := .aborted }
  | runningRead {url row} (hpc : t.pc = .runningRead) (h : w.execs.get? t.testId = some row) :
      TaskRule p w t (.ok url) w { t with pc := .runningCommit row }
  | runningNone {url} (hpc : t.pc = .runningRead) (h : w.execs.get? t.testId = none) :
      TaskRule p w t (.ok url) w { t with pc := .prepare }
  | running {url row} (hpc : t.pc = .runningCommit row) :
      TaskRule p w t (.ok url) (w.commitRun p t.testId row (row.assign .RUNNING (some t.host) none))
        { t with pc := .prepare }
  | crash (hpc : t.pc.inTry = true) : TaskRule p w t .raises w { t with pc := .failedRead }
  | prepare {url} (hpc : t.pc = .prepare) : TaskRule p w t (.ok url) w { t with pc := .start }
  | start {url d} (hpc : t.pc = .start) (h : (w.docker t.host).run t.bundle.testId p = some d) :
      TaskRule p w t (.ok url) (w.setDaemon t.host d) { t with started := true, pc := .stream }
  | stream {url} (hpc : t.pc = .stream) : TaskRule p w t (.ok url) w { t with pc := .wait }
  | wait {url code} (hpc : t.pc = .wait)
      (h : (w.docker t.host).exitCode t.bundle.testId p = some code) :
      TaskRule p w t (.ok url) w { t with exitCode := some code, pc := .collect }
  | collect {url} (hpc : t.pc = .collect) :
      TaskRule p w t (.ok url) w { t with artifactUrl := url, pc := .verdictRead }
  | verdictRead {url row} (hpc : t.pc = .verdictRead) (h : w.execs.get? t.testId = some row) :
      TaskRule p w t (.ok url) w { t with pc := .verdictCommit row }
  | verdictNone {url} (hpc : t.pc = .verdictRead) (h : w.execs.get? t.testId = none) :
      TaskRule p w t (.ok url) w { t with result := some t.final, pc := .cleanup }
  | verdict {url row} (hpc : t.pc = .verdictCommit row) :
      TaskRule p w t (.ok url) (w.commitRun p t.testId row (row.assign t.final none t.artifactUrl))
        { t with result := some t.final, pc := .cleanup }
  | failedRead {url row} (hpc : t.pc = .failedRead) (h : w.execs.get? t.testId = some row) :
      TaskRule p w t (.ok url) w { t with pc := .failedCommit row }
  | failedNone {url} (hpc : t.pc = .failedRead) (h : w.execs.get? t.testId = none) :
      TaskRule p w t (.ok url) w { t with pc := .release }
  | failed {url row} (hpc : t.pc = .failedCommit row) :
      TaskRule p w t (.ok url) (w.commitRun p t.testId row (row.assign .FAILED none none))
        { t with pc := .release }
  | failedFails (hpc : t.pc = .failedRead ∨ ∃ row, t.pc = .failedCommit row) :
      TaskRule p w t .raises w { t with pc := .cleanup }
  | release {o} (hpc : t.pc = .release) :
      TaskRule p w t o { w with released :=
        w.released ++ (t.bundle.qualiReservationId.map Subtype.val).toList }
        { t with pc := .cleanup }
  | cleanup {url} (hpc : t.pc = .cleanup) :
      TaskRule p w t (.ok url)
        (w.setDaemon t.host ((w.docker t.host).remove (containerPrefix ++ t.testId)))
        { t with pc := .decrementRead }
  | leave (hpc : t.pc = .cleanup ∨ t.pc = .decrementRead ∨ ∃ row, t.pc = .decrementCommit row) :
      TaskRule p w t .raises w { t with pc := .unreleased }
  | decrementRead {url row} (hpc : t.pc = .decrementRead) (h : w.hosts.get? t.host = some row)
      (hpos : row.activeContainers > 0) :
      TaskRule p w t (.ok url) w { t with pc := .decrementCommit row }
  | decrementNone {url} (hpc : t.pc = .decrementRead)
      (h : ∀ row, w.hosts.get? t.host = some row → row.activeContainers ≤ 0) :
      TaskRule p w t (.ok url) w { t with pc := .close }
  | decrement {url row w'} (hpc : t.pc = .decrementCommit row)
      (h : w.commitHost p t.host row row.decrement = some w') :
      TaskRule p w t (.ok url) w' { t with pc := .close }
  | close {o result} (hpc : t.pc = .close) :
      TaskRule p w t o w { t with result := result, pc := .ended }

variable {p : ℕ} {w w' : World} {t t' : Task} {o : Outcome}

/-- Every step of an execution is an instance of a rule. -/
theorem TaskRule.of_taskStep (h : taskStep p w t o = some (w', t')) : TaskRule p w t o w' t' := by
  cases hpc : t.pc <;> cases o <;>
    simp only [taskStep, hpc, Option.map_eq_some_iff, Option.some.injEq, Prod.mk.injEq,
      reduceCtorEq] at h
  -- The reads of a row, which may be missing, and the calls of Docker, which may refuse.
  case runningRead.ok | verdictRead.ok | failedRead.ok =>
    cases hrow : w.execs.get? t.testId with
    | none =>
      simp only [hrow, Option.some.injEq, Prod.mk.injEq] at h
      obtain ⟨rfl, rfl⟩ := h
      first
        | exact .runningNone hpc hrow
        | exact .verdictNone hpc hrow
        | exact .failedNone hpc hrow
    | some row =>
      simp only [hrow, Option.some.injEq, Prod.mk.injEq] at h
      obtain ⟨rfl, rfl⟩ := h
      first
        | exact .runningRead hpc hrow
        | exact .verdictRead hpc hrow
        | exact .failedRead hpc hrow
  case prepare.ok url =>
    split at h
    · simp only [Option.some.injEq, Prod.mk.injEq] at h
      obtain ⟨rfl, rfl⟩ := h
      exact .prepare hpc
    · cases h
  case start.ok url =>
    obtain ⟨d, hd, rfl, rfl⟩ := h
    exact .start hpc hd
  case wait.ok url =>
    obtain ⟨code, hcode, rfl, rfl⟩ := h
    exact .wait hpc hcode
  case decrementRead.ok url =>
    cases hrow : w.hosts.get? t.host with
    | none =>
      simp only [hrow, Option.some.injEq, Prod.mk.injEq] at h
      obtain ⟨rfl, rfl⟩ := h
      exact .decrementNone hpc (by simp [hrow])
    | some row =>
      simp only [hrow] at h
      split_ifs at h with hpos
      · simp only [Option.some.injEq, Prod.mk.injEq] at h
        obtain ⟨rfl, rfl⟩ := h
        exact .decrementRead hpc hrow hpos
      · simp only [Option.some.injEq, Prod.mk.injEq] at h
        obtain ⟨rfl, rfl⟩ := h
        exact .decrementNone hpc fun row' hrow' => by
          rw [hrow, Option.some.injEq] at hrow'
          exact hrow' ▸ not_lt.mp hpos
  case decrementCommit.ok row url =>
    obtain ⟨w'', hw, rfl, rfl⟩ := h
    exact .decrement hpc hw
  -- Every other step has one outcome for each place in the program.
  all_goals
    obtain ⟨rfl, rfl⟩ := h
    first
      | exact .setup hpc
      | exact .abort (by simp [hpc])
      | exact .running hpc
      | exact .crash (by simp [hpc, TaskPc.inTry])
      | exact .stream hpc
      | exact .collect hpc
      | exact .verdict hpc
      | exact .failed hpc
      | exact .failedFails (by simp [hpc])
      | exact .release hpc
      | exact .cleanup hpc
      | exact .leave (by simp [hpc])
      | exact .close hpc

/-- An execution keeps its host and its bundle. -/
lemma TaskRule.same (h : TaskRule p w t o w' t') : t'.host = t.host ∧ t'.bundle = t.bundle := by
  cases h <;> exact ⟨rfl, rfl⟩

/-- An execution makes no container of another one appear. -/
lemma TaskRule.statusOf_other (h : TaskRule p w t o w' t') {host : String} {k : NonEmptyStr}
    {q : ℕ} (hq : q ≠ p) (hst : (w'.docker host).statusOf k q ≠ none) :
    (w.docker host).statusOf k q ≠ none := by
  cases h with
  | start hpc hd =>
    rw [World.docker_setDaemon] at hst
    split_ifs at hst with hhost
    · rw [Daemon.statusOf_run hd, if_neg fun h => hq h.2] at hst
      exact hhost ▸ hst
    · exact hst
  | cleanup hpc =>
    rw [World.docker_setDaemon] at hst
    split_ifs at hst with hhost
    · rw [Daemon.statusOf_remove] at hst
      split_ifs at hst
      · exact absurd rfl hst
      · exact hhost ▸ hst
    · exact hst
  | decrement hpc hw =>
    obtain ⟨-, rfl⟩ := World.commitHost_eq_some hw
    exact hst
  | _ => exact hst

end TestOrch
