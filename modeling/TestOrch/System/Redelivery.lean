import TestOrch.System.Completion

/-!
# Redelivered messages

The worker acknowledges a message late, so a message can start several executions. Everything that
an execution does is keyed by the test or by the host and not by the delivery. Redelivery is
harmless as long as only one execution of the test ever gets as far as starting a container or
releasing the reservation, and the verdict of a container that ran to its end is stored last.
-/

namespace TestOrch

open Transition

/-- The status that an execution stores for an exit code. -/
def verdictOf (code : ℤ) : TestStatus := if code = 0 then .PASSED else .FAILED

/-- The execution that the process is, or was when it was killed. -/
def Proc.exec? : Proc → Option Task
  | .task t => some t
  | .dead was => was.exec?
  | _ => none

/-- The container is not removed yet. -/
def TaskPc.holding : TaskPc → Bool
  | .stream | .wait | .failedRead | .failedCommit _ | .release | .cleanup => true
  | _ => false

/-- Between the exit code and the stored verdict. -/
def TaskPc.deciding : TaskPc → Bool
  | .collect | .verdictRead | .verdictCommit _ | .failedRead | .failedCommit _ => true
  | _ => false

/-- The execution has yet to load the row in which it will store the verdict. -/
def TaskPc.undecided : TaskPc → Bool
  | .collect | .verdictRead | .failedRead => true
  | _ => false

/-- The execution has started a container or released the reservation. -/
def Task.spent (t : Task) : Bool := t.started || t.pc.released

/-- The execution of the test that the process is or was, if any, is over and was never spent. -/
def Proc.blank (testId : NonEmptyStr) : Proc → Bool
  | .task t => t.bundle.testId ≠ testId || (!t.pc.executing && !t.spent)
  | .dead was => was.exec?.all fun t => t.bundle.testId ≠ testId || !t.spent
  | _ => true

/-- The execution may die: it has no container, or its verdict is stored. -/
def Task.mayDie (t : Task) : Bool :=
  if t.exitCode.isSome then !t.pc.deciding else !(t.started && t.pc.holding)

/-- The next access of the execution may raise: the container will be removed, and the verdict is
stored or is the `FAILED` that the `except` clause stores. -/
def Task.mayRaise (t : Task) : Bool :=
  match t.exitCode with
  | some code => !t.pc.deciding || (t.pc.inTry && code ≠ 0)
  | none => !(t.started && t.pc = .cleanup)

/-- The runs whose status the next commit of the process overwrites, if it is not an execution. -/
def Proc.overwrites : Proc → List String
  | .submit bundle (.close _) => [bundle.testId]
  | .sweep _ (.fail orphaned) => orphaned.map TestExecution.testId
  | .reap _ (.fail stuck) => stuck.map TestExecution.testId
  | _ => []

/-- The process is or was an execution of the test that has its exit code and has stored the
verdict, or has loaded the row to store it. -/
def Proc.settling (testId : String) : Proc → Bool
  | .task t => t.testId = testId && t.exitCode.isSome && !t.pc.undecided
  | .dead was => was.exec?.any fun t => t.testId = testId && t.exitCode.isSome
  | _ => false

/-- The condition on a run: a message is consumed only while all earlier executions of the test are
blank; an execution dies or raises only where it may; and nobody else writes the status of a test
once the verdict is being stored. -/
def OneExecution (s : Sys) : Act → Prop
  | .deliver i _ => ∀ m ∈ s.world.queue[i]?, ∀ proc ∈ s.procs, proc.blank m.bundle.testId = true
  | .redeliver i _ =>
    ∀ m ∈ s.world.delivered[i]?, ∀ proc ∈ s.procs, proc.blank m.bundle.testId = true
  | .kill p => ∀ proc ∈ s.procs[p]?, ∀ t ∈ proc.exec?, t.mayDie = true
  | .advance p .raises => ∀ proc ∈ s.procs[p]?, ∀ t ∈ proc.exec?, t.mayRaise = true
  | .advance p (.ok _) => ∀ proc ∈ s.procs[p]?, ∀ testId ∈ proc.overwrites,
      ∀ other ∈ s.procs, other.settling testId = false
  | _ => True

instance (s : Sys) : ∀ a, Decidable (OneExecution s a)
  | .deliver i _ => inferInstanceAs (Decidable (∀ m ∈ s.world.queue[i]?, _))
  | .redeliver i _ => inferInstanceAs (Decidable (∀ m ∈ s.world.delivered[i]?, _))
  | .kill p | .advance p .raises | .advance p (.ok _) =>
    inferInstanceAs (Decidable (∀ proc ∈ s.procs[p]?, _))
  | .launch _ | .exit .. | .tick _ => inferInstanceAs (Decidable True)

/-- The process is or was an execution of the test that has released the reservation. -/
def Proc.released (testId : NonEmptyStr) (proc : Proc) : Bool :=
  proc.exec?.any fun t => t.bundle.testId = testId && t.pc.released

/-- A container of the test that an execution started has run to its end with the exit code. -/
def Sys.Ran (s : Sys) (testId : NonEmptyStr) (code : ℤ) : Prop :=
  ∃ (p : ℕ) (proc : Proc) (t : Task), s.procs[p]? = some proc ∧ proc.exec? = some t ∧
    t.bundle.testId = testId ∧ (t.exitCode = some code ∨
      (s.world.docker t.host).statusOf testId p = some (.exited code))

/-- What redelivery should leave intact. -/
structure Sys.Harmless (s : Sys) (testId : NonEmptyStr) : Prop where
  /-- The reservation is released at most once. -/
  released : s.procs.countP (Proc.released testId) ≤ 1
  /-- No execution is about to remove a container that another one started and that is running. -/
  cleanup : ∀ (p q : ℕ) (t : Task), s.procs[p]? = some (.task t) → t.bundle.testId = testId →
    t.pc = .cleanup → q ≠ p → (s.world.docker t.host).statusOf testId q ≠ some .running
  /-- Once all executions have ended, the status is the verdict of a container that ran to its end,
  if one did. -/
  verdict : (∀ proc ∈ s.procs, proc.executing testId = false) → (∃ code, s.Ran testId code) →
    ∃ code, s.Ran testId code ∧ s.world.status testId = some (verdictOf code)

/-! ### The invariant -/

/-- What the stored status is while an execution with an exit code is at `pc`. -/
def TaskPc.Stage (w : World) (testId : String) (verdict : TestStatus) : TaskPc → Prop
  | .collect | .verdictRead => True
  | .verdictCommit loaded => w.status testId = some loaded.status
  | .failedRead => verdict = .FAILED
  | .failedCommit loaded => verdict = .FAILED ∧ w.status testId = some loaded.status
  | .release | .cleanup | .decrementRead | .decrementCommit _ | .close | .ended | .unreleased =>
    w.status testId = some verdict
  | .setup | .runningRead | .runningCommit _ | .prepare | .start | .stream | .wait
  | .aborted => False

/-- An execution of the test with an exit code has started its container and is in its stage. -/
def Proc.Stage (w : World) (testId : NonEmptyStr) : Proc → Prop
  | .task t => t.bundle.testId = testId → ∀ code ∈ t.exitCode,
      t.started = true ∧ t.pc.Stage w testId (verdictOf code)
  | .dead was => ∀ t ∈ was.exec?, t.bundle.testId = testId → ∀ code ∈ t.exitCode,
      t.started = true ∧ w.status testId = some (verdictOf code)
  | _ => True

/-- The process is or was an execution that may have a container of the test on the host. -/
def Proc.Holds (host : String) (testId : NonEmptyStr) : Proc → Prop
  | .task t => t.bundle.testId = testId ∧ t.host = host ∧ t.started = true ∧
      (t.exitCode.isSome = true ∨ t.pc.holding = true)
  | .dead was => ∃ t ∈ was.exec?, t.bundle.testId = testId ∧ t.host = host ∧ t.started = true ∧
      t.exitCode.isSome = true
  | _ => False

/-- The process is a request of the test past its insert, or is or was an execution of it. -/
def Proc.concerns (testId : NonEmptyStr) (proc : Proc) : Bool :=
  proc.inserted testId || proc.exec?.any fun t => t.bundle.testId = testId

/-- At most one execution of the test is not blank, and it owns the containers of the test. -/
structure Sole (testId : NonEmptyStr) (s : Sys) : Prop where
  one : s.procs.countP (fun proc => !proc.blank testId) ≤ 1
  known : s.world.status testId = none →
    (∀ m ∈ s.world.queue ++ s.world.delivered, m.bundle.testId ≠ testId) ∧
      ∀ proc ∈ s.procs, proc.concerns testId = false
  stage : Pool.All s.procs fun _ proc => proc.Stage s.world testId
  owned : ∀ (host : String) (q : ℕ), (s.world.docker host).statusOf testId q ≠ none →
    ∃ proc, s.procs[q]? = some proc ∧ proc.Holds host testId

variable {s s' : Sys} {w w' : World} {p : ℕ} {proc proc' : Proc} {o : Outcome} {k : NonEmptyStr}
  {t t' : Task} {host : String} {url : Option String}

lemma Task.final_of_exitCode {code : ℤ} (h : t.exitCode = some code) :
    t.final = verdictOf code := by
  simp [Task.final, h, verdictOf]

lemma Proc.not_blank_of_holds (h : proc.Holds host k) : proc.blank k = false := by
  cases proc with
  | task t =>
    obtain ⟨hk, -, hstarted, -⟩ := h
    simp [blank, hk, Task.spent, hstarted]
  | dead was =>
    obtain ⟨t, ht, hk, -, hstarted, -⟩ := h
    rw [Option.mem_def] at ht
    simp [blank, ht, hk, Task.spent, hstarted]
  | _ => exact h.elim

lemma Proc.not_blank_of_released (h : proc.released k = true) : proc.blank k = false := by
  cases proc with
  | task t =>
    simp only [released, exec?, Option.any_some, Bool.and_eq_true, decide_eq_true_eq] at h
    simp [blank, h.1, Task.spent, h.2]
  | dead was =>
    obtain ⟨t, ht, h⟩ := (Option.any_eq_true _ _).mp h
    simp only [Bool.and_eq_true, decide_eq_true_eq] at h
    have ht : was.exec? = some t := ht
    simp [blank, ht, h.1, Task.spent, h.2]
  | _ => cases h

/-- A blank process has no exit code, so its stage does not depend on what is stored. -/
lemma Proc.Stage.of_blank (h : proc.Stage w k) (hb : proc.blank k = true) : proc.Stage w' k := by
  cases proc with
  | task t =>
    intro hk code hcode
    have hstarted := (h hk code hcode).1
    simp [blank, hk, Task.spent, hstarted] at hb
  | dead was =>
    intro t ht hk code hcode
    have hstarted := (h t ht hk code hcode).1
    rw [Option.mem_def] at ht
    simp [blank, ht, hk, Task.spent, hstarted] at hb
  | _ => trivial

/-- Before the verdict is being stored, the stage does not depend on what is stored. -/
lemma Proc.Stage.of_not_settling (h : proc.Stage w k) (hs : proc.settling k = false) :
    proc.Stage w' k := by
  cases proc with
  | task t =>
    intro hk code hcode
    obtain ⟨hstarted, hstage⟩ := h hk code hcode
    rw [Option.mem_def] at hcode
    have hpc : t.pc.undecided = true := by
      simpa [settling, Task.testId, hk, hcode] using hs
    refine ⟨hstarted, ?_⟩
    cases hpc' : t.pc <;> simp_all [TaskPc.undecided, TaskPc.Stage]
  | dead was =>
    intro t ht hk code hcode
    rw [Option.mem_def] at ht hcode
    simp [settling, ht, Task.testId, hk, hcode] at hs
  | _ => trivial

lemma Proc.Stage.congr (hst : w'.status k = w.status k) (h : proc.Stage w k) : proc.Stage w' k := by
  cases proc with
  | task t =>
    intro hk code hcode
    obtain ⟨hstarted, hstage⟩ := h hk code hcode
    refine ⟨hstarted, ?_⟩
    cases hpc : t.pc <;> simp_all [TaskPc.Stage]
  | dead was =>
    intro t ht hk code hcode
    exact ⟨(h t ht hk code hcode).1, hst.trans (h t ht hk code hcode).2⟩
  | _ => trivial

/-! ### A step of the execution -/

lemma TaskRule.executing (h : TaskRule p w t o w' t') : t.pc.executing = true := by
  cases h with
  | abort hpc | leave hpc => rcases hpc with h | h | ⟨row, h⟩ <;> simp [h, TaskPc.executing]
  | failedFails hpc => rcases hpc with h | ⟨row, h⟩ <;> simp [h, TaskPc.executing]
  | crash hpc => cases h : t.pc <;> simp_all [TaskPc.inTry, TaskPc.executing]
  | _ hpc => simp [hpc, TaskPc.executing]

/-- A row that is stored stays stored. -/
lemma TaskRule.status_ne_none (h : TaskRule p w t o w' t') (hst : w.status k ≠ none) :
    w'.status k ≠ none := by
  cases h with
  | running hpc | verdict hpc | failed hpc =>
    rw [World.status_commitRun]
    split_ifs
    · simpa using hst
    · exact hst
  | decrement hpc hw =>
    obtain ⟨-, rfl⟩ := World.commitHost_eq_some hw
    exact hst
  | _ => exact hst

/-- The execution still owns the containers that it has. -/
lemma TaskRule.holds (h : TaskRule p w t o w' t') (hk : t.bundle.testId = k)
    (hraise : o = .raises → t.mayRaise = true)
    (hold : ∀ host, (w.docker host).statusOf k p ≠ none → (Proc.task t).Holds host k)
    (hst : (w'.docker host).statusOf k p ≠ none) : (Proc.task t').Holds host k := by
  -- for the steps that leave Docker alone
  have hkeep {u : Task} (hsame : u.bundle = t.bundle ∧ u.host = t.host ∧ u.started = t.started)
      (hex : t.exitCode.isSome = true → u.exitCode.isSome = true)
      (hpc : t.pc.holding = true → t.exitCode.isSome = false → t.started = true →
        u.exitCode.isSome = true ∨ u.pc.holding = true)
      (hst : (w.docker host).statusOf k p ≠ none) : (Proc.task u).Holds host k := by
    obtain ⟨-, hhost, hstarted, hor⟩ := hold host hst
    refine ⟨by rw [hsame.1, hk], hsame.2.1.trans hhost, hsame.2.2.trans hstarted, ?_⟩
    cases hexit : t.exitCode.isSome with
    | true => exact .inl (hex hexit)
    | false => exact hpc (by simpa [hexit] using hor) hexit hstarted
  cases h with
  -- The two that do not are on its own host only.
  | start hpc hd =>
    by_cases hhost : host = t.host
    · exact ⟨hk, hhost.symm, rfl, .inr rfl⟩
    · rw [World.docker_setDaemon, if_neg hhost] at hst
      exact absurd (hold host hst).2.1 (Ne.symm hhost)
  | cleanup hpc =>
    by_cases hhost : host = t.host
    · simp [hhost, hk] at hst
    · rw [World.docker_setDaemon, if_neg hhost] at hst
      exact absurd (hold host hst).2.1 (Ne.symm hhost)
  | wait hpc hcode => exact hkeep ⟨rfl, rfl, rfl⟩ (fun _ => rfl) (fun _ _ _ => .inl rfl) hst
  | decrement hpc hw =>
    obtain ⟨-, rfl⟩ := World.commitHost_eq_some hw
    exact hkeep ⟨rfl, rfl, rfl⟩ id (by simp [hpc, TaskPc.holding]) hst
  | crash hpc => exact hkeep ⟨rfl, rfl, rfl⟩ id (fun _ _ _ => .inr rfl) hst
  | abort hpc =>
    refine hkeep ⟨rfl, rfl, rfl⟩ id ?_ hst
    rcases hpc with h | h | ⟨row, h⟩ <;> simp [h, TaskPc.holding]
  | leave hpc =>
    refine hkeep ⟨rfl, rfl, rfl⟩ id (fun hhold hexit hstarted => ?_) hst
    rcases hpc with h | h | ⟨row, h⟩
    · have hmay := hraise rfl
      have hnone : t.exitCode = none := by simpa using hexit
      simp [Task.mayRaise, hnone, hstarted, h] at hmay
    · simp [h, TaskPc.holding] at hhold
    · simp [h, TaskPc.holding] at hhold
  | failedFails hpc => exact hkeep ⟨rfl, rfl, rfl⟩ id (fun _ _ _ => .inr rfl) hst
  | _ hpc => exact hkeep ⟨rfl, rfl, rfl⟩ id (by simp [hpc, TaskPc.holding]) hst

/-- An execution with an exit code may leave the `try` block only when its verdict is `FAILED`. -/
lemma TaskPc.Stage.failed_of_mayRaise {code : ℤ} (h : t.pc.Stage w k (verdictOf code))
    (hpc : t.pc.inTry = true) (hcode : t.exitCode = some code) (hmay : t.mayRaise = true) :
    verdictOf code = .FAILED := by
  have hdeciding : t.pc.deciding = true := by
    revert h hpc
    cases t.pc <;> simp [TaskPc.Stage, TaskPc.inTry, TaskPc.deciding]
  have hne : code ≠ 0 := by simpa [Task.mayRaise, hcode, hdeciding, hpc] using hmay
  simp [verdictOf, hne]

/-- The execution with its exit code moves on to its next stage. -/
lemma TaskRule.stage (h : TaskRule p w t o w' t') (hk : t.bundle.testId = k)
    (hraise : o = .raises → t.mayRaise = true) (hknown : w.status k ≠ none)
    (hold : ∀ host, (w.docker host).statusOf k p ≠ none → (Proc.task t).Holds host k)
    (hstage : (Proc.task t).Stage w k) : (Proc.task t').Stage w' k := by
  have hid : t.testId = k := congrArg Subtype.val hk
  intro _ code hcode
  rw [Option.mem_def] at hcode
  -- in front of `wait` there is no exit code
  have hnone (hpc : ∀ verdict, ¬ t.pc.Stage w k verdict) (hcode : t.exitCode = some code)
      {P : Prop} : P := absurd (hstage hk code hcode).2 (hpc _)
  cases h with
  | wait hpc hexit =>
    refine ⟨(hold t.host ?_).2.2.1, trivial⟩
    rw [hk, Daemon.exitCode] at hexit
    intro hnone
    simp [hnone] at hexit
  | setup hpc | runningRead hpc | runningNone hpc | running hpc | prepare hpc | start hpc
  | stream hpc => exact hnone (fun _ => by simp [hpc, TaskPc.Stage]) hcode
  | abort hpc =>
    refine hnone (fun _ => ?_) hcode
    rcases hpc with h | h | ⟨row, h⟩ <;> simp [h, TaskPc.Stage]
  -- From here on the execution has its exit code.
  | collect hpc => exact ⟨(hstage hk code hcode).1, trivial⟩
  | verdictRead hpc hrow =>
    refine ⟨(hstage hk code hcode).1, ?_⟩
    rw [hid] at hrow
    simp [TaskPc.Stage, World.status, hrow]
  | verdictNone hpc hrow | failedNone hpc hrow =>
    rw [hid] at hrow
    simp [World.status, hrow] at hknown
  | @verdict _ row hpc =>
    obtain ⟨hstarted, hst⟩ := hstage hk code hcode
    simp only [hpc, TaskPc.Stage] at hst
    refine ⟨hstarted, ?_⟩
    have hfinal : t.final = verdictOf code := Task.final_of_exitCode hcode
    simp [TaskPc.Stage, hid, hst, TestExecution.assign, hfinal]
  | crash hpc =>
    obtain ⟨hstarted, hst⟩ := hstage hk code hcode
    refine ⟨hstarted, hst.failed_of_mayRaise hpc hcode (hraise rfl)⟩
  | failedRead hpc hrow =>
    obtain ⟨hstarted, hst⟩ := hstage hk code hcode
    simp only [hpc, TaskPc.Stage] at hst
    rw [hid] at hrow
    exact ⟨hstarted, hst, by simp [World.status, hrow]⟩
  | @failed _ row hpc =>
    obtain ⟨hstarted, hst⟩ := hstage hk code hcode
    simp only [hpc, TaskPc.Stage] at hst
    refine ⟨hstarted, ?_⟩
    simp [TaskPc.Stage, hid, hst.1, hst.2, TestExecution.assign]
  -- The guard lets no call fail before `FAILED` is stored.
  | failedFails hpc =>
    have hexit : t.exitCode = some code := hcode
    have hmay := hraise rfl
    rcases hpc with h | ⟨row, h⟩ <;>
      simp [Task.mayRaise, hexit, h, TaskPc.deciding, TaskPc.inTry] at hmay
  | leave hpc =>
    obtain ⟨hstarted, hst⟩ := hstage hk code hcode
    refine ⟨hstarted, ?_⟩
    rcases hpc with h | h | ⟨row, h⟩ <;> (rw [h] at hst; exact hst)
  | decrement hpc hw =>
    obtain ⟨-, rfl⟩ := World.commitHost_eq_some hw
    obtain ⟨hstarted, hst⟩ := hstage hk code hcode
    rw [hpc] at hst
    exact ⟨hstarted, hst⟩
  | _ hpc =>
    obtain ⟨hstarted, hst⟩ := hstage hk code hcode
    rw [hpc] at hst
    exact ⟨hstarted, hst⟩

/-! ### The steps of the system -/

/-- While one execution is not blank, all others are. -/
lemma Sole.others_blank (hi : Sole k s) (hp : s.procs[p]? = some proc) (hb : proc.blank k = false)
    {j : ℕ} {other : Proc} (hj : j ≠ p) (hget : s.procs[j]? = some other) :
    other.blank k = true := by
  by_contra hne
  have htwo := Pool.two_le_countP (p := fun proc => !proc.blank k) hj hget hp (by simpa using hne)
    (by simpa using hb) (.sweep 0 .done) rfl
  have := hi.one
  omega

/-- Only the execution that is not blank has containers. -/
lemma Sole.statusOf_other (hi : Sole k s) (hp : s.procs[p]? = some proc)
    (hb : proc.blank k = false) {q : ℕ} (hq : q ≠ p) (host : String) :
    (s.world.docker host).statusOf k q = none := by
  by_contra hne
  obtain ⟨other, hget, hholds⟩ := hi.owned host q hne
  have := hi.others_blank hp hb hq hget
  simp [Proc.not_blank_of_holds hholds] at this

/-- A process that takes part in the test has a stored row. -/
lemma Sole.status_ne_none (hi : Sole k s) (hp : s.procs[p]? = some proc)
    (hc : proc.concerns k = true) : s.world.status k ≠ none := by
  intro hnone
  have := (hi.known hnone).2 proc (List.mem_of_getElem? hp)
  simp [hc] at this

/-- The execution that is not blank takes a step. -/
lemma Sole.task (hi : Sole k s) (hp : s.procs[p]? = some (.task t)) (hk : t.bundle.testId = k)
    (hr : TaskRule p s.world t o w' t') (hraise : o = .raises → t.mayRaise = true) :
    Sole k ⟨w', s.procs.set p (.task t')⟩ := by
  have hb : (Proc.task t).blank k = false := by simp [Proc.blank, hk, hr.executing]
  have hknown : s.world.status k ≠ none :=
    hi.status_ne_none hp (by simp [Proc.concerns, Proc.exec?, hk])
  have hold (host : String) (h : (s.world.docker host).statusOf k p ≠ none) :
      (Proc.task t).Holds host k := by
    obtain ⟨other, hget, hholds⟩ := hi.owned host p h
    exact Option.some.inj (hget.symm.trans hp) ▸ hholds
  refine {
    one := ?_
    known := fun h => absurd h (hr.status_ne_none hknown)
    stage := (Pool.all_set hp).mpr ⟨hr.stage hk hraise hknown hold (hi.stage p _ hp),
      fun j other hj hget => (hi.stage j other hget).of_blank (hi.others_blank hp hb hj hget)⟩
    owned := fun host q hq => ?_ }
  · have hcount := Pool.countP_set_of_get (fun proc => !proc.blank k) hp (.task t')
    have hone := hi.one
    simp only [hb, Bool.not_false, if_true] at hcount
    dsimp only
    split_ifs at hcount <;> omega
  · by_cases hqp : q = p
    · subst hqp
      exact ⟨_, by rw [Pool.getElem?_set_of_get hp, if_pos rfl], hr.holds hk hraise hold hq⟩
    · exact absurd (hi.statusOf_other hp hb hqp host) (hr.statusOf_other hqp hq)

/-- The process is no execution of the test. -/
def Proc.Outside (testId : NonEmptyStr) (proc : Proc) : Prop :=
  ∀ t ∈ proc.exec?, t.bundle.testId ≠ testId

lemma Proc.Outside.blank (h : proc.Outside k) : proc.blank k = true := by
  cases proc with
  | task t => simp [Proc.blank, h t rfl]
  | dead was =>
    simp only [Proc.blank, Option.all_eq_true, Bool.or_eq_true, decide_eq_true_eq]
    intro t ht
    exact .inl (h t ht)
  | _ => rfl

lemma Proc.Outside.stage (h : proc.Outside k) : proc.Stage w k := by
  cases proc with
  | task t => exact fun hk => absurd hk (h t rfl)
  | dead was => exact fun t ht hk => absurd hk (h t ht)
  | _ => trivial

lemma Proc.Outside.not_holds (h : proc.Outside k) : ¬ proc.Holds host k := by
  intro hholds
  have := Proc.not_blank_of_holds hholds
  simp [h.blank] at this

/-- A process that is no execution of the test takes a step. -/
lemma Sole.outside (hi : Sole k s) (hp : s.procs[p]? = some proc) (hout : proc.Outside k)
    (hout' : proc'.Outside k) (hdocker : ∀ host q,
      (w'.docker host).statusOf k q = (s.world.docker host).statusOf k q)
    (hst : w'.status k = s.world.status k ∨ s.world.status k = none ∨
      ∀ other ∈ s.procs, other.settling k = false)
    (hknown : w'.status k = none → s.world.status k = none ∧
      (∀ m ∈ w'.queue ++ w'.delivered, m.bundle.testId = k →
        m ∈ s.world.queue ++ s.world.delivered ∨ proc.concerns k = true) ∧
      (proc'.concerns k = true → proc.concerns k = true)) :
    Sole k ⟨w', s.procs.set p proc'⟩ where
  one := by
    have hsame : (!proc'.blank k) = !proc.blank k := by rw [hout.blank, hout'.blank]
    exact (Pool.countP_set_same (p := fun proc => !proc.blank k) hp hsame).trans_le hi.one
  known h := by
    obtain ⟨hnone, hmessages, hconcerns⟩ := hknown h
    obtain ⟨hqueue, hprocs⟩ := hi.known hnone
    have hproc := hprocs proc (List.mem_of_getElem? hp)
    refine ⟨fun m hm hmk => ?_, fun other hmem => ?_⟩
    · rcases hmessages m hm hmk with hold | hc
      · exact hqueue m hold hmk
      · simp [hproc] at hc
    · rcases List.mem_or_eq_of_mem_set hmem with hold | rfl
      · exact hprocs other hold
      · by_contra hne
        have := hconcerns (by simpa using hne)
        simp [hproc] at this
  stage := by
    refine (Pool.all_set hp).mpr ⟨hout'.stage, fun j other _ hget => ?_⟩
    have hstage := hi.stage j other hget
    rcases hst with hsame | hnone | hsettling
    · exact hstage.congr hsame
    · have hc := (hi.known hnone).2 other (List.mem_of_getElem? hget)
      apply Proc.Outside.stage
      intro t ht hk
      rw [Option.mem_def] at ht
      simp [Proc.concerns, ht, hk] at hc
    · exact hstage.of_not_settling (hsettling other (List.mem_of_getElem? hget))
  owned host q hq := by
    rw [hdocker] at hq
    obtain ⟨other, hget, hholds⟩ := hi.owned host q hq
    have hne : q ≠ p := by
      rintro rfl
      obtain rfl := Option.some.inj (hget.symm.trans hp)
      exact hout.not_holds hholds
    exact ⟨other, by rw [Pool.getElem?_set_of_get hp, if_neg hne, hget], hholds⟩

/-- A process takes a step that touches neither the runs, the messages nor Docker. -/
lemma Sole.quiet (hi : Sole k s) (hp : s.procs[p]? = some proc) (hout : proc.Outside k)
    (hout' : proc'.Outside k) (hst : w'.execs = s.world.execs) (hq : w'.queue = s.world.queue)
    (hdel : w'.delivered = s.world.delivered) (hdocker : w'.docker = s.world.docker)
    (hconcerns : proc'.concerns k = true → proc.concerns k = true) :
    Sole k ⟨w', s.procs.set p proc'⟩ := by
  have hsame := World.status_of_execs hst k
  refine hi.outside hp hout hout' (fun _ _ => by rw [hdocker]) (.inl hsame) fun hnone =>
    ⟨hsame ▸ hnone, fun m hm _ => .inl ?_, hconcerns⟩
  rwa [hq, hdel] at hm

@[simp] lemma Proc.concerns_submit {bundle : TestBundleRequest} {pc : SubmitPc} :
    (Proc.submit bundle pc).concerns k = (decide (bundle.testId.val = k.val) && pc.inserted) := by
  simp [concerns, inserted, exec?]

lemma Sole.submit {bundle : TestBundleRequest} {pc pc' : SubmitPc} (hi : Sole k s)
    (hp : s.procs[p]? = some (.submit bundle pc)) (hr : SubmitRule p bundle s.world pc o w' pc')
    (hover : o ≠ .raises → ∀ testId ∈ (Proc.submit bundle pc).overwrites,
      ∀ other ∈ s.procs, other.settling testId = false) :
    Sole k ⟨w', s.procs.set p (.submit bundle pc')⟩ := by
  have hout (pc : SubmitPc) : (Proc.submit bundle pc).Outside k := by
    simp [Proc.Outside, Proc.exec?]
  cases hr with
  | insert ht =>
    have hst := World.status_insert? ht k
    rw [newExecution_testId] at hst
    by_cases hk : k.val = bundle.testId.val
    · rw [if_pos hk] at hst
      refine hi.outside hp (hout _) (hout _) (fun _ _ => rfl) (.inr (.inl ?_)) fun hnone => ?_
      · have hfree := (Table.get?_insert? ht).1
        rw [newExecution_testId, ← hk] at hfree
        rw [World.status, hfree]
        rfl
      · simp [hst] at hnone
    · rw [if_neg hk] at hst
      exact hi.outside hp (hout _) (hout _) (fun _ _ => rfl) (.inl hst) fun hnone =>
        ⟨hst ▸ hnone, fun m hm _ => .inl hm, by simp [Ne.symm hk]⟩
  | send =>
    refine hi.outside hp (hout _) (hout _) (fun _ _ => rfl) (.inl rfl) fun hnone =>
      ⟨hnone, fun m hm hmk => ?_, by simp [SubmitPc.inserted]⟩
    rw [List.append_assoc, List.mem_append, List.mem_append, List.mem_singleton] at hm
    rcases hm with hm | rfl | hm
    · exact .inl (List.mem_append_left _ hm)
    · exact .inr (by simp [SubmitPc.inserted, ← hmk])
    · exact .inl (List.mem_append_right _ hm)
  | @close _ chosen =>
    have hover := hover (by simp) bundle.testId (by simp [Proc.overwrites])
    refine hi.outside hp (hout _) (hout _) (fun _ _ => rfl) ?_ fun hnone =>
      ⟨?_, fun m hm _ => .inl hm, by simp [SubmitPc.inserted]⟩
    · by_cases hk : k.val = bundle.testId.val
      · exact .inr (.inr fun other hmem => hk ▸ hover other hmem)
      · exact .inl (World.status_commitRun_ne hk)
    · rw [World.status_commitRun] at hnone
      split_ifs at hnone
      · simpa using hnone
      · exact hnone
  | reserve hw | undo _ hw =>
    obtain ⟨-, rfl⟩ := World.commitHost_eq_some hw
    exact hi.quiet hp (hout _) (hout _) rfl rfl rfl rfl (by simp [SubmitPc.inserted])
  | _ =>
    refine hi.quiet hp (hout _) (hout _) ?_ ?_ ?_ ?_ (by simp [SubmitPc.inserted]) <;> rfl

/-- An execution of another test takes a step. -/
lemma Sole.otherTask (hi : Sole k s) (hp : s.procs[p]? = some (.task t))
    (hk : t.bundle.testId ≠ k) (hr : TaskRule p s.world t o w' t') :
    Sole k ⟨w', s.procs.set p (.task t')⟩ := by
  have hid : k.val ≠ t.testId := fun h => hk (Subtype.ext h.symm)
  have hout : (Proc.task t).Outside k := by simpa [Proc.Outside, Proc.exec?] using hk
  have hout' : (Proc.task t').Outside k := by
    simpa [Proc.Outside, Proc.exec?, hr.same.2] using hk
  have hconcerns : (Proc.task t').concerns k = true → (Proc.task t).concerns k = true := by
    simp [Proc.concerns, Proc.exec?, Proc.inserted, hr.same.2]
  have hframe : w'.status k = s.world.status k ∧ w'.queue = s.world.queue ∧
      w'.delivered = s.world.delivered ∧ ∀ host q,
        (w'.docker host).statusOf k q = (s.world.docker host).statusOf k q := by
    cases hr with
    | running hpc | verdict hpc | failed hpc =>
      exact ⟨World.status_commitRun_ne hid, rfl, rfl, fun _ _ => rfl⟩
    | decrement hpc hw =>
      obtain ⟨-, rfl⟩ := World.commitHost_eq_some hw
      exact ⟨rfl, rfl, rfl, fun _ _ => rfl⟩
    | start hpc hd =>
      refine ⟨rfl, rfl, rfl, fun host q => ?_⟩
      rw [World.docker_setDaemon]
      split_ifs with hhost
      · rw [Daemon.statusOf_run hd, if_neg fun h => hk h.1.symm, hhost]
      · rfl
    | cleanup hpc =>
      refine ⟨rfl, rfl, rfl, fun host q => ?_⟩
      rw [World.docker_setDaemon]
      split_ifs with hhost
      · rw [Daemon.statusOf_remove, if_neg (Ne.symm hk), hhost]
      · rfl
    | _ => exact ⟨rfl, rfl, rfl, fun _ _ => rfl⟩
  obtain ⟨hst, hq, hdel, hdocker⟩ := hframe
  refine hi.outside hp hout hout' hdocker (.inl hst) fun hnone =>
    ⟨hst ▸ hnone, fun m hm _ => .inl ?_, hconcerns⟩
  rwa [hq, hdel] at hm

/-- Runs are failed by a process that is no execution. -/
lemma Sole.commitFailed {runs : List TestExecution} (hi : Sole k s)
    (hp : s.procs[p]? = some proc) (hout : proc.Outside k) (hout' : proc'.Outside k)
    (hover : ∀ testId ∈ runs.map TestExecution.testId,
      ∀ other ∈ s.procs, other.settling testId = false)
    (hconcerns : proc'.concerns k = true → proc.concerns k = true) :
    Sole k ⟨s.world.commitFailed (runs.map TestExecution.testId), s.procs.set p proc'⟩ := by
  refine hi.outside hp hout hout' (fun _ _ => rfl) ?_ fun hnone =>
    ⟨?_, fun m hm _ => .inl hm, hconcerns⟩
  · by_cases hk : k.val ∈ runs.map TestExecution.testId
    · exact .inr (.inr (hover k hk))
    · exact .inl (by rw [World.status_commitFailed, if_neg hk])
  · rw [World.status_commitFailed] at hnone
    split_ifs at hnone
    · simpa using hnone
    · exact hnone

/-- An execution that may die leaves its container and its verdict in order. -/
lemma Sole.kill (hi : Sole k s) (hp : s.procs[p]? = some proc)
    (hdie : ∀ t ∈ proc.exec?, t.mayDie = true) :
    Sole k ⟨s.world.unlock p, s.procs.set p (.dead proc)⟩ := by
  have hblank (h : proc.blank k = true) : (Proc.dead proc).blank k = true := by
    cases proc with
    | task t =>
      simp only [Proc.blank, Proc.exec?, Option.all_some, Bool.or_eq_true, Bool.and_eq_true] at h ⊢
      exact h.imp_right And.right
    | dead was => exact h
    | _ => rfl
  refine {
    one := ?_
    known := fun h => ?_
    stage := (Pool.all_set hp).mpr ⟨?_, fun j other _ hget => (hi.stage j other hget).congr rfl⟩
    owned := fun host q hq => ?_ }
  · -- A process that is not blank stays the only one.
    have hcount := Pool.countP_set_of_get (fun proc => !proc.blank k) hp (.dead proc)
    have hone := hi.one
    cases hb : proc.blank k with
    | true =>
      simp only [hb, hblank hb, Bool.not_true, Bool.false_eq_true, if_false, add_zero] at hcount
      exact hcount.trans_le hone
    | false =>
      simp only [hb, Bool.not_false, if_true] at hcount
      dsimp only
      split_ifs at hcount <;> omega
  · obtain ⟨hqueue, hprocs⟩ := hi.known h
    refine ⟨hqueue, fun other hmem => ?_⟩
    rcases List.mem_or_eq_of_mem_set hmem with hold | rfl
    · exact hprocs other hold
    · have hproc := hprocs proc (List.mem_of_getElem? hp)
      simp only [Proc.concerns, Bool.or_eq_false_iff] at hproc
      simp [Proc.concerns, Proc.inserted, Proc.exec?, hproc.2]
  · -- By the guard the status is final when the execution dies.
    intro t ht hk code hcode
    have hstage := hi.stage p proc hp
    have hmay := hdie t ht
    rw [Option.mem_def] at ht hcode
    cases proc with
    | task t' =>
      obtain rfl := Option.some.inj ht
      obtain ⟨hstarted, hst⟩ := hstage hk code hcode
      refine ⟨hstarted, show s.world.status k = _ from ?_⟩
      simp only [Task.mayDie, hcode, Option.isSome_some, if_true] at hmay
      revert hst hmay
      cases t'.pc <;> simp [TaskPc.Stage, TaskPc.deciding]
    | dead was => exact hstage t ht hk code hcode
    | _ => cases ht
  · -- A container is left behind only with an exit code.
    obtain ⟨other, hget, hholds⟩ := hi.owned host q hq
    by_cases hqp : q = p
    · subst hqp
      refine ⟨.dead proc, by rw [Pool.getElem?_set_of_get hp, if_pos rfl], ?_⟩
      obtain rfl := Option.some.inj (hget.symm.trans hp)
      cases other with
      | task t =>
        obtain ⟨hk, hhost, hstarted, hor⟩ := hholds
        refine ⟨t, rfl, hk, hhost, hstarted, ?_⟩
        have hmay := hdie t rfl
        by_contra hexit
        have hhold := hor.resolve_left hexit
        simp [Task.mayDie, hexit, hstarted, hhold] at hmay
      | dead was => exact hholds
      | _ => exact hholds.elim
    · exact ⟨other, by rw [Pool.getElem?_set_of_get hp, if_neg hqp, hget], hholds⟩

lemma Sole.spawn {new : Proc} (hi : Sole k s) (hnew : new.Outside k)
    (hconcerns : new.concerns k = false) : Sole k { s with procs := s.procs ++ [new] } where
  one := by simpa [hnew.blank] using hi.one
  known h := by
    obtain ⟨hqueue, hprocs⟩ := hi.known h
    refine ⟨hqueue, fun proc hmem => ?_⟩
    rcases List.mem_append.mp hmem with hold | hnew
    · exact hprocs proc hold
    · rw [List.mem_singleton.mp hnew, hconcerns]
  stage := Pool.all_append_singleton.mpr ⟨hi.stage, hnew.stage⟩
  owned host q hq := by
    obtain ⟨proc, hget, hholds⟩ := hi.owned host q hq
    exact ⟨proc, Pool.getElem?_append_of_get hget, hholds⟩

/-- A message starts an execution, while all earlier ones of the test are blank. -/
lemma Sole.consume {m : Message} (hi : Sole k s)
    (hm : m ∈ s.world.queue ++ s.world.delivered)
    (hblank : ∀ proc ∈ s.procs, proc.blank m.bundle.testId = true)
    (hexecs : w'.execs = s.world.execs) (hdocker : w'.docker = s.world.docker)
    (hmessages : ∀ m' ∈ w'.queue ++ w'.delivered, m' ∈ s.world.queue ++ s.world.delivered) :
    Sole k ⟨w', s.procs ++ [.task (.init host m.bundle)]⟩ := by
  have hst := World.status_of_execs hexecs k
  refine {
    one := ?_
    known := fun h => ?_
    stage := Pool.all_append_singleton.mpr
      ⟨hi.stage.mono fun _ _ hstage => hstage.congr hst, fun _ code hcode => by cases hcode⟩
    owned := fun host q hq => ?_ }
  · by_cases hk : m.bundle.testId = k
    · have hzero : s.procs.countP (fun proc => !proc.blank k) = 0 :=
        List.countP_eq_zero.mpr fun proc hmem => by simp [← hk, hblank proc hmem]
      simp only [List.countP_append, hzero, List.countP_singleton]
      split_ifs <;> simp
    · have hnew : (Proc.task (.init host m.bundle)).blank k = true := by
        simp [Proc.blank, Task.init, hk]
      simpa [hnew] using hi.one
  · obtain ⟨hqueue, hprocs⟩ := hi.known (hst ▸ h)
    refine ⟨fun m' hm' => hqueue m' (hmessages m' hm'), fun proc hmem => ?_⟩
    rcases List.mem_append.mp hmem with hold | hnew
    · exact hprocs proc hold
    · rw [List.mem_singleton.mp hnew]
      simp [Proc.concerns, Proc.inserted, Proc.exec?, Task.init, hqueue m hm]
  · rw [hdocker] at hq
    obtain ⟨proc, hget, hholds⟩ := hi.owned host q hq
    exact ⟨proc, Pool.getElem?_append_of_get hget, hholds⟩

lemma sole_step {a : Act} (hi : Sole k s) (hG : OneExecution s a) (h : step s a = some s') :
    Sole k s' := by
  have hnone (proc : Proc) (h : proc.exec? = none) : proc.Outside k := by simp [Proc.Outside, h]
  cases SysRule.of_step h with
  | @launch l =>
    cases l with
    | submit bundle => exact hi.spawn (hnone _ rfl) (by simp [Launch.proc, SubmitPc.inserted])
    | _ => exact hi.spawn (hnone _ rfl) rfl
  | @deliver i host m hm hq =>
    -- Handed out for the first time, or again: the earlier executions are blank.
    refine hi.consume (List.mem_append_left _ (List.mem_of_getElem? hm)) (hG m hm) rfl rfl ?_
    intro m' hm'
    simp only [World.handOut, List.mem_append, List.mem_singleton] at hm' ⊢
    rcases hm' with hm' | hm' | rfl
    · exact .inl (List.mem_of_mem_eraseIdx hm')
    · exact .inr hm'
    · exact .inl (List.mem_of_getElem? hm)
  | @redeliver i host m hm hq =>
    exact hi.consume (List.mem_append_right _ (List.mem_of_getElem? hm)) (hG m hm) rfl rfl
      fun _ hm' => hm'
  | @submit p o _ _ _ _ hp hr =>
    apply hi.submit hp hr
    intro ho
    cases o with
    | ok url => exact hG _ hp
    | raises => exact absurd rfl ho
  | @task p o t _ t' hp hr =>
    -- Only an execution of this test moves its row and its containers.
    by_cases hk : t.bundle.testId = k
    · apply hi.task hp hk hr
      rintro rfl
      exact hG _ hp t rfl
    · exact hi.otherTask hp hk hr
  | heartbeat hp hr =>
    cases hr with
    | update hw =>
      obtain ⟨-, rfl⟩ := World.commitHost_eq_some hw
      exact hi.quiet hp (hnone _ rfl) (hnone _ rfl) rfl rfl rfl rfl id
    | register hw =>
      obtain ⟨t, -, rfl⟩ := Option.map_eq_some_iff.mp hw
      exact hi.quiet hp (hnone _ rfl) (hnone _ rfl) rfl rfl rfl rfl id
    | _ => exact hi.quiet hp (hnone _ rfl) (hnone _ rfl) rfl rfl rfl rfl id
  | update hp hr =>
    cases hr with
    | commit hw =>
      obtain ⟨-, rfl⟩ := World.commitHost_eq_some hw
      exact hi.quiet hp (hnone _ rfl) (hnone _ rfl) rfl rfl rfl rfl id
    | _ => exact hi.quiet hp (hnone _ rfl) (hnone _ rfl) rfl rfl rfl rfl id
  | sweep hp hr =>
    cases hr with
    | fail => exact hi.commitFailed hp (hnone _ rfl) (hnone _ rfl) (hG _ hp) id
    | _ => exact hi.quiet hp (hnone _ rfl) (hnone _ rfl) rfl rfl rfl rfl id
  | reap hp hr =>
    cases hr with
    | fail => exact hi.commitFailed hp (hnone _ rfl) (hnone _ rfl) (hG _ hp) id
    | _ => exact hi.quiet hp (hnone _ rfl) (hnone _ rfl) rfl rfl rfl rfl id
  | kill hp => exact hi.kill hp (hG _ hp)
  | @exit host name code c hc hrun =>
    refine ⟨hi.one, hi.known, hi.stage, fun host' q hq => hi.owned host' q ?_⟩
    rw [World.docker_setDaemon] at hq
    split_ifs at hq with hhost
    · rwa [ne_eq, Daemon.statusOf_setStatus, ← hhost] at hq
    · exact hq
  | tick => exact ⟨hi.one, hi.known, hi.stage, hi.owned⟩

lemma TaskPc.executing_of_holding {pc : TaskPc} (h : pc.holding = true) : pc.executing = true := by
  cases pc <;> simp_all [holding, executing]

/-- An execution that has ended and may still have a container has its exit code. -/
lemma Proc.Holds.exitCode (h : proc.Holds host k) (hexec : proc.exec? = some t)
    (hended : proc.executing k = false) : t.exitCode.isSome = true := by
  cases proc with
  | task t' =>
    obtain rfl := Option.some.inj hexec
    obtain ⟨hk, -, -, hor⟩ := h
    apply hor.resolve_right
    intro hhold
    simp [executing, Task.testId, hk, TaskPc.executing_of_holding hhold] at hended
  | dead was =>
    obtain ⟨t', ht, -, -, -, hexit⟩ := h
    obtain rfl := Option.some.inj (ht.symm.trans hexec)
    exact hexit
  | _ => exact h.elim

/-- An execution that has ended with an exit code has stored its verdict. -/
lemma Proc.Stage.verdict {code : ℤ} (h : proc.Stage w k) (hexec : proc.exec? = some t)
    (hk : t.bundle.testId = k) (hcode : t.exitCode = some code)
    (hended : proc.executing k = false) : w.status k = some (verdictOf code) := by
  cases proc with
  | task t' =>
    obtain rfl := Option.some.inj hexec
    have hst := (h hk code hcode).2
    have hpc : t'.pc.executing = false := by simpa [executing, Task.testId, hk] using hended
    revert hst hpc
    cases t'.pc <;> simp [TaskPc.Stage, TaskPc.executing]
  | dead was => exact (h t hexec hk code hcode).2
  | _ => cases hexec

lemma Sole.harmless (hi : Sole k s) : s.Harmless k where
  released := by
    refine (List.countP_mono_left fun proc _ h => ?_).trans hi.one
    simp [Proc.not_blank_of_released h]
  cleanup p q t hp hk hpc hq := by
    have hb : (Proc.task t).blank k = false := by simp [Proc.blank, hk, hpc, TaskPc.executing]
    simp [hi.statusOf_other hp hb hq]
  verdict hended := by
    rintro ⟨code, p, proc, t, hp, hexec, hk, hran⟩
    have hended := hended proc (List.mem_of_getElem? hp)
    have hexit : t.exitCode.isSome = true := by
      rcases hran with hexit | hstatus
      · simp [hexit]
      · obtain ⟨other, hget, hholds⟩ := hi.owned t.host p (by simp [hstatus])
        obtain rfl := Option.some.inj (hp.symm.trans hget)
        exact hholds.exitCode hexec hended
    obtain ⟨code, hcode⟩ := Option.isSome_iff_exists.mp hexit
    exact ⟨code, ⟨p, proc, t, hp, hexec, hk, .inl hcode⟩,
      (hi.stage p proc hp).verdict hexec hk hcode hended⟩

/-- A deployment before its first request: no messages, and no containers that executions started.
-/
structure Sys.Fresh (s : Sys) : Prop where
  idle : s.Idle
  queue : s.world.queue = []
  delivered : s.world.delivered = []
  docker : ∀ host testId q, (s.world.docker host).statusOf testId q = none

lemma Sys.Fresh.single (host : WorkerHost) : (Sys.single host).Fresh :=
  ⟨.single host, rfl, rfl, fun _ _ _ => rfl⟩

/-- In every run that meets `OneExecution`, redelivery is harmless. -/
theorem redelivery_harmless {s₀ : Sys} (testId : NonEmptyStr) (h₀ : s₀.Fresh)
    (h : Reaches step OneExecution s₀ s) : s.Harmless testId := by
  refine Sole.harmless (h.invariant ?_ fun _ _ _ hi hG hs => sole_step hi hG hs)
  exact {
    one := by simp [h₀.idle.1]
    known := fun _ => by simp [h₀.idle.1, h₀.queue, h₀.delivered]
    stage := by simp [h₀.idle.1]
    owned := fun host q hq => absurd (h₀.docker host testId q) hq }

/-- A dispatched run whose worker dies before the execution has done anything; the message is
delivered again. -/
def redelivered : List Act :=
  [.launch (.submit sampleBundle), .advance 0 (.ok none), .advance 0 (.ok none),
    .advance 0 (.ok none), .advance 0 (.ok none), .advance 0 (.ok none), .deliver 0 "h",
    .advance 1 (.ok none), .kill 1, .redeliver 0 "h"]

/-- The second execution does what the first one should have done. -/
theorem redelivered_harmless : ∃ s : Sys, s.procs.length = 3 ∧
    s.world.status "t" = some .PASSED ∧ s.Harmless sampleBundle.testId := by
  obtain ⟨s, hs, hp⟩ := exists_reaches_of_guardedRun step OneExecution (.single idleHost)
    (redelivered ++ List.replicate 6 (.advance 2 (.ok none)) ++ [.exit "h" "test_t" 0] ++
      List.replicate 8 (.advance 2 (.ok none)))
    (fun s => s.procs.length = 3 && s.world.status "t" = some .PASSED) (by decide +kernel)
  simp only [Bool.and_eq_true, decide_eq_true_eq] at hp
  exact ⟨s, hp.1, hp.2, redelivery_harmless _ (.single _) hs⟩

def Proc.live? : Proc → Option Task
  | .task t => some t
  | _ => none

/-- The worker dies while the container runs. The second execution cannot start a container of the
same name and removes the one that runs. -/
theorem redelivery_removes_running :
    ¬ ∀ (s₀ s : Sys) (testId : NonEmptyStr), s₀.Fresh →
      Reaches step (fun _ _ => True) s₀ s → s.Harmless testId := by
  intro h
  obtain ⟨s, hs, hp⟩ := exists_reaches_of_guardedRun step (fun _ _ => True) (.single idleHost)
    (redelivered.take 7 ++ List.replicate 5 (.advance 1 (.ok none)) ++
      [.kill 1, .redeliver 0 "h"] ++
      List.replicate 4 (.advance 2 (.ok none)) ++ [.advance 2 .raises] ++
      List.replicate 3 (.advance 2 (.ok none)))
    (fun s => (s.procs[2]?.bind Proc.live?).any fun t =>
      t.bundle.testId = sampleBundle.testId && t.pc = .cleanup &&
        (s.world.docker t.host).statusOf sampleBundle.testId 1 = some .running)
    (by decide +kernel)
  obtain ⟨t, ht, hp⟩ := (Option.any_eq_true _ _).mp hp
  obtain ⟨proc, hproc, ht⟩ := Option.bind_eq_some_iff.mp ht
  cases proc with
  | task t' =>
    obtain rfl := Option.some.inj ht
    simp only [Bool.and_eq_true, decide_eq_true_eq] at hp
    obtain ⟨⟨hk, hpc⟩, hrunning⟩ := hp
    exact (h _ s _ (.single _) hs).cleanup 2 1 t' hproc hk hpc (by decide) hrunning
  | _ => cases ht

end TestOrch
