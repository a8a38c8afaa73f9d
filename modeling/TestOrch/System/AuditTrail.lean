import TestOrch.System.Redelivery

/-!
# The audit trail

Whatever runs side by side, fails or is killed, what a row of `test_executions` says is backed by
something that happened: the recorded host was sent the test, a verdict comes from an execution of
the test, from a dispatch that failed or from a reaper that had read the run active, and every
execution is of the recorded user's bundle. What backs a row never goes away, so only the commit
that changes a row has to be looked at.
-/

namespace TestOrch

open Transition

structure TestExecution.Records (r : TestExecution) (bundle : TestBundleRequest) : Prop where
  testId : r.testId = bundle.testId
  userId : r.userId = bundle.userId
  runnerType : r.runnerType = bundle.runnerType
  frameworkImage : r.frameworkImage = bundle.frameworkImage

/-- What a row can become: what was recorded of the bundle stays, and what was set is never
unset. -/
structure TestExecution.Before (r r' : TestExecution) : Prop where
  testId : r'.testId = r.testId
  userId : r'.userId = r.userId
  runnerType : r'.runnerType = r.runnerType
  frameworkImage : r'.frameworkImage = r.frameworkImage
  pending : r'.status = .PENDING → r.status = .PENDING
  target : r'.targetHostId = none → r.targetHostId = none
  artifact : r'.artifactUrl = none → r.artifactUrl = none

/-- A message of the bundle was put on the queue of the host. -/
def World.Sent (w : World) (bundle : TestBundleRequest) (host : String) : Prop :=
  ∃ m ∈ w.queue ++ w.delivered, m.bundle = bundle ∧ consumes host m = true

/-- The process is or was an execution of the test with `P`. -/
def Proc.Executed (testId : String) (P : Task → Prop) (proc : Proc) : Prop :=
  ∃ t, proc.exec? = some t ∧ t.testId = testId ∧ P t

/-- The execution has no write of the status ahead of it and did not return `PASSED`. -/
def Task.unpassed (t : Task) : Prop := t.pc.writes = false ∧ t.result ≠ some .PASSED

/-- The process is or was a submission of the test that found no host or did not reach it, or an
execution of the test without `PASSED`. -/
def Proc.Fails (testId : String) : Proc → Prop
  | .submit bundle pc => bundle.testId = testId ∧ pc = .returned none
  | .task t => t.testId = testId ∧ t.unpassed
  | .dead was => was.Fails testId
  | _ => False

/-- The process is a reaper about to fail the test, whose row it has read active on a host, or
`RUNNING` on its own. -/
def Proc.Reaps (testId : String) : Proc → Prop
  | .sweep _ (.fail orphaned) =>
    ∃ r ∈ orphaned, r.testId = testId ∧ r.status.active = true ∧ r.targetHostId ≠ none
  | .reap hostId (.fail stuck) =>
    ∃ r ∈ stuck, r.testId = testId ∧ r.status = .RUNNING ∧ r.targetHostId = some hostId
  | _ => False

/-- The step is the commit of a reaper that fails the test. -/
def Reaps (testId : String) (s : Sys) : Act → Prop
  | .advance p (.ok _) => ∃ proc, s.procs[p]? = some proc ∧ proc.Reaps testId
  | _ => False

/-- In the run a reaper failed the test. -/
def ReapedIn (s₀ : Sys) (as : List Act) (testId : String) : Prop :=
  Happened step (Reaps testId) s₀ as

/-- What has to have happened for a row to have the status; `reaped` has the tests that reapers
have failed. -/
def Sys.Earned (s : Sys) (reaped : String → Prop) (testId : String) : TestStatus → Prop
  | .PENDING | .DISPATCHED => True
  | .RUNNING => ∃ proc ∈ s.procs, proc.Executed testId fun _ => True
  | .PASSED => ∃ proc ∈ s.procs, proc.Executed testId fun t => t.exitCode = some 0
  | .FAILED => (∃ proc ∈ s.procs, proc.Fails testId) ∨ reaped testId
  | .CANCELLED => False

/-- What the row says is backed by what happened. -/
structure Backed (reaped : String → Prop) (s : Sys) (row : TestExecution) : Prop where
  /-- Nothing is recorded of a run whose submission did not come to its end. -/
  pending : row.status = .PENDING → row.targetHostId = none ∧ row.artifactUrl = none
  placed : row.status = .DISPATCHED ∨ row.status = .RUNNING → row.targetHostId ≠ none
  sent : ∀ h, row.targetHostId = some h →
    ∃ bundle, row.Records bundle ∧ s.world.Sent bundle h
  earned : s.Earned reaped row.testId row.status
  uploaded : ∀ url, row.artifactUrl = some url →
    ∃ proc ∈ s.procs, proc.Executed row.testId fun t => t.artifactUrl = some url

variable {s s' : Sys} {w w' : World} {p : ℕ} {o : Outcome} {proc proc' : Proc} {t t' : Task}
  {r r' loaded : TestExecution} {bundle : TestBundleRequest} {k host : String}
  {reaped reaped' : String → Prop}

/-! ### Rows -/

/-- A column that a session sets only to given values is not unset by its commit. -/
lemma eq_none_of_writeBack {α : Type*} [DecidableEq α] {loaded new stored : Option α}
    (h : writeBack loaded (new <|> loaded) stored = none) : stored = none := by
  cases new with
  | none => simpa using h
  | some a =>
    by_cases heq : some a = loaded
    · simpa [writeBack, heq] using h
    · simp [writeBack, heq] at h

/-- A value in such a column was there or is the one given. -/
lemma eq_some_of_writeBack {α : Type*} [DecidableEq α] {loaded new stored : Option α} {a : α}
    (h : writeBack loaded (new <|> loaded) stored = some a) : stored = some a ∨ new = some a := by
  cases new with
  | none => exact .inl (by simpa using h)
  | some b =>
    by_cases heq : some b = loaded
    · exact .inl (by simpa [writeBack, heq] using h)
    · exact .inr (by simpa [writeBack, heq] using h)

lemma writeBack_eq_or {α : Type*} [DecidableEq α] (loaded new stored : α) :
    writeBack loaded new stored = stored ∨ writeBack loaded new stored = new := by
  unfold writeBack
  split_ifs
  · exact .inl rfl
  · exact .inr rfl

namespace TestExecution.Before

lemma refl (r : TestExecution) : r.Before r := ⟨rfl, rfl, rfl, rfl, id, id, id⟩

lemma trans {r'' : TestExecution} (h : r.Before r') (h' : r'.Before r'') : r.Before r'' where
  testId := h'.testId.trans h.testId
  userId := h'.userId.trans h.userId
  runnerType := h'.runnerType.trans h.runnerType
  frameworkImage := h'.frameworkImage.trans h.frameworkImage
  pending hr := h.pending (h'.pending hr)
  target hr := h.target (h'.target hr)
  artifact hr := h.artifact (h'.artifact hr)

lemma records (h : r.Before r') (hr : r.Records bundle) : r'.Records bundle :=
  ⟨h.testId.trans hr.testId, h.userId.trans hr.userId, h.runnerType.trans hr.runnerType,
    h.frameworkImage.trans hr.frameworkImage⟩

/-- The row as inserted comes before whatever is stored for the bundle. -/
lemma newExecution (hr : r.Records bundle) (now : ℤ) : (newExecution bundle now).Before r :=
  ⟨hr.testId, hr.userId, hr.runnerType, hr.frameworkImage, fun _ => rfl, fun _ => rfl, fun _ => rfl⟩

/-- A commit of `_set_status` or of `submit_test`. -/
lemma flush {status : TestStatus} (hstatus : status ≠ .PENDING) (target artifact : Option String)
    (now : ℤ) : r.Before (TestExecution.flush loaded (loaded.assign status target artifact) now r)
    where
  testId := rfl
  userId := rfl
  runnerType := rfl
  frameworkImage := rfl
  pending hp := by
    simp only [flush_status, writeBack, assign] at hp
    split_ifs at hp
    · exact hp
    · exact absurd hp hstatus
  target := eq_none_of_writeBack
  artifact := eq_none_of_writeBack

end TestExecution.Before

/-- The rows of a table only go on. -/
def World.RowsGrow (w w' : World) : Prop :=
  ∀ k r, w.execs.get? k = some r → ∃ r', w'.execs.get? k = some r' ∧ r.Before r'

namespace World.RowsGrow

lemma of_eq (h : w'.execs = w.execs) : w.RowsGrow w' :=
  fun _ r hr => ⟨r, by rw [h, hr], .refl r⟩

lemma insert {row : TestExecution} {t : Executions} (ht : w.execs.insert? row = some t) :
    w.RowsGrow { w with execs := t } := by
  obtain ⟨hnone, hget⟩ := Table.get?_insert? ht
  intro k r hr
  refine ⟨r, ?_, .refl r⟩
  have hne : k ≠ row.testId := by
    rintro rfl
    simp [hnone] at hr
  rw [hget, if_neg hne, hr]

lemma commitRun {status : TestStatus} (hstatus : status ≠ .PENDING)
    (testId : String) (target artifact : Option String) :
    w.RowsGrow (w.commitRun p testId loaded (loaded.assign status target artifact)) := by
  intro k r hr
  rw [get?_commitRun]
  split_ifs
  · exact ⟨_, by rw [hr]; rfl, .flush hstatus target artifact w.clock⟩
  · exact ⟨r, hr, .refl r⟩

lemma commitFailed (testIds : List String) : w.RowsGrow (w.commitFailed testIds) := by
  intro k r hr
  rw [World.commitFailed, get?_failRuns]
  split_ifs
  · rw [hr]
    exact ⟨_, rfl, ⟨rfl, rfl, rfl, rfl, fun h => (by cases h), id, id⟩⟩
  · exact ⟨r, hr, .refl r⟩

end World.RowsGrow

/-! ### Executions -/

/-- `container.wait()` has not returned. -/
def TaskPc.beforeExit : TaskPc → Bool
  | .setup | .runningRead | .runningCommit _ | .prepare | .start | .stream | .wait => true
  | _ => false

/-- The local variables of an execution are bound in the order of the code. -/
structure Task.Ordered (t : Task) : Prop where
  exitCode : t.pc.beforeExit = true → t.exitCode = none
  artifactUrl : t.pc.beforeExit = true ∨ t.pc = .collect → t.artifactUrl = none
  result : t.pc.writes = true → t.result = none

/-- What an execution is known for stays. -/
structure Task.Grows (t t' : Task) : Prop where
  host : t'.host = t.host
  bundle : t'.bundle = t.bundle
  exitCode : ∀ code, t.exitCode = some code → t'.exitCode = some code
  artifactUrl : ∀ url, t.artifactUrl = some url → t'.artifactUrl = some url
  unpassed : t.unpassed → t'.unpassed

lemma Task.Grows.refl (t : Task) : t.Grows t := ⟨rfl, rfl, fun _ => id, fun _ => id, id⟩

/-- Only the program counter moved. -/
lemma Task.Grows.goto {pc : TaskPc} (h : t.pc.writes = true ∨ pc.writes = false) :
    t.Grows { t with pc := pc } := by
  refine ⟨rfl, rfl, fun _ => id, fun _ => id, fun hun => ⟨?_, hun.2⟩⟩
  rcases h with h | h
  · simp [hun.1] at h
  · exact h

lemma Task.Ordered.init (host : String) (bundle : TestBundleRequest) :
    (Task.init host bundle).Ordered := ⟨fun _ => rfl, fun _ => rfl, fun _ => rfl⟩

/-- The exit code and the upload are behind the execution. -/
lemma Task.Ordered.late (hexit : t.pc.beforeExit = false) (hcollect : t.pc ≠ .collect)
    (hresult : t.pc.writes = true → t.result = none) : t.Ordered :=
  ⟨fun h => absurd (hexit.symm.trans h) Bool.false_ne_true,
    fun h => h.elim (fun h => absurd (hexit.symm.trans h) Bool.false_ne_true)
      fun h => absurd h hcollect, hresult⟩

lemma grows_of_taskStep (h : taskStep p w t o = some (w', t')) (ht : t.Ordered) : t.Grows t' := by
  cases TaskRule.of_taskStep h with
  | wait hpc hcode =>
    have hnone := ht.exitCode (by simp [hpc, TaskPc.beforeExit])
    exact ⟨rfl, rfl, fun code h => by simp [hnone] at h, fun _ => id,
      fun hun => by simp [Task.unpassed, hpc, TaskPc.writes] at hun⟩
  | collect hpc =>
    have hnone := ht.artifactUrl (.inr hpc)
    exact ⟨rfl, rfl, fun _ => id, fun url h => by simp [hnone] at h,
      fun hun => by simp [Task.unpassed, hpc, TaskPc.writes] at hun⟩
  | verdictNone hpc | verdict hpc =>
    exact ⟨rfl, rfl, fun _ => id, fun _ => id,
      fun hun => by simp [Task.unpassed, hpc, TaskPc.writes] at hun⟩
  | start hpc =>
    exact ⟨rfl, rfl, fun _ => id, fun _ => id,
      fun hun => by simp [Task.unpassed, hpc, TaskPc.writes] at hun⟩
  | close hpc =>
    refine ⟨rfl, rfl, fun _ => id, fun _ => id, fun hun => ⟨rfl, ?_⟩⟩
    -- `influx.close()` returns, or its exception takes the place of the value
    cases o <;> simp only [taskStep, hpc, Option.some.injEq, Prod.mk.injEq, true_and] at h
    · rw [← h]
      exact hun.2
    · rw [← h]
      simp
  | setup hpc | runningRead hpc | runningNone hpc | running hpc | prepare hpc | stream hpc
  | verdictRead hpc | failedRead hpc | failedNone hpc | failed hpc =>
    exact .goto (.inl (by simp [hpc, TaskPc.writes]))
  | crash hpc => exact .goto (.inl (TaskPc.writes_of_inTry hpc))
  | _ => exact .goto (.inr rfl)

lemma TaskRule.ordered (h : TaskRule p w t o w' t') (ht : t.Ordered) : t'.Ordered := by
  cases h with
  | setup hpc | runningRead hpc | runningNone hpc | running hpc | prepare hpc | stream hpc
  | start hpc =>
    have hearly : t.pc.beforeExit = true := by simp [hpc, TaskPc.beforeExit]
    exact ⟨fun _ => ht.exitCode hearly, fun _ => ht.artifactUrl (.inl hearly),
      fun _ => ht.result (by simp [hpc, TaskPc.writes])⟩
  | wait hpc =>
    have hearly : t.pc.beforeExit = true := by simp [hpc, TaskPc.beforeExit]
    exact ⟨fun h => absurd h Bool.false_ne_true, fun _ => ht.artifactUrl (.inl hearly),
      fun _ => ht.result (by simp [hpc, TaskPc.writes])⟩
  | crash hpc => exact .late rfl (by simp) fun _ => ht.result (TaskPc.writes_of_inTry hpc)
  | collect hpc | verdictRead hpc | failedRead hpc =>
    exact .late rfl (by simp) fun _ => ht.result (by simp [hpc, TaskPc.writes])
  | _ => exact .late rfl (by simp) fun h => absurd h Bool.false_ne_true

/-! ### What backs a row stays -/

/-- What the process is known for stays. -/
structure Proc.Grows (proc proc' : Proc) : Prop where
  exec : ∀ t, proc.exec? = some t → ∃ t', proc'.exec? = some t' ∧ t.Grows t'
  fails : ∀ testId, proc.Fails testId → proc'.Fails testId

lemma Proc.Grows.refl (proc : Proc) : proc.Grows proc :=
  ⟨fun t ht => ⟨t, ht, .refl t⟩, fun _ => id⟩

/-- A process other than an execution. -/
lemma Proc.Grows.of_exec_none (h : proc.exec? = none)
    (hfails : ∀ testId, proc.Fails testId → proc'.Fails testId) : proc.Grows proc' :=
  ⟨fun t ht => by simp [h] at ht, hfails⟩

lemma Proc.Grows.task (h : t.Grows t') : (Proc.task t).Grows (.task t') where
  exec t₁ ht₁ := by
    obtain rfl := Option.some.inj ht₁
    exact ⟨t', rfl, h⟩
  fails testId hf := ⟨by rw [Task.testId, h.bundle]; exact hf.1, h.unpassed hf.2⟩

lemma Proc.Grows.kill (proc : Proc) : proc.Grows (.dead proc) :=
  ⟨fun t ht => ⟨t, ht, .refl t⟩, fun _ => id⟩

lemma Proc.Executed.grow {P : Task → Prop} (h : proc.Executed k P) (hg : proc.Grows proc')
    (hP : ∀ t t', t.Grows t' → P t → P t') : proc'.Executed k P := by
  obtain ⟨t, ht, hk, hPt⟩ := h
  obtain ⟨t', ht', hgt⟩ := hg.exec t ht
  exact ⟨t', ht', by rw [Task.testId, hgt.bundle]; exact hk, hP t t' hgt hPt⟩

/-- Messages are not forgotten, rows only go on, and processes stay known for what they did. -/
structure Sys.Grows (s s' : Sys) : Prop where
  messages : ∀ m ∈ s.world.queue ++ s.world.delivered, m ∈ s'.world.queue ++ s'.world.delivered
  rows : s.world.RowsGrow s'.world
  procs : ∀ proc ∈ s.procs, ∃ proc' ∈ s'.procs, proc.Grows proc'

namespace Sys.Grows

/-- One process moved. -/
lemma set (hp : s.procs[p]? = some proc)
    (hm : ∀ m ∈ s.world.queue ++ s.world.delivered, m ∈ w'.queue ++ w'.delivered)
    (hrows : s.world.RowsGrow w') (hg : proc.Grows proc') :
    s.Grows ⟨w', s.procs.set p proc'⟩ := by
  refine ⟨hm, hrows, fun other hother => ?_⟩
  obtain ⟨j, hj⟩ := List.mem_iff_getElem?.mp hother
  by_cases hjp : j = p
  · subst hjp
    obtain rfl := Option.some.inj (hp.symm.trans hj)
    refine ⟨proc', List.mem_iff_getElem?.mpr ⟨j, ?_⟩, hg⟩
    rw [Pool.getElem?_set_of_get hp, if_pos rfl]
  · refine ⟨other, List.mem_iff_getElem?.mpr ⟨j, ?_⟩, .refl other⟩
    rw [Pool.getElem?_set_of_get hp, if_neg hjp, hj]

lemma spawn (new : List Proc)
    (hm : ∀ m ∈ s.world.queue ++ s.world.delivered, m ∈ w'.queue ++ w'.delivered)
    (hrows : s.world.RowsGrow w') : s.Grows ⟨w', s.procs ++ new⟩ :=
  ⟨hm, hrows, fun proc hproc => ⟨proc, List.mem_append_left _ hproc, .refl proc⟩⟩

lemma sent (h : s.Grows s') (hs : s.world.Sent bundle host) : s'.world.Sent bundle host := by
  obtain ⟨m, hm, heq⟩ := hs
  exact ⟨m, h.messages m hm, heq⟩

lemma executed {P : Task → Prop} (h : s.Grows s') (hP : ∀ t t', t.Grows t' → P t → P t')
    (he : ∃ proc ∈ s.procs, proc.Executed k P) : ∃ proc ∈ s'.procs, proc.Executed k P := by
  obtain ⟨proc, hproc, he⟩ := he
  obtain ⟨proc', hproc', hg⟩ := h.procs proc hproc
  exact ⟨proc', hproc', he.grow hg hP⟩

lemma earned (h : s.Grows s') : ∀ {status : TestStatus},
    s.Earned reaped k status → s'.Earned reaped k status
  | .PENDING, _ | .DISPATCHED, _ => trivial
  | .RUNNING, he => h.executed (fun _ _ _ => id) he
  | .PASSED, he => h.executed (fun _ _ hg => hg.exitCode 0) he
  | .FAILED, .inl ⟨proc, hproc, hf⟩ => by
    obtain ⟨proc', hproc', hg⟩ := h.procs proc hproc
    exact .inl ⟨proc', hproc', hg.fails k hf⟩
  | .FAILED, .inr hr => .inr hr

lemma backed (h : s.Grows s') (hb : Backed reaped s r) : Backed reaped s' r where
  pending := hb.pending
  placed := hb.placed
  sent host ht := by
    obtain ⟨bundle, hrec, hs⟩ := hb.sent host ht
    exact ⟨bundle, hrec, h.sent hs⟩
  earned := h.earned hb.earned
  uploaded url hu := h.executed (fun _ _ hg => hg.artifactUrl url) (hb.uploaded url hu)

end Sys.Grows

/-! ### Commits of a row -/

/-- A commit leaves a backed row when what it sets is backed. -/
lemma Backed.flush {status : TestStatus} {target artifact : Option String} {now : ℤ}
    (hb : Backed reaped s r) (hbefore : loaded.Before r) (hstatus : status ≠ .PENDING)
    (hplaced : status = .DISPATCHED ∨ status = .RUNNING → target ≠ none)
    (hsent : ∀ h, target = some h → ∃ bundle, r.Records bundle ∧ s.world.Sent bundle h)
    (hearned : s.Earned reaped r.testId status)
    (huploaded : ∀ url, artifact = some url →
      ∃ proc ∈ s.procs, proc.Executed r.testId fun t => t.artifactUrl = some url) :
    Backed reaped s (TestExecution.flush loaded (loaded.assign status target artifact) now r) := by
  have hafter : r.Before (loaded.flush (loaded.assign status target artifact) now r) :=
    .flush hstatus target artifact now
  constructor
  case pending =>
    intro hp
    have hne : (loaded.assign status target artifact).status ≠ loaded.status := by
      rw [hbefore.pending (hafter.pending hp)]
      exact hstatus
    rw [TestExecution.flush_status, writeBack_of_ne hne] at hp
    exact absurd hp hstatus
  case placed =>
    intro hstored hnone
    have hr := hafter.target hnone
    have htarget : target = none := by
      cases target with
      | none => rfl
      | some h =>
        rw [TestExecution.flush_targetHostId, hbefore.target hr] at hnone
        simp [TestExecution.assign, writeBack] at hnone
    rcases writeBack_eq_or loaded.status status r.status with heq | heq <;>
      rw [TestExecution.flush_status, TestExecution.assign, heq] at hstored
    · exact hb.placed hstored hr
    · exact hplaced hstored htarget
  case sent =>
    intro h hh
    rcases eq_some_of_writeBack hh with hh | hh
    · obtain ⟨bundle, hrec, hs⟩ := hb.sent h hh
      exact ⟨bundle, hafter.records hrec, hs⟩
    · obtain ⟨bundle, hrec, hs⟩ := hsent h hh
      exact ⟨bundle, hafter.records hrec, hs⟩
  case earned =>
    rw [TestExecution.flush_status, TestExecution.assign]
    rcases writeBack_eq_or loaded.status status r.status with heq | heq <;> rw [heq]
    · exact hb.earned
    · exact hearned
  case uploaded =>
    intro url hu
    rcases eq_some_of_writeBack hu with hu | hu
    · exact hb.uploaded url hu
    · exact huploaded url hu

/-- A reaper fails a row. -/
lemma Backed.fail {now : ℤ} (hb : Backed reaped s r) (he : reaped r.testId) :
    Backed reaped s { r with status := .FAILED, updatedAt := now } where
  pending h := by cases h
  placed h := by rcases h with h | h <;> cases h
  sent h hh := by
    obtain ⟨bundle, hrec, hs⟩ := hb.sent h hh
    exact ⟨bundle, ⟨hrec.testId, hrec.userId, hrec.runnerType, hrec.frameworkImage⟩, hs⟩
  earned := .inr he
  uploaded := hb.uploaded

/-- More tests may have been failed by reapers. -/
lemma Backed.mono (hb : Backed reaped s r) (h : ∀ k, reaped k → reaped' k) :
    Backed reaped' s r where
  pending := hb.pending
  placed := hb.placed
  sent := hb.sent
  earned := by
    have he := hb.earned
    generalize r.status = status at he
    cases status with
    | FAILED => exact he.imp_right (h _)
    | _ => exact he
  uploaded := hb.uploaded

lemma Backed.newExecution (now : ℤ) : Backed reaped s (newExecution bundle now) where
  pending _ := ⟨rfl, rfl⟩
  placed h := by rcases h with h | h <;> cases h
  sent _ hh := by cases hh
  earned := trivial
  uploaded _ hu := by cases hu

/-! ### The processes under way -/

def World.Recorded (w : World) (bundle : TestBundleRequest) : Prop :=
  ∃ r, w.execs.get? bundle.testId = some r ∧ r.Records bundle

/-- The session holds an earlier state of the row. -/
def World.Loaded (w : World) (testId : String) (loaded : TestExecution) : Prop :=
  ∃ r, w.execs.get? testId = some r ∧ loaded.Before r

/-- A submission that chose a host writes to the queue of that host, and names it only after it
sent the message. -/
def SubmitPc.Addressed (w : World) (bundle : TestBundleRequest) : SubmitPc → Prop
  | .reserve chosen queue | .send chosen queue => queueNameFor chosen.hostId = .ok queue
  | .close (some h) => w.Sent bundle h
  | _ => True

/-- The row that an execution is about to write, as it loaded it. -/
def TaskPc.holds : TaskPc → Option TestExecution
  | .runningCommit loaded | .verdictCommit loaded | .failedCommit loaded => some loaded
  | _ => none

/-- What a process is about to write is backed. -/
def Proc.Honest (w : World) : Proc → Prop
  | .submit bundle pc => (pc.inserted = true → w.Recorded bundle) ∧ pc.Addressed w bundle
  | .task t => w.Sent t.bundle t.host ∧ t.Ordered ∧
      ∀ loaded, t.pc.holds = some loaded → w.Loaded t.testId loaded
  | .sweep _ (.fail orphaned) => ∀ r ∈ orphaned, r.status.active = true ∧ r.targetHostId ≠ none
  | .reap hostId (.fail stuck) => ∀ r ∈ stuck, r.status = .RUNNING ∧ r.targetHostId = some hostId
  | .dead was => ∀ t, was.exec? = some t → w.Sent t.bundle t.host
  | _ => True

/-- Every execution, dead or alive, was sent. -/
lemma Proc.Honest.sent (h : proc.Honest w) (ht : proc.exec? = some t) :
    w.Sent t.bundle t.host := by
  cases proc with
  | task t₁ =>
    obtain rfl := Option.some.inj ht
    exact h.1
  | dead was => exact h t ht
  | _ => cases ht

/-- Every row is backed, every message is of a recorded bundle, and so are the processes. -/
structure Audited (reaped : String → Prop) (s : Sys) : Prop where
  rows : ∀ k r, s.world.execs.get? k = some r → Backed reaped s r
  messages : ∀ m ∈ s.world.queue ++ s.world.delivered, s.world.Recorded m.bundle
  procs : Pool.All s.procs fun _ proc => proc.Honest s.world

namespace Sys.Grows

lemma recorded (h : s.Grows s') (hr : s.world.Recorded bundle) : s'.world.Recorded bundle := by
  obtain ⟨r, hget, hrec⟩ := hr
  obtain ⟨r', hget', hafter⟩ := h.rows _ r hget
  exact ⟨r', hget', hafter.records hrec⟩

lemma stillLoaded (h : s.Grows s') (hr : s.world.Loaded k loaded) : s'.world.Loaded k loaded := by
  obtain ⟨r, hget, hbefore⟩ := hr
  obtain ⟨r', hget', hafter⟩ := h.rows _ r hget
  exact ⟨r', hget', hbefore.trans hafter⟩

lemma addressed {pc : SubmitPc} (h : s.Grows s') (ha : pc.Addressed s.world bundle) :
    pc.Addressed s'.world bundle := by
  cases pc with
  | reserve chosen queue | send chosen queue => exact ha
  | close chosen =>
    cases chosen with
    | none => trivial
    | some host => exact h.sent ha
  | _ => trivial

lemma honest (h : s.Grows s') (ha : proc.Honest s.world) : proc.Honest s'.world := by
  cases proc with
  | submit bundle pc => exact ⟨fun hi => h.recorded (ha.1 hi), h.addressed ha.2⟩
  | task t => exact ⟨h.sent ha.1, ha.2.1, fun loaded hl => h.stillLoaded (ha.2.2 loaded hl)⟩
  | sweep maxAge pc | reap hostId pc => cases pc <;> exact ha
  | dead was => exact fun t ht => h.sent (ha t ht)
  | _ => trivial

end Sys.Grows

/-! ### The step -/

namespace Audited

/-- One process moved: the rows and messages that are new have to be backed, and the process. -/
lemma set (hi : Audited reaped s) (hp : s.procs[p]? = some proc)
    (hg : s.Grows ⟨w', s.procs.set p proc'⟩)
    (hrows : ∀ k r, w'.execs.get? k = some r →
      s.world.execs.get? k = some r ∨ Backed reaped ⟨w', s.procs.set p proc'⟩ r)
    (hmessages : ∀ m ∈ w'.queue ++ w'.delivered,
      m ∈ s.world.queue ++ s.world.delivered ∨ w'.Recorded m.bundle)
    (hproc : proc'.Honest w') : Audited reaped ⟨w', s.procs.set p proc'⟩ where
  rows k r hr := (hrows k r hr).elim (fun hr => hg.backed (hi.rows k r hr)) id
  messages m hm := (hmessages m hm).elim (fun hm => hg.recorded (hi.messages m hm)) id
  procs := (Pool.all_set hp).mpr ⟨hproc, fun j other _ hj => hg.honest (hi.procs j other hj)⟩

/-- One process moved and left the executions and the messages alone. -/
lemma quiet (hi : Audited reaped s) (hp : s.procs[p]? = some proc) (he : w'.execs = s.world.execs)
    (hq : w'.queue = s.world.queue) (hd : w'.delivered = s.world.delivered)
    (hg : proc.Grows proc') (hproc : proc'.Honest s.world) :
    Audited reaped ⟨w', s.procs.set p proc'⟩ := by
  have hgrows : s.Grows ⟨w', s.procs.set p proc'⟩ :=
    .set hp (fun m hm => by rwa [hq, hd]) (.of_eq he) hg
  exact hi.set hp hgrows (fun k r hr => .inl (he ▸ hr)) (fun m hm => .inl (by rwa [hq, hd] at hm))
    (hgrows.honest hproc)

/-- Nothing but the surroundings and new processes. -/
lemma spawn (hi : Audited reaped s) (new : List Proc) (he : w'.execs = s.world.execs)
    (hm : ∀ m, m ∈ w'.queue ++ w'.delivered ↔ m ∈ s.world.queue ++ s.world.delivered)
    (hnew : ∀ proc ∈ new, proc.Honest w') : Audited reaped ⟨w', s.procs ++ new⟩ := by
  have hgrows : s.Grows ⟨w', s.procs ++ new⟩ := .spawn new (fun m => (hm m).mpr) (.of_eq he)
  refine ⟨fun k r hr => hgrows.backed (hi.rows k r (he ▸ hr)),
    fun m hmem => hgrows.recorded (hi.messages m ((hm m).mp hmem)), fun j proc hj => ?_⟩
  rcases List.mem_append.mp (List.mem_of_getElem? hj) with hold | hfresh
  · obtain ⟨i, hi'⟩ := List.mem_iff_getElem?.mp hold
    exact hgrows.honest (hi.procs i proc hi')
  · exact hnew proc hfresh

/-- The surroundings moved. -/
lemma still (hi : Audited reaped s) (he : w'.execs = s.world.execs) (hq : w'.queue = s.world.queue)
    (hd : w'.delivered = s.world.delivered) : Audited reaped ⟨w', s.procs⟩ := by
  have hm : ∀ m, m ∈ w'.queue ++ w'.delivered ↔ m ∈ s.world.queue ++ s.world.delivered :=
    fun m => by rw [hq, hd]
  simpa using hi.spawn [] he hm (by simp)

/-- A process commits the row of a test. -/
lemma commitRun (status : TestStatus) (target artifact : Option String) (hi : Audited reaped s)
    (hp : s.procs[p]? = some proc) (hload : s.world.Loaded k loaded) (hg : proc.Grows proc')
    (hw' : w' = s.world.commitRun p k loaded (loaded.assign status target artifact))
    (hstatus : status ≠ .PENDING)
    (hplaced : status = .DISPATCHED ∨ status = .RUNNING → target ≠ none)
    (hsent : ∀ h, target = some h →
      ∃ bundle, bundle.testId = k ∧ s.world.Recorded bundle ∧ s.world.Sent bundle h)
    (hearned : Sys.Earned ⟨w', s.procs.set p proc'⟩ reaped k status)
    (huploaded : ∀ url, artifact = some url → ∃ other ∈ s.procs.set p proc',
      other.Executed k fun t => t.artifactUrl = some url)
    (hproc : proc'.Honest s.world) : Audited reaped ⟨w', s.procs.set p proc'⟩ := by
  have hgrows : s.Grows ⟨w', s.procs.set p proc'⟩ := by
    refine .set hp ?_ ?_ hg
    · rw [hw']
      exact fun _ => id
    · rw [hw']
      exact .commitRun hstatus _ _ _
  refine hi.set hp hgrows (fun k' r' hr' => ?_) (fun m hm => .inl (by rwa [hw'] at hm))
    (hgrows.honest hproc)
  rw [hw', World.get?_commitRun] at hr'
  split_ifs at hr' with hk
  · subst hk
    obtain ⟨r, hr, rfl⟩ := Option.map_eq_some_iff.mp hr'
    obtain ⟨r₁, hr₁, hbefore⟩ := hload
    obtain rfl := Option.some.inj (hr.symm.trans hr₁)
    have hid := Table.key_of_get? hr
    refine .inr ((hgrows.backed (hi.rows _ r hr)).flush hbefore hstatus hplaced (fun h hh => ?_)
      (hid ▸ hearned) (hid ▸ huploaded))
    obtain ⟨bundle, hb, ⟨r₂, hr₂, hrec⟩, hs⟩ := hsent h hh
    rw [hb, hr, Option.some.injEq] at hr₂
    exact ⟨bundle, hr₂ ▸ hrec, hgrows.sent hs⟩
  · exact .inl hr'

/-- A submission moved. -/
lemma submit {pc pc' : SubmitPc} (hi : Audited reaped s)
    (hp : s.procs[p]? = some (.submit bundle pc))
    (h : SubmitRule p bundle s.world pc o w' pc') :
    Audited reaped ⟨w', s.procs.set p (.submit bundle pc')⟩ := by
  obtain ⟨hrec, haddr⟩ := hi.procs p _ hp
  have hgoes : (pc = .returned none → pc' = .returned none) →
      (Proc.submit bundle pc).Grows (.submit bundle pc') :=
    fun hret => .of_exec_none rfl fun _ hf => ⟨hf.1, hret hf.2⟩
  cases h with
  | insert ht =>
    -- The row is created `PENDING`, which nothing has to back.
    obtain ⟨hnone, hget⟩ := Table.get?_insert? ht
    have hrecorded : World.Recorded { s.world with execs := _ } bundle :=
      ⟨newExecution bundle s.world.clock, (hget _).trans (if_pos rfl), ⟨rfl, rfl, rfl, rfl⟩⟩
    refine hi.set hp (.set hp (fun _ => id) (.insert ht) (hgoes (by simp))) (fun k r hr => ?_)
      (fun m hm => .inl hm) ⟨fun _ => hrecorded, trivial⟩
    rw [hget] at hr
    split_ifs at hr with hk
    · obtain rfl := Option.some.inj hr
      exact .inr (.newExecution _)
    · exact .inl hr
  | @send url chosen queue =>
    -- The message is on the queue before the row says so.
    have hm : ∀ m ∈ s.world.queue ++ s.world.delivered,
        m ∈ (s.world.queue ++ [⟨queue, bundle⟩]) ++ s.world.delivered := by
      simp only [List.mem_append]
      tauto
    have hsent : World.Sent { s.world with queue := s.world.queue ++ [⟨queue, bundle⟩] } bundle
        chosen.hostId :=
      ⟨⟨queue, bundle⟩, by simp, rfl, by simp [consumes, show queueNameFor _ = _ from haddr]⟩
    refine hi.set hp (.set hp hm (.of_eq rfl) (hgoes (by simp))) (fun k r hr => .inl hr)
      (fun m hm => ?_) ⟨fun _ => hrec rfl, hsent⟩
    simp only [List.mem_append, List.mem_singleton] at hm
    rcases hm with (hm | rfl) | hm
    · exact .inl (List.mem_append_left _ hm)
    · exact .inr (hrec rfl)
    · exact .inl (List.mem_append_right _ hm)
  | @close url chosen =>
    -- The closing commit: the status is backed by the message, or by the empty choice.
    obtain ⟨r, hr, hrecords⟩ := hrec rfl
    have hload : s.world.Loaded bundle.testId (newExecution bundle s.world.clock) :=
      ⟨r, hr, .newExecution hrecords _⟩
    have hmem : Proc.submit bundle (.returned chosen) ∈
        s.procs.set p (.submit bundle (.returned chosen)) :=
      List.mem_set (List.getElem?_eq_some_iff.mp hp).1 _
    cases chosen with
    | none =>
      exact hi.commitRun .FAILED none none hp hload
        (hgoes (by simp)) rfl (by simp) (by simp) (by simp) (.inl ⟨_, hmem, rfl, rfl⟩) (by simp)
        ⟨fun _ => hrec rfl, trivial⟩
    | some h =>
      refine hi.commitRun .DISPATCHED (some h) none hp hload
        (hgoes (by simp)) rfl (by simp) (by simp) (fun h' hh => ?_) trivial (by simp)
        ⟨fun _ => hrec rfl, trivial⟩
      obtain rfl := Option.some.inj hh
      exact ⟨bundle, rfl, hrec rfl, haddr⟩
  | reserve hw =>
    obtain ⟨-, rfl⟩ := World.commitHost_eq_some hw
    exact hi.quiet hp rfl rfl rfl (hgoes (by simp)) ⟨fun _ => hrec rfl, haddr⟩
  | undo hpos hw =>
    obtain ⟨-, rfl⟩ := World.commitHost_eq_some hw
    exact hi.quiet hp rfl rfl rfl (hgoes (by simp)) ⟨fun _ => hrec rfl, trivial⟩
  | select hfree hc =>
    exact hi.quiet hp rfl rfl rfl (hgoes (by simp)) ⟨fun _ => hrec rfl, (chooseHost_spec hc).2.2.1⟩
  | sendFails => exact hi.quiet hp rfl rfl rfl (hgoes (by simp)) ⟨fun _ => hrec rfl, trivial⟩
  | insertFails | closeFails =>
    exact hi.quiet hp rfl rfl rfl (hgoes (by simp)) ⟨fun h => absurd h Bool.false_ne_true, trivial⟩
  | _ => exact hi.quiet hp rfl rfl rfl (hgoes (by simp)) ⟨fun _ => hrec rfl, trivial⟩

/-- The bundle of an execution is recorded. -/
lemma recorded_of_sent (hi : Audited reaped s) (h : s.world.Sent bundle host) :
    s.world.Recorded bundle := by
  obtain ⟨m, hm, rfl, -⟩ := h
  exact hi.messages m hm

/-- The verdict of an execution is earned by its exit code. -/
lemma earned_final (hmem : Proc.task t' ∈ s.procs) (hk : t'.testId = k)
    (hexit : t'.exitCode = t.exitCode) (hpc : t'.pc.writes = false)
    (hresult : t'.result = some t.final) : s.Earned reaped k t.final := by
  by_cases hzero : t.exitCode = some 0
  · have hpassed : t.final = .PASSED := if_pos hzero
    rw [hpassed]
    exact ⟨_, hmem, t', rfl, hk, hexit.trans hzero⟩
  · have hfailed : t.final = .FAILED := if_neg hzero
    rw [hfailed]
    exact .inl ⟨_, hmem, hk, hpc, by simp [hresult, hfailed]⟩

/-- An execution moved. -/
lemma task (hi : Audited reaped s) (hp : s.procs[p]? = some (.task t))
    (hs : taskStep p s.world t o = some (w', t')) :
    Audited reaped ⟨w', s.procs.set p (.task t')⟩ := by
  obtain ⟨hsent, hord, hload⟩ := hi.procs p _ hp
  have hgrow : t.Grows t' := grows_of_taskStep hs hord
  have hg : (Proc.task t).Grows (.task t') := .task hgrow
  have hr := TaskRule.of_taskStep hs
  have hord' : t'.Ordered := hr.ordered hord
  have hmem : Proc.task t' ∈ s.procs.set p (.task t') :=
    List.mem_set (List.getElem?_eq_some_iff.mp hp).1 _
  have hnothing : t'.pc.holds = none → (Proc.task t').Honest s.world := fun hnone =>
    ⟨by rw [hgrow.bundle, hgrow.host]; exact hsent, hord', fun l hl => by simp [hnone] at hl⟩
  cases hr with
  | runningRead hpc hrow | verdictRead hpc hrow | failedRead hpc hrow =>
    refine hi.quiet hp rfl rfl rfl hg ⟨hsent, hord', fun l hl => ?_⟩
    obtain rfl := Option.some.inj hl
    exact ⟨_, hrow, .refl _⟩
  | running hpc =>
    refine hi.commitRun _ _ _ hp (hload _ (by rw [hpc]; rfl)) hg rfl (by simp) (by simp)
      (fun h hh => ?_) ⟨_, hmem, _, rfl, rfl, trivial⟩ (by simp) (hnothing rfl)
    obtain rfl := Option.some.inj hh
    exact ⟨t.bundle, rfl, hi.recorded_of_sent hsent, hsent⟩
  | verdict hpc =>
    refine hi.commitRun _ _ _ hp (hload _ (by rw [hpc]; rfl)) hg rfl ?_ ?_ (by simp)
      (earned_final hmem rfl rfl rfl rfl) (fun url hu => ⟨_, hmem, _, rfl, rfl, hu⟩) (hnothing rfl)
    · rcases t.final_eq with hf | hf <;> simp [hf]
    · rcases t.final_eq with hf | hf <;> simp [hf]
  | failed hpc =>
    have hnone : t.result = none := hord.result (by simp [hpc, TaskPc.writes])
    exact hi.commitRun _ _ _ hp (hload _ (by rw [hpc]; rfl)) hg rfl (by simp) (by simp) (by simp)
      (.inl ⟨_, hmem, rfl, rfl, by simp [hnone]⟩) (by simp) (hnothing rfl)
  | decrement hpc hw =>
    obtain ⟨-, rfl⟩ := World.commitHost_eq_some hw
    exact hi.quiet hp rfl rfl rfl hg (hnothing rfl)
  | _ => exact hi.quiet hp rfl rfl rfl hg (hnothing rfl)

/-- A reaper failed the runs it loaded. -/
lemma reap (hi : Audited reaped s) (hp : s.procs[p]? = some proc) (testIds : List String)
    (hreaped : ∀ k ∈ testIds, reaped k) (hg : proc.Grows proc') (hproc : proc'.Honest s.world) :
    Audited reaped ⟨s.world.commitFailed testIds, s.procs.set p proc'⟩ := by
  have hgrows : s.Grows ⟨s.world.commitFailed testIds, s.procs.set p proc'⟩ :=
    .set hp (fun _ => id) (.commitFailed testIds) hg
  refine hi.set hp hgrows (fun k r' hr' => ?_) (fun m hm => .inl hm) (hgrows.honest hproc)
  rw [World.commitFailed, get?_failRuns] at hr'
  split_ifs at hr' with hk
  · obtain ⟨r, hr, rfl⟩ := Option.map_eq_some_iff.mp hr'
    have hid : r.testId = k := Table.key_of_get? hr
    exact .inr ((hgrows.backed (hi.rows k r hr)).fail (hid ▸ hreaped k hk))
  · exact .inl hr'

/-- More tests may have been failed by reapers. -/
lemma mono (hi : Audited reaped s) (h : ∀ k, reaped k → reaped' k) : Audited reaped' s :=
  ⟨fun k r hr => (hi.rows k r hr).mono h, hi.messages, hi.procs⟩

end Audited

lemma taskStep_of_step (hp : s.procs[p]? = some (.task t)) (h : step s (.advance p o) = some s') :
    ∃ w' t', taskStep p s.world t o = some (w', t') ∧ s' = ⟨w', s.procs.set p (.task t')⟩ := by
  obtain ⟨proc, hproc, h⟩ := Option.bind_eq_some_iff.mp h
  obtain rfl : proc = .task t := Option.some.inj (hproc.symm.trans hp)
  obtain ⟨⟨w', proc'⟩, hs, rfl⟩ := Option.map_eq_some_iff.mp h
  obtain ⟨⟨w'', t'⟩, ht, heq⟩ := Option.map_eq_some_iff.mp hs
  obtain ⟨rfl, rfl⟩ := Prod.mk.inj heq
  exact ⟨w'', t', ht, rfl⟩

/-- A message that is handed out is not lost. -/
lemma World.mem_handOut {i : ℕ} {m m' : Message} (hm : w.queue[i]? = some m) :
    m' ∈ (w.handOut i m).queue ++ (w.handOut i m).delivered ↔ m' ∈ w.queue ++ w.delivered := by
  obtain ⟨hlt, rfl⟩ := List.getElem?_eq_some_iff.mp hm
  have hperm := (List.getElem_cons_eraseIdx_perm hlt).mem_iff (a := m')
  simp only [World.handOut, List.mem_append, List.mem_cons, List.not_mem_nil, or_false] at hperm ⊢
  tauto

/-- Every step whatsoever keeps the audit trail, when the tests that it fails as a reaper are
counted among those. -/
theorem audited_step {a : Act} (hi : Audited reaped s) (hreaped : ∀ k, Reaps k s a → reaped k)
    (h : step s a = some s') : Audited reaped s' := by
  cases SysRule.of_step h with
  | @launch l =>
    -- A new process has done nothing yet.
    refine hi.spawn [l.proc] rfl (fun _ => Iff.rfl) fun proc hproc => ?_
    obtain rfl := List.mem_singleton.mp hproc
    cases l with
    | submit bundle => exact ⟨fun h => absurd h Bool.false_ne_true, trivial⟩
    | _ => trivial
  | @deliver i host m hm hq =>
    -- An execution begins with a message of a recorded bundle.
    refine hi.spawn _ rfl (fun _ => World.mem_handOut hm) fun proc hproc => ?_
    obtain rfl := List.mem_singleton.mp hproc
    have hold := List.mem_append_left s.world.delivered (List.mem_of_getElem? hm)
    exact ⟨⟨m, (World.mem_handOut hm).mpr hold, rfl, hq⟩, .init host m.bundle,
      fun l hl => by cases hl⟩
  | @redeliver i host m hm hq =>
    refine hi.spawn _ rfl (fun _ => Iff.rfl) fun proc hproc => ?_
    obtain rfl := List.mem_singleton.mp hproc
    exact ⟨⟨m, List.mem_append_right _ (List.mem_of_getElem? hm), rfl, hq⟩,
      .init host m.bundle, fun l hl => by cases hl⟩
  | submit hp hr => exact hi.submit hp hr
  | task hp hr =>
    obtain ⟨w'', t'', hs, heq⟩ := taskStep_of_step hp h
    rw [heq]
    exact hi.task hp hs
  | @heartbeat p o hostId cpu pc w' pc' hp hr =>
    -- Heartbeats and edits write hosts only.
    have hg : (Proc.heartbeat hostId cpu pc).Grows (.heartbeat hostId cpu pc') :=
      .of_exec_none rfl fun _ hf => hf.elim
    cases hr with
    | update hw =>
      obtain ⟨-, rfl⟩ := World.commitHost_eq_some hw
      exact hi.quiet hp rfl rfl rfl hg trivial
    | register hw =>
      obtain ⟨t, -, rfl⟩ := Option.map_eq_some_iff.mp hw
      exact hi.quiet hp rfl rfl rfl hg trivial
    | _ => exact hi.quiet hp rfl rfl rfl hg trivial
  | @update p o form pc w' pc' hp hr =>
    have hg : (Proc.update form pc).Grows (.update form pc') :=
      .of_exec_none rfl fun _ hf => hf.elim
    cases hr with
    | commit hw =>
      obtain ⟨-, rfl⟩ := World.commitHost_eq_some hw
      exact hi.quiet hp rfl rfl rfl hg trivial
    | _ => exact hi.quiet hp rfl rfl rfl hg trivial
  | @sweep p o maxAge pc w' pc' hp hr =>
    -- A reaper writes the runs that it has read.
    have hg : (Proc.sweep maxAge pc).Grows (.sweep maxAge pc') :=
      .of_exec_none rfl fun _ hf => hf.elim
    cases hr with
    | @fail url orphaned =>
      refine hi.reap hp _ (fun k hk => hreaped k ⟨_, hp, ?_⟩) hg trivial
      obtain ⟨r, hr, rfl⟩ := List.mem_map.mp hk
      exact ⟨r, hr, rfl, hi.procs _ _ hp r hr⟩
    | select =>
      refine hi.quiet hp rfl rfl rfl hg fun r hr => ?_
      obtain ⟨-, ⟨host, -, hhost⟩, hactive⟩ := mem_orphanedRuns.mp hr
      exact ⟨hactive, by simp [hhost]⟩
    | _ => exact hi.quiet hp rfl rfl rfl hg trivial
  | @reap p o hostId pc w' pc' hp hr =>
    have hg : (Proc.reap hostId pc).Grows (.reap hostId pc') :=
      .of_exec_none rfl fun _ hf => hf.elim
    cases hr with
    | @fail url stuck =>
      refine hi.reap hp _ (fun k hk => hreaped k ⟨_, hp, ?_⟩) hg trivial
      obtain ⟨r, hr, rfl⟩ := List.mem_map.mp hk
      exact ⟨r, hr, rfl, hi.procs _ _ hp r hr⟩
    | read =>
      refine hi.quiet hp rfl rfl rfl hg fun r hr => ?_
      obtain ⟨-, hhost, hrunning, -⟩ := mem_stuckRuns.mp hr
      exact ⟨hrunning, hhost⟩
    | _ => exact hi.quiet hp rfl rfl rfl hg trivial
  | kill hp => exact hi.quiet hp rfl rfl rfl (.kill _) fun t ht => (hi.procs _ _ hp).sent ht
  | exit hc hrun => exact hi.still rfl rfl rfl
  | tick => exact hi.still rfl rfl rfl

/-- A deployment that had no request yet, over any inventory. -/
structure Sys.Unused (s : Sys) : Prop where
  procs : s.procs = []
  execs : s.world.execs.rows = []
  queue : s.world.queue = []
  delivered : s.world.delivered = []

lemma Sys.Unused.single (host : WorkerHost) : (Sys.single host).Unused := ⟨rfl, rfl, rfl, rfl⟩

lemma Audited.of_unused (h : s.Unused) : Audited reaped s where
  rows k r hr := by simp [Table.get?, h.execs] at hr
  messages m hm := by simp [h.queue, h.delivered] at hm
  procs j proc hj := by simp [h.procs] at hj

/-- The audit trail can be trusted. In every state of every run, each row is backed by what
happened, and each execution of its test was started, on a host that the bundle was sent to, for
the bundle of the recorded user with the recorded runner and image. -/
theorem audit_trail {s₀ : Sys} {as : List Act} (h₀ : s₀.Unused) (h : run step s₀ as = some s)
    (hr : s.world.execs.get? k = some r) :
    Backed (ReapedIn s₀ as) s r ∧
    ∀ proc ∈ s.procs, ∀ t, proc.exec? = some t → t.testId = k →
      r.Records t.bundle ∧ s.world.Sent t.bundle t.host := by
  have hi : Audited (ReapedIn s₀ as) s := by
    refine invariant_of_run (I := fun as s => Audited (ReapedIn s₀ as) s) h (.of_unused h₀)
      fun as t a u hrun hi hs => ?_
    exact audited_step (hi.mono fun _ hk => hk.concat a) (fun _ hk => .last hrun hk) hs
  refine ⟨hi.rows k r hr, fun proc hproc t ht hk => ?_⟩
  obtain ⟨j, hj⟩ := List.mem_iff_getElem?.mp hproc
  have hsent := (hi.procs j proc hj).sent ht
  obtain ⟨r', hr', hrec⟩ := hi.recorded_of_sent hsent
  rw [show (t.bundle.testId : String) = k from hk, hr, Option.some.injEq] at hr'
  exact ⟨hr' ▸ hrec, hsent⟩

/-- A worker that is killed between its verdict and its cleanup. -/
def killedAfterVerdict : List Act := orderlyRun ++ [.kill 1]

/-- There `PASSED` still stands on an execution that exited with 0. -/
theorem killedAfterVerdict_backed : ∃ s : Sys, ∃ r : TestExecution, r.status = .PASSED ∧
    ∃ proc ∈ s.procs, proc.Executed "t" fun t => t.exitCode = some 0 := by
  have hp : ((run step (.single idleHost) killedAfterVerdict).bind fun s =>
      s.world.execs.get? "t").any (fun r => r.status = .PASSED) = true := by decide +kernel
  obtain ⟨r, hr, hpassed⟩ := (Option.any_eq_true _ _).mp hp
  obtain ⟨s, hs, hr⟩ := Option.bind_eq_some_iff.mp hr
  have hearned := (audit_trail (.single _) hs hr).1.earned
  rw [of_decide_eq_true hpassed, Table.key_of_get? hr] at hearned
  exact ⟨s, r, of_decide_eq_true hpassed, hearned⟩

end TestOrch
