import TestOrch.System.Step

/-!
# Terminal statuses

Six places write the status of a run, none of them looking at the stored value first. A run whose
status is terminal stays as it is as long as no other process still has a status write ahead of it
when a terminal status is stored, and no message of a finished run is consumed.
-/

namespace TestOrch

open Transition

/-- The submission has inserted its row and will still write the status. -/
def SubmitPc.writes : SubmitPc → Bool
  | .insert | .returned _ | .failed => false
  | _ => true

/-- The execution may still write the status. -/
def TaskPc.writes : TaskPc → Bool
  | .setup | .runningRead | .runningCommit _ | .prepare | .start | .stream | .wait | .collect
  | .verdictRead | .verdictCommit _ | .failedRead | .failedCommit _ => true
  | .release | .cleanup | .decrementRead | .decrementCommit _ | .close | .ended | .aborted
  | .unreleased => false

/-- The process has a write of the status of the test ahead of it. -/
def Proc.writes (testId : String) : Proc → Bool
  | .submit bundle pc => bundle.testId = testId && pc.writes
  | .task t => t.testId = testId && t.pc.writes
  | .sweep _ (.fail orphaned) => testId ∈ orphaned.map TestExecution.testId
  | .reap _ (.fail stuck) => testId ∈ stuck.map TestExecution.testId
  | _ => false

/-- The runs for which the next commit of the process stores a terminal status. -/
def Proc.settles : Proc → List String
  | .submit bundle (.close none) => [bundle.testId]
  | .task ⟨_, bundle, _, _, _, _, .verdictCommit _⟩ => [bundle.testId]
  | .task ⟨_, bundle, _, _, _, _, .failedCommit _⟩ => [bundle.testId]
  | .sweep _ (.fail orphaned) => orphaned.map TestExecution.testId
  | .reap _ (.fail stuck) => stuck.map TestExecution.testId
  | _ => []

/-- The stored status of the test is `PASSED`, `FAILED` or `CANCELLED`. -/
def World.Settled (w : World) (testId : String) : Prop :=
  ∃ status, w.status testId = some status ∧ status.terminal = true

instance (w : World) (testId : String) : Decidable (w.Settled testId) :=
  decidable_of_iff ((w.status testId).any TestStatus.terminal) (Option.any_eq_true _ _)

/-- The condition under which terminal statuses stay: a terminal status is stored only when no other
process has a status write of the same run ahead of it, and no message of a run that already has a
terminal status is consumed. -/
def LastWriter (s : Sys) : Act → Prop
  | .advance p o => o ≠ .raises → ∀ proc ∈ s.procs[p]?, ∀ testId ∈ proc.settles,
      Pool.All s.procs fun q other => q ≠ p → other.writes testId = false
  | .deliver i _ => ∀ m ∈ s.world.queue[i]?, ¬ s.world.Settled m.bundle.testId
  | .redeliver i _ => ∀ m ∈ s.world.delivered[i]?, ¬ s.world.Settled m.bundle.testId
  | _ => True

instance (s : Sys) : ∀ a, Decidable (LastWriter s a)
  | .advance p o => inferInstanceAs (Decidable (o ≠ .raises → ∀ proc ∈ s.procs[p]?,
      ∀ testId ∈ proc.settles, Pool.All s.procs fun q other => q ≠ p → other.writes testId = false))
  | .deliver i _ =>
    inferInstanceAs (Decidable (∀ m ∈ s.world.queue[i]?, ¬ s.world.Settled m.bundle.testId))
  | .redeliver i _ =>
    inferInstanceAs (Decidable (∀ m ∈ s.world.delivered[i]?, ¬ s.world.Settled m.bundle.testId))
  | .launch _ | .kill _ | .exit .. | .tick _ => inferInstanceAs (Decidable True)

/-- What a step of one process does to the status of a run. -/
structure StatusStep (testId : String) (w : World) (proc : Proc) (o : Outcome) (w' : World)
    (proc' : Proc) : Prop where
  /-- Only a process with a write ahead of it changes a status that is stored. -/
  changes : w.status testId = none ∨ proc.writes testId = true ∨ w'.status testId = w.status testId
  /-- A process gets a write ahead of it only when the status is not terminal. -/
  writes : proc'.writes testId = true → proc.writes testId = true ∨ ¬ w'.Settled testId
  /-- A terminal status comes from a commit that stores one, and is the last write. -/
  settles : w'.Settled testId → w.Settled testId ∨
    o ≠ .raises ∧ testId ∈ proc.settles ∧ proc'.writes testId = false

variable {testId : String} {p : ℕ} {w w' : World} {proc proc' : Proc} {o : Outcome}
  {url : Option String}

lemma World.settled_congr (h : w'.status testId = w.status testId) :
    w'.Settled testId ↔ w.Settled testId := by
  rw [World.Settled, h, World.Settled]

lemma World.not_settled_of_status {status : TestStatus} (h : w.status testId = some status)
    (hs : status.terminal = false) : ¬ w.Settled testId := by
  rintro ⟨status', hs', hterm⟩
  rw [h, Option.some.injEq] at hs'
  simp [← hs', hs] at hterm

/-- A step that leaves the stored statuses alone and takes on no write. -/
lemma StatusStep.of_eq (hst : w'.status testId = w.status testId)
    (hw : proc'.writes testId = true → proc.writes testId = true) :
    StatusStep testId w proc o w' proc' where
  changes := .inr (.inr hst)
  writes h := .inl (hw h)
  settles h := .inl ((World.settled_congr hst).mp h)

/-- A step that stores the status `new` for one run, whatever was stored. -/
lemma StatusStep.of_write (k : String) (new : TestStatus)
    (hst : w'.status testId = if testId = k then (w.status testId).map fun _ => new
      else w.status testId)
    (hw : proc.writes k = true) (hw' : ∀ t, proc'.writes t = false)
    (hset : new.terminal = true → k ∈ proc.settles) :
    StatusStep testId w proc (.ok url) w' proc' := by
  by_cases hk : testId = k
  · subst hk
    rw [if_pos rfl] at hst
    refine ⟨.inr (.inl hw), fun h => by simp [hw'] at h, ?_⟩
    rintro ⟨status, hs, hterm⟩
    rw [hst, Option.map_eq_some_iff] at hs
    obtain ⟨old, -, rfl⟩ := hs
    exact .inr ⟨by simp, hset hterm, hw' _⟩
  · rw [if_neg hk] at hst
    exact .of_eq hst fun h => by simp [hw'] at h

lemma StatusStep.submit {bundle : TestBundleRequest} {pc pc' : SubmitPc}
    (h : SubmitRule p bundle w pc o w' pc') :
    StatusStep testId w (.submit bundle pc) o w' (.submit bundle pc') := by
  cases h with
  | insert ht =>
    have hst := World.status_insert? ht testId
    by_cases hk : testId = bundle.testId.val
    · have hnone : w.status testId = none := by
        have hfree := (Table.get?_insert? ht).1
        rw [newExecution_testId, ← hk] at hfree
        rw [World.status, hfree]
        rfl
      rw [newExecution_testId, if_pos hk, newExecution_status] at hst
      have hpending := World.not_settled_of_status hst rfl
      exact ⟨.inl hnone, fun _ => .inr hpending, fun h => absurd h hpending⟩
    · rw [newExecution_testId, if_neg hk] at hst
      exact .of_eq hst (by simp [Proc.writes, SubmitPc.writes, Ne.symm hk])
  | @close _ chosen =>
    refine .of_write bundle.testId (closedStatus chosen) ?_
      (by simp [Proc.writes, SubmitPc.writes]) (by simp [Proc.writes, SubmitPc.writes]) ?_
    · simp only [World.status_commitRun, newExecution_status]
      congr 2
      funext stored
      exact writeBack_closed ..
    · cases chosen <;> simp [closedStatus, TestStatus.terminal, Proc.settles]
  | reserve hw =>
    exact .of_eq (World.status_of_execs (World.get?_of_commitHost hw).1 _)
      (by simp [Proc.writes, SubmitPc.writes])
  | undo hpos hw =>
    exact .of_eq (World.status_of_execs (World.get?_of_commitHost hw).1 _)
      (by simp [Proc.writes, SubmitPc.writes])
  | _ => exact .of_eq rfl (by simp [Proc.writes, SubmitPc.writes])

/-- A commit of `_set_status` by a process that may still write afterwards: it stores a status that
is not terminal, or the one that is stored already. -/
lemma StatusStep.of_commitRun {k : String} {loaded new : TestExecution}
    (hw : proc.writes k = true)
    (hw' : ∀ t, proc'.writes t = true → t = k)
    (hset : new.status.terminal = true → k ∈ proc.settles ∧ proc'.writes k = false) :
    StatusStep testId w proc (.ok url) (w.commitRun p k loaded new) proc' := by
  by_cases hk : testId = k
  · subst hk
    refine ⟨.inr (.inl hw), fun _ => .inl hw, ?_⟩
    rintro ⟨status, hs, hterm⟩
    rw [World.status_commitRun, if_pos rfl, Option.map_eq_some_iff] at hs
    obtain ⟨stored, hstored, rfl⟩ := hs
    by_cases heq : new.status = loaded.status
    · rw [heq, writeBack_unchanged] at hterm
      exact .inl ⟨stored, hstored, hterm⟩
    · rw [writeBack_of_ne heq] at hterm
      exact .inr ⟨by simp, hset hterm⟩
  · refine .of_eq (by simp [hk]) fun h => absurd (hw' _ h) hk

lemma StatusStep.of_task {t t' : Task} (hst : w'.status testId = w.status testId)
    (hid : t'.testId = t.testId) (hw : t'.pc.writes = true → t.pc.writes = true) :
    StatusStep testId w (.task t) o w' (.task t') :=
  .of_eq hst <| by
    simp only [Proc.writes, hid, Bool.and_eq_true]
    intro h
    exact ⟨h.1, hw h.2⟩

lemma TaskPc.writes_of_inTry {pc : TaskPc} (h : pc.inTry = true) : pc.writes = true := by
  cases pc <;> simp_all [inTry, writes]

lemma StatusStep.task {t t' : Task} (h : TaskRule p w t o w' t') :
    StatusStep testId w (.task t) o w' (.task t') := by
  cases h with
  | running hpc =>
    exact .of_commitRun (by simp [Proc.writes, TaskPc.writes, hpc, Task.testId])
      (by simp [Proc.writes, TaskPc.writes, Task.testId, eq_comm])
      (by simp [TestExecution.assign, TestStatus.terminal])
  | verdict hpc =>
    exact .of_commitRun (by simp [Proc.writes, TaskPc.writes, hpc])
      (by simp [Proc.writes, TaskPc.writes]) fun _ => by
        obtain ⟨host, bundle, started, exitCode, url, result, pc⟩ := t
        obtain rfl : pc = .verdictCommit _ := hpc
        simp [Proc.settles, Proc.writes, TaskPc.writes]
  | failed hpc =>
    exact .of_commitRun (by simp [Proc.writes, TaskPc.writes, hpc])
      (by simp [Proc.writes, TaskPc.writes]) fun _ => by
        obtain ⟨host, bundle, started, exitCode, url, result, pc⟩ := t
        obtain rfl : pc = .failedCommit _ := hpc
        simp [Proc.settles, Proc.writes, TaskPc.writes]
  | decrement hpc hw =>
    exact .of_task (World.status_of_execs (World.get?_of_commitHost hw).1 _) rfl
      (by simp [TaskPc.writes])
  | abort hpc => exact .of_task rfl rfl (by simp [TaskPc.writes])
  | crash hpc => exact .of_task rfl rfl fun _ => TaskPc.writes_of_inTry hpc
  | failedFails hpc => exact .of_task rfl rfl (by simp [TaskPc.writes])
  | leave hpc => exact .of_task rfl rfl (by simp [TaskPc.writes])
  | _ hpc => exact .of_task rfl rfl (by simp [TaskPc.writes, hpc])

/-- The heartbeat and the form of a host do not touch the runs. -/
lemma StatusStep.heartbeat {hostId : String} {cpu : ℚ} {pc pc' : HeartbeatPc}
    (h : HeartbeatRule p hostId cpu w pc o w' pc') :
    StatusStep testId w (.heartbeat hostId cpu pc) o w' (.heartbeat hostId cpu pc') := by
  cases h with
  | update hw =>
    exact .of_eq (World.status_of_execs (World.get?_of_commitHost hw).1 _) (by simp [Proc.writes])
  | register hw =>
    exact .of_eq (World.status_of_execs (World.get?_of_insertHost hw).1 _) (by simp [Proc.writes])
  | _ => exact .of_eq rfl (by simp [Proc.writes])

lemma StatusStep.update {form : HostForm} {pc pc' : UpdatePc}
    (h : UpdateRule p form w pc o w' pc') :
    StatusStep testId w (.update form pc) o w' (.update form pc') := by
  cases h with
  | commit hw =>
    exact .of_eq (World.status_of_execs (World.get?_of_commitHost hw).1 _) (by simp [Proc.writes])
  | _ => exact .of_eq rfl (by simp [Proc.writes])

/-- A run that was read with an active status has no terminal status. -/
lemma World.not_settled_of_mem {r : TestExecution} (hr : r ∈ w.execs.rows)
    (hs : r.status.terminal = false) : ¬ w.Settled r.testId :=
  World.not_settled_of_status (by rw [World.status, Table.get?_of_mem hr]; rfl) hs

lemma StatusStep.failing {runs : List TestExecution} (hw' : ∀ t, proc'.writes t = false)
    (hw : ∀ t, proc.writes t = decide (t ∈ runs.map TestExecution.testId))
    (hset : proc.settles = runs.map TestExecution.testId) :
    StatusStep testId w proc (.ok url)
      (w.commitFailed (runs.map TestExecution.testId)) proc' := by
  by_cases hk : testId ∈ runs.map TestExecution.testId
  · exact ⟨.inr (.inl (by simp [hw, hk])), fun h => by simp [hw'] at h,
      fun _ => .inr ⟨by simp, hset ▸ hk, hw' _⟩⟩
  · exact .of_eq (by simp [World.status_commitFailed, hk]) fun h => by simp [hw'] at h

lemma StatusStep.sweep {maxAge : ℤ} {pc pc' : SweepPc} (h : SweepRule p maxAge w pc o w' pc') :
    StatusStep testId w (.sweep maxAge pc) o w' (.sweep maxAge pc') := by
  cases h with
  | select =>
    refine ⟨.inr (.inr rfl), fun hw => .inr ?_, fun hs => .inl hs⟩
    obtain ⟨r, hr, rfl⟩ : ∃ r ∈ orphanedRuns w.execs _, r.testId = testId := by
      simpa [Proc.writes] using hw
    obtain ⟨hmem, -, hactive⟩ := mem_orphanedRuns.mp hr
    exact World.not_settled_of_mem (w := w) hmem (TestStatus.not_terminal_of_active hactive)
  | fail => exact .failing (fun _ => rfl) (fun _ => rfl) rfl
  | _ => exact .of_eq rfl (by simp [Proc.writes])

lemma StatusStep.reap {hostId : String} {pc pc' : ReapPc} (h : ReapRule hostId w pc o w' pc') :
    StatusStep testId w (.reap hostId pc) o w' (.reap hostId pc') := by
  cases h with
  | @read _ cutoff =>
    refine ⟨.inr (.inr rfl), fun hw => .inr ?_, fun hs => .inl hs⟩
    obtain ⟨r, hr, rfl⟩ : ∃ r ∈ stuckRuns w.execs hostId cutoff, r.testId = testId := by
      simpa [Proc.writes] using hw
    obtain ⟨hmem, -, hrunning, -⟩ := mem_stuckRuns.mp hr
    exact World.not_settled_of_mem (w := w) hmem (by rw [hrunning]; rfl)
  | fail => exact .failing (fun _ => rfl) (fun _ => rfl) rfl
  | _ => exact .of_eq rfl (by simp [Proc.writes])

variable {s s' : Sys}

/-- No process has a write of a terminal status ahead of it. -/
def NoLateWriter (s : Sys) : Prop :=
  ∀ testId, s.world.Settled testId →
    Pool.All s.procs fun _ proc => proc.writes testId = false

lemma noLateWriter_proc (hi : NoLateWriter s) (hp : s.procs[p]? = some proc)
    (hG : LastWriter s (.advance p o))
    (h : ∀ testId, StatusStep testId s.world proc o w' proc') :
    NoLateWriter ⟨w', s.procs.set p proc'⟩ := by
  intro testId hset
  rw [Pool.all_set hp]
  rcases (h testId).settles hset with hold | ⟨hok, hsettles, hwrites⟩
  · refine ⟨?_, fun j other _ hj => hi testId hold j other hj⟩
    by_contra hne
    rcases (h testId).writes (by simpa using hne) with hw | hw
    · simp [hi testId hold p proc hp] at hw
    · exact hw hset
  · exact ⟨hwrites, fun j other hj hother => hG hok proc hp testId hsettles j other hother hj⟩

lemma noLateWriter_spawn {new : Proc} (hi : NoLateWriter s)
    (hst : ∀ testId, w'.status testId = s.world.status testId)
    (hnew : ∀ testId, s.world.Settled testId → new.writes testId = false) :
    NoLateWriter ⟨w', s.procs ++ [new]⟩ := by
  intro testId hset
  have hset := (World.settled_congr (hst testId)).mp hset
  rw [Pool.all_append_singleton]
  exact ⟨hi testId hset, hnew testId hset⟩

/-- A message of a test that is not settled starts an execution. -/
lemma writes_init {host : String} {bundle : TestBundleRequest} {k : String}
    (hk : s.world.Settled k) (hne : ¬ s.world.Settled bundle.testId) :
    (Proc.task (.init host bundle)).writes k = false := by
  have : bundle.testId.val ≠ k := fun h => hne (h ▸ hk)
  simp [Proc.writes, Task.init, this]

lemma noLateWriter_step {a : Act} (hi : NoLateWriter s) (hG : LastWriter s a)
    (h : step s a = some s') : NoLateWriter s' := by
  cases SysRule.of_step h with
  | @launch l =>
    exact noLateWriter_spawn hi (fun _ => rfl) fun _ _ => by
      cases l <;> simp [Launch.proc, Proc.writes, SubmitPc.writes]
  | deliver hm hq =>
    exact noLateWriter_spawn hi (fun _ => rfl) fun _ hk => writes_init hk (hG _ hm)
  | redeliver hm hq =>
    exact noLateWriter_spawn hi (fun _ => rfl) fun _ hk => writes_init hk (hG _ hm)
  | submit hp hr => exact noLateWriter_proc hi hp hG fun _ => .submit hr
  | task hp hr => exact noLateWriter_proc hi hp hG fun _ => .task hr
  | heartbeat hp hr => exact noLateWriter_proc hi hp hG fun _ => .heartbeat hr
  | update hp hr => exact noLateWriter_proc hi hp hG fun _ => .update hr
  | sweep hp hr => exact noLateWriter_proc hi hp hG fun _ => .sweep hr
  | reap hp hr => exact noLateWriter_proc hi hp hG fun _ => .reap hr
  | kill hp =>
    intro testId hset
    rw [Pool.all_set hp]
    exact ⟨rfl, fun j other _ hj => hi testId hset j other hj⟩
  | exit hc hrun => exact hi
  | tick => exact hi

/-- A step changes a stored status only if some process has a write of it ahead. -/
lemma status_step {a : Act} (h : step s a = some s') (testId : String) :
    s.world.status testId = none ∨ s'.world.status testId = s.world.status testId ∨
      ∃ (p : ℕ) (proc : Proc), s.procs[p]? = some proc ∧ proc.writes testId = true := by
  have hproc {p : ℕ} {proc proc' : Proc} {o : Outcome} {w' : World} (hp : s.procs[p]? = some proc)
      (hst : StatusStep testId s.world proc o w' proc') :
      s.world.status testId = none ∨ w'.status testId = s.world.status testId ∨
        ∃ (p : ℕ) (proc : Proc), s.procs[p]? = some proc ∧ proc.writes testId = true := by
    rcases hst.changes with h | h | h
    · exact .inl h
    · exact .inr (.inr ⟨_, _, hp, h⟩)
    · exact .inr (.inl h)
  cases SysRule.of_step h with
  | submit hp hr => exact hproc hp (.submit hr)
  | task hp hr => exact hproc hp (.task hr)
  | heartbeat hp hr => exact hproc hp (.heartbeat hr)
  | update hp hr => exact hproc hp (.update hr)
  | sweep hp hr => exact hproc hp (.sweep hr)
  | reap hp hr => exact hproc hp (.reap hr)
  | _ => exact .inr (.inl rfl)

/-- In every run that meets `LastWriter`, a stored `PASSED`, `FAILED` or `CANCELLED` stays. -/
theorem terminal_status_stays {s₀ : Sys} {testId : String} {status : TestStatus}
    (h₀ : s₀.Idle) (h : Reaches step LastWriter s₀ s) (h' : Reaches step LastWriter s s')
    (hs : s.world.status testId = some status) (hterm : status.terminal = true) :
    s'.world.status testId = some status := by
  have hstart : NoLateWriter s := by
    refine h.invariant ?_ fun _ _ _ hi hG hs => noLateWriter_step hi hG hs
    intro testId _
    simp [h₀.1]
  have hboth : NoLateWriter s' ∧ s'.world.status testId = some status := by
    refine h'.invariant (I := fun t => NoLateWriter t ∧ t.world.status testId = some status)
      ⟨hstart, hs⟩ fun t a u ⟨hi, ht⟩ hG hu => ⟨noLateWriter_step hi hG hu, ?_⟩
    rcases status_step hu testId with hnone | hsame | ⟨p, proc, hp, hw⟩
    · simp [ht] at hnone
    · exact hsame.trans ht
    · simp [hi testId ⟨status, ht, hterm⟩ p proc hp] at hw
  exact hboth.2

/-- A request whose `DISPATCHED` is stored before the worker starts, up to the stored verdict. -/
def orderlyRun : List Act :=
  [.launch (.submit sampleBundle), .advance 0 (.ok none), .advance 0 (.ok none),
    .advance 0 (.ok none), .advance 0 (.ok none), .advance 0 (.ok none), .deliver 0 "h",
    .advance 1 (.ok none), .advance 1 (.ok none), .advance 1 (.ok none), .advance 1 (.ok none),
    .advance 1 (.ok none), .advance 1 (.ok none), .exit "h" "test_t" 0, .advance 1 (.ok none),
    .advance 1 (.ok none), .advance 1 (.ok none), .advance 1 (.ok none)]

/-- There the verdict is still stored after the execution has cleaned up. -/
theorem orderlyRun_stays : ∃ s s' : Sys, s.world.status "t" = some .PASSED ∧
    Reaches step LastWriter s s' ∧ s'.world.status "t" = some .PASSED := by
  obtain ⟨s, hs, hp⟩ := exists_reaches_of_guardedRun step LastWriter (.single idleHost)
    orderlyRun (fun s => s.world.status "t" = some .PASSED &&
      (guardedRun step LastWriter s [.advance 1 (.ok none), .advance 1 (.ok none)]).isSome)
    (by decide +kernel)
  simp only [Bool.and_eq_true, decide_eq_true_eq, Option.isSome_iff_exists] at hp
  obtain ⟨hpassed, s', hrun⟩ := hp
  have hs' := reaches_of_guardedRun hrun
  exact ⟨s, s', hpassed, hs', terminal_status_stays (.single _) hs hs' hpassed rfl⟩

/-- The worker finishes before the request has written `DISPATCHED`. -/
def fastWorker : List Act :=
  [.launch (.submit sampleBundle), .advance 0 (.ok none), .advance 0 (.ok none),
    .advance 0 (.ok none), .advance 0 (.ok none), .deliver 0 "h", .advance 1 (.ok none),
    .advance 1 (.ok none), .advance 1 (.ok none), .advance 1 (.ok none), .advance 1 (.ok none),
    .advance 1 (.ok none), .exit "h" "test_t" 0, .advance 1 (.ok none), .advance 1 (.ok none),
    .advance 1 (.ok none), .advance 1 (.ok none)]

/-- The request then overwrites `PASSED`. -/
theorem fastWorker_overwritten :
    ¬ ∀ (s₀ s s' : Sys) (testId : String) (status : TestStatus), s₀.Idle →
      Reaches step (fun _ _ => True) s₀ s → Reaches step (fun _ _ => True) s s' →
      s.world.status testId = some status → status.terminal = true →
      s'.world.status testId = some status := by
  intro h
  obtain ⟨s, hs, hp⟩ := exists_reaches_of_guardedRun step (fun _ _ => True) (.single idleHost)
    fastWorker (fun s => s.world.status "t" = some .PASSED &&
      (guardedRun step (fun _ _ => True) s [.advance 0 (.ok none)]).any fun s' =>
        s'.world.status "t" = some .DISPATCHED) (by decide +kernel)
  simp only [Bool.and_eq_true, decide_eq_true_eq] at hp
  obtain ⟨s', hs', hp'⟩ := exists_reaches_of_guardedRun _ _ _ _ _ hp.2
  have hstay := h _ s s' "t" .PASSED (.single _) hs hs' hp.1 rfl
  simp [hstay] at hp'

end TestOrch
