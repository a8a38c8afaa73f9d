import TestOrch.Core.Simulation
import TestOrch.System.SoloSubmit

/-!
# An execution by itself

`run_test_bundle` is modelled twice: as a program whose calls may raise, and as a process of the
system that is cut at its accesses. Here the system follows the program: whatever raises, the
process has a run, by its own steps and the exit of its container alone, that ends with the tables
that the program leaves and with the value that the program returns.
-/

namespace TestOrch

/-- The value that an ended execution returned. -/
def Task.returned (t : Task) : Option String :=
  if t.pc = .ended then t.result.map TestStatus.value else none

/-- The steps of process `p` and the exit of the container of its test. -/
def OwnAct (p : ℕ) (host : String) (testId : NonEmptyStr) : Act → Prop
  | .advance q _ => q = p
  | .exit host' name _ => host' = host ∧ name = containerPrefix ++ testId.val
  | _ => False

lemma OwnAct.advance {p : ℕ} {host : String} {testId : NonEmptyStr} {o : Outcome} :
    OwnAct p host testId (.advance p o) := rfl

/-- A step of the execution is a step of the system. -/
lemma step_advance_task {procs : List Proc} {p : ℕ} {t t' : Task} {s : Sys} {w' : World}
    {o : Outcome} (hp : p < procs.length) (hs : s.procs = procs.set p (.task t))
    (h : taskStep p s.world t o = some (w', t')) :
    step s (.advance p o) = some ⟨w', procs.set p (.task t')⟩ := by
  simp [step, hs, hp, Proc.step, h]

lemma Daemon.statusOf_exit {d : Daemon} {testId : NonEmptyStr} {p : ℕ} {status : ContainerStatus} :
    (d.setStatus (containerPrefix ++ testId.val) status).statusOf testId p =
      (d.statusOf testId p).map fun _ => status := by
  simp only [statusOf, setStatus, Table.get?_modify, List.mem_singleton, if_true]
  cases d.containers.get? (containerPrefix ++ testId.val) with
  | none => rfl
  | some c => by_cases hc : c.startedBy = some ⟨testId, p⟩ <;> simp [Option.filter, hc]

namespace Environment

/-- The tables of the world are those of the program, and no lock of another process is in the way.
The world also counts the releases that raised. -/
structure Shows (env : Environment) (p : ℕ) (js : JobState) (w : World) : Prop where
  hosts : w.hosts = js.hosts
  execs : w.execs = js.execs
  clock : w.clock = env.now
  free : ∀ hostId, w.blocked p hostId = false
  released : (js.released.map Subtype.val).Sublist w.released

section Positions

variable (procs : List Proc) (p : ℕ)

/-- Process `p` of the pool stands at `t`, and the daemon of its host is as `D` says. -/
def StandsAt (D : Daemon → Prop) (t : Task) (s : Sys) : Prop :=
  s.procs = procs.set p (.task t) ∧ D (s.world.docker t.host)

/-- Process `p` of the pool has ended as an execution that returned `value`. -/
def EndedWith (value : Option String) (s : Sys) : Prop :=
  ∃ t, t.pc.executing = false ∧ t.returned = value ∧ StandsAt procs p (fun _ => True) t s

/-- Process `p` of the pool executes `req` and stands at `pc` with the result so far. -/
def AtPc (host : String) (req : TestBundleRequest) (result : Option TestStatus) (pc : TaskPc)
    (s : Sys) : Prop :=
  ∃ t : Task, (t.host = host ∧ t.bundle = req ∧ t.result = result ∧ t.pc = pc) ∧
    StandsAt procs p (fun _ => True) t s

end Positions

variable (env : Environment) (procs : List Proc) (p : ℕ) (req : TestBundleRequest)

/-- The system follows a part of the task by what the execution itself does. -/
abbrev Followed {α : Type} (P : Sys → Prop) (x : Job α) (Q : α → Sys → Prop)
    (E : Raised → Sys → Prop) : Prop :=
  Eff.Sim step (fun _ => OwnAct p env.workerHostId req.testId) (fun js s => env.Shows p js s.world)
    P x Q E

/-- The execution gets from `P` to `Q` by itself. -/
abbrev Goes (P Q : Sys → Prop) : Prop :=
  Eff.Moves step (fun _ => OwnAct p env.workerHostId req.testId)
    (fun js s => env.Shows p js s.world) P Q

variable {env procs p req} {D D' : Daemon → Prop} {P : Sys → Prop} {t t' : Task} {o : Outcome}
  {js js' : JobState} {w : World}

/-! ### What the match does not show -/

/-- Calls and lines are not shown. -/
lemma Shows.of_eq (h : env.Shows p js w) (hhosts : js'.hosts = js.hosts)
    (hexecs : js'.execs = js.execs) (hreleased : js'.released = js.released) :
    env.Shows p js' w where
  hosts := h.hosts.trans hhosts.symm
  execs := h.execs.trans hexecs.symm
  clock := h.clock
  free := h.free
  released := hreleased ▸ h.released

lemma Shows.setDaemon (h : env.Shows p js w) (host : String) (d : Daemon) :
    env.Shows p js (w.setDaemon host d) :=
  ⟨h.hosts, h.execs, h.clock, h.free, h.released⟩

lemma keeps_shows_call (c : Call) : Eff.Keeps (fun js => env.Shows p js w) (env.call c) := by
  intro js h
  have h' : env.Shows p { js with calls := js.calls ++ [c] } w := h.of_eq rfl rfl rfl
  cases hr : env.raises c <;> simpa [call, hr] using h'

lemma keeps_shows_modify {f : JobState → JobState} (hhosts : ∀ js, (f js).hosts = js.hosts)
    (hexecs : ∀ js, (f js).execs = js.execs) (hreleased : ∀ js, (f js).released = js.released) :
    Eff.Keeps (fun js => env.Shows p js w) (Eff.modify f : Job Unit) :=
  fun js h => h.of_eq (hhosts js) (hexecs js) (hreleased js)

lemma keeps_shows_streamLines (n : ℕ) (lines : List String) :
    Eff.Keeps (fun js => env.Shows p js w) (env.streamLines n lines) := by
  induction lines generalizing n with
  | nil => exact keeps_shows_call _
  | cons line rest ih =>
    apply (keeps_shows_call _).bind
    intro _
    apply (keeps_shows_call _).bind
    intro _
    refine (keeps_shows_modify ?_ ?_ ?_).bind fun _ => ?_
    iterate 3 intro _; rfl
    apply (keeps_shows_call _).bind
    intro _
    refine (keeps_shows_modify ?_ ?_ ?_).bind fun _ => ?_
    iterate 3 intro _; rfl
    split_ifs
    · apply (keeps_shows_call _).bind
      intro _
      refine (keeps_shows_modify ?_ ?_ ?_).bind fun _ => ih (n + 1)
      iterate 3 intro _; rfl
    · exact ih (n + 1)

lemma keeps_shows_uploadAll (files : List String) :
    Eff.Keeps (fun js => env.Shows p js w) (env.uploadAll files) := by
  induction files with
  | nil => exact .pure _
  | cons fname rest ih =>
    simp only [uploadAll]
    split_ifs
    · refine Eff.Keeps.bind ?_ fun url => ih.bind fun urls => .pure _
      exact ((keeps_shows_call _).bind fun _ => .pure _).tryExcept fun _ => .pure _
    · exact ih

/-! ### Steps of the execution -/

/-- One access of the execution. -/
lemma goes_access (hp : p < procs.length) (hP : ∀ s, P s → s.procs = procs.set p (.task t))
    (h : ∀ s, P s → ∃ w', taskStep p s.world t o = some (w', t') ∧
      (∀ js, env.Shows p js s.world → env.Shows p js w') ∧ D (w'.docker t'.host)) :
    env.Goes p req P (StandsAt procs p D t') := by
  apply Eff.Moves.single
  intro s hs
  obtain ⟨w', hstep, hkeep, hD⟩ := h s hs
  exact ⟨.advance p o, _, .advance, step_advance_task hp (hP s hs) hstep, hkeep, rfl, hD⟩

/-- An access that leaves the world as it is. -/
lemma goes_same (o : Outcome) (hp : p < procs.length) (hhost : t'.host = t.host)
    (h : ∀ w, taskStep p w t o = some (w, t')) :
    env.Goes p req (StandsAt procs p D t) (StandsAt procs p D t') :=
  goes_access hp (fun _ hs => hs.1) fun s hs => ⟨s.world, h s.world, fun _ h => h, hhost ▸ hs.2⟩

/-- An execution that stands at an end has ended. -/
lemma endedWith_of_standsAt {value : Option String} {s : Sys} (hover : t.pc.executing = false)
    (hvalue : t.returned = value) (h : StandsAt procs p D t s) : EndedWith procs p value s :=
  ⟨t, hover, hvalue, h.1, trivial⟩

/-- The last access of an execution. -/
lemma goes_end {value : Option String} (o : Outcome) (t' : Task) (hp : p < procs.length)
    (hhost : t'.host = t.host) (hstep : ∀ w, taskStep p w t o = some (w, t'))
    (hover : t'.pc.executing = false) (hvalue : t'.returned = value) :
    env.Goes p req (StandsAt procs p D t) (EndedWith procs p value) :=
  (goes_same o hp hhost hstep).trans (.of_imp fun _ => endedWith_of_standsAt hover hvalue)

lemma followed_call (c : Call) : env.Followed p req P (env.call c)
    (fun _ s => P s ∧ env.raises c = false) fun _ => P := by
  intro js s h hP
  refine ⟨s, .refl, (keeps_shows_call c).apply js h, ?_⟩
  cases hr : env.raises c <;> simp [call, hr, hP]

/-- `_set_status`: the row is loaded and committed. -/
lemma followed_setStatus {site : StatusSite} {status : TestStatus}
    {targetHostId artifactUrl : Option String} (t : Task) (loaded : TestExecution → Task)
    (t' crashed : Task) (hp : p < procs.length) (hreq : t.bundle = req) (hhost : t'.host = t.host)
    (hcrashed : crashed.host = t.host)
    (hread : ∀ w row, w.execs.get? t.testId = some row →
      taskStep p w t (.ok none) = some (w, loaded row))
    (hnone : ∀ w, w.execs.get? t.testId = none → taskStep p w t (.ok none) = some (w, t'))
    (hcommit : ∀ w row, taskStep p w (loaded row) (.ok none) =
      some (w.commitRun p t.testId row (row.assign status targetHostId artifactUrl), t'))
    (hraises : ∀ w, taskStep p w t .raises = some (w, crashed)) :
    env.Followed p req (StandsAt procs p D t)
      (env.setStatus site req.testId status targetHostId artifactUrl)
      (fun _ => StandsAt procs p D t') fun _ => StandsAt procs p D crashed := by
  subst hreq
  apply Eff.Sim.bind ((followed_call _).after (fun _ => .of_imp fun _ => And.left) fun _ =>
    goes_same .raises hp hcrashed hraises)
  rintro - js s h ⟨hprocs, hD⟩
  cases hrow : s.world.execs.get? t.testId with
  | none =>
    refine ⟨_, .single .advance (step_advance_task hp hprocs (hnone _ hrow)), ?_, rfl, hhost ▸ hD⟩
    refine ⟨h.hosts, ?_, h.clock, h.free, h.released⟩
    rw [h.execs] at hrow
    refine h.execs.trans (Eq.symm ?_)
    exact Table.modify_eq_self_of_get? (fun r => r.flush_testId _ r _) (by simp [hrow])
  | some row =>
    refine ⟨_, .next (.single .advance (step_advance_task hp hprocs (hread _ _ hrow))) .advance
      (step_advance_task hp rfl (hcommit _ row)), ?_, rfl, hhost ▸ hD⟩
    refine ⟨h.hosts, ?_, h.clock, fun k => (unlock_blocked k).trans (h.free k), h.released⟩
    -- the loaded row is the stored one
    show (s.world.execs.modify [t.testId] _ fun r => row.flush_testId _ r _) = _
    rw [h.execs] at hrow ⊢
    apply Table.modify_congr_of_get? _ fun r => r.flush_testId _ r _
    intro r hr
    rw [hrow, Option.some.injEq] at hr
    rw [hr, h.clock]

/-! ### Before the `try` statement -/

/-- The name of the container is free wherever it is about to be used. -/
def FreeName (env : Environment) (req : TestBundleRequest) (d : Daemon) : Prop :=
  env.raises .startContainer = false →
    d.containers.get? (containerPrefix ++ req.testId.val) = none

/-- An exception before the `try` statement ends the execution. -/
lemma followed_prelude (hp : p < procs.length) :
    env.Followed p req (StandsAt procs p D (.init env.workerHostId req)) (env.prelude req)
      (fun _ => StandsAt procs p D { Task.init env.workerHostId req with pc := .prepare })
      fun _ => EndedWith procs p none := by
  let t := Task.init env.workerHostId req
  have hcall (c : Call) : env.Followed p req (StandsAt procs p D t) (env.call c)
      (fun _ => StandsAt procs p D t) fun _ => EndedWith procs p none := by
    apply (followed_call c).after (fun _ => .of_imp fun _ => And.left)
    intro _
    exact goes_end .raises { t with pc := .aborted } hp rfl (fun _ => rfl) rfl rfl
  apply (hcall .initDb).bind
  intro _
  apply (hcall .dockerClient).bind
  intro _
  apply (hcall .influxClient).bind
  intro _
  -- The prelude ends with the write of `RUNNING`, whose first access is the read of the row.
  have hstart : env.Goes p req (StandsAt procs p D t)
      (StandsAt procs p D { t with pc := .runningRead }) := goes_same (.ok none) hp rfl fun _ => rfl
  refine .before hstart ((followed_setStatus { t with pc := .runningRead }
    (fun row => { t with pc := .runningCommit row }) { t with pc := .prepare }
    { t with pc := .aborted } hp rfl rfl rfl ?_ ?_ ?_ ?_).after_raise
    fun _ => .of_imp fun _ => endedWith_of_standsAt rfl rfl)
  · intro w row hrow
    simp [taskStep, hrow]
  · intro w hrow
    simp [taskStep, hrow]
  · intro w row
    rfl
  · intro w
    rfl

/-! ### The body of the `try` statement -/

/-- The execution is in the body of the `try` statement. -/
structure Trying (env : Environment) (req : TestBundleRequest) (t : Task) : Prop where
  inTry : t.pc.inTry = true
  host : t.host = env.workerHostId
  bundle : t.bundle = req
  result : t.result = none

/-- An exception in the body of the `try` statement. -/
lemma goes_crash (hp : p < procs.length) (ht : Trying env req t) :
    env.Goes p req (StandsAt procs p D t)
      (AtPc procs p env.workerHostId req none .failedRead) := by
  have hstep (w : World) : taskStep p w t .raises = some (w, { t with pc := .failedRead }) := by
    have htry := ht.inTry
    cases hpc : t.pc <;> simp_all [taskStep, TaskPc.inTry]
  refine (goes_same .raises hp ?_ hstep).trans (.of_imp fun s hs => ?_)
  · rfl
  · exact ⟨{ t with pc := .failedRead }, ⟨ht.host, ht.bundle, ht.result, rfl⟩, hs.1, trivial⟩

/-- A part of the body whose effects are not shown: the execution takes its step afterwards. -/
lemma followed_quiet {α : Type} {x : Job α} {Q : α → Sys → Prop} (hp : p < procs.length)
    (ht : Trying env req t) (hx : ∀ w, Eff.Keeps (fun js => env.Shows p js w) x)
    (hQ : ∀ a, env.Goes p req (StandsAt procs p D t) (Q a)) :
    env.Followed p req (StandsAt procs p D t) x Q
      fun _ => AtPc procs p env.workerHostId req none .failedRead :=
  (Eff.Sim.quiet fun s : Sys => hx s.world).after hQ fun _ => goes_crash hp ht

lemma followed_getRunner (hp : p < procs.length) (ht : Trying env req t) :
    env.Followed p req (StandsAt procs p D t)
      (Eff.lift ((getRunner req.runnerType).mapError .code))
      (fun _ s => StandsAt procs p D t s ∧ getRunner req.runnerType = .ok ())
      fun _ => AtPc procs p env.workerHostId req none .failedRead := by
  cases hrunner : getRunner req.runnerType with
  | error e => exact .before (goes_crash hp ht) (.raise fun _ h => h)
  | ok _ => exact .pure fun _ h => ⟨h, rfl⟩

lemma followed_writeConfig (hp : p < procs.length) (ht : Trying env req t) (hpc : t.pc = .prepare)
    (hrunner : getRunner req.runnerType = .ok ()) :
    env.Followed p req (StandsAt procs p D t) (env.call .writeConfig)
      (fun _ => StandsAt procs p D { t with pc := .start })
      fun _ => AtPc procs p env.workerHostId req none .failedRead := by
  refine followed_quiet hp ht (fun w => keeps_shows_call _) fun _ => ?_
  refine goes_same (.ok none) hp ?_ fun w => ?_
  · rfl
  · simp [taskStep, hpc, ht.bundle, hrunner]

/-- The container is started under a free name. -/
lemma followed_startContainer (hp : p < procs.length) (ht : Trying env req t)
    (hpc : t.pc = .start) :
    env.Followed p req (StandsAt procs p (FreeName env req) t) (env.call .startContainer)
      (fun _ => StandsAt procs p (fun d => d.statusOf req.testId p = some .running)
        { t with started := true, pc := .stream })
      fun _ => AtPc procs p env.workerHostId req none .failedRead := by
  refine (followed_call _).after (fun _ => ?_) fun _ => goes_crash hp ht
  refine goes_access (o := .ok none) hp (fun _ hs => hs.1.1) fun s ⟨hs, hraises⟩ => ?_
  obtain rfl := ht.bundle
  cases hrun : (s.world.docker t.host).run t.bundle.testId p with
  | none =>
    obtain ⟨c, hc⟩ := Daemon.run_eq_none.mp hrun
    have hfree := hs.2 hraises
    rw [hc] at hfree
    cases hfree
  | some d =>
    refine ⟨s.world.setDaemon t.host d, ?_, fun js h => h.setDaemon _ d, ?_⟩
    · simp [taskStep, hpc, hrun]
    · show ((s.world.setDaemon t.host d).docker t.host).statusOf t.bundle.testId p = _
      rw [World.docker_setDaemon, if_pos rfl, Daemon.statusOf_run hrun, if_pos ⟨rfl, rfl⟩]

lemma followed_stream (hp : p < procs.length) (ht : Trying env req t) (hpc : t.pc = .stream) :
    env.Followed p req (StandsAt procs p D t)
      (Eff.tryFinally (env.streamLines 0 env.lines) (env.call .closeSession))
      (fun _ => StandsAt procs p D { t with pc := .wait })
      fun _ => AtPc procs p env.workerHostId req none .failedRead := by
  refine followed_quiet hp ht (fun w => ?_) fun _ => ?_
  · exact (keeps_shows_streamLines 0 env.lines).tryFinally (keeps_shows_call _)
  · refine goes_same (.ok none) hp ?_ fun w => ?_
    · rfl
    · simp [taskStep, hpc]

/-- The container of the execution exits. -/
lemma goes_exit (code : ℤ) (hhost : t.host = env.workerHostId) :
    env.Goes p req (StandsAt procs p (fun d => d.statusOf req.testId p = some .running) t)
      (StandsAt procs p (fun d => d.exitCode req.testId p = some code) t) := by
  apply Eff.Moves.single
  intro s ⟨hprocs, hst⟩
  obtain ⟨c, hc, hrun⟩ : ∃ c, (s.world.docker t.host).containers.get?
      (containerPrefix ++ req.testId.val) = some c ∧ c.status = .running := by
    obtain ⟨c, hc, hrun⟩ := Option.map_eq_some_iff.mp hst
    exact ⟨c, (Option.filter_eq_some_iff.mp hc).1, hrun⟩
  let d := (s.world.docker t.host).setStatus (containerPrefix ++ req.testId.val) (.exited code)
  refine ⟨.exit t.host (containerPrefix ++ req.testId.val) code,
    ⟨s.world.setDaemon t.host d, s.procs⟩, ⟨hhost, rfl⟩, ?_, ?_, hprocs, ?_⟩
  · simp [step, hc, hrun, d]
  · exact fun js h => h.setDaemon t.host d
  · show ((s.world.setDaemon t.host d).docker t.host).exitCode req.testId p = _
    rw [World.docker_setDaemon, if_pos rfl, Daemon.exitCode, Daemon.statusOf_exit, hst]
    rfl

/-- The container exits with the code that the program is told, and the execution reads it. -/
lemma followed_wait (hp : p < procs.length) (ht : Trying env req t) (hpc : t.pc = .wait) :
    env.Followed p req
      (StandsAt procs p (fun d => d.statusOf req.testId p = some .running) t) (env.call .wait)
      (fun _ => StandsAt procs p (fun _ => True)
        { t with exitCode := some (env.statusCode.getD 1), pc := .collect })
      fun _ => AtPc procs p env.workerHostId req none .failedRead := by
  refine followed_quiet hp ht (fun w => keeps_shows_call _) fun _ => ?_
  refine (goes_exit (env.statusCode.getD 1) ht.host).trans ?_
  refine goes_access (o := .ok none) hp (fun _ hs => hs.1) fun s hs => ?_
  refine ⟨s.world, ?_, fun _ h => h, trivial⟩
  have hcode := hs.2
  rw [← ht.bundle] at hcode
  simp [taskStep, hpc, hcode]

/-- The first URL of the uploads that succeeded is the artifact URL. -/
lemma followed_uploadAll (hp : p < procs.length) (ht : Trying env req t) (hpc : t.pc = .collect) :
    env.Followed p req (StandsAt procs p D t) (env.uploadAll env.outputFiles)
      (fun urls => StandsAt procs p D { t with artifactUrl := urls.head?, pc := .verdictRead })
      fun _ => AtPc procs p env.workerHostId req none .failedRead := by
  refine followed_quiet hp ht (fun w => keeps_shows_uploadAll env.outputFiles) fun urls => ?_
  refine goes_same (.ok urls.head?) hp ?_ fun w => ?_
  · rfl
  · simp [taskStep, hpc]

/-- The status that the exit code decides is stored. -/
lemma followed_verdict (hp : p < procs.length) (ht : Trying env req t) (hpc : t.pc = .verdictRead) :
    env.Followed p req (StandsAt procs p D t)
      (env.setStatus .verdict req.testId t.final none t.artifactUrl)
      (fun _ => AtPc procs p env.workerHostId req (some t.final) .cleanup)
      fun _ => AtPc procs p env.workerHostId req none .failedRead := by
  refine (followed_setStatus t (fun row => { t with pc := .verdictCommit row })
    { t with result := some t.final, pc := .cleanup } { t with pc := .failedRead } hp ht.bundle
    rfl rfl ?_ ?_ ?_ ?_).after (fun _ => .of_imp fun s hs => ?_) fun _ => .of_imp fun s hs => ?_
  · intro w row hrow
    simp [taskStep, hpc, hrow]
  · intro w hrow
    simp [taskStep, hpc, hrow]
  · intro w row
    rfl
  · intro w
    simp [taskStep, hpc]
  · exact ⟨{ t with result := some t.final, pc := .cleanup }, ⟨ht.host, ht.bundle, rfl, rfl⟩, hs.1,
      trivial⟩
  · exact ⟨{ t with pc := .failedRead }, ⟨ht.host, ht.bundle, ht.result, rfl⟩, hs.1, trivial⟩

/-- The body of the `try` statement ends with a stored verdict, or the execution is about to mark
the test as failed. -/
lemma followed_execute (hp : p < procs.length) :
    env.Followed p req (StandsAt procs p (FreeName env req)
        { Task.init env.workerHostId req with pc := .prepare }) (env.execute req)
      (fun value s => ∃ r, AtPc procs p env.workerHostId req (some r) .cleanup s ∧ r.value = value)
      fun _ => AtPc procs p env.workerHostId req none .failedRead := by
  apply (followed_getRunner hp ⟨rfl, rfl, rfl, rfl⟩).bind
  intro _
  apply Eff.Sim.of_and
  intro hrunner
  apply (followed_writeConfig hp ⟨rfl, rfl, rfl, rfl⟩ rfl hrunner).bind
  intro _
  -- the directory is made while the execution is about to start the container
  apply (followed_quiet hp ⟨rfl, rfl, rfl, rfl⟩ (fun w => keeps_shows_call _) fun _ =>
    .of_imp fun _ h => h).bind
  intro _
  apply (followed_startContainer hp ⟨rfl, rfl, rfl, rfl⟩ rfl).bind
  intro _
  apply (followed_stream hp ⟨rfl, rfl, rfl, rfl⟩ rfl).bind
  intro _
  apply (followed_wait hp ⟨rfl, rfl, rfl, rfl⟩ rfl).bind
  intro _
  apply (followed_quiet hp ⟨rfl, rfl, rfl, rfl⟩ (fun w => keeps_shows_call _) fun _ =>
    .of_imp fun _ h => h).bind
  intro _
  apply (followed_uploadAll hp ⟨rfl, rfl, rfl, rfl⟩ rfl).bind
  intro urls
  -- what the execution remembers when the verdict is due
  let t : Task := ⟨env.workerHostId, req, true, some (env.statusCode.getD 1), urls.head?, none,
    .verdictRead⟩
  have hfinal : t.final = if env.statusCode.getD 1 = 0 then .PASSED else .FAILED := by
    simp [Task.final, t]
  have hverdict := followed_verdict (D := fun _ => True) hp (t := t) ⟨rfl, rfl, rfl, rfl⟩ rfl
  rw [hfinal] at hverdict
  exact hverdict.bind fun _ => .pure fun s hs => ⟨_, hs, rfl⟩

/-! ### The `except` and the `finally` clause -/

/-- The world counts a release that raised, and one that was not asked for changes nothing. -/
lemma goes_release (hp : p < procs.length) (hpc : t.pc = .release) :
    env.Goes p req (StandsAt procs p D t) (StandsAt procs p D { t with pc := .cleanup }) := by
  refine goes_access (o := .ok none) hp (fun _ hs => hs.1) fun s hs => ?_
  refine ⟨{ s.world with
    released := s.world.released ++ (t.bundle.qualiReservationId.map Subtype.val).toList }, ?_,
    fun js h => ?_, hs.2⟩
  · simp [taskStep, hpc]
  · exact ⟨h.hosts, h.execs, h.clock, h.free,
      h.released.trans (List.sublist_append_left _ _)⟩

/-- The release of the reservation. -/
lemma followed_release {reservation : NonEmptyStr} {E : Raised → Sys → Prop}
    (hp : p < procs.length) (hpc : t.pc = .release)
    (hres : t.bundle.qualiReservationId = some reservation) :
    env.Followed p req (StandsAt procs p D t)
      (Eff.tryExcept
        (do env.call .releaseReservation
            Eff.modify fun s => { s with released := s.released ++ [reservation] })
        fun _ => pure ())
      (fun _ => StandsAt procs p D { t with pc := .cleanup }) E := by
  refine Eff.Sim.tryExcept (E := fun _ => StandsAt procs p D t) ?_ fun _ =>
    .before (goes_release hp hpc) (.pure fun _ h => h)
  apply ((followed_call _).after_return fun _ => .of_imp fun _ => And.left).bind
  intro _ js s h hs
  have hstep : taskStep p s.world t (.ok none) = some
      ({ s.world with released := s.world.released ++ [reservation.val] },
        { t with pc := .cleanup }) := by
    simp [taskStep, hpc, hres]
  refine ⟨_, .single .advance (step_advance_task hp hs.1 hstep), ?_, rfl, hs.2⟩
  refine ⟨h.hosts, h.execs, h.clock, h.free, ?_⟩
  simpa [Eff.modify] using h.released.append_right [reservation.val]

/-- The `except` clause raises again, once the test is marked as failed or could not be. -/
lemma followed_onCrash {Q : String → Sys → Prop} (hp : p < procs.length) (e : Raised) :
    env.Followed p req (AtPc procs p env.workerHostId req none .failedRead) (env.onCrash req e) Q
      fun _ => AtPc procs p env.workerHostId req none .cleanup := by
  apply Eff.Sim.exists_
  intro t
  rintro js s h ⟨⟨hhost, hbundle, hres, hpc⟩, hs⟩
  have hat {s : Sys} (hs : StandsAt procs p (fun _ => True) { t with pc := .cleanup } s) :
      AtPc procs p env.workerHostId req none .cleanup s :=
    ⟨{ t with pc := .cleanup }, ⟨hhost, hbundle, hres, rfl⟩, hs.1, trivial⟩
  -- A write that fails here leaves the handler without the release.
  have hset : env.Followed p req (StandsAt procs p (fun _ => True) t)
      (env.setStatus .crashed req.testId .FAILED none none)
      (fun _ => StandsAt procs p (fun _ => True) { t with pc := .release })
      fun _ => AtPc procs p env.workerHostId req none .cleanup := by
    refine (followed_setStatus t (fun row => { t with pc := .failedCommit row })
      { t with pc := .release } { t with pc := .cleanup } hp hbundle rfl rfl
      ?_ ?_ ?_ ?_).after_raise fun _ => .of_imp fun _ => hat
    · intro w row hrow
      simp [taskStep, hpc, hrow]
    · intro w hrow
      simp [taskStep, hpc, hrow]
    · intro w row
      rfl
    · intro w
      simp [taskStep, hpc]
  refine (hset.bind fun _ => ?_) js s h hs
  cases hq : req.qualiReservationId with
  | none => exact .before (goes_release hp rfl) (.raise fun _ => hat)
  | some reservation =>
    apply (followed_release hp rfl (hbundle ▸ hq)).bind
    intro _
    exact .raise fun _ => hat

/-- `_decrement_active_containers`: the row is loaded, and committed where its count is positive. -/
lemma followed_decrement (hp : p < procs.length) (hhost : t.host = env.workerHostId)
    (hpc : t.pc = .decrementRead) :
    env.Followed p req (StandsAt procs p D t) (env.decrementActiveContainers env.workerHostId)
      (fun _ => StandsAt procs p (fun _ => True) { t with pc := .close })
      fun _ => EndedWith procs p none := by
  have hraise : env.Goes p req (StandsAt procs p D t) (EndedWith procs p none) :=
    goes_end .raises { t with pc := .unreleased } hp rfl (fun w => by simp [taskStep, hpc]) rfl rfl
  apply Eff.Sim.bind ((followed_call _).after (fun _ => .of_imp fun _ => And.left) fun _ => hraise)
  rintro - js s h ⟨hprocs, -⟩
  by_cases hpos : ∃ row, s.world.hosts.get? t.host = some row ∧ row.activeContainers > 0
  · obtain ⟨row, hrow, hpos⟩ := hpos
    -- One read and one commit; nobody else moves, so the row read is still the stored one.
    have hread : taskStep p s.world t (.ok none) =
        some (s.world, { t with pc := .decrementCommit row }) := by
      simp [taskStep, hpc, hrow, hpos]
    have hcommit : taskStep p s.world { t with pc := .decrementCommit row } (.ok none) =
        some (World.unlock { s.world with
          hosts := s.world.hosts.modify [t.host] (row.flush row.decrement)
            (row.flush_hostId row.decrement) } p, { t with pc := .close }) := by
      simp [taskStep, commitHost_of_free (h.free t.host)]
    refine ⟨_, .next (.single .advance (step_advance_task hp hprocs hread)) .advance
      (step_advance_task hp rfl hcommit), ?_, rfl, trivial⟩
    refine ⟨?_, h.execs, h.clock, fun k => (unlock_blocked k).trans (h.free k), h.released⟩
    show s.world.hosts.modify [t.host] _ (row.flush_hostId row.decrement) = _
    rw [h.hosts, hhost] at hrow ⊢
    apply Table.modify_congr_of_get? _ fun h => by split <;> rfl
    intro r hr
    rw [hrow, Option.some.injEq] at hr
    rw [← hr, WorkerHost.flush_self _ _ (by rfl), if_pos hpos]
  · -- No row, or none in use: nothing is written.
    have hread : taskStep p s.world t (.ok none) = some (s.world, { t with pc := .close }) := by
      cases hrow : s.world.hosts.get? t.host with
      | none => simp [taskStep, hpc, hrow]
      | some row => simp_all [taskStep]
    refine ⟨_, .single .advance (step_advance_task hp hprocs hread), ?_, rfl, trivial⟩
    refine ⟨h.hosts.trans (Eq.symm ?_), h.execs, h.clock, h.free, h.released⟩
    apply Table.modify_eq_self_of_get? fun h => by split <;> rfl
    intro r hr
    rw [← h.hosts, ← hhost] at hr
    exact if_neg fun hr' => hpos ⟨r, hr, hr'⟩

/-- The `finally` clause. -/
lemma followed_closing {result : Option TestStatus} (hp : p < procs.length) :
    env.Followed p req (AtPc procs p env.workerHostId req result .cleanup) env.closing
      (fun _ => EndedWith procs p (result.map TestStatus.value))
      fun _ => EndedWith procs p none := by
  apply Eff.Sim.exists_
  intro t
  rintro js s h ⟨⟨hhost, -, rfl, hpc⟩, hs⟩
  -- A cleanup that raises skips the decrement and the closing of the client.
  have hcleanup : env.Followed p req (StandsAt procs p (fun _ => True) t) (env.call .cleanup)
      (fun _ => StandsAt procs p (fun _ => True) { t with pc := .decrementRead })
      fun _ => EndedWith procs p none := by
    refine (followed_call _).after (fun _ => ?_) fun _ => ?_
    · refine goes_access (o := .ok none) hp (fun _ hs => hs.1.1) fun s _ => ?_
      exact ⟨_, by simp [taskStep, hpc]; rfl, fun js h => h.setDaemon _ _, trivial⟩
    · have hstep (w : World) : taskStep p w t .raises = some (w, { t with pc := .unreleased }) := by
        simp [taskStep, hpc]
      exact goes_end .raises { t with pc := .unreleased } hp rfl hstep rfl rfl
  have hclose : env.Followed p req (StandsAt procs p (fun _ => True) { t with pc := .close })
      (env.call .influxClose) (fun _ => EndedWith procs p (t.result.map TestStatus.value))
      fun _ => EndedWith procs p none := by
    refine (followed_call _).after (fun _ => ?_) fun _ => ?_
    · exact (Eff.Moves.of_imp fun _ => And.left).trans
        (goes_end (.ok none) { t with pc := .ended } hp rfl (fun _ => rfl) rfl rfl)
    · exact goes_end .raises { t with result := none, pc := .ended } hp rfl (fun _ => rfl) rfl rfl
  have hdecrement : env.Followed p req
      (StandsAt procs p (fun _ => True) { t with pc := .decrementRead })
      (env.decrementActiveContainers env.workerHostId)
      (fun _ => StandsAt procs p (fun _ => True) { t with pc := .close })
      fun _ => EndedWith procs p none := followed_decrement hp hhost rfl
  exact (hcleanup.bind fun _ => hdecrement.bind fun _ => hclose) js s h hs

/-- The whole task. -/
lemma followed_runTestBundle {bundle : PyValue} (hp : p < procs.length)
    (hreq : TestBundleRequest.fromDict bundle = .ok req) :
    env.Followed p req (StandsAt procs p (FreeName env req) (.init env.workerHostId req))
      (env.runTestBundle bundle) (fun value => EndedWith procs p (some value))
      fun _ => EndedWith procs p none := by
  have hbody : env.Followed p req
      (StandsAt procs p (FreeName env req) { Task.init env.workerHostId req with pc := .prepare })
      (Eff.tryFinally (Eff.tryExcept (env.execute req) (env.onCrash req)) env.closing)
      (fun value => EndedWith procs p (some value)) fun _ => EndedWith procs p none := by
    refine ((followed_execute hp).tryExcept fun e => followed_onCrash hp e).tryFinally ?_ ?_
    · intro value
      apply Eff.Sim.exists_
      intro r
      apply Eff.Sim.of_and
      rintro rfl
      exact followed_closing hp
    · intro _
      exact followed_closing hp
  have hrun := (followed_prelude hp).bind fun _ => hbody
  have heq : env.runTestBundle bundle = env.prelude req >>= fun _ =>
      Eff.tryFinally (Eff.tryExcept (env.execute req) (env.onCrash req)) env.closing := by
    rw [runTestBundle, hreq]
    rfl
  rw [heq]
  exact hrun

/-- Whatever raises, an execution that the surroundings leave alone can do what the program does: by
its own accesses and the exit of its container it gets to an end where the tables of the system are
those that the program leaves, and it returned what the program returns. -/
theorem execution_follows_program {bundle : PyValue} {js : JobState} {s : Sys}
    (hreq : TestBundleRequest.fromDict bundle = .ok req)
    (htask : s.procs[p]? = some (.task (.init env.workerHostId req)))
    (hshows : env.Shows p js s.world) (hfree : FreeName env req (s.world.docker env.workerHostId)) :
    ∃ s', Transition.Reaches step (fun _ => OwnAct p env.workerHostId req.testId) s s' ∧
      env.Shows p (env.runTestBundle bundle js).2 s'.world ∧
      EndedWith s.procs p (env.runTestBundle bundle js).1.toOption s' := by
  obtain ⟨hp, hget⟩ := List.getElem?_eq_some_iff.mp htask
  have hstands : StandsAt s.procs p (FreeName env req) (.init env.workerHostId req) s :=
    ⟨by rw [← hget, List.set_getElem_self], hfree⟩
  obtain ⟨s', hreach, hshows', hend⟩ := followed_runTestBundle hp hreq js s hshows hstands
  refine ⟨s', hreach, hshows', ?_⟩
  cases hres : (env.runTestBundle bundle js).1 with
  | error e =>
    rw [hres] at hend
    exact hend
  | ok value =>
    rw [hres] at hend
    exact hend

/-- An execution is about to start on a machine that does nothing else. -/
def aboutToExecute : Sys := ⟨(Sys.single idleHost).world, [.task (.init "h" sampleBundle)]⟩

/-- The log store fails at the first line: the execution raises, as the program does. -/
theorem aboutToExecute_follows : ∃ s', Transition.Reaches step
      (fun _ => OwnAct 0 "h" sampleBundle.testId) aboutToExecute s' ∧
      (failingAt [.writeLine 0]).Shows 0 ((failingAt [.writeLine 0]).runTestBundle samplePayload
        { JobState.init with hosts := aboutToExecute.world.hosts }).2 s'.world ∧
      EndedWith aboutToExecute.procs 0 ((failingAt [.writeLine 0]).runTestBundle samplePayload
        { JobState.init with hosts := aboutToExecute.world.hosts }).1.toOption s' := by
  have hshows : (failingAt [.writeLine 0]).Shows 0
      { JobState.init with hosts := aboutToExecute.world.hosts } aboutToExecute.world :=
    ⟨rfl, rfl, rfl, fun _ => rfl, .slnil⟩
  exact execution_follows_program fromDict_samplePayload rfl hshows fun _ => rfl

end Environment

end TestOrch
