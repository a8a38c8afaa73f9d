import TestOrch.System.SlotAccount
import TestOrch.System.Redelivery

/-!
# The capacity gauge

A heartbeat counts the containers and stores the count later. When executions give back their slots
in between, the count is outdated, and storing it leaves the gauge above what is running. With
counts that are not above the slots held at the commit, the gauge is back at zero whenever a host is
at rest.
-/

namespace TestOrch

open Transition

/-- The count that the process is about to store is not above the slots that are held. -/
def Proc.CountsHeld (s : Sys) : Proc → Prop
  | .heartbeat hostId _ pc => ∀ live ∈ pc.reporting, live ≤ (s.held hostId : ℤ)
  | _ => True

instance (s : Sys) : ∀ proc : Proc, Decidable (proc.CountsHeld s)
  | .heartbeat _ _ pc => inferInstanceAs (Decidable (∀ live ∈ pc.reporting, _))
  | .submit .. | .task _ | .update .. | .sweep .. | .reap .. | .dead _ =>
    inferInstanceAs (Decidable True)

/-- The condition on a run: no heartbeat stores an outdated count. -/
def NoneOutdated (s : Sys) : Act → Prop
  | .advance p _ => ∀ proc ∈ s.procs[p]?, proc.CountsHeld s
  | _ => True

instance (s : Sys) : ∀ a, Decidable (NoneOutdated s a)
  | .advance p _ => inferInstanceAs (Decidable (∀ proc ∈ s.procs[p]?, proc.CountsHeld s))
  | .launch _ | .deliver .. | .redeliver .. | .kill _ | .exit .. | .tick _ =>
    inferInstanceAs (Decidable True)

/-- The process is a dispatch to the host, an execution on it or a heartbeat of it, under way. -/
def Proc.engaged (h : String) : Proc → Bool
  | .submit _ (.reserve chosen _) | .submit _ (.send chosen _) => chosen.hostId = h
  | .task t => t.host = h && t.pc.executing
  | .heartbeat hostId _ pc => hostId = h && pc ≠ .done
  | _ => false

/-- No bundle is queued or executing on the host, and no dispatch or heartbeat is in progress. -/
def Sys.AtRest (s : Sys) (h : String) : Prop :=
  (∀ m ∈ s.world.queue, consumes h m = false) ∧ ∀ proc ∈ s.procs, proc.engaged h = false

instance (s : Sys) (h : String) : Decidable (s.AtRest h) :=
  inferInstanceAs (Decidable (_ ∧ _))

/-- The gauge is between zero and the slots that are held. -/
def Gauge (row : Option WorkerHost) (held _returning : ℕ) : Prop :=
  ∀ r ∈ row, 0 ≤ r.activeContainers ∧ r.activeContainers ≤ held

/-- The count that a heartbeat has is not negative, and not a cached one. -/
def HeartbeatPc.Counted : HeartbeatPc → Prop
  | .cached => False
  | .read live | .stamp live _ | .commit live _ _ => 0 ≤ live
  | .count | .done => True

/-- The process will store no negative count. -/
def Proc.Steady : Proc → Prop
  | .task t => ∀ loaded ∈ t.pc.decrementing, 0 < loaded.activeContainers
  | .heartbeat _ _ pc => pc.Counted
  | _ => True

/-- The execution may have a container. -/
def TaskPc.containing : TaskPc → Bool
  | .stream | .wait | .collect | .verdictRead | .verdictCommit _ | .failedRead | .failedCommit _
  | .release | .cleanup => true
  | _ => false

/-- The containers of tests on the host are those of executions that will remove them. -/
def Contained (h : String) (s : Sys) : Prop :=
  ∀ k q, (s.world.docker h).statusOf k q ≠ none → ∃ t, s.procs[q]? = some (.task t) ∧
    t.host = h ∧ t.bundle.testId = k ∧ t.pc.containing = true

structure Gauged (h : String) (s : Sys) : Prop where
  account : Accounted Gauge h s
  steady : Pool.All s.procs fun _ proc => proc.Steady
  contained : Contained h s

variable {s s' : Sys} {w w' : World} {p : ℕ} {proc proc' : Proc} {h : String} {o : Outcome}
  {url : Option String}

/-! ### The gauge -/

/-- What the condition says at a step keeps the gauge. -/
lemma NoneOutdated.keeps {a : Act} (hcount : NoneOutdated s a)
    (hsteady : Pool.All s.procs fun _ proc => proc.Steady) : KeepsAccount Gauge h s a where
  reserve := by
    rintro p o bundle chosen queue returning rfl hp rfl hpos rfl hgauge r ⟨⟩
    -- The reservation is counted as held from its commit on.
    obtain ⟨-, hle⟩ := hgauge chosen rfl
    simp only [WorkerHost.increment]
    omega
  decrement := by
    rintro p o t loaded held returning rfl hp hpc hgauge r ⟨⟩
    have hpos : 0 < loaded.activeContainers := hsteady p _ hp loaded (by rw [hpc]; rfl)
    obtain ⟨-, hle⟩ := hgauge loaded rfl
    simp only [WorkerHost.decrement]
    omega
  skip := by
    intro row held returning hnone hgauge r hr
    obtain ⟨hpos, -⟩ := hgauge r hr
    have := hnone r hr
    omega
  leave := by
    intro row held returning hgauge
    exact hgauge
  beat := by
    rintro p o cpu live loaded now returning rfl hp hgauge r ⟨⟩
    -- A heartbeat stores what it counted, which by the guard covers what is held.
    exact ⟨hsteady p _ hp, hcount _ hp live rfl⟩
  register := by
    rintro p o cpu live now returning rfl hp hgauge r ⟨⟩
    exact ⟨hsteady p _ hp, hcount _ hp live rfl⟩
  redeliver := by
    intro i _ hgauge r hr
    obtain ⟨hpos, hle⟩ := hgauge r hr
    omega

lemma TaskRule.steady {t t' : Task} (h : TaskRule p w t o w' t') : (Proc.task t').Steady := by
  cases h with
  | decrementRead hpc hrow hpos =>
    rintro loaded ⟨⟩
    exact hpos
  | _ => simp [Proc.Steady, TaskPc.decrementing]

lemma HeartbeatRule.steady {hostId : String} {cpu : ℚ} {pc pc' : HeartbeatPc}
    (h : HeartbeatRule p hostId cpu w pc (.ok url) w' pc') (hs : pc.Counted) : pc'.Counted := by
  cases h with
  | count => exact Int.natCast_nonneg _
  | cached => exact hs.elim
  | read | stamp => exact hs
  | update | register => trivial

lemma steady_step {a : Act} (hi : Pool.All s.procs fun _ proc => proc.Steady)
    (hfree : NothingFails a) (hs : step s a = some s') :
    Pool.All s'.procs fun _ proc => proc.Steady := by
  have hset {p : ℕ} {proc proc' : Proc} (hp : s.procs[p]? = some proc) (hsteady : proc'.Steady) :
      Pool.All (s.procs.set p proc') fun _ proc => proc.Steady :=
    (Pool.all_set hp).mpr ⟨hsteady, fun j other _ hget => hi j other hget⟩
  cases SysRule.of_step hs with
  | @launch l =>
    refine Pool.all_append_singleton.mpr ⟨hi, ?_⟩
    cases l <;> trivial
  | deliver hm hq | redeliver hm hq =>
    refine Pool.all_append_singleton.mpr ⟨hi, ?_⟩
    simp [Proc.Steady, Task.init, TaskPc.decrementing]
  | submit hp hr => exact hset hp trivial
  | task hp hr => exact hset hp hr.steady
  | @heartbeat p o _ _ _ _ _ hp hr =>
    cases o with
    | ok url => exact hset hp (hr.steady (hi p _ hp))
    | raises => exact hfree.elim
  | update hp hr => exact hset hp trivial
  | sweep hp hr => exact hset hp trivial
  | reap hp hr => exact hset hp trivial
  | kill hp => exact hset hp trivial
  | exit hc hrun => exact hi
  | tick => exact hi

/-! ### The containers -/

lemma SubmitRule.docker {bundle : TestBundleRequest} {pc pc' : SubmitPc}
    (h : SubmitRule p bundle w pc o w' pc') : w'.docker = w.docker := by
  cases h with
  | reserve hw =>
    obtain ⟨-, rfl⟩ := World.commitHost_eq_some hw
    rfl
  | undo hpos hw =>
    obtain ⟨-, rfl⟩ := World.commitHost_eq_some hw
    rfl
  | _ => rfl

lemma HeartbeatRule.docker {hostId : String} {cpu : ℚ} {pc pc' : HeartbeatPc}
    (h : HeartbeatRule p hostId cpu w pc o w' pc') : w'.docker = w.docker := by
  cases h with
  | update hw =>
    obtain ⟨-, rfl⟩ := World.commitHost_eq_some hw
    rfl
  | register hw =>
    obtain ⟨t, -, rfl⟩ := Option.map_eq_some_iff.mp hw
    rfl
  | _ => rfl

/-- A step without failure that leaves Docker alone leaves the execution in front of its cleanup. -/
lemma TaskRule.containing {t t' : Task} (hr : TaskRule p w t (.ok url) w' t')
    (hpc : t.pc.containing = true) (hcleanup : t.pc ≠ .cleanup) : t'.pc.containing = true := by
  cases hr with
  | cleanup h => exact absurd h hcleanup
  | setup h | runningRead h | runningNone h | running h | prepare h | start h | decrementRead h
  | decrementNone h | decrement h | close h => simp [h, TaskPc.containing] at hpc
  | _ => rfl

/-- The containers of an execution after its step. -/
lemma Contained.task {t t' : Task} (hi : Contained h s) (hp : s.procs[p]? = some (.task t))
    (hr : TaskRule p s.world t (.ok url) w' t') :
    Contained h ⟨w', s.procs.set p (.task t')⟩ := by
  intro k q hq
  by_cases hqp : q = p
  · subst hqp
    refine ⟨t', by rw [Pool.getElem?_set_of_get hp, if_pos rfl], ?_⟩
    rw [hr.same.1, hr.same.2]
    -- the container was there before the step
    have hold (hold : (s.world.docker h).statusOf k q ≠ none) :
        t.host = h ∧ t.bundle.testId = k ∧ t.pc.containing = true := by
      obtain ⟨t₁, hget, hown⟩ := hi k q hold
      obtain rfl := Proc.task.inj (Option.some.inj (hget.symm.trans hp))
      exact hown
    -- and stays in the part of the program that has it, but for the cleanup
    have hkeep (hst : (s.world.docker h).statusOf k q ≠ none) (hcleanup : t.pc ≠ .cleanup) :
        t.host = h ∧ t.bundle.testId = k ∧ t'.pc.containing = true := by
      obtain ⟨hhost, hk, hpc⟩ := hold hst
      exact ⟨hhost, hk, hr.containing hpc hcleanup⟩
    cases hr with
    | start hpc hd =>
      by_cases hhost : h = t.host
      · subst hhost
        rw [World.docker_setDaemon, if_pos rfl, Daemon.statusOf_run hd] at hq
        split_ifs at hq with heq
        · exact ⟨rfl, heq.1.symm, rfl⟩
        · exact hkeep hq (by simp [hpc])
      · rw [World.docker_setDaemon, if_neg hhost] at hq
        exact hkeep hq (by simp [hpc])
    | cleanup hpc =>
      by_cases hhost : h = t.host
      · subst hhost
        rw [World.docker_setDaemon, if_pos rfl, Daemon.statusOf_remove] at hq
        split_ifs at hq with heq
        · exact absurd rfl hq
        · exact absurd (hold hq).2.1.symm heq
      · rw [World.docker_setDaemon, if_neg hhost] at hq
        exact absurd (hold hq).1.symm hhost
    | decrement hpc hw =>
      obtain ⟨-, rfl⟩ := World.commitHost_eq_some hw
      exact hkeep hq (by simp [hpc])
    | _ hpc => exact hkeep hq (by simp [hpc])
  · obtain ⟨t₁, hget, hown⟩ := hi k q (hr.statusOf_other hqp hq)
    exact ⟨t₁, by rw [Pool.getElem?_set_of_get hp, if_neg hqp, hget], hown⟩

/-- A process that is no execution moved. -/
lemma Contained.other (hi : Contained h s) (hp : s.procs[p]? = some proc)
    (hdocker : w'.docker = s.world.docker) (hproc : ∀ t, proc ≠ .task t) :
    Contained h ⟨w', s.procs.set p proc'⟩ := by
  intro k q hq
  rw [hdocker] at hq
  obtain ⟨t, hget, hown⟩ := hi k q hq
  have hqp : q ≠ p := by
    rintro rfl
    exact hproc t (Option.some.inj (hp.symm.trans hget))
  exact ⟨t, by rw [Pool.getElem?_set_of_get hp, if_neg hqp, hget], hown⟩

lemma Contained.append (hi : Contained h s) (hdocker : w'.docker = s.world.docker)
    (ps : List Proc) : Contained h ⟨w', s.procs ++ ps⟩ := by
  intro k q hq
  rw [hdocker] at hq
  obtain ⟨t, hget, hown⟩ := hi k q hq
  exact ⟨t, Pool.getElem?_append_of_get hget, hown⟩

lemma contained_step {a : Act} (hi : Contained h s) (hkind : Among [.submit, .task, .heartbeat] s a)
    (hfree : NothingFails a) (hs : step s a = some s') : Contained h s' := by
  cases SysRule.of_step hs with
  | launch => exact hi.append rfl _
  | deliver hm hq => exact hi.append rfl _
  | redeliver hm hq => exact hi.append rfl _
  | submit hp hr => exact hi.other hp hr.docker (by simp)
  | @task _ o _ _ _ hp hr =>
    cases o with
    | ok url => exact hi.task hp hr
    | raises => exact hfree.elim
  | heartbeat hp hr => exact hi.other hp hr.docker (by simp)
  | update hp hr => exact absurd (hkind _ hp) (by simp [Proc.kind])
  | sweep hp hr => exact absurd (hkind _ hp) (by simp [Proc.kind])
  | reap hp hr => exact absurd (hkind _ hp) (by simp [Proc.kind])
  | kill hp => exact hfree.elim
  | exit hc hrun =>
    intro k q hq
    refine hi k q fun hnone => hq ?_
    rw [World.docker_setDaemon]
    split_ifs with hhost
    · subst hhost
      exact (Daemon.statusOf_setStatus k q).mpr hnone
    · exact hnone
  | tick => exact hi

/-! ### A host at rest -/

/-- Nothing holds a slot of a host at rest. -/
lemma Sys.AtRest.held (hrest : s.AtRest h) : s.held h = 0 := by
  have hqueue : s.world.queue.countP (consumes h) = 0 :=
    List.countP_eq_zero.mpr fun m hm => by simp [hrest.1 m hm]
  have hprocs : s.procs.countP (Proc.holdsSlot h) = 0 := by
    rw [List.countP_eq_zero]
    intro proc hmem hholds
    have hengaged := hrest.2 proc hmem
    cases proc with
    | submit bundle pc =>
      cases pc with
      | send chosen queue => simp_all [Proc.engaged, Proc.holdsSlot]
      | _ => cases hholds
    | task t => simp_all [Proc.engaged, Proc.holdsSlot]
    | _ => cases hholds
  rw [Sys.held, hqueue, hprocs]

/-- No container of a test is left on a host at rest. -/
lemma Contained.startedCount (hi : Contained h s) (hrest : s.AtRest h) :
    (s.world.docker h).startedCount = 0 := by
  apply Daemon.startedCount_eq_zero
  intro k q
  by_contra hne
  obtain ⟨t, hget, hhost, -, hpc⟩ := hi k q hne
  have hengaged := hrest.2 _ (List.mem_of_getElem? hget)
  have hexec : t.pc.executing = true := by
    revert hpc
    cases t.pc <;> simp [TaskPc.containing, TaskPc.executing]
  simp [Proc.engaged, hhost, hexec] at hengaged

/-- In every run without failures, with atomic sessions, that stores no outdated count: whenever the
host is at rest, its gauge is the number of containers that were started and still run, which is
zero. -/
theorem gauge_at_rest {s₀ : Sys} {row : WorkerHost} (h₀ : s₀.Fresh)
    (hzero : ∀ row, s₀.world.hosts.get? h = some row → row.activeContainers = 0)
    (hrun : Reaches step (fun s a => (Among [.submit, .task, .heartbeat] s a ∧ NothingFails a ∧
      SessionsAtomic s a) ∧ NoneOutdated s a) s₀ s)
    (hrest : s.AtRest h) (hrow : s.world.hosts.get? h = some row) :
    row.activeContainers = (s.world.docker h).startedCount ∧
      (s.world.docker h).startedCount = 0 := by
  have hi : Gauged h s := by
    refine hrun.invariant ?_ fun _ _ _ hi hG hs => {
      account := accounted_step hi.account hG.1.1 hG.1.2.1 hG.1.2.2 (hG.2.keeps hi.steady) hs
      steady := steady_step hi.steady hG.1.2.1 hs
      contained := contained_step hi.contained hG.1.1 hG.1.2.1 hs }
    refine ⟨⟨by simp [Sys.Locked, h₀.idle.1], by simp [h₀.idle.1], ?_⟩, by simp [h₀.idle.1], ?_⟩
    · intro r hr
      simp [hzero r hr]
    · intro k q hq
      exact absurd (h₀.docker h k q) hq
  have hcount := hi.contained.startedCount hrest
  obtain ⟨hpos, hle⟩ := hi.account.account row hrow
  rw [hrest.held] at hle
  refine ⟨?_, hcount⟩
  rw [hcount]
  push_cast at hle ⊢
  omega

/-- The rest of the execution of `orderlyRun`, from the end of its container. -/
def finishOrderly : List Act :=
  [.exit "h" "test_t" 0] ++ List.replicate 8 (.advance 1 (.ok none))

lemma idleHost_zero {row : WorkerHost}
    (hrow : (Sys.single idleHost).world.hosts.get? "h" = some row) : row.activeContainers = 0 := by
  obtain rfl : idleHost = row := Option.some.inj hrow
  rfl

/-- A heartbeat that counts and stores while the container runs. -/
theorem beatWhileRunning_at_rest : ∃ s : Sys, s.procs.length = 3 ∧ s.AtRest "h" ∧
    ∃ row : WorkerHost, s.world.hosts.get? "h" = some row ∧
      row.activeContainers = (s.world.docker "h").startedCount ∧
      (s.world.docker "h").startedCount = 0 := by
  obtain ⟨s, hs, hp⟩ := exists_reaches_of_guardedRun step
    (fun s a => (Among [.submit, .task, .heartbeat] s a ∧ NothingFails a ∧ SessionsAtomic s a) ∧
      NoneOutdated s a)
    (.single idleHost) (orderlyRun.take 13 ++ [.launch (.heartbeat "h" 7)] ++
      List.replicate 4 (.advance 2 (.ok none)) ++ finishOrderly)
    (fun s => s.procs.length = 3 && s.AtRest "h" && (s.world.hosts.get? "h").isSome)
    (by decide +kernel)
  simp only [Bool.and_eq_true, decide_eq_true_eq, Option.isSome_iff_exists] at hp
  obtain ⟨⟨hlen, hrest⟩, row, hrow⟩ := hp
  exact ⟨s, hlen, hrest, row, hrow,
    gauge_at_rest (.single _) (fun _ => idleHost_zero) hs hrest hrow⟩

/-- The heartbeat counts the container while it runs, and stores the count after the slot was given
back. -/
theorem lateStore_drifts :
    ¬ ∀ (s₀ s : Sys) (h : String) (row : WorkerHost), s₀.Fresh →
      (∀ row, s₀.world.hosts.get? h = some row → row.activeContainers = 0) →
      Reaches step (fun s a => Among [.submit, .task, .heartbeat] s a ∧ NothingFails a ∧
        SessionsAtomic s a) s₀ s →
      s.AtRest h → s.world.hosts.get? h = some row →
      row.activeContainers = (s.world.docker h).startedCount ∧
        (s.world.docker h).startedCount = 0 := by
  intro hall
  obtain ⟨s, hs, hp⟩ := exists_reaches_of_guardedRun step
    (fun s a => Among [.submit, .task, .heartbeat] s a ∧ NothingFails a ∧ SessionsAtomic s a)
    (.single idleHost) (orderlyRun.take 13 ++ [.launch (.heartbeat "h" 7), .advance 2 (.ok none)] ++
      finishOrderly ++ List.replicate 3 (.advance 2 (.ok none)))
    (fun s => s.AtRest "h" && (s.world.hosts.get? "h").any fun row => row.activeContainers = 1)
    (by decide +kernel)
  simp only [Bool.and_eq_true, decide_eq_true_eq, Option.any_eq_true] at hp
  obtain ⟨hrest, row, hrow, hone⟩ := hp
  obtain ⟨hgauge, hcount⟩ := hall _ s "h" row (.single _) (fun _ => idleHost_zero) hs hrest hrow
  rw [hone, hcount] at hgauge
  exact absurd hgauge (by decide)

end TestOrch
