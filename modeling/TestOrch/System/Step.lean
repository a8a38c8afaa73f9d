import TestOrch.Core.Transition
import TestOrch.System.Task
import TestOrch.System.Inventory
import TestOrch.System.Sweep

/-!
# The system

Any number of processes run side by side on the shared state; a process is named by its position in
the pool. An action lets one process take its next access, starts a process, hands a message to a
worker (for the first time or again), ends a process, or is a step of the surroundings: a container
exits, or time passes.
-/

namespace TestOrch

/-- The processes. A dead one keeps what it was when it was killed. -/
inductive Proc where
  | submit (bundle : TestBundleRequest) (pc : SubmitPc)
  | task (t : Task)
  | heartbeat (hostId : String) (cpu : ℚ) (pc : HeartbeatPc)
  | update (form : HostForm) (pc : UpdatePc)
  | sweep (maxAge : ℤ) (pc : SweepPc)
  | reap (hostId : String) (pc : ReapPc)
  | dead (was : Proc)

def Proc.step (p : ℕ) (w : World) (proc : Proc) (o : Outcome) : Option (World × Proc) :=
  match proc with
  | .submit bundle pc => (submitStep p bundle w pc o).map fun (w', pc') => (w', .submit bundle pc')
  | .task t => (taskStep p w t o).map fun (w', t') => (w', .task t')
  | .heartbeat hostId cpu pc =>
    (heartbeatStep p hostId cpu w pc o).map fun (w', pc') => (w', .heartbeat hostId cpu pc')
  | .update form pc => (updateStep p form w pc o).map fun (w', pc') => (w', .update form pc')
  | .sweep maxAge pc => (sweepStep p maxAge w pc o).map fun (w', pc') => (w', .sweep maxAge pc')
  | .reap hostId pc => (reapStep hostId w pc o).map fun (w', pc') => (w', .reap hostId pc')
  | .dead _ => none

/-- What starts by itself: a request, a scheduled task, the timer of the sweep. -/
inductive Launch where
  | submit (bundle : TestBundleRequest)
  | heartbeat (hostId : String) (cpu : ℚ)
  | update (form : HostForm)
  | sweep (maxAge : ℤ)
  | reap (hostId : String)

def Launch.proc : Launch → Proc
  | .submit bundle => .submit bundle .insert
  | .heartbeat hostId cpu => .heartbeat hostId cpu .count
  | .update form => .update form .read
  | .sweep maxAge => .sweep maxAge .start
  | .reap hostId => .reap hostId .start

structure Sys where
  world : World
  procs : List Proc

inductive Act where
  | launch (l : Launch)
  /-- The `i`-th queued message is handed to the worker of `host`. -/
  | deliver (i : ℕ) (host : String)
  /-- The `i`-th delivered message is handed out once more. -/
  | redeliver (i : ℕ) (host : String)
  | advance (p : ℕ) (o : Outcome)
  | kill (p : ℕ)
  /-- A running container of `host` ends. -/
  | exit (host name : String) (code : ℤ)
  | tick (dt : ℕ)

/-- A worker consumes only the queue of its own host. -/
def consumes (host : String) (m : Message) : Bool :=
  match queueNameFor host with
  | .ok queue => queue = m.queue
  | .error _ => false

def step (s : Sys) : Act → Option Sys
  | .launch l => some { s with procs := s.procs ++ [l.proc] }
  | .deliver i host => do
    let m ← s.world.queue[i]?
    if consumes host m then
      some ⟨s.world.handOut i m, s.procs ++ [.task (.init host m.bundle)]⟩
    else none
  | .redeliver i host => do
    let m ← s.world.delivered[i]?
    if consumes host m then some { s with procs := s.procs ++ [.task (.init host m.bundle)] }
    else none
  | .advance p o => do
    let proc ← s.procs[p]?
    (proc.step p s.world o).map fun (w', proc') => ⟨w', s.procs.set p proc'⟩
  | .kill p => do
    let proc ← s.procs[p]?
    match proc with
    | .dead _ => none
    | proc => some ⟨s.world.unlock p, s.procs.set p (.dead proc)⟩
  | .exit host name code => do
    let c ← (s.world.docker host).containers.get? name
    if c.status = .running then
      some ⟨s.world.setDaemon host ((s.world.docker host).setStatus name (.exited code)), s.procs⟩
    else none
  | .tick dt => some ⟨s.world.tick dt, s.procs⟩

/-- The steps of the system, one rule for each kind of step. -/
inductive SysRule (s : Sys) : Act → Sys → Prop
  | launch {l} : SysRule s (.launch l) { s with procs := s.procs ++ [l.proc] }
  | deliver {i host m} (hm : s.world.queue[i]? = some m) (hq : consumes host m = true) :
      SysRule s (.deliver i host)
        ⟨s.world.handOut i m, s.procs ++ [.task (.init host m.bundle)]⟩
  | redeliver {i host m} (hm : s.world.delivered[i]? = some m) (hq : consumes host m = true) :
      SysRule s (.redeliver i host) { s with procs := s.procs ++ [.task (.init host m.bundle)] }
  | submit {p o bundle pc w' pc'} (hp : s.procs[p]? = some (.submit bundle pc))
      (h : SubmitRule p bundle s.world pc o w' pc') :
      SysRule s (.advance p o) ⟨w', s.procs.set p (.submit bundle pc')⟩
  | task {p o t w' t'} (hp : s.procs[p]? = some (.task t)) (h : TaskRule p s.world t o w' t') :
      SysRule s (.advance p o) ⟨w', s.procs.set p (.task t')⟩
  | heartbeat {p o hostId cpu pc w' pc'} (hp : s.procs[p]? = some (.heartbeat hostId cpu pc))
      (h : HeartbeatRule p hostId cpu s.world pc o w' pc') :
      SysRule s (.advance p o) ⟨w', s.procs.set p (.heartbeat hostId cpu pc')⟩
  | update {p o form pc w' pc'} (hp : s.procs[p]? = some (.update form pc))
      (h : UpdateRule p form s.world pc o w' pc') :
      SysRule s (.advance p o) ⟨w', s.procs.set p (.update form pc')⟩
  | sweep {p o maxAge pc w' pc'} (hp : s.procs[p]? = some (.sweep maxAge pc))
      (h : SweepRule p maxAge s.world pc o w' pc') :
      SysRule s (.advance p o) ⟨w', s.procs.set p (.sweep maxAge pc')⟩
  | reap {p o hostId pc w' pc'} (hp : s.procs[p]? = some (.reap hostId pc))
      (h : ReapRule hostId s.world pc o w' pc') :
      SysRule s (.advance p o) ⟨w', s.procs.set p (.reap hostId pc')⟩
  | kill {p proc} (hp : s.procs[p]? = some proc) :
      SysRule s (.kill p) ⟨s.world.unlock p, s.procs.set p (.dead proc)⟩
  | exit {host name code c} (hc : (s.world.docker host).containers.get? name = some c)
      (hrun : c.status = .running) :
      SysRule s (.exit host name code)
        ⟨s.world.setDaemon host ((s.world.docker host).setStatus name (.exited code)), s.procs⟩
  | tick {dt} : SysRule s (.tick dt) ⟨s.world.tick dt, s.procs⟩

variable {s s' : Sys}

lemma SysRule.of_procStep {p : ℕ} {proc proc' : Proc} {w' : World} {o : Outcome}
    (hp : s.procs[p]? = some proc) (h : proc.step p s.world o = some (w', proc')) :
    SysRule s (.advance p o) ⟨w', s.procs.set p proc'⟩ := by
  cases proc with
  | submit bundle pc =>
    obtain ⟨⟨w'', pc'⟩, hs, heq⟩ := Option.map_eq_some_iff.mp h
    obtain ⟨rfl, rfl⟩ := Prod.mk.inj heq
    exact .submit hp (.of_submitStep hs)
  | task t =>
    obtain ⟨⟨w'', t'⟩, hs, heq⟩ := Option.map_eq_some_iff.mp h
    obtain ⟨rfl, rfl⟩ := Prod.mk.inj heq
    exact .task hp (.of_taskStep hs)
  | heartbeat hostId cpu pc =>
    obtain ⟨⟨w'', pc'⟩, hs, heq⟩ := Option.map_eq_some_iff.mp h
    obtain ⟨rfl, rfl⟩ := Prod.mk.inj heq
    exact .heartbeat hp (.of_heartbeatStep hs)
  | update form pc =>
    obtain ⟨⟨w'', pc'⟩, hs, heq⟩ := Option.map_eq_some_iff.mp h
    obtain ⟨rfl, rfl⟩ := Prod.mk.inj heq
    exact .update hp (.of_updateStep hs)
  | sweep maxAge pc =>
    obtain ⟨⟨w'', pc'⟩, hs, heq⟩ := Option.map_eq_some_iff.mp h
    obtain ⟨rfl, rfl⟩ := Prod.mk.inj heq
    exact .sweep hp (.of_sweepStep hs)
  | reap hostId pc =>
    obtain ⟨⟨w'', pc'⟩, hs, heq⟩ := Option.map_eq_some_iff.mp h
    obtain ⟨rfl, rfl⟩ := Prod.mk.inj heq
    exact .reap hp (.of_reapStep hs)
  | dead was => cases h

/-- Every step of the system is an instance of a rule. -/
theorem SysRule.of_step {a : Act} (h : step s a = some s') : SysRule s a s' := by
  cases a with
  | launch l =>
    obtain rfl := Option.some.inj h
    exact .launch
  | deliver i host =>
    obtain ⟨m, hm, h⟩ := Option.bind_eq_some_iff.mp h
    split_ifs at h with hq
    obtain rfl := Option.some.inj h
    exact .deliver hm hq
  | redeliver i host =>
    obtain ⟨m, hm, h⟩ := Option.bind_eq_some_iff.mp h
    split_ifs at h with hq
    obtain rfl := Option.some.inj h
    exact .redeliver hm hq
  | advance p o =>
    obtain ⟨proc, hp, h⟩ := Option.bind_eq_some_iff.mp h
    obtain ⟨⟨w', proc'⟩, hs, rfl⟩ := Option.map_eq_some_iff.mp h
    exact .of_procStep hp hs
  | kill p =>
    obtain ⟨proc, hp, h⟩ := Option.bind_eq_some_iff.mp h
    split at h
    · cases h
    · obtain rfl := Option.some.inj h
      exact .kill hp
  | exit host name code =>
    obtain ⟨c, hc, h⟩ := Option.bind_eq_some_iff.mp h
    split_ifs at h with hrun
    obtain rfl := Option.some.inj h
    exact .exit hc hrun
  | tick dt =>
    obtain rfl := Option.some.inj h
    exact .tick

/-- How much time the action takes. -/
def Act.elapsed : Act → ℕ
  | .tick dt => dt
  | _ => 0

/-- Only the clock tells how late it is. -/
lemma clock_of_step {a : Act} (h : step s a = some s') :
    s'.world.clock = s.world.clock + a.elapsed := by
  have hcommit : ∀ {p k} {loaded new : WorkerHost} {w w' : World},
      w.commitHost p k loaded new = some w' → w'.clock = w.clock := by
    intro p k loaded new w w' hw
    obtain ⟨-, rfl⟩ := World.commitHost_eq_some hw
    rfl
  -- Every step but `tick` leaves the clock.
  suffices hstill : (∀ dt, a ≠ .tick dt) → s'.world.clock = s.world.clock by
    cases a with
    | tick dt =>
      obtain rfl := Option.some.inj h
      rfl
    | _ => exact (hstill (by simp)).trans (Int.add_zero _).symm
  intro ha
  cases SysRule.of_step h with
  | submit hp hr =>
    cases hr with
    | reserve hw | undo hpos hw => exact hcommit hw
    | _ => rfl
  | task hp hr =>
    cases hr with
    | decrement hpc hw => exact hcommit hw
    | _ => rfl
  | heartbeat hp hr =>
    cases hr with
    | update hw => exact hcommit hw
    | register hw =>
      obtain ⟨t, -, rfl⟩ := Option.map_eq_some_iff.mp hw
      rfl
    | _ => rfl
  | update hp hr =>
    cases hr with
    | commit hw => exact hcommit hw
    | _ => rfl
  | sweep hp hr => cases hr <;> rfl
  | reap hp hr => cases hr <;> rfl
  | @tick dt => exact absurd rfl (ha dt)
  | _ => rfl

lemma clock_le_of_step {a : Act} (h : step s a = some s') : s.world.clock ≤ s'.world.clock := by
  rw [clock_of_step h]
  exact Int.le_add_of_nonneg_right (Int.natCast_nonneg _)

inductive Kind where
  | submit
  | task
  | heartbeat
  | update
  | sweep
  | reap
  | dead
  deriving DecidableEq, Repr

def Proc.kind : Proc → Kind
  | .submit .. => .submit
  | .task _ => .task
  | .heartbeat .. => .heartbeat
  | .update .. => .update
  | .sweep .. => .sweep
  | .reap .. => .reap
  | .dead _ => .dead

def Proc.sweep? : Proc → Option (ℤ × SweepPc)
  | .sweep maxAge pc => some (maxAge, pc)
  | _ => none

lemma Proc.sweep?_eq_some {proc : Proc} {maxAge : ℤ} {pc : SweepPc} :
    proc.sweep? = some (maxAge, pc) ↔ proc = .sweep maxAge pc := by
  cases proc <;> simp [sweep?]

instance (proc : Option Proc) (maxAge : ℤ) (pc : SweepPc) :
    Decidable (proc = some (.sweep maxAge pc)) :=
  decidable_of_iff (proc.bind Proc.sweep? = some (maxAge, pc)) <| by
    simp [Option.bind_eq_some_iff, Proc.sweep?_eq_some]

/-- Only processes of the given kinds start and move. -/
def Among (kinds : List Kind) (s : Sys) : Act → Prop
  | .launch l => l.proc.kind ∈ kinds
  | .deliver .. | .redeliver .. => .task ∈ kinds
  | .advance p _ => ∀ proc ∈ s.procs[p]?, proc.kind ∈ kinds
  | .kill _ | .exit .. | .tick _ => True

instance (kinds : List Kind) (s : Sys) : ∀ a, Decidable (Among kinds s a)
  | .launch l => inferInstanceAs (Decidable (l.proc.kind ∈ kinds))
  | .deliver .. | .redeliver .. => inferInstanceAs (Decidable (Kind.task ∈ kinds))
  | .advance p _ => inferInstanceAs (Decidable (∀ proc ∈ s.procs[p]?, proc.kind ∈ kinds))
  | .kill _ | .exit .. | .tick _ => inferInstanceAs (Decidable True)

/-- Nothing is running: a freshly started deployment over any tables. -/
def Sys.Idle (s : Sys) : Prop := s.procs = [] ∧ s.world.locks = []

def Sys.single (host : WorkerHost) : Sys where
  world := ⟨0, ⟨[host], by simp⟩, [], .empty _, [], [], fun _ => .empty, []⟩
  procs := []

lemma Sys.Idle.single (host : WorkerHost) : (Sys.single host).Idle := ⟨rfl, rfl⟩

/-- An online host with one free slot. -/
def idleHost : WorkerHost := ⟨"h", true, 0, 1, 0, "", false, some (.utc 0)⟩

end TestOrch
