import TestOrch.System.Locks

/-!
# The slot counter

Four paths read and write `active_containers`: the reservation of `dispatch`, its undo, the
decrement after an execution, and the heartbeat. Only the first one holds a row lock in between. No
update is lost as long as the counter that the other three write over is the one they have read.
-/

namespace TestOrch

open Transition

/-- The process will ask Docker for the number of running containers. -/
def Proc.queriesDocker : Proc → Bool
  | .heartbeat _ _ .count => true
  | _ => false

def TaskPc.decrementing : TaskPc → Option WorkerHost
  | .decrementCommit loaded => some loaded
  | _ => none

/-- The next access of the process may fail: the send of a message, the Docker query of a heartbeat,
or anything in an execution except the database session of its decrement. -/
def Proc.mayFail : Proc → Bool
  | .submit _ (.send ..) => true
  | .heartbeat _ _ .count => true
  | .task t => t.pc ≠ .decrementRead && t.pc.decrementing.isNone
  | _ => false

/-- The runs considered: sends may fail, and the Docker query of every heartbeat does. -/
def OnlySendFails (s : Sys) : Act → Prop
  | .advance p (.ok _) => ∀ proc ∈ s.procs[p]?, proc.queriesDocker = false
  | .advance p .raises => ∀ proc ∈ s.procs[p]?, proc.mayFail = true
  | .kill _ => False
  | _ => True

instance (s : Sys) : ∀ a, Decidable (OnlySendFails s a)
  | .advance p (.ok _) | .advance p .raises =>
    inferInstanceAs (Decidable (∀ proc ∈ s.procs[p]?, _))
  | .kill _ => inferInstanceAs (Decidable False)
  | .launch _ | .deliver .. | .redeliver .. | .exit .. | .tick _ =>
    inferInstanceAs (Decidable True)

def SubmitPc.undoing : SubmitPc → Option WorkerHost
  | .undo row => some row
  | _ => none

/-- The count that a heartbeat is about to store, and the row that it has loaded. -/
def HeartbeatPc.updating : HeartbeatPc → Option (ℤ × WorkerHost)
  | .commit live loaded _ => loaded.map (live, ·)
  | _ => none

/-- The next commit of the process writes over the counter that it assumes: the undo and the
decrement over the one they have loaded, the heartbeat over the one it has cached. -/
def Proc.KeepsCount (w : World) : Proc → Prop
  | .submit _ pc => ∀ row ∈ pc.undoing, ∀ stored ∈ w.hosts.get? row.hostId,
      stored.activeContainers = row.activeContainers
  | .task t => ∀ loaded ∈ t.pc.decrementing, ∀ stored ∈ w.hosts.get? t.host,
      stored.activeContainers = loaded.activeContainers
  | .heartbeat hostId _ pc => ∀ write ∈ pc.updating, write.1 ≠ write.2.activeContainers →
      ∀ stored ∈ w.hosts.get? hostId, stored.activeContainers = write.1
  | _ => True

instance (w : World) : ∀ proc : Proc, Decidable (proc.KeepsCount w)
  | .submit _ pc => inferInstanceAs (Decidable (∀ row ∈ pc.undoing, _))
  | .task t => inferInstanceAs (Decidable (∀ loaded ∈ t.pc.decrementing, _))
  | .heartbeat _ _ pc => inferInstanceAs (Decidable (∀ write ∈ pc.updating, _ → _))
  | .update .. | .sweep .. | .reap .. | .dead _ => inferInstanceAs (Decidable True)

/-- The condition on a run: no commit without a lock writes over a counter that somebody changed. -/
def CountKept (s : Sys) : Act → Prop
  | .advance p (.ok _) => ∀ proc ∈ s.procs[p]?, proc.KeepsCount s.world
  | _ => True

instance (s : Sys) : ∀ a, Decidable (CountKept s a)
  | .advance p (.ok _) => inferInstanceAs (Decidable (∀ proc ∈ s.procs[p]?, _))
  | .advance _ .raises | .launch _ | .deliver .. | .redeliver .. | .kill _ | .exit .. | .tick _ =>
    inferInstanceAs (Decidable True)

/-- The process is a request whose reservation on the host is committed and not undone. -/
def Proc.reserved (h : String) : Proc → Bool
  | .submit _ (.send chosen _) => chosen.hostId = h
  | .submit _ (.undo row) => row.hostId = h
  | .submit _ (.close chosen) => chosen = some h
  | .submit _ (.returned chosen) => chosen = some h
  | _ => false

def Proc.dispatchedTo (h : String) : Proc → Bool
  | .submit _ (.returned chosen) => chosen = some h
  | _ => false

/-- The process is an execution on the host that has called `_decrement_active_containers`. -/
def Proc.decremented (h : String) : Proc → Bool
  | .task t => t.host = h && t.pc.released
  | _ => false

def Proc.finished : Proc → Bool
  | .submit _ (.returned _) | .submit _ .failed => true
  | .task t => !t.pc.executing
  | .heartbeat _ _ .done | .update _ .done | .sweep _ .done | .sweep _ .raised | .reap _ .done
  | .dead _ => true
  | _ => false

def World.active (w : World) (h : String) : Option ℤ :=
  (w.hosts.get? h).map WorkerHost.activeContainers

/-- A request holds a row with a slot to give back, where it holds one at all. -/
def Proc.Sound : Proc → Prop
  | .submit _ (.reserve chosen _) => 0 ≤ chosen.activeContainers
  | .submit _ (.send chosen _) => 0 < chosen.activeContainers
  | .submit _ (.undo row) => 0 < row.activeContainers
  | .submit _ (.refresh _) => False
  | _ => True

/-- The account of the counter of one host with the initial value `a₀`. -/
structure Ledger (h : String) (a₀ : ℤ) (s : Sys) : Prop where
  locked : s.Locked
  sound : Pool.All s.procs fun _ proc => proc.Sound
  balance : ∃ active, s.world.active h = some active ∧
    ((s.procs.countP (Proc.decremented h) : ℤ) ≤ a₀ →
      active + s.procs.countP (Proc.decremented h) = a₀ + s.procs.countP (Proc.reserved h))

variable {s s' : Sys} {w w' : World} {p : ℕ} {proc proc' : Proc} {o : Outcome} {h : String} {a₀ : ℤ}

lemma World.active_of_hosts (hh : w'.hosts = w.hosts) : w'.active h = w.active h := by
  rw [World.active, hh, World.active]

/-- The counter after a commit of the row. -/
lemma World.active_commitHost {k : String} {loaded new : WorkerHost} {active : ℤ}
    (hw : w.commitHost p k loaded new = some w') (ha : w.active h = some active) :
    w'.active h = some (if h = k then
      writeBack loaded.activeContainers new.activeContainers active else active) := by
  obtain ⟨row, hrow, rfl⟩ := Option.map_eq_some_iff.mp ha
  obtain ⟨-, hget⟩ := World.get?_of_commitHost hw
  rw [World.active, hget]
  split_ifs <;> simp [hrow, WorkerHost.flush]

/-- A step that leaves the counter and moves the process between places of the same kind. -/
lemma Ledger.of_same (hi : Ledger h a₀ s) (hp : s.procs[p]? = some proc)
    (hlocked : Sys.Locked ⟨w', s.procs.set p proc'⟩) (hsound : proc'.Sound)
    (hactive : w'.active h = s.world.active h) (hdec : proc'.decremented h = proc.decremented h)
    (hres : proc'.reserved h = proc.reserved h) : Ledger h a₀ ⟨w', s.procs.set p proc'⟩ where
  locked := hlocked
  sound := (Pool.all_set hp).mpr ⟨hsound, fun j other _ hget => hi.sound j other hget⟩
  balance := by
    rw [Pool.countP_set_same hp hdec, Pool.countP_set_same hp hres, hactive]
    exact hi.balance

/-- A step that changes the counter or the counts of the processes. -/
lemma Ledger.of_change (hi : Ledger h a₀ s) (hp : s.procs[p]? = some proc)
    (hlocked : Sys.Locked ⟨w', s.procs.set p proc'⟩) (hsound : proc'.Sound) {active active' : ℤ}
    {dec res : ℕ} (hactive : s.world.active h = some active) (hactive' : w'.active h = some active')
    (hdec : (s.procs.set p proc').countP (Proc.decremented h) = dec)
    (hres : (s.procs.set p proc').countP (Proc.reserved h) = res)
    (hbalance : ((s.procs.countP (Proc.decremented h) : ℤ) ≤ a₀ →
      active + s.procs.countP (Proc.decremented h) = a₀ + s.procs.countP (Proc.reserved h)) →
      (dec : ℤ) ≤ a₀ → active' + dec = a₀ + res) : Ledger h a₀ ⟨w', s.procs.set p proc'⟩ where
  locked := hlocked
  sound := (Pool.all_set hp).mpr ⟨hsound, fun j other _ hget => hi.sound j other hget⟩
  balance := by
    obtain ⟨stored, hstored, hold⟩ := hi.balance
    obtain rfl := Option.some.inj (hstored.symm.trans hactive)
    refine ⟨active', hactive', ?_⟩
    rw [hdec, hres]
    exact hbalance hold

lemma Ledger.submit {bundle : TestBundleRequest} {pc pc' : SubmitPc} (hi : Ledger h a₀ s)
    (hp : s.procs[p]? = some (.submit bundle pc)) (hr : SubmitRule p bundle s.world pc o w' pc')
    (hlocked : Sys.Locked ⟨w', s.procs.set p (.submit bundle pc')⟩)
    (hfail : o = .raises → (Proc.submit bundle pc).mayFail = true)
    (hkeep : o ≠ .raises → (Proc.submit bundle pc).KeepsCount s.world) :
    Ledger h a₀ ⟨w', s.procs.set p (.submit bundle pc')⟩ := by
  have hsound := hi.sound p _ hp
  obtain ⟨active, hactive, -⟩ := hi.balance
  cases hr with
  | select hfree hchosen =>
    exact hi.of_same hp hlocked (chooseHost_spec hchosen).2.2.2 rfl rfl rfl
  | @reserve _ chosen queue _ hw =>
    obtain ⟨-, hrow⟩ := hi.locked p _ hp
    -- The session that reserves holds the lock, so it adds to the stored counter.
    have hnew : 0 < chosen.increment.activeContainers := by
      have : 0 ≤ chosen.activeContainers := hsound
      simp only [WorkerHost.increment]
      omega
    have hactive' := World.active_commitHost hw hactive
    by_cases hk : h = chosen.hostId
    · subst hk
      have hstored : active = chosen.activeContainers := by
        simpa [World.active, hrow] using hactive.symm
      have hplus : w'.active chosen.hostId = some (active + 1) := by
        simp [hactive', WorkerHost.increment, hstored]
      refine hi.of_change hp hlocked hnew hactive hplus (Pool.countP_set_same hp rfl)
        (Pool.countP_set_succ hp rfl (by simp [Proc.reserved, WorkerHost.increment])) ?_
      intro hold hle
      have := hold hle
      omega
    · rw [if_neg hk] at hactive'
      exact hi.of_same hp hlocked hnew (hactive'.trans hactive.symm) rfl
        (by simp [Proc.reserved, WorkerHost.increment, Ne.symm hk])
  | send => exact hi.of_same hp hlocked trivial rfl rfl (by simp [Proc.reserved])
  | sendFails => exact hi.of_same hp hlocked hsound rfl rfl rfl
  | @undo _ row _ hpos hw =>
    have hactive' := World.active_commitHost hw hactive
    by_cases hk : h = row.hostId
    · subst hk
      -- The undo holds no lock; the guard says that its row is still the stored one.
      have hstored : active = row.activeContainers := by
        obtain ⟨stored, hrow, rfl⟩ := Option.map_eq_some_iff.mp hactive
        exact hkeep (by simp) row rfl stored hrow
      have hminus : w'.active row.hostId = some (active - 1) := by
        simp [hactive', WorkerHost.decrement, hstored]
      have hres := Pool.countP_set_pred (p := Proc.reserved row.hostId)
        (b := .submit bundle (.close none)) hp (by simp [Proc.reserved]) (by simp [Proc.reserved])
      apply hi.of_change hp hlocked trivial hactive hminus (Pool.countP_set_same hp rfl) rfl
      intro hold hle
      have := hold hle
      omega
    · rw [if_neg hk] at hactive'
      exact hi.of_same hp hlocked trivial (hactive'.trans hactive.symm) rfl
        (by simp [Proc.reserved, Ne.symm hk])
  | undoNone hnone =>
    cases o with
    | ok url => exact absurd (hnone (by simp)) (not_le.mpr hsound)
    | raises => exact absurd (hfail rfl) (by simp [Proc.mayFail])
  -- Only a send may fail, so no reservation is loaded again.
  | refresh | refreshNone => exact hsound.elim
  | reserveFails | insertFails | selectFails | closeFails =>
    exact absurd (hfail rfl) (by simp [Proc.mayFail])
  | _ => exact hi.of_same hp hlocked trivial rfl rfl (by simp [Proc.reserved])

lemma Ledger.task {t t' : Task} (hi : Ledger h a₀ s) (hp : s.procs[p]? = some (.task t))
    (hr : TaskRule p s.world t o w' t') (hlocked : Sys.Locked ⟨w', s.procs.set p (.task t')⟩)
    (hfail : o = .raises → (Proc.task t).mayFail = true)
    (hkeep : o ≠ .raises → (Proc.task t).KeepsCount s.world) :
    Ledger h a₀ ⟨w', s.procs.set p (.task t')⟩ := by
  obtain ⟨active, hactive, -⟩ := hi.balance
  cases hr with
  | @decrement _ row _ hpc hw =>
    have hactive' := World.active_commitHost hw hactive
    by_cases hk : h = t.host
    · subst hk
      -- The guard says that the row to be written is still the stored one.
      have hstored : active = row.activeContainers := by
        obtain ⟨stored, hrow, rfl⟩ := Option.map_eq_some_iff.mp hactive
        exact hkeep (by simp) row (by rw [hpc]; rfl) stored hrow
      have hminus : w'.active t.host = some (active - 1) := by
        simp [hactive', WorkerHost.decrement, hstored]
      refine hi.of_change hp hlocked trivial hactive hminus
        (Pool.countP_set_succ hp (by simp [Proc.decremented, hpc, TaskPc.released])
          (by simp [Proc.decremented, TaskPc.released])) (Pool.countP_set_same hp rfl) ?_
      intro hold hle
      have := hold (by omega)
      omega
    · rw [if_neg hk] at hactive'
      exact hi.of_same hp hlocked trivial (hactive'.trans hactive.symm)
        (by simp [Proc.decremented, Ne.symm hk]) rfl
  | decrementNone hpc hnone =>
    by_cases hk : h = t.host
    · subst hk
      refine hi.of_change hp hlocked trivial hactive hactive
        (Pool.countP_set_succ hp (by simp [Proc.decremented, hpc, TaskPc.released])
          (by simp [Proc.decremented, TaskPc.released])) (Pool.countP_set_same hp rfl) ?_
      -- as long as the calls are covered, the counter is positive
      intro hold hle
      have hcovered := hold (by omega)
      obtain ⟨stored, hrow, rfl⟩ := Option.map_eq_some_iff.mp hactive
      have := hnone stored hrow
      omega
    · exact hi.of_same hp hlocked trivial rfl (by simp [Proc.decremented, Ne.symm hk]) rfl
  | close hpc =>
    -- Every other step leaves the inventory and the count of releases as they are.
    exact hi.of_same hp hlocked trivial rfl (by simp [Proc.decremented, hpc, TaskPc.released]) rfl
  | abort hpc =>
    refine hi.of_same hp hlocked trivial rfl ?_ rfl
    rcases hpc with h | h | ⟨row, h⟩ <;> simp [Proc.decremented, h, TaskPc.released]
  | leave hpc =>
    refine hi.of_same hp hlocked trivial rfl ?_ rfl
    rcases hpc with h | h | ⟨row, h⟩ <;> simp [Proc.decremented, h, TaskPc.released]
  | crash hpc =>
    refine hi.of_same hp hlocked trivial rfl ?_ rfl
    cases hpc' : t.pc <;> simp_all [Proc.decremented, TaskPc.released, TaskPc.inTry]
  | failedFails hpc =>
    refine hi.of_same hp hlocked trivial rfl ?_ rfl
    rcases hpc with h | ⟨row, h⟩ <;> simp [Proc.decremented, h, TaskPc.released]
  | _ hpc =>
    exact hi.of_same hp hlocked trivial rfl (by simp [Proc.decremented, hpc, TaskPc.released]) rfl

lemma Ledger.heartbeat {hostId : String} {cpu : ℚ} {pc pc' : HeartbeatPc} (hi : Ledger h a₀ s)
    (hp : s.procs[p]? = some (.heartbeat hostId cpu pc))
    (hr : HeartbeatRule p hostId cpu s.world pc o w' pc')
    (hlocked : Sys.Locked ⟨w', s.procs.set p (.heartbeat hostId cpu pc')⟩)
    (hkeep : o ≠ .raises → (Proc.heartbeat hostId cpu pc).KeepsCount s.world) :
    Ledger h a₀ ⟨w', s.procs.set p (.heartbeat hostId cpu pc')⟩ := by
  obtain ⟨active, hactive, -⟩ := hi.balance
  obtain ⟨stored, hrow, hstored⟩ := Option.map_eq_some_iff.mp hactive
  cases hr with
  | @update _ live loaded _ _ hw =>
    refine hi.of_same hp hlocked trivial ?_ rfl rfl
    rw [World.active_commitHost hw hactive, hactive]
    split_ifs with hk
    · subst hk
      unfold writeBack
      split_ifs with hsame
      · rfl
      · have : stored.activeContainers = live :=
          hkeep (by simp) (live, loaded) rfl hsame stored hrow
        simp [WorkerHost.beat, ← hstored, this]
    · rfl
  | @register _ live now _ hw =>
    refine hi.of_same hp hlocked trivial ?_ rfl rfl
    obtain ⟨-, hnone, hget⟩ := World.get?_of_insertHost hw
    have hne : h ≠ ((registeredHost hostId).beat live cpu now).hostId := by
      rintro rfl
      exact absurd (hrow.symm.trans hnone) (by simp)
    rw [World.active, hget, if_neg hne, World.active]
  | _ => exact hi.of_same hp hlocked trivial rfl rfl rfl

lemma Ledger.spawn {new : Proc} (hi : Ledger h a₀ s) (hh : w'.hosts = s.world.hosts)
    (hlocked : Sys.Locked ⟨w', s.procs ++ [new]⟩) (hsound : new.Sound)
    (hdec : new.decremented h = false) (hres : new.reserved h = false) :
    Ledger h a₀ ⟨w', s.procs ++ [new]⟩ where
  locked := hlocked
  sound := Pool.all_append_singleton.mpr ⟨hi.sound, hsound⟩
  balance := by simpa [World.active_of_hosts hh, hdec, hres] using hi.balance

lemma ledger_step {a : Act} (hi : Ledger h a₀ s) (hkind : Among [.submit, .task, .heartbeat] s a)
    (hfail : OnlySendFails s a) (hkeep : CountKept s a) (hs : step s a = some s') :
    Ledger h a₀ s' := by
  have hlocked := locked_step hi.locked hs
  have hmay {p : ℕ} {o : Outcome} {proc : Proc} (hp : s.procs[p]? = some proc)
      (hfail : OnlySendFails s (.advance p o)) : o = .raises → proc.mayFail = true := by
    rintro rfl
    exact hfail proc hp
  have hkeeps {p : ℕ} {o : Outcome} {proc : Proc} (hp : s.procs[p]? = some proc)
      (hkeep : CountKept s (.advance p o)) (ho : o ≠ .raises) : proc.KeepsCount s.world := by
    cases o with
    | ok url => exact hkeep proc hp
    | raises => exact absurd rfl ho
  cases SysRule.of_step hs with
  | @launch l =>
    refine hi.spawn rfl hlocked ?_ ?_ ?_
    all_goals cases l <;> first | rfl | trivial
  | deliver hm hq | redeliver hm hq =>
    exact hi.spawn rfl hlocked trivial (by simp [Proc.decremented, Task.init, TaskPc.released]) rfl
  | submit hp hr => exact hi.submit hp hr hlocked (hmay hp hfail) (hkeeps hp hkeep)
  | task hp hr => exact hi.task hp hr hlocked (hmay hp hfail) (hkeeps hp hkeep)
  | heartbeat hp hr => exact hi.heartbeat hp hr hlocked (hkeeps hp hkeep)
  | update hp hr => exact absurd (hkind _ hp) (by simp [Proc.kind])
  | sweep hp hr => exact absurd (hkind _ hp) (by simp [Proc.kind])
  | reap hp hr => exact absurd (hkind _ hp) (by simp [Proc.kind])
  | kill hp => exact hfail.elim
  | exit hc hrun => exact ⟨hlocked, hi.sound, hi.balance⟩
  | tick => exact ⟨hlocked, hi.sound, hi.balance⟩

lemma Proc.reserved_of_finished (hfin : proc.finished = true) :
    proc.reserved h = proc.dispatchedTo h := by
  cases proc with
  | submit bundle pc => cases pc <;> first | rfl | cases hfin
  | _ => rfl

/-- In every run of dispatches, executions and heartbeats without Docker that meets `CountKept`:
when all have finished, the counter of a host is its initial value plus the successful dispatches
minus the decrements, whenever the initial value covers the decrements. -/
theorem counter_conserved {s₀ : Sys} (h₀ : s₀.Idle) (hactive : s₀.world.active h = some a₀)
    (hrun : Reaches step (fun s a => (Among [.submit, .task, .heartbeat] s a ∧ OnlySendFails s a) ∧
      CountKept s a) s₀ s)
    (hfin : ∀ proc ∈ s.procs, proc.finished = true)
    (hcovered : (s.procs.countP (Proc.decremented h) : ℤ) ≤ a₀) :
    s.world.active h = some (a₀ + s.procs.countP (Proc.dispatchedTo h) -
      s.procs.countP (Proc.decremented h)) := by
  have hi : Ledger h a₀ s := by
    refine hrun.invariant ?_ fun _ _ _ hi hG hs => ledger_step hi hG.1.1 hG.1.2 hG.2 hs
    exact ⟨by simp [Sys.Locked, h₀.1], by simp [h₀.1], a₀, hactive, by simp [h₀.1]⟩
  obtain ⟨active, hstored, hbalance⟩ := hi.balance
  have hres : s.procs.countP (Proc.reserved h) = s.procs.countP (Proc.dispatchedTo h) :=
    List.countP_congr fun proc hmem => by rw [Proc.reserved_of_finished (hfin proc hmem)]
  have := hbalance hcovered
  rw [hres] at this
  rw [hstored, Option.some.injEq]
  omega

/-- A host with one slot taken and three to give. -/
def busyHost : WorkerHost := { idleHost with activeContainers := 2, maxContainers := 4 }

/-- A deployment with that host and two messages for it. -/
def busySys : Sys where
  world := { (Sys.single busyHost).world with
    queue := [⟨"queue_h", sampleBundle⟩, ⟨"queue_h", sampleBundle⟩] }
  procs := []

/-- The accesses of an execution up to the read of its decrement, where the test is unknown and the
config cannot be written. -/
def toDecrement (p : ℕ) : List Act :=
  [.advance p (.ok none), .advance p (.ok none), .advance p .raises, .advance p (.ok none),
    .advance p (.ok none), .advance p (.ok none)]

/-- The accesses of the decrement, up to the end of the execution. -/
def endOf (p : ℕ) : List Act := List.replicate 3 (.advance p (.ok none))

/-- Two executions whose decrements do not overlap, beside a heartbeat. -/
theorem apartDecrements_conserved : ∃ s : Sys, s.procs.countP (Proc.decremented "h") = 2 ∧
    s.world.active "h" = some ((2 : ℤ) + s.procs.countP (Proc.dispatchedTo "h") -
      s.procs.countP (Proc.decremented "h")) := by
  obtain ⟨s, hs, hp⟩ := exists_reaches_of_guardedRun step
    (fun s a => (Among [.submit, .task, .heartbeat] s a ∧ OnlySendFails s a) ∧ CountKept s a)
    busySys ([.deliver 0 "h", .deliver 0 "h", .launch (.heartbeat "h" 7)] ++ toDecrement 0 ++
      toDecrement 1 ++ endOf 0 ++ [.advance 2 .raises] ++
      List.replicate 4 (.advance 2 (.ok none)) ++ endOf 1)
    (fun s => s.procs.countP (Proc.decremented "h") = 2 && s.procs.all Proc.finished)
    (by decide +kernel)
  simp only [Bool.and_eq_true, decide_eq_true_eq, List.all_eq_true] at hp
  exact ⟨s, hp.1, counter_conserved ⟨rfl, rfl⟩ rfl hs hp.2 (by simp [hp.1])⟩

/-- Two executions that read the counter before either has written it. -/
theorem overlappingDecrements_lose :
    ¬ ∀ (s₀ s : Sys) (h : String) (a₀ : ℤ), s₀.Idle → s₀.world.active h = some a₀ →
      Reaches step (fun s a => Among [.submit, .task, .heartbeat] s a ∧ OnlySendFails s a) s₀ s →
      (∀ proc ∈ s.procs, proc.finished = true) →
      (s.procs.countP (Proc.decremented h) : ℤ) ≤ a₀ →
      s.world.active h = some (a₀ + s.procs.countP (Proc.dispatchedTo h) -
        s.procs.countP (Proc.decremented h)) := by
  intro h
  obtain ⟨s, hs, hp⟩ := exists_reaches_of_guardedRun step
    (fun s a => Among [.submit, .task, .heartbeat] s a ∧ OnlySendFails s a)
    busySys ([.deliver 0 "h", .deliver 0 "h"] ++ toDecrement 0 ++ toDecrement 1 ++
      [.advance 0 (.ok none), .advance 1 (.ok none)] ++ (endOf 0).take 2 ++
      (endOf 1).take 2)
    (fun s => (s.procs.countP (Proc.decremented "h") = 2 &&
        s.procs.countP (Proc.dispatchedTo "h") = 0) &&
      (s.procs.all Proc.finished && s.world.active "h" = some 1)) (by decide +kernel)
  simp only [Bool.and_eq_true, decide_eq_true_eq, List.all_eq_true] at hp
  obtain ⟨⟨hdec, hdis⟩, hfin, hactive⟩ := hp
  have := h _ s "h" 2 ⟨rfl, rfl⟩ rfl hs hfin (by simp [hdec])
  simp [hactive, hdec, hdis] at this

end TestOrch
