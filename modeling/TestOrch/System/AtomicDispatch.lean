import TestOrch.System.DispatchCalls
import TestOrch.System.LockOwners
import TestOrch.System.Locks

/-!
# Dispatches are atomic

`dispatch` reads the inventory in one statement and commits its reservation in another, while other
processes go on. The row locks make the two act as one: the rows that were read are at the commit
still as they were read, so the host that gets the slot is the placement at that moment. Where only
submissions write, a whole run of them leaves what calls of `dispatch`, one after the other, leave.
-/

namespace TestOrch

open Transition

/-- Process `p` takes no step and is not killed. -/
def Leaves (p : ℕ) : Act → Prop
  | .advance q _ | .kill q => q ≠ p
  | _ => True

instance (p : ℕ) : ∀ a, Decidable (Leaves p a)
  | .advance q _ | .kill q => inferInstanceAs (Decidable (q ≠ p))
  | .launch _ | .deliver .. | .redeliver .. | .exit .. | .tick _ =>
    inferInstanceAs (Decidable True)

/-- The rows are stored and locked by process `p`, which is `proc`. -/
structure Frozen (p : ℕ) (proc : Proc) (rows : List WorkerHost) (s : Sys) : Prop where
  proc : s.procs[p]? = some proc
  locked : ∀ row ∈ rows, (row.hostId, p) ∈ s.world.locks
  stored : ∀ row ∈ rows, s.world.hosts.get? row.hostId = some row

variable {s s' : Sys} {w w' : World} {p q : ℕ} {proc proc' : Proc} {o : Outcome}
  {rows : List WorkerHost} {bundle : TestBundleRequest} {chosen : WorkerHost} {queue : String}

/-! ### One dispatch among other processes -/

namespace Frozen

/-- Another process moved. -/
lemma of_respects (hi : Frozen p proc rows s) (hq : q ≠ p) (hr : World.Respects q s.world w')
    (hproc : s'.procs[p]? = s.procs[p]?) (hw : s'.world = w') : Frozen p proc rows s' where
  proc := hproc.trans hi.proc
  locked row hrow := hw ▸ (hr p row.hostId row (Ne.symm hq) (hi.locked row hrow)
    (hi.stored row hrow)).1
  stored row hrow := hw ▸ (hr p row.hostId row (Ne.symm hq) (hi.locked row hrow)
    (hi.stored row hrow)).2

lemma set (hi : Frozen p proc rows s) (hq : q ≠ p) {old : Proc} (hold : s.procs[q]? = some old)
    (hr : World.Respects q s.world w') : Frozen p proc rows ⟨w', s.procs.set q proc'⟩ :=
  hi.of_respects hq hr (by rw [Pool.getElem?_set_of_get hold, if_neg (Ne.symm hq)]) rfl

lemma spawn (hi : Frozen p proc rows s) (new : List Proc) (hh : w'.hosts = s.world.hosts)
    (hl : w'.locks = s.world.locks) : Frozen p proc rows ⟨w', s.procs ++ new⟩ :=
  hi.of_respects (q := p + 1) (by omega) (.of_eq hh hl)
    (by rw [Pool.getElem?_append_of_get hi.proc, hi.proc]) rfl

/-- What the other processes do leaves locked rows alone. -/
lemma step {a : Act} (hi : Frozen p proc rows s) (ha : Leaves p a)
    (h : TestOrch.step s a = some s') : Frozen p proc rows s' := by
  cases SysRule.of_step h with
  | launch => exact hi.spawn _ rfl rfl
  | deliver =>
    refine hi.spawn _ ?_ ?_
    · rfl
    · rfl
  | redeliver => exact hi.spawn _ rfl rfl
  | submit hp hr => exact hi.set ha hp hr.respects
  | task hp hr => exact hi.set ha hp hr.respects
  | heartbeat hp hr => exact hi.set ha hp hr.respects
  | update hp hr => exact hi.set ha hp hr.respects
  | sweep hp hr => exact hi.set ha hp hr.respects
  | reap hp hr => exact hi.set ha hp hr.respects
  | kill hp => exact hi.set ha hp (.of_unlock rfl rfl)
  | exit => exact ⟨hi.proc, hi.locked, hi.stored⟩
  | tick => exact ⟨hi.proc, hi.locked, hi.stored⟩

end Frozen

/-- The locked read that chose a host. -/
lemma chooseHost_of_step {url : Option String}
    (hp : s.procs[p]? = some (.submit bundle .select))
    (h : step s (.advance p (.ok url)) = some s')
    (hpc : s'.procs[p]? = some (.submit bundle (.reserve chosen queue))) :
    chooseHost s.world.hosts.rows bundle = .ok (some (chosen, queue)) ∧
      Frozen p (.submit bundle (.reserve chosen queue)) s.world.hosts.rows s' := by
  obtain ⟨w', pc', hs, rfl⟩ := submitStep_of_step hp h
  rw [Pool.getElem?_set_of_get hp, if_pos rfl, Option.some.injEq, Proc.submit.injEq] at hpc
  obtain ⟨-, rfl⟩ := hpc
  cases SubmitRule.of_submitStep hs with
  | select hfree hc =>
    refine ⟨hc, ⟨by rw [Pool.getElem?_set_of_get hp, if_pos rfl], fun row hrow => ?_,
      fun row hrow => Table.get?_of_mem hrow⟩⟩
    exact List.mem_append_right _ (List.mem_map.mpr ⟨row, hrow, rfl⟩)

/-- A commit of the increment on the row as it is stored. -/
lemma hosts_of_commit (hstored : w.hosts.get? chosen.hostId = some chosen)
    (h : w.commitHost p chosen.hostId chosen chosen.increment = some w') :
    w'.hosts = reserveOn w.hosts chosen.hostId := by
  obtain ⟨-, rfl⟩ := World.commitHost_eq_some h
  exact hosts_reserve p (Table.mem_of_get? hstored)

/-- `dispatch` is atomic. Whatever the other processes do between its locked read and its commit,
the rows that it read are stored unchanged, the chosen one is the placement among them, and the
commit takes one slot of it, within its limit, and changes nothing else in the inventory. -/
theorem dispatch_atomic {s₁ s₂ s₃ s₄ : Sys} {url url' : Option String}
    (hp : s₁.procs[p]? = some (.submit bundle .select))
    (hread : step s₁ (.advance p (.ok url)) = some s₂)
    (hpc : s₂.procs[p]? = some (.submit bundle (.reserve chosen queue)))
    (hothers : Reaches step (fun _ => Leaves p) s₂ s₃)
    (hcommit : step s₃ (.advance p (.ok url')) = some s₄) :
    (∀ row ∈ s₁.world.hosts.rows, s₃.world.hosts.get? row.hostId = some row) ∧
      Placement s₁.world.hosts.rows bundle chosen ∧ queue = "queue_" ++ chosen.hostId ∧
      s₄.world.hosts = reserveOn s₃.world.hosts chosen.hostId ∧
      chosen.increment.activeContainers ≤ chosen.maxContainers := by
  obtain ⟨hc, hfrozen⟩ := chooseHost_of_step hp hread hpc
  have hi := hothers.invariant hfrozen fun _ _ _ hi ha hs => hi.step ha hs
  have hplace := placement_of_chooseHost s₁.world.hosts.nodup hc
  refine ⟨hi.stored, hplace, queueNameFor_ok (chooseHost_spec hc).2.2.1, ?_, hplace.eligible.room⟩
  obtain ⟨w', pc', hs, rfl⟩ := submitStep_of_step hi.proc hcommit
  cases SubmitRule.of_submitStep hs with
  | reserve hw => exact hosts_of_commit (hi.stored chosen hplace.mem) hw

def aboutToLock : Sys := ⟨(Sys.single idleHost).world, [.submit sampleBundle .select]⟩

/-- A heartbeat of the host, up to its commit, which waits. -/
def beatMeanwhile : List Act :=
  [.launch (.heartbeat "h" 7)] ++ List.replicate 3 (.advance 1 (.ok none))

theorem aboutToLock_atomic : ∃ s₃ s₄ : Sys, s₃.procs.length = 2 ∧
    s₃.world.hosts.get? "h" = some idleHost ∧
    s₄.world.hosts = reserveOn s₃.world.hosts "h" := by
  have hchoice : chooseHost [idleHost] sampleBundle = .ok (some (idleHost, "queue_h")) := by
    decide +kernel
  have hread : step aboutToLock (.advance 0 (.ok none)) =
      some ⟨aboutToLock.world.lockAll 0, [.submit sampleBundle (.reserve idleHost "queue_h")]⟩ := by
    simp [step, aboutToLock, Proc.step, submitStep, stepSelect, Sys.single, World.blocked, hchoice]
  obtain ⟨s₃, hothers, hp⟩ := exists_reaches_of_guardedRun step (fun _ => Leaves 0)
    ⟨aboutToLock.world.lockAll 0, [.submit sampleBundle (.reserve idleHost "queue_h")]⟩
    beatMeanwhile (fun s => s.procs.length = 2 && (step s (.advance 0 (.ok none))).isSome)
    (by decide +kernel)
  simp only [Bool.and_eq_true, decide_eq_true_eq, Option.isSome_iff_exists] at hp
  obtain ⟨htwo, s₄, hcommit⟩ := hp
  obtain ⟨hstored, -, -, hhosts, -⟩ := dispatch_atomic rfl hread rfl hothers hcommit
  exact ⟨s₃, s₄, htwo, hstored idleHost List.mem_cons_self, hhosts⟩

end TestOrch
