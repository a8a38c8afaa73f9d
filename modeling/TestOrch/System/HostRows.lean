import TestOrch.Shared.HostStats
import TestOrch.System.Step

/-!
# The rows of the inventory

Six writers touch a row, most of them with a value they have read earlier. A commit stores absolute
values, and every value that a session holds is in range, so the stored row stays in range whatever
was stored in between.
-/

namespace TestOrch

open Transition

/-- The ranges of the columns that the scheduler computes with. -/
structure WorkerHost.InRange (h : WorkerHost) : Prop where
  active : 0 ≤ h.activeContainers
  limit : 1 ≤ h.maxContainers
  cpu : 0 ≤ h.cpuUtilization ∧ h.cpuUtilization ≤ 100

def World.HostsInRange (w : World) : Prop := ∀ k row, w.hosts.get? k = some row → row.InRange

/-- The values that a process holds and will write are in range. -/
def Proc.HoldsInRange : Proc → Prop
  | .submit _ (.reserve chosen _) | .submit _ (.send chosen _) => chosen.InRange
  | .submit _ (.undo row) => row.InRange
  | .task t => ∀ loaded, t.pc = .decrementCommit loaded →
      loaded.InRange ∧ 0 < loaded.activeContainers
  | .heartbeat _ cpu pc => (0 ≤ cpu ∧ cpu ≤ 100) ∧
      match pc with
      | .read live => 0 ≤ live
      | .stamp live loaded | .commit live loaded _ => 0 ≤ live ∧ ∀ row ∈ loaded, row.InRange
      | .count | .cached | .done => True
  | .update _ (.commit loaded) => loaded.InRange
  | _ => True

/-- The load that a heartbeat reports is one that `collect_host_stats` collected. -/
def CpuCollected : Act → Prop
  | .launch (.heartbeat _ cpu) => ∃ reading, cpu = collectedCpu reading
  | _ => True

instance : ∀ a, Decidable (CpuCollected a)
  | .launch (.heartbeat _ cpu) => decidable_of_iff (cpu = collectedCpu cpu)
      ⟨fun h => ⟨cpu, h⟩, by rintro ⟨reading, rfl⟩; exact (collectedCpu_collectedCpu reading).symm⟩
  | .launch (.submit _) | .launch (.update _) | .launch (.sweep _) | .launch (.reap _)
  | .deliver .. | .redeliver .. | .advance .. | .kill _ | .exit .. | .tick _ =>
    inferInstanceAs (Decidable True)

/-- The columns that only `update_host` sets. -/
structure WorkerHost.SameSettings (h h' : WorkerHost) : Prop where
  tags : h'.hardwareTags = h.hardwareTags
  emulation : h'.supportsEmulation = h.supportsEmulation
  limit : h'.maxContainers = h.maxContainers

def World.KeepsSettings (w w' : World) : Prop :=
  ∀ k row, w.hosts.get? k = some row → ∃ row', w'.hosts.get? k = some row' ∧ row.SameSettings row'

def UpdatesHost (s : Sys) : Act → Prop
  | .advance p _ => ∃ form pc, s.procs[p]? = some (.update form pc)
  | _ => False

variable {s s' : Sys} {w w' : World} {p : ℕ} {proc proc' : Proc} {o : Outcome} {hostId : String}

/-! ### Rows in range -/

namespace WorkerHost.InRange

variable {row loaded new stored : WorkerHost}

lemma writeBack_cases {α : Type*} [DecidableEq α] {P : α → Prop} {loaded new stored : α}
    (hn : P new) (hs : P stored) : P (writeBack loaded new stored) := by
  unfold writeBack
  split_ifs
  · exact hs
  · exact hn

/-- A commit leaves in each column what was stored or what the session holds. -/
lemma flush (hn : new.InRange) (hs : stored.InRange) : (loaded.flush new stored).InRange where
  active := writeBack_cases hn.active hs.active
  limit := writeBack_cases hn.limit hs.limit
  cpu := writeBack_cases (P := fun cpu : ℚ => 0 ≤ cpu ∧ cpu ≤ 100) hn.cpu hs.cpu

lemma increment (h : row.InRange) : row.increment.InRange where
  active := by
    have := h.active
    simp only [WorkerHost.increment]
    omega
  limit := h.limit
  cpu := h.cpu

/-- The clamp is checked against the value that is written, whatever is stored. -/
lemma decrement (h : row.InRange) (hpos : 0 < row.activeContainers) : row.decrement.InRange where
  active := by
    simp only [WorkerHost.decrement]
    omega
  limit := h.limit
  cpu := h.cpu

lemma beat {live now : ℤ} {cpu : ℚ} (h : row.InRange) (hlive : 0 ≤ live)
    (hcpu : 0 ≤ cpu ∧ cpu ≤ 100) : (row.beat live cpu now).InRange :=
  ⟨hlive, h.limit, hcpu⟩

lemma registered : (registeredHost hostId).InRange :=
  ⟨le_rfl, by simp [registeredHost], le_rfl, by simp [registeredHost]⟩

lemma apply (h : row.InRange) (form : HostForm) : (form.apply row).InRange :=
  ⟨h.active, le_max_left .., h.cpu⟩

/-- The assertions of `_workload_score` hold. -/
lemma workloadScore (h : row.InRange) : ∃ score, TestOrch.workloadScore row = .ok score := by
  have hactive : ¬ row.activeContainers < 0 := not_lt.mpr h.active
  have hcpu : ¬ row.cpuUtilization < 0 := not_lt.mpr h.cpu.1
  have hscore : ¬ (row.activeContainers * 20 + row.cpuUtilization : ℚ) < 0 := by
    have : (0 : ℚ) ≤ row.activeContainers := by exact_mod_cast h.active
    have := h.cpu.1
    rw [not_lt]
    linarith
  refine ⟨row.activeContainers * 20 + row.cpuUtilization, ?_⟩
  rw [TestOrch.workloadScore, if_neg hactive, if_neg hcpu, if_neg hscore]

end WorkerHost.InRange

namespace World.HostsInRange

lemma of_hosts (h : w.HostsInRange) (hh : w'.hosts = w.hosts) : w'.HostsInRange := by
  intro k row hrow
  rw [hh] at hrow
  exact h k row hrow

lemma of_mem (h : w.HostsInRange) {row : WorkerHost} (hrow : row ∈ w.hosts.rows) : row.InRange :=
  h _ row (Table.get?_of_mem hrow)

lemma commitHost (h : w.HostsInRange) {loaded new : WorkerHost} (hn : new.InRange)
    (hw : w.commitHost p hostId loaded new = some w') : w'.HostsInRange := by
  obtain ⟨-, hget⟩ := World.get?_of_commitHost hw
  intro k row hrow
  rw [hget] at hrow
  split_ifs at hrow
  · obtain ⟨stored, hstored, rfl⟩ := Option.map_eq_some_iff.mp hrow
    exact hn.flush (h k stored hstored)
  · exact h k row hrow

lemma insertHost (h : w.HostsInRange) {new : WorkerHost} (hn : new.InRange)
    (hw : w.insertHost p new = some w') : w'.HostsInRange := by
  obtain ⟨-, -, hget⟩ := World.get?_of_insertHost hw
  intro k row hrow
  rw [hget] at hrow
  split_ifs at hrow
  · obtain rfl := Option.some.inj hrow
    exact hn
  · exact h k row hrow

lemma commitOffline (h : w.HostsInRange) (hostIds : List String) :
    (w.commitOffline hostIds).HostsInRange := by
  intro k row hrow
  rw [World.commitOffline, get?_markOffline] at hrow
  split_ifs at hrow
  · obtain ⟨stored, hstored, rfl⟩ := Option.map_eq_some_iff.mp hrow
    have := h k stored hstored
    exact ⟨this.active, this.limit, this.cpu⟩
  · exact h k row hrow

end World.HostsInRange

/-! ### Every process keeps the rows in range -/

lemma SubmitRule.inRange {bundle : TestBundleRequest} {pc pc' : SubmitPc}
    (h : SubmitRule p bundle w pc o w' pc') (hw : w.HostsInRange)
    (hp : (Proc.submit bundle pc).HoldsInRange) :
    w'.HostsInRange ∧ (Proc.submit bundle pc').HoldsInRange := by
  cases h with
  | select hfree hchosen =>
    exact ⟨hw.of_hosts rfl, hw.of_mem (chooseHost_spec hchosen).1⟩
  | reserve hcommit =>
    have hnew := WorkerHost.InRange.increment hp
    exact ⟨hw.commitHost hnew hcommit, hnew⟩
  | sendFails => exact ⟨hw, hp⟩
  | refresh hrow => exact ⟨hw, hw _ _ hrow⟩
  | undo hpos hcommit =>
    exact ⟨hw.commitHost (WorkerHost.InRange.decrement hp hpos) hcommit, trivial⟩
  | _ => exact ⟨hw.of_hosts rfl, trivial⟩

lemma TaskRule.inRange {t t' : Task} (h : TaskRule p w t o w' t') (hw : w.HostsInRange)
    (hp : (Proc.task t).HoldsInRange) : w'.HostsInRange ∧ (Proc.task t').HoldsInRange := by
  cases h with
  | decrementRead hpc hrow hpos =>
    refine ⟨hw, ?_⟩
    rintro loaded ⟨⟩
    exact ⟨hw _ _ hrow, hpos⟩
  | decrement hpc hcommit =>
    obtain ⟨hrow, hpos⟩ := hp _ hpc
    refine ⟨hw.commitHost (hrow.decrement hpos) hcommit, ?_⟩
    simp [Proc.HoldsInRange]
  | _ => exact ⟨hw.of_hosts rfl, by simp [Proc.HoldsInRange]⟩

lemma HeartbeatRule.inRange {cpu : ℚ} {pc pc' : HeartbeatPc}
    (h : HeartbeatRule p hostId cpu w pc o w' pc') (hw : w.HostsInRange)
    (hp : (Proc.heartbeat hostId cpu pc).HoldsInRange) :
    w'.HostsInRange ∧ (Proc.heartbeat hostId cpu pc').HoldsInRange := by
  obtain ⟨hcpu, hpc⟩ := hp
  cases h with
  | count => exact ⟨hw, hcpu, Int.natCast_nonneg _⟩
  | cached =>
    refine ⟨hw, hcpu, ?_⟩
    show 0 ≤ ((w.hosts.get? hostId).map WorkerHost.activeContainers).getD 0
    cases hrow : w.hosts.get? hostId with
    | none => exact le_rfl
    | some row => exact (hw hostId row hrow).active
  | read => exact ⟨hw, hcpu, hpc, fun row hrow => hw hostId row hrow⟩
  | stamp => exact ⟨hw, hcpu, hpc⟩
  | update hcommit =>
    exact ⟨hw.commitHost ((hpc.2 _ rfl).beat hpc.1 hcpu) hcommit, hcpu, trivial⟩
  | register hinsert =>
    exact ⟨hw.insertHost (WorkerHost.InRange.registered.beat hpc.1 hcpu) hinsert, hcpu, trivial⟩
  | countFails | fails => exact ⟨hw, hcpu, trivial⟩

lemma UpdateRule.inRange {form : HostForm} {pc pc' : UpdatePc}
    (h : UpdateRule p form w pc o w' pc') (hw : w.HostsInRange)
    (hp : (Proc.update form pc).HoldsInRange) :
    w'.HostsInRange ∧ (Proc.update form pc').HoldsInRange := by
  cases h with
  | read hrow => exact ⟨hw, hw _ _ hrow⟩
  | commit hcommit => exact ⟨hw.commitHost (WorkerHost.InRange.apply hp form) hcommit, trivial⟩
  | readNone | fails => exact ⟨hw, trivial⟩

lemma SweepRule.inRange {maxAge : ℤ} {pc pc' : SweepPc} (h : SweepRule p maxAge w pc o w' pc')
    (hw : w.HostsInRange) : w'.HostsInRange := by
  cases h with
  | mark => exact hw.commitOffline _
  | _ => exact hw.of_hosts rfl

lemma ReapRule.inRange {pc pc' : ReapPc} (h : ReapRule hostId w pc o w' pc')
    (hw : w.HostsInRange) : w'.HostsInRange := by
  cases h <;> exact hw.of_hosts rfl

/-- All rows, stored and held, are in range. -/
structure RowsInRange (s : Sys) : Prop where
  stored : s.world.HostsInRange
  held : Pool.All s.procs fun _ proc => proc.HoldsInRange

lemma RowsInRange.set (hi : RowsInRange s) (hp : s.procs[p]? = some proc)
    (hset : w'.HostsInRange ∧ proc'.HoldsInRange) : RowsInRange ⟨w', s.procs.set p proc'⟩ where
  stored := hset.1
  held := (Pool.all_set hp).mpr ⟨hset.2, fun j other _ hget => hi.held j other hget⟩

lemma RowsInRange.spawn {new : Proc} (hi : RowsInRange s) (hh : w'.hosts = s.world.hosts)
    (hnew : new.HoldsInRange) : RowsInRange ⟨w', s.procs ++ [new]⟩ where
  stored := hi.stored.of_hosts hh
  held := Pool.all_append_singleton.mpr ⟨hi.held, hnew⟩

lemma rowsInRange_step {a : Act} (hi : RowsInRange s) (hcpu : CpuCollected a)
    (h : step s a = some s') : RowsInRange s' := by
  cases SysRule.of_step h with
  | @launch l =>
    apply hi.spawn rfl
    cases l with
    | heartbeat hostId cpu =>
      obtain ⟨reading, rfl⟩ := hcpu
      exact ⟨collectedCpu_mem reading, trivial⟩
    | _ => trivial
  | deliver hm hq | redeliver hm hq => exact hi.spawn rfl (by simp [Proc.HoldsInRange, Task.init])
  | submit hp hr => exact hi.set hp (hr.inRange hi.stored (hi.held _ _ hp))
  | task hp hr => exact hi.set hp (hr.inRange hi.stored (hi.held _ _ hp))
  | heartbeat hp hr => exact hi.set hp (hr.inRange hi.stored (hi.held _ _ hp))
  | update hp hr => exact hi.set hp (hr.inRange hi.stored (hi.held _ _ hp))
  | sweep hp hr => exact hi.set hp ⟨hr.inRange hi.stored, trivial⟩
  | reap hp hr => exact hi.set hp ⟨hr.inRange hi.stored, trivial⟩
  | kill hp => exact hi.set hp ⟨hi.stored.of_hosts rfl, trivial⟩
  | exit hc hrun => exact ⟨hi.stored.of_hosts rfl, hi.held⟩
  | tick => exact ⟨hi.stored.of_hosts rfl, hi.held⟩

/-! ### The settings -/

namespace World.KeepsSettings

lemma of_hosts (hh : w'.hosts = w.hosts) : World.KeepsSettings w w' := by
  intro k row hrow
  exact ⟨row, by rw [hh, hrow], rfl, rfl, rfl⟩

/-- A session that does not set the settings does not write them. -/
lemma commitHost {loaded new : WorkerHost} (hw : w.commitHost p hostId loaded new = some w')
    (hsame : loaded.SameSettings new) : World.KeepsSettings w w' := by
  obtain ⟨-, hget⟩ := World.get?_of_commitHost hw
  intro k row hrow
  rw [hget, hrow]
  split_ifs
  · refine ⟨_, rfl, ?_, ?_, ?_⟩
    · simp [WorkerHost.flush, hsame.tags]
    · simp [WorkerHost.flush, hsame.emulation]
    · simp [WorkerHost.flush, hsame.limit]
  · exact ⟨row, rfl, rfl, rfl, rfl⟩

lemma insertHost {new : WorkerHost} (hw : w.insertHost p new = some w') :
    World.KeepsSettings w w' := by
  obtain ⟨-, hnone, hget⟩ := World.get?_of_insertHost hw
  intro k row hrow
  have hne : k ≠ new.hostId := by
    rintro rfl
    rw [hnone] at hrow
    cases hrow
  exact ⟨row, by rw [hget, if_neg hne, hrow], rfl, rfl, rfl⟩

lemma commitOffline (hostIds : List String) : World.KeepsSettings w (w.commitOffline hostIds) := by
  intro k row hrow
  rw [World.commitOffline, get?_markOffline, hrow]
  split_ifs
  · exact ⟨_, rfl, rfl, rfl, rfl⟩
  · exact ⟨row, rfl, rfl, rfl, rfl⟩

end World.KeepsSettings

lemma SubmitRule.keepsSettings {bundle : TestBundleRequest} {pc pc' : SubmitPc}
    (h : SubmitRule p bundle w pc o w' pc') : World.KeepsSettings w w' := by
  cases h with
  | reserve hcommit => exact .commitHost hcommit ⟨rfl, rfl, rfl⟩
  | undo hpos hcommit => exact .commitHost hcommit ⟨rfl, rfl, rfl⟩
  | _ => exact .of_hosts rfl

lemma TaskRule.keepsSettings {t t' : Task} (h : TaskRule p w t o w' t') :
    World.KeepsSettings w w' := by
  cases h with
  | decrement hpc hcommit => exact .commitHost hcommit ⟨rfl, rfl, rfl⟩
  | _ => exact .of_hosts rfl

lemma HeartbeatRule.keepsSettings {cpu : ℚ} {pc pc' : HeartbeatPc}
    (h : HeartbeatRule p hostId cpu w pc o w' pc') : World.KeepsSettings w w' := by
  cases h with
  | update hcommit => exact .commitHost hcommit ⟨rfl, rfl, rfl⟩
  | register hinsert => exact .insertHost hinsert
  | _ => exact .of_hosts rfl

lemma SweepRule.keepsSettings {maxAge : ℤ} {pc pc' : SweepPc}
    (h : SweepRule p maxAge w pc o w' pc') : World.KeepsSettings w w' := by
  cases h with
  | mark => exact .commitOffline _
  | _ => exact .of_hosts rfl

lemma ReapRule.keepsSettings {pc pc' : ReapPc} (h : ReapRule hostId w pc o w' pc') :
    World.KeepsSettings w w' := by
  cases h <;> exact .of_hosts rfl

lemma keepsSettings_step {a : Act} (h : step s a = some s') (hno : ¬ UpdatesHost s a) :
    s.world.KeepsSettings s'.world := by
  cases SysRule.of_step h with
  | submit hp hr => exact hr.keepsSettings
  | task hp hr => exact hr.keepsSettings
  | heartbeat hp hr => exact hr.keepsSettings
  | update hp hr => exact absurd ⟨_, _, hp⟩ hno
  | sweep hp hr => exact hr.keepsSettings
  | reap hp hr => exact hr.keepsSettings
  | _ => exact .of_hosts rfl

/-- In every state reached from an empty inventory, by any interleaving and with any failures: every
row is in range and has a workload score, and no step but one of `update_host` changes the settings
of a row. -/
theorem hosts_in_range {s₀ : Sys} (h₀ : s₀.Idle) (hempty : s₀.world.hosts = .empty _)
    (h : Reaches step (fun _ a => CpuCollected a) s₀ s) :
    (∀ row ∈ s.world.hosts.rows, row.InRange ∧ ∃ score, workloadScore row = .ok score) ∧
      ∀ a s', step s a = some s' → ¬ UpdatesHost s a → s.world.KeepsSettings s'.world := by
  have hi : RowsInRange s := by
    refine h.invariant ⟨?_, by simp [h₀.1]⟩ fun _ _ _ hi hG hs => rowsInRange_step hi hG hs
    intro k row hrow
    rw [hempty, Table.get?_empty] at hrow
    cases hrow
  constructor
  · intro row hrow
    have hrange := hi.stored.of_mem hrow
    exact ⟨hrange, hrange.workloadScore⟩
  · intro a s' hs hno
    exact keepsSettings_step hs hno

def Sys.bare : Sys := ⟨⟨0, .empty _, [], .empty _, [], [], fun _ => .empty, []⟩, []⟩

/-- A host registers, a bundle is dispatched to it, and the send fails. -/
def undoneDispatch : List Act :=
  [.launch (.heartbeat "h" 7)] ++ List.replicate 4 (.advance 0 (.ok none)) ++
    [.launch (.submit sampleBundle), .advance 1 (.ok none), .advance 1 (.ok none),
      .advance 1 (.ok none), .advance 1 .raises, .advance 1 (.ok none)]

/-- The row is then back at no container. -/
theorem undoneDispatch_in_range : ∃ s : Sys,
    (s.world.hosts.get? "h").map WorkerHost.activeContainers = some 0 ∧
    (∀ row ∈ s.world.hosts.rows, row.InRange ∧ ∃ score, workloadScore row = .ok score) ∧
      ∀ a s', step s a = some s' → ¬ UpdatesHost s a → s.world.KeepsSettings s'.world := by
  obtain ⟨s, hs, hp⟩ := exists_reaches_of_guardedRun step (fun _ a => CpuCollected a) .bare
    undoneDispatch (fun s => (s.world.hosts.get? "h").map WorkerHost.activeContainers = some 0)
    (by decide +kernel)
  exact ⟨s, of_decide_eq_true hp, hosts_in_range ⟨rfl, rfl⟩ rfl hs⟩

end TestOrch
