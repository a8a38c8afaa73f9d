import TestOrch.System.Step

/-!
# Stranded runs

A run is stranded when it is active on a host that is offline. A sweep looks only at the hosts that
it has just marked offline itself, so a run that is stranded is failed by the sweep that marked its
host or never. After a complete sweep nothing is stranded, as long as every sweep finishes what it
has begun and no run becomes active on a host that is offline.
-/

namespace TestOrch

open Transition

/-- The run is active and its target host is offline. -/
def World.StrandedOn (w : World) (testId hostId : String) : Prop :=
  ∃ r, w.execs.get? testId = some r ∧ r.status.active = true ∧ r.targetHostId = some hostId ∧
    w.Offline hostId

def World.Clean (w : World) : Prop :=
  ∀ r ∈ w.execs.rows, r.status.active = true → ∀ h ∈ r.targetHostId, ¬ w.Offline h

instance (w : World) : Decidable w.Clean :=
  inferInstanceAs (Decidable (∀ r ∈ w.execs.rows, _))

/-- The sweep will fail the run, should it be stranded on the host. -/
def Proc.Covers (testId hostId : String) : Proc → Prop
  | .sweep _ (.select hostIds) => hostId ∈ hostIds
  | .sweep _ (.fail orphaned) => testId ∈ orphaned.map TestExecution.testId
  | _ => False

instance (testId hostId : String) : ∀ proc : Proc, Decidable (proc.Covers testId hostId)
  | .sweep _ (.select hostIds) => inferInstanceAs (Decidable (hostId ∈ hostIds))
  | .sweep _ (.fail orphaned) =>
    inferInstanceAs (Decidable (testId ∈ orphaned.map TestExecution.testId))
  | .sweep _ .start | .sweep _ (.read _) | .sweep _ (.mark ..) | .sweep _ .done | .sweep _ .raised
  | .submit .. | .task _ | .heartbeat .. | .update .. | .reap .. | .dead _ =>
    inferInstanceAs (Decidable False)

/-- The process has still to fail a run that is stranded. -/
def Proc.Rescues (w : World) (proc : Proc) : Prop :=
  ∃ r ∈ w.execs.rows, r.status.active = true ∧
    ∃ h ∈ r.targetHostId, w.Offline h ∧ proc.Covers r.testId h

instance (w : World) (proc : Proc) : Decidable (proc.Rescues w) :=
  inferInstanceAs (Decidable (∃ r ∈ w.execs.rows, _))

/-- Some sweep under way covers the run. -/
def Sys.Covered (s : Sys) (testId hostId : String) : Prop :=
  ∃ proc ∈ s.procs, proc.Covers testId hostId

instance (s : Sys) (testId hostId : String) : Decidable (s.Covered testId hostId) :=
  inferInstanceAs (Decidable (∃ proc ∈ s.procs, _))

/-- The host with which the closing commit marks the run `DISPATCHED`. -/
def SubmitPc.dispatched : SubmitPc → Option String
  | .close chosen => chosen
  | _ => none

/-- The row that the `RUNNING` commit holds. -/
def TaskPc.running : TaskPc → Option TestExecution
  | .runningCommit loaded => some loaded
  | _ => none

/-- What the `RUNNING` commit of an execution leaves in the row `stored`. -/
def Task.afterRunning (t : Task) (now : ℤ) (loaded stored : TestExecution) : TestExecution :=
  loaded.flush (loaded.assign .RUNNING (some t.host) none) now stored

/-- The next step of the process fits: a sweep starts when no other has stranded runs left to fail,
and a run becomes active on a host only while the host is not offline, or in time for the sweep that
marked it. -/
def Proc.Fits (s : Sys) : Proc → Prop
  | .sweep _ pc => pc = .start → ∀ other ∈ s.procs, ¬ other.Rescues s.world
  | .submit bundle pc => ∀ h ∈ pc.dispatched, s.world.Offline h → s.Covered bundle.testId h
  | .task t => ∀ row ∈ t.pc.running, ∀ stored ∈ s.world.execs.get? t.testId,
      (t.afterRunning s.world.clock row stored).status.active = true →
      ∀ h ∈ (t.afterRunning s.world.clock row stored).targetHostId,
        s.world.Offline h → s.Covered t.testId h
  | _ => True

instance (s : Sys) : ∀ proc : Proc, Decidable (proc.Fits s)
  | .sweep _ pc => inferInstanceAs (Decidable (pc = .start → _))
  | .submit _ pc => inferInstanceAs (Decidable (∀ h ∈ pc.dispatched, _))
  | .task t => inferInstanceAs (Decidable (∀ row ∈ t.pc.running, _))
  | .heartbeat .. | .update .. | .reap .. | .dead _ => inferInstanceAs (Decidable True)

/-- The condition on a run: every step fits, and no sweep is killed or raises while it has stranded
runs left to fail. -/
def SweepsFinish (s : Sys) : Act → Prop
  | .advance p (.ok _) => ∀ proc ∈ s.procs[p]?, proc.Fits s
  | .advance p .raises | .kill p => ∀ proc ∈ s.procs[p]?, ¬ proc.Rescues s.world
  | _ => True

instance (s : Sys) : ∀ a, Decidable (SweepsFinish s a)
  | .advance p (.ok _) => inferInstanceAs (Decidable (∀ proc ∈ s.procs[p]?, proc.Fits s))
  | .advance p .raises | .kill p =>
    inferInstanceAs (Decidable (∀ proc ∈ s.procs[p]?, ¬ proc.Rescues s.world))
  | .launch _ | .deliver .. | .redeliver .. | .exit .. | .tick _ => inferInstanceAs (Decidable True)

/-- Process `p` runs without other processes taking steps. -/
def Alone (p : ℕ) : Act → Prop
  | .advance q _ => q = p
  | .exit .. | .tick _ => True
  | _ => False

instance (p : ℕ) : ∀ a, Decidable (Alone p a)
  | .advance q _ => inferInstanceAs (Decidable (q = p))
  | .exit .. | .tick _ => inferInstanceAs (Decidable True)
  | .launch _ | .deliver .. | .redeliver .. | .kill _ => inferInstanceAs (Decidable False)

/-- Every stranded run is covered by one of the processes in `S`. -/
def Rescued (S : ℕ → Prop) (s : Sys) : Prop :=
  ∀ testId hostId, s.world.StrandedOn testId hostId →
    ∃ (q : ℕ) (proc : Proc), S q ∧ s.procs[q]? = some proc ∧ proc.Covers testId hostId

variable {s s' : Sys} {w w' : World} {p : ℕ} {o : Outcome} {testId hostId : String}
  {S : ℕ → Prop}

lemma World.clean_iff : w.Clean ↔ ∀ t h, ¬ w.StrandedOn t h := by
  constructor
  · rintro hclean t h ⟨r, hr, hactive, htarget, hoff⟩
    exact hclean r (Table.mem_of_get? hr) hactive h htarget hoff
  · intro hclean r hr hactive h htarget hoff
    exact hclean r.testId h ⟨r, Table.get?_of_mem hr, hactive, htarget, hoff⟩

lemma Proc.rescues_of_covers {proc : Proc} (hst : w.StrandedOn testId hostId)
    (hc : proc.Covers testId hostId) : proc.Rescues w := by
  obtain ⟨r, hr, hactive, htarget, hoff⟩ := hst
  refine ⟨r, Table.mem_of_get? hr, hactive, hostId, htarget, hoff, ?_⟩
  rwa [Table.key_of_get? hr]

/-! ### What strands runs -/

/-- The change strands no run. -/
def World.NoWorse (w w' : World) : Prop :=
  ∀ testId hostId, w'.StrandedOn testId hostId → w.StrandedOn testId hostId

lemma World.NoWorse.of_eq (hh : w'.hosts = w.hosts) (he : w'.execs = w.execs) : w.NoWorse w' := by
  rintro t h ⟨r, hr, hactive, htarget, row, hrow, hoff⟩
  rw [he] at hr
  rw [hh] at hrow
  exact ⟨r, hr, hactive, htarget, row, hrow, hoff⟩

lemma World.NoWorse.of_hosts (he : w'.execs = w.execs) (hh : ∀ h, w'.Offline h → w.Offline h) :
    w.NoWorse w' := by
  rintro t h ⟨r, hr, hactive, htarget, hoff⟩
  rw [he] at hr
  exact ⟨r, hr, hactive, htarget, hh h hoff⟩

lemma World.NoWorse.of_execs (hh : w'.hosts = w.hosts)
    (he : ∀ t r', w'.execs.get? t = some r' → r'.status.active = true → r'.targetHostId ≠ none →
      ∃ r, w.execs.get? t = some r ∧ r.status.active = true ∧
        r.targetHostId = r'.targetHostId) : w.NoWorse w' := by
  rintro t h ⟨r', hr', hactive', htarget', row, hrow, hoff⟩
  obtain ⟨r, hr, hactive, htarget⟩ := he t r' hr' hactive' (by simp [htarget'])
  rw [hh] at hrow
  exact ⟨r, hr, hactive, htarget.trans htarget', row, hrow, hoff⟩

/-- A commit that does not take a host offline. -/
lemma World.NoWorse.commitHost {k : String} {loaded new : WorkerHost}
    (hon : new.isOnline = loaded.isOnline ∨ new.isOnline = true)
    (hw : w.commitHost p k loaded new = some w') : w.NoWorse w' := by
  obtain ⟨hexecs, hget⟩ := World.get?_of_commitHost hw
  refine .of_hosts hexecs fun h ⟨row', hrow', hoff'⟩ => ?_
  rw [hget] at hrow'
  split_ifs at hrow' with hk
  · obtain ⟨row, hrow, rfl⟩ := Option.map_eq_some_iff.mp hrow'
    refine ⟨row, hrow, ?_⟩
    rcases hon with hsame | hon
    · simpa [WorkerHost.flush, hsame] using hoff'
    · simp only [WorkerHost.flush, hon] at hoff'
      unfold writeBack at hoff'
      split_ifs at hoff'
      exact hoff'
  · exact ⟨row', hrow', hoff'⟩

lemma World.NoWorse.insertHost {row : WorkerHost} (hon : row.isOnline = true)
    (hw : w.insertHost p row = some w') : w.NoWorse w' := by
  obtain ⟨hexecs, -, hget⟩ := World.get?_of_insertHost hw
  refine .of_hosts hexecs fun h ⟨row', hrow', hoff'⟩ => ?_
  rw [hget] at hrow'
  split_ifs at hrow' with hk
  · obtain rfl := Option.some.inj hrow'
    simp [hon] at hoff'
  · exact ⟨row', hrow', hoff'⟩

/-- A commit of a status that is not active, without a new target. -/
lemma World.NoWorse.commitRun {t : String} {loaded new : TestExecution}
    (hst : new.status.active = false) (htarget : new.targetHostId = loaded.targetHostId) :
    w.NoWorse (w.commitRun p t loaded new) := by
  refine .of_execs rfl fun k r' hr' hactive _ => ?_
  rw [get?_commitRun] at hr'
  split_ifs at hr' with hk
  · obtain ⟨r, hr, rfl⟩ := Option.map_eq_some_iff.mp hr'
    refine ⟨r, hr, ?_, by simp [htarget]⟩
    rw [TestExecution.flush_status] at hactive
    unfold writeBack at hactive
    split_ifs at hactive
    · exact hactive
    · simp [hst] at hactive
  · exact ⟨r', hr', hactive, rfl⟩

lemma World.NoWorse.commitFailed (testIds : List String) : w.NoWorse (w.commitFailed testIds) := by
  refine .of_execs rfl fun k r' hr' hactive _ => ?_
  simp only [World.commitFailed, get?_failRuns] at hr'
  split_ifs at hr'
  · obtain ⟨r, hr, rfl⟩ := Option.map_eq_some_iff.mp hr'
    cases hactive
  · exact ⟨r', hr', hactive, rfl⟩

/-- A new row has no target. -/
lemma World.NoWorse.insert {row : TestExecution} {t : Executions} (hrow : row.targetHostId = none)
    (h : w.execs.insert? row = some t) : w.NoWorse { w with execs := t } := by
  obtain ⟨-, hget⟩ := Table.get?_insert? h
  refine .of_execs rfl fun k r' hr' hactive hsome => ?_
  simp only [hget] at hr'
  split_ifs at hr'
  · obtain rfl := Option.some.inj hr'
    exact absurd hrow hsome
  · exact ⟨r', hr', hactive, rfl⟩

/-- After the commit of an active status, the run may be stranded on the host it then names. -/
lemma World.strandedOn_commitRun {t : String} {loaded new : TestExecution} {P : String → Prop}
    (hland : ∀ stored ∈ w.execs.get? t, (loaded.flush new w.clock stored).status.active = true →
      ∀ h ∈ (loaded.flush new w.clock stored).targetHostId, w.Offline h → P h)
    (h : (w.commitRun p t loaded new).StrandedOn testId hostId) :
    w.StrandedOn testId hostId ∨ testId = t ∧ P hostId := by
  obtain ⟨r', hr', hactive, htarget, hoff⟩ := h
  rw [get?_commitRun] at hr'
  split_ifs at hr' with hk
  · obtain ⟨r, hr, rfl⟩ := Option.map_eq_some_iff.mp hr'
    exact .inr ⟨hk, hland r (hk ▸ hr) hactive hostId htarget hoff⟩
  · exact .inl ⟨r', hr', hactive, htarget, hoff⟩

/-! ### The steps -/

lemma SubmitRule.stranded {bundle : TestBundleRequest} {pc pc' : SubmitPc}
    (h : SubmitRule p bundle s.world pc o w' pc')
    (hfits : ∀ url, o = .ok url → (Proc.submit bundle pc).Fits s)
    (hst : w'.StrandedOn testId hostId) :
    s.world.StrandedOn testId hostId ∨ s.Covered testId hostId := by
  cases h with
  | insert ht => exact .inl (World.NoWorse.insert rfl ht _ _ hst)
  | reserve hw => exact .inl (World.NoWorse.commitHost (.inl (by rfl)) hw _ _ hst)
  | undo hpos hw => exact .inl (World.NoWorse.commitHost (.inl (by rfl)) hw _ _ hst)
  | @close url chosen =>
    cases chosen with
    | none => exact .inl (World.NoWorse.commitRun (by rfl) (by rfl) _ _ hst)
    | some k =>
      have hland := World.strandedOn_commitRun (P := fun h => s.Covered bundle.testId h) ?_ hst
      · exact hland.imp_right fun ⟨heq, h⟩ => heq ▸ h
      · intro stored _ _ h hh hoff
        obtain rfl : k = h := Option.some.inj ((flush_closed_targetHostId ..).symm.trans hh)
        exact hfits url rfl k rfl hoff
  | _ => exact .inl (World.NoWorse.of_eq rfl rfl _ _ hst)

lemma TaskRule.stranded {t t' : Task} (h : TaskRule p s.world t o w' t')
    (hfits : ∀ url, o = .ok url → (Proc.task t).Fits s) (hst : w'.StrandedOn testId hostId) :
    s.world.StrandedOn testId hostId ∨ s.Covered testId hostId := by
  cases h with
  | @running url row hpc =>
    have hland := hfits url rfl row (by rw [hpc]; rfl)
    exact (World.strandedOn_commitRun hland hst).imp_right fun ⟨heq, h⟩ => heq ▸ h
  | verdict hpc =>
    refine .inl (World.NoWorse.commitRun ?_ (by rfl) _ _ hst)
    simp only [TestExecution.assign, Task.final]
    split_ifs <;> rfl
  | failed hpc => exact .inl (World.NoWorse.commitRun (by rfl) (by rfl) _ _ hst)
  | decrement hpc hw => exact .inl (World.NoWorse.commitHost (.inl (by rfl)) hw _ _ hst)
  | _ => exact .inl (World.NoWorse.of_eq rfl rfl _ _ hst)

lemma HeartbeatRule.noWorse {cpu : ℚ} {pc pc' : HeartbeatPc}
    (h : HeartbeatRule p hostId cpu w pc o w' pc') : w.NoWorse w' := by
  cases h with
  | update hw => exact .commitHost (.inr rfl) hw
  | register hw => exact .insertHost rfl hw
  | _ => exact .of_eq rfl rfl

lemma UpdateRule.noWorse {form : HostForm} {pc pc' : UpdatePc}
    (h : UpdateRule p form w pc o w' pc') : w.NoWorse w' := by
  cases h with
  | commit hw => exact .commitHost (.inl (by rfl)) hw
  | _ => exact .of_eq rfl rfl

lemma ReapRule.noWorse {pc pc' : ReapPc} (h : ReapRule hostId w pc o w' pc') : w.NoWorse w' := by
  cases h with
  | fail => exact .commitFailed _
  | _ => exact .of_eq rfl rfl

/-- After a step of a sweep, what is stranded was stranded and not its business, or is covered by
it. -/
lemma SweepRule.stranded {maxAge : ℤ} {pc pc' : SweepPc} (h : SweepRule p maxAge w pc o w' pc')
    (hraises : o = .raises → ¬ (Proc.sweep maxAge pc).Rescues w)
    (hst : w'.StrandedOn testId hostId) :
    w.StrandedOn testId hostId ∧ ¬ (Proc.sweep maxAge pc).Covers testId hostId ∨
      (Proc.sweep maxAge pc').Covers testId hostId := by
  cases h with
  | start => exact .inl ⟨hst, id⟩
  | readNone hnil => exact .inl ⟨hst, id⟩
  | read hne => exact .inl ⟨hst, id⟩
  | @mark _ cutoff affected hfree =>
    -- A host that goes offline here is one that the sweep goes on with.
    obtain ⟨r, hr, hactive, htarget, row, hrow, hoff⟩ := hst
    by_cases hmem : hostId ∈ affected.map WorkerHost.hostId
    · exact .inr hmem
    · rw [World.commitOffline, get?_markOffline, if_neg hmem] at hrow
      exact .inl ⟨⟨r, hr, hactive, htarget, row, hrow, hoff⟩, id⟩
  | @selectNone _ hostIds hnil =>
    refine .inl ⟨hst, fun hmem => ?_⟩
    obtain ⟨r, hr, hactive, htarget, -⟩ := hst
    have : r ∈ orphanedRuns w.execs hostIds :=
      mem_orphanedRuns.mpr ⟨Table.mem_of_get? hr, ⟨hostId, hmem, htarget⟩, hactive⟩
    simp [hnil] at this
  | @select _ hostIds =>
    by_cases hmem : hostId ∈ hostIds
    · obtain ⟨r, hr, hactive, htarget, -⟩ := hst
      exact .inr (List.mem_map.mpr ⟨r, mem_orphanedRuns.mpr
        ⟨Table.mem_of_get? hr, ⟨hostId, hmem, htarget⟩, hactive⟩, Table.key_of_get? hr⟩)
    · exact .inl ⟨World.NoWorse.of_eq rfl rfl _ _ hst, hmem⟩
  | @fail _ orphaned =>
    -- The runs that it has read are failed, so they are not active any more.
    refine .inl ⟨World.NoWorse.commitFailed _ _ _ hst, fun hmem => ?_⟩
    obtain ⟨r', hr', hactive, -⟩ := hst
    have hmem : testId ∈ orphaned.map TestExecution.testId := hmem
    rw [World.commitFailed, get?_failRuns, if_pos hmem] at hr'
    obtain ⟨r, -, rfl⟩ := Option.map_eq_some_iff.mp hr'
    cases hactive
  | raises hdone hraised =>
    exact .inl ⟨hst, fun hc => hraises rfl (Proc.rescues_of_covers hst hc)⟩

/-- A sweep in `S` keeps every stranded run covered. -/
lemma Rescued.sweep {maxAge : ℤ} {pc pc' : SweepPc} (hi : Rescued S s) (hS : S p)
    (hp : s.procs[p]? = some (.sweep maxAge pc)) (hr : SweepRule p maxAge s.world pc o w' pc')
    (hraises : o = .raises → ¬ (Proc.sweep maxAge pc).Rescues s.world) :
    Rescued S ⟨w', s.procs.set p (.sweep maxAge pc')⟩ := by
  intro t h hst
  rcases hr.stranded hraises hst with ⟨hold, hnot⟩ | hnew
  · obtain ⟨q, proc, hq, hget, hc⟩ := hi t h hold
    have hne : q ≠ p := by
      rintro rfl
      obtain rfl := Option.some.inj (hp.symm.trans hget)
      exact hnot hc
    exact ⟨q, proc, hq, by rw [Pool.getElem?_set_of_get hp, if_neg hne, hget], hc⟩
  · exact ⟨p, _, hS, by rw [Pool.getElem?_set_of_get hp, if_pos rfl], hnew⟩

/-- A process that covers nothing moved, and stranded nothing that is not covered. -/
lemma Rescued.of_proc {proc proc' : Proc} (hi : Rescued (fun _ => True) s)
    (hp : s.procs[p]? = some proc) (hnot : ∀ t h, ¬ proc.Covers t h)
    (hst : ∀ t h, w'.StrandedOn t h → s.world.StrandedOn t h ∨ s.Covered t h) :
    Rescued (fun _ => True) ⟨w', s.procs.set p proc'⟩ := by
  intro t h h'
  have hcovered : ∃ (q : ℕ) (other : Proc), s.procs[q]? = some other ∧ other.Covers t h := by
    rcases hst t h h' with hold | ⟨other, hmem, hc⟩
    · obtain ⟨q, other, -, hget, hc⟩ := hi t h hold
      exact ⟨q, other, hget, hc⟩
    · obtain ⟨q, hget⟩ := List.mem_iff_getElem?.mp hmem
      exact ⟨q, other, hget, hc⟩
  obtain ⟨q, other, hget, hc⟩ := hcovered
  have hne : q ≠ p := by
    rintro rfl
    obtain rfl := Option.some.inj (hp.symm.trans hget)
    exact hnot t h hc
  exact ⟨q, other, trivial, by rw [Pool.getElem?_set_of_get hp, if_neg hne, hget], hc⟩

/-- Only the shared state moved. -/
lemma Rescued.of_noWorse (hi : Rescued S s) (hst : s.world.NoWorse w') :
    Rescued S ⟨w', s.procs⟩ := fun t h h' => hi t h (hst t h h')

/-- Processes were started. -/
lemma Rescued.of_append {new : List Proc} (hi : Rescued S s) (hst : s.world.NoWorse w') :
    Rescued S ⟨w', s.procs ++ new⟩ := by
  intro t h h'
  obtain ⟨q, proc, hq, hget, hc⟩ := hi t h (hst t h h')
  have hlt : q < s.procs.length := (List.getElem?_eq_some_iff.mp hget).1
  exact ⟨q, proc, hq, by rw [List.getElem?_append_left hlt, hget], hc⟩

lemma rescued_step {a : Act} (hi : Rescued (fun _ => True) s) (hG : SweepsFinish s a)
    (h : step s a = some s') : Rescued (fun _ => True) s' := by
  cases SysRule.of_step h with
  | launch => exact hi.of_append (.of_eq rfl rfl)
  | deliver hm hq => exact hi.of_append (.of_eq rfl rfl)
  | redeliver hm hq => exact hi.of_append (.of_eq rfl rfl)
  | submit hp hr =>
    refine hi.of_proc hp (fun _ _ => id) fun t h => hr.stranded ?_
    rintro url rfl
    exact hG _ hp
  | task hp hr =>
    refine hi.of_proc hp (fun _ _ => id) fun t h => hr.stranded ?_
    rintro url rfl
    exact hG _ hp
  | heartbeat hp hr => exact hi.of_proc hp (fun _ _ => id) fun t h hst => .inl (hr.noWorse t h hst)
  | update hp hr => exact hi.of_proc hp (fun _ _ => id) fun t h hst => .inl (hr.noWorse t h hst)
  | reap hp hr => exact hi.of_proc hp (fun _ _ => id) fun t h hst => .inl (hr.noWorse t h hst)
  | sweep hp hr =>
    apply hi.sweep trivial hp hr
    rintro rfl
    exact hG _ hp
  | @kill p proc hp =>
    intro t k hst
    -- The guard lets no process be killed that covers a stranded run.
    have hst : s.world.StrandedOn t k := World.NoWorse.of_eq rfl rfl t k hst
    obtain ⟨q, other, -, hget, hc⟩ := hi t k hst
    have hne : q ≠ p := by
      rintro rfl
      obtain rfl := Option.some.inj (hp.symm.trans hget)
      exact hG _ hp (Proc.rescues_of_covers hst hc)
    exact ⟨q, other, trivial, by rw [Pool.getElem?_set_of_get hp, if_neg hne, hget], hc⟩
  | exit hc hrun => exact hi.of_noWorse (.of_eq rfl rfl)
  | tick => exact hi.of_noWorse (.of_eq rfl rfl)

/-- Where the call of a sweep stands that runs alone: before its start all stranded runs are
covered, from then on by this sweep. -/
def InCall (p : ℕ) (s : Sys) : Prop :=
  ∃ maxAge pc, s.procs[p]? = some (.sweep maxAge pc) ∧
    (pc = .start ∧ Rescued (fun _ => True) s ∨ pc = .raised ∨ Rescued (· = p) s)

lemma inCall_step {a : Act} (hi : InCall p s) (hG : SweepsFinish s a) (halone : Alone p a)
    (h : step s a = some s') : InCall p s' := by
  obtain ⟨maxAge, pc, hp, hi⟩ := hi
  cases SysRule.of_step h with
  | sweep hq hr =>
    obtain rfl := halone
    obtain ⟨rfl, rfl⟩ := Proc.sweep.inj (Option.some.inj (hp.symm.trans hq))
    refine ⟨maxAge, _, by rw [Pool.getElem?_set_of_get hp, if_pos rfl], ?_⟩
    -- Before its first step the sweep has others that rescue; the guard leaves none.
    rcases hi with ⟨rfl, hi⟩ | rfl | hi
    · cases hr with
      | start =>
        refine .inr (.inr fun t h hst => ?_)
        obtain ⟨q, other, -, hget, hc⟩ := hi t h hst
        exact absurd (Proc.rescues_of_covers hst hc) (hG _ hp rfl other (List.mem_of_getElem? hget))
      | raises => exact .inr (.inl rfl)
    · cases hr with
      | raises hdone hraised => exact absurd rfl hraised
    · refine .inr (.inr (hi.sweep rfl hp hr ?_))
      rintro rfl
      exact hG _ hp
  | exit hc hrun =>
    refine ⟨maxAge, pc, hp, hi.imp (fun h => ⟨h.1, ?_⟩) (Or.imp_right fun h => ?_)⟩
    · exact h.2.of_noWorse (.of_eq rfl rfl)
    · exact h.of_noWorse (.of_eq rfl rfl)
  | tick =>
    refine ⟨maxAge, pc, hp, hi.imp (fun h => ⟨h.1, ?_⟩) (Or.imp_right fun h => ?_)⟩
    · exact h.2.of_noWorse (.of_eq rfl rfl)
    · exact h.of_noWorse (.of_eq rfl rfl)
  -- Nobody else moves during the call.
  | submit hq hr =>
    obtain rfl := halone
    cases hp.symm.trans hq
  | task hq hr =>
    obtain rfl := halone
    cases hp.symm.trans hq
  | heartbeat hq hr =>
    obtain rfl := halone
    cases hp.symm.trans hq
  | update hq hr =>
    obtain rfl := halone
    cases hp.symm.trans hq
  | reap hq hr =>
    obtain rfl := halone
    cases hp.symm.trans hq
  | launch => exact halone.elim
  | deliver hm hq => exact halone.elim
  | redeliver hm hq => exact halone.elim
  | kill hq => exact halone.elim

/-- In every run that meets `SweepsFinish` from tables without stranded runs: when the call of a
sweep that runs alone has completed, no run is stranded. -/
theorem nothing_stranded_after_sweep {s₀ : Sys} {maxAge maxAge' : ℤ} (hclean : s₀.world.Clean)
    (h : Reaches step SweepsFinish s₀ s)
    (hstart : s.procs[p]? = some (.sweep maxAge .start))
    (hcall : Reaches step (fun s a => SweepsFinish s a ∧ Alone p a) s s')
    (hdone : s'.procs[p]? = some (.sweep maxAge' .done)) : s'.world.Clean := by
  have hrescued : Rescued (fun _ => True) s := by
    refine h.invariant ?_ fun _ _ _ hi hG hs => rescued_step hi hG hs
    intro t k hst
    exact absurd hst (World.clean_iff.mp hclean t k)
  obtain ⟨_, pc, hp, hi⟩ : InCall p s' :=
    hcall.invariant ⟨maxAge, .start, hstart, .inl ⟨rfl, hrescued⟩⟩
      fun _ _ _ hi hG hs => inCall_step hi hG.1 hG.2 hs
  obtain ⟨rfl, rfl⟩ := Proc.sweep.inj (Option.some.inj (hp.symm.trans hdone))
  rcases hi with ⟨hpc, -⟩ | hpc | hi
  · cases hpc
  · cases hpc
  · apply World.clean_iff.mpr
    intro t k hst
    obtain ⟨q, proc, rfl, hq, hc⟩ := hi t k hst
    obtain rfl := Option.some.inj (hq.symm.trans hp)
    exact hc

/-- A dispatched run on a host whose heartbeats stop. -/
def strandedRun : List Act :=
  [.launch (.submit sampleBundle), .advance 0 (.ok none), .advance 0 (.ok none),
    .advance 0 (.ok none), .advance 0 (.ok none), .advance 0 (.ok none), .tick 100000000]

def wholeSweep (p : ℕ) : List Act := List.replicate 5 (.advance p (.ok none))

/-- One sweep marks the host offline and fails the run. -/
theorem strandedRun_swept : ∃ s : Sys, s.world.status "t" = some .FAILED ∧ s.world.Clean := by
  obtain ⟨s, hs, hp⟩ := exists_reaches_of_guardedRun step SweepsFinish (.single idleHost)
    (strandedRun ++ [.launch (.sweep (seconds 60))])
    (fun s => s.procs[1]? = some (.sweep (seconds 60) .start) &&
      (guardedRun step (fun s a => SweepsFinish s a ∧ Alone 1 a) s (wholeSweep 1)).any fun s' =>
        s'.world.status "t" = some .FAILED && s'.procs[1]? = some (.sweep (seconds 60) .done))
    (by decide +kernel)
  simp only [Bool.and_eq_true, decide_eq_true_eq] at hp
  obtain ⟨s', hs', hp'⟩ := exists_reaches_of_guardedRun _ _ _ _ _ hp.2
  simp only [Bool.and_eq_true, decide_eq_true_eq] at hp'
  exact ⟨s', hp'.1, nothing_stranded_after_sweep (by decide) hs hp.1 hs' hp'.2⟩

/-- A sweep marks the host offline and is killed before it has failed the run. The next complete
sweep does not find it. -/
theorem killedSweep_strands :
    ¬ ∀ (s₀ s s' : Sys) (p : ℕ) (maxAge : ℤ), s₀.Idle → s₀.world.Clean →
      Reaches step (fun _ _ => True) s₀ s → s.procs[p]? = some (.sweep maxAge .start) →
      Reaches step (fun _ a => Alone p a) s s' → s'.procs[p]? = some (.sweep maxAge .done) →
      s'.world.Clean := by
  intro h
  obtain ⟨s, hs, hp⟩ := exists_reaches_of_guardedRun step (fun _ _ => True) (.single idleHost)
    (strandedRun ++ [.launch (.sweep (seconds 60)), .advance 1 (.ok none), .advance 1 (.ok none),
      .advance 1 (.ok none), .kill 1, .launch (.sweep (seconds 60))])
    (fun s => s.procs[2]? = some (.sweep (seconds 60) .start) &&
      (guardedRun step (fun _ a => Alone 2 a) s [.advance 2 (.ok none), .advance 2 (.ok none)]).any
        fun s' => s'.procs[2]? = some (.sweep (seconds 60) .done) && !s'.world.Clean)
    (by decide +kernel)
  simp only [Bool.and_eq_true, decide_eq_true_eq] at hp
  obtain ⟨s', hs', hp'⟩ := exists_reaches_of_guardedRun _ _ _ _ _ hp.2
  simp only [Bool.and_eq_true, decide_eq_true_eq, Bool.not_eq_true', decide_eq_false_iff_not] at hp'
  exact hp'.2 (h _ s s' 2 (seconds 60) (.single _) (by decide) hs hp.1 hs' hp'.1)

end TestOrch
