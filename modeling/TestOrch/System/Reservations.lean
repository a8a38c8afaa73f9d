import TestOrch.System.Redelivery
import TestOrch.System.Conservation

/-!
# Reservations of failed runs

Besides the closing commit of a submission, three operations store `FAILED`: an execution, the sweep
and `reap_stale`. An execution knows the reservation of the bundle from its message, but releases it
only in its `except` clause. The reapers know it only from the row, where `submit_test` does not
record it.
-/

namespace TestOrch

open Transition

/-- The bundle that the process works on, once its row exists. -/
def Proc.bundle? : Proc → Option TestBundleRequest
  | .submit bundle pc => if pc.inserted then some bundle else none
  | .task t => some t.bundle
  | _ => none

/-- Whatever is under way for the test has a bundle with `Q`. -/
structure Traced (k : NonEmptyStr) (Q : TestBundleRequest → Prop) (s : Sys) : Prop where
  messages : ∀ m ∈ s.world.queue ++ s.world.delivered, m.bundle.testId = k → Q m.bundle
  procs : ∀ proc ∈ s.procs, ∀ b ∈ proc.bundle?, b.testId = k → Q b

/-- The reservation that the row of a test carries. -/
def World.reservation (w : World) (k : String) : Option String :=
  (w.execs.get? k).bind TestExecution.qualiReservationId

/-- The stored rows and what they carry stay, and so do the attempts to release. -/
structure World.Keeps (w w' : World) : Prop where
  released : w.released ⊆ w'.released
  stored : ∀ k, w.status k ≠ none → w'.status k ≠ none ∧ w'.reservation k = w.reservation k

/-- A step of a process that sends no message. -/
structure World.Quiet (w w' : World) : Prop where
  queue : w'.queue = w.queue
  delivered : w'.delivered = w.delivered
  keeps : w.Keeps w'

/-- The next commit of the execution stores its verdict. -/
def TaskPc.storesVerdict : TaskPc → Bool
  | .verdictCommit _ => true
  | _ => false

/-- The runs that the next commit of a reaper fails, as it has loaded them. -/
def Proc.failing : Proc → List TestExecution
  | .sweep _ (.fail runs) => runs
  | .reap _ (.fail runs) => runs
  | _ => []

/-- If the next commit of the process fails the test with reservation `r`, then either in the
`except` clause, or as a reaper that has loaded `r` with the row. -/
def Proc.FailsReleased (k r : NonEmptyStr) (proc : Proc) : Prop :=
  (∀ t ∈ proc.exec?, t.bundle.testId = k → t.pc.storesVerdict = true → t.final ≠ .FAILED) ∧
    ∀ row ∈ proc.failing, row.testId = k → row.qualiReservationId = some r.val

instance (k r : NonEmptyStr) (proc : Proc) : Decidable (proc.FailsReleased k r) :=
  inferInstanceAs (Decidable ((∀ t ∈ proc.exec?, _) ∧ ∀ row ∈ proc.failing, _))

/-- The process is an execution of the test that has failed the run and has not yet attempted the
release. -/
def Proc.releasing (k : NonEmptyStr) : Proc → Bool
  | .task t => t.bundle.testId = k && t.pc = .release
  | _ => false

/-- The condition on a run: only commits that release the reservation fail the test, and no
execution is killed between the two. -/
def FailsReleased (k r : NonEmptyStr) (s : Sys) : Act → Prop
  | .advance p (.ok _) => ∀ proc ∈ s.procs[p]?, proc.FailsReleased k r
  | .kill p => ∀ proc ∈ s.procs[p]?, proc.releasing k = false
  | _ => True

instance (k r : NonEmptyStr) (s : Sys) : ∀ a, Decidable (FailsReleased k r s a)
  | .advance p (.ok _) | .kill p => inferInstanceAs (Decidable (∀ proc ∈ s.procs[p]?, _))
  | .advance _ .raises | .launch _ | .deliver .. | .redeliver .. | .exit .. | .tick _ =>
    inferInstanceAs (Decidable True)

/-- What the reapers will fail has been released, as far as the rows carry reservations. -/
def RunsReleased (s : Sys) : Prop :=
  ∀ proc ∈ s.procs, ∀ row ∈ proc.failing, ∀ r ∈ row.qualiReservationId,
    r ≠ "" → r ∈ s.world.released

variable {s s' : Sys} {w w' : World} {p : ℕ} {proc proc' : Proc} {o : Outcome} {k : NonEmptyStr}
  {Q : TestBundleRequest → Prop} {bundle : TestBundleRequest}

/-! ### What a step leaves alone -/

lemma World.Keeps.of_execs (hr : w.released ⊆ w'.released) (he : w'.execs = w.execs) :
    w.Keeps w' where
  released := hr
  stored k hst := by
    rw [World.status_of_execs he, World.reservation, he]
    exact ⟨hst, rfl⟩

/-- Rows are rewritten with the reservation that is stored. -/
lemma World.Keeps.of_modify {t : Executions} {ks : List String} {f : TestExecution → TestExecution}
    (hr : w'.released = w.released) (he : w'.execs = t)
    (hget : ∀ k, t.get? k = if k ∈ ks then (w.execs.get? k).map f else w.execs.get? k)
    (hf : ∀ row, (f row).qualiReservationId = row.qualiReservationId) : w.Keeps w' where
  released := by rw [hr]; exact fun _ h => h
  stored k hst := by
    rw [World.status, World.reservation, World.reservation, he, hget]
    split_ifs
    · cases hrow : w.execs.get? k with
      | none => simp [World.status, hrow] at hst
      | some row => simp [hf]
    · exact ⟨hst, rfl⟩

lemma World.Keeps.refl : w.Keeps w := .of_execs (fun _ h => h) rfl

lemma World.Keeps.of_commitHost {h : String} {loaded new : WorkerHost}
    (hw : w.commitHost p h loaded new = some w') : w.Keeps w' := by
  obtain ⟨-, rfl⟩ := World.commitHost_eq_some hw
  exact .of_execs (fun _ h => h) rfl

lemma World.Keeps.of_commitRun {k : String} {loaded new : TestExecution} :
    w.Keeps (w.commitRun p k loaded new) :=
  .of_modify rfl rfl
    (Table.get?_modify _ [k] _ fun r => TestExecution.flush_testId loaded new r w.clock)
    fun _ => rfl

lemma World.Keeps.of_commitFailed {runs : List String} : w.Keeps (w.commitFailed runs) :=
  .of_modify rfl rfl (get?_failRuns _ _ _) fun _ => rfl

lemma TaskRule.quiet {t t' : Task} (h : TaskRule p w t o w' t') : w.Quiet w' := by
  cases h with
  | running hpc | verdict hpc | failed hpc => exact ⟨rfl, rfl, .of_commitRun⟩
  | decrement hpc hw =>
    obtain ⟨-, rfl⟩ := World.commitHost_eq_some hw
    exact ⟨rfl, rfl, .of_commitHost hw⟩
  | release hpc => exact ⟨rfl, rfl, .of_execs (fun _ h => List.mem_append_left _ h) rfl⟩
  | _ => exact ⟨rfl, rfl, .of_execs (fun _ h => h) rfl⟩

lemma HeartbeatRule.quiet {hostId : String} {cpu : ℚ} {pc pc' : HeartbeatPc}
    (h : HeartbeatRule p hostId cpu w pc o w' pc') : w.Quiet w' := by
  cases h with
  | update hw =>
    obtain ⟨-, rfl⟩ := World.commitHost_eq_some hw
    exact ⟨rfl, rfl, .of_commitHost hw⟩
  | register hw =>
    obtain ⟨t, -, rfl⟩ := Option.map_eq_some_iff.mp hw
    exact ⟨rfl, rfl, .of_execs (fun _ h => h) rfl⟩
  | _ => exact ⟨rfl, rfl, .refl⟩

lemma UpdateRule.quiet {form : HostForm} {pc pc' : UpdatePc}
    (h : UpdateRule p form w pc o w' pc') : w.Quiet w' := by
  cases h with
  | commit hw =>
    obtain ⟨-, rfl⟩ := World.commitHost_eq_some hw
    exact ⟨rfl, rfl, .of_commitHost hw⟩
  | _ => exact ⟨rfl, rfl, .refl⟩

lemma SweepRule.quiet {maxAge : ℤ} {pc pc' : SweepPc} (h : SweepRule p maxAge w pc o w' pc') :
    w.Quiet w' := by
  cases h with
  | fail => exact ⟨rfl, rfl, .of_commitFailed⟩
  | select => exact ⟨rfl, rfl, .of_execs (fun _ h => List.mem_append_left _ h) rfl⟩
  | mark hfree => exact ⟨rfl, rfl, .of_execs (fun _ h => h) rfl⟩
  | _ => exact ⟨rfl, rfl, .refl⟩

lemma ReapRule.quiet {hostId : String} {pc pc' : ReapPc} (h : ReapRule hostId w pc o w' pc') :
    w.Quiet w' := by
  cases h with
  | fail => exact ⟨rfl, rfl, .of_commitFailed⟩
  | read => exact ⟨rfl, rfl, .of_execs (fun _ h => List.mem_append_left _ h) rfl⟩
  | _ => exact ⟨rfl, rfl, .refl⟩

lemma World.Keeps.of_insert {row : TestExecution} {t : Executions}
    (ht : w.execs.insert? row = some t) : w.Keeps { w with execs := t } where
  released _ h := h
  stored k hst := by
    obtain ⟨hfree, hget⟩ := Table.get?_insert? ht
    have hne : k ≠ row.testId := by
      rintro rfl
      simp [World.status, hfree] at hst
    rw [World.status_insert? ht, if_neg hne, World.reservation, hget, if_neg hne]
    exact ⟨hst, rfl⟩

lemma SubmitRule.keeps {pc pc' : SubmitPc} (h : SubmitRule p bundle w pc o w' pc') :
    w.Keeps w' := by
  cases h with
  | insert ht => exact .of_insert ht
  | reserve hw | undo hpos hw => exact .of_commitHost hw
  | close => exact .of_commitRun
  | _ => exact .of_execs (fun _ h => h) rfl

lemma step_keeps {a : Act} (h : step s a = some s') : s.world.Keeps s'.world := by
  cases SysRule.of_step h with
  | submit hp hr => exact hr.keeps
  | task hp hr => exact hr.quiet.keeps
  | heartbeat hp hr => exact hr.quiet.keeps
  | update hp hr => exact hr.quiet.keeps
  | sweep hp hr => exact hr.quiet.keeps
  | reap hp hr => exact hr.quiet.keeps
  | _ => exact .of_execs (fun _ h => h) rfl

/-! ### The bundles under way for a test -/

lemma Traced.mono {R : TestBundleRequest → Prop} (h : Traced k Q s) (hQR : ∀ b, Q b → R b) :
    Traced k R s where
  messages m hm hk := hQR _ (h.messages m hm hk)
  procs proc hmem b hb hk := hQR _ (h.procs proc hmem b hb hk)

/-- A process takes a step; what it sends and what it works on has `Q`. -/
lemma Traced.set (h : Traced k Q s)
    (hmessages : ∀ m ∈ w'.queue ++ w'.delivered, m ∈ s.world.queue ++ s.world.delivered ∨
      (m.bundle.testId = k → Q m.bundle))
    (hproc : ∀ b ∈ proc'.bundle?, b.testId = k → Q b) :
    Traced k Q ⟨w', s.procs.set p proc'⟩ where
  messages m hm hk := by
    rcases hmessages m hm with hold | hnew
    · exact h.messages m hold hk
    · exact hnew hk
  procs other hmem b hb hk := by
    rcases List.mem_or_eq_of_mem_set hmem with hold | rfl
    · exact h.procs other hold b hb hk
    · exact hproc b hb hk

lemma Traced.quiet (h : Traced k Q s) (hp : s.procs[p]? = some proc) (hq : s.world.Quiet w')
    (hproc : ∀ b ∈ proc'.bundle?, b ∈ proc.bundle?) : Traced k Q ⟨w', s.procs.set p proc'⟩ := by
  refine h.set ?_ fun b hb hk => h.procs proc (List.mem_of_getElem? hp) b (hproc b hb) hk
  intro m hm
  rw [hq.queue, hq.delivered] at hm
  exact .inl hm

lemma Traced.submit {pc pc' : SubmitPc} (h : Traced k Q s)
    (hp : s.procs[p]? = some (.submit bundle pc)) (hr : SubmitRule p bundle s.world pc o w' pc')
    (hins : pc = .insert → pc' ≠ .failed → bundle.testId = k → Q bundle) :
    Traced k Q ⟨w', s.procs.set p (.submit bundle pc')⟩ := by
  have hold (hpc : pc.inserted = true) (hk : bundle.testId = k) : Q bundle :=
    h.procs _ (List.mem_of_getElem? hp) bundle (by simp [Proc.bundle?, hpc]) hk
  have hproc : ∀ b ∈ (Proc.submit bundle pc').bundle?, b.testId = k → Q b := by
    intro b hb hk
    simp only [Proc.bundle?] at hb
    split_ifs at hb with hpc'
    · obtain rfl := Option.some.inj hb
      cases hr with
      | insert ht => exact hins rfl SubmitPc.noConfusion hk
      | insertFails => cases hpc'
      | _ => exact hold rfl hk
    · cases hb
  refine h.set ?_ hproc
  intro m hm
  cases hr with
  | send =>
    simp only [List.mem_append, List.mem_singleton] at hm
    rcases hm with (hm | rfl) | hm
    · exact .inl (List.mem_append_left _ hm)
    · exact .inr fun hk => hold rfl hk
    · exact .inl (List.mem_append_right _ hm)
  | reserve hw | undo hpos hw =>
    obtain ⟨-, rfl⟩ := World.commitHost_eq_some hw
    exact .inl hm
  | _ => exact .inl hm

/-- A new process works on nothing, or on the bundle of a message. -/
lemma Traced.spawn (h : Traced k Q s)
    (hmessages : ∀ m ∈ w'.queue ++ w'.delivered, m ∈ s.world.queue ++ s.world.delivered)
    (hproc : ∀ b ∈ proc'.bundle?, b.testId = k → Q b) : Traced k Q ⟨w', s.procs ++ [proc']⟩ where
  messages m hm hk := h.messages m (hmessages m hm) hk
  procs other hmem b hb hk := by
    rcases List.mem_append.mp hmem with hold | hnew
    · exact h.procs other hold b hb hk
    · rw [List.mem_singleton.mp hnew] at hb
      exact hproc b hb hk

def Inserts (s : Sys) (bundle : TestBundleRequest) : Act → Prop
  | .advance p (.ok _) => s.procs[p]? = some (.submit bundle .insert)
  | _ => False

lemma traced_step {a : Act} (h : Traced k Q s) (hs : step s a = some s')
    (hins : ∀ b, Inserts s b a → b.testId = k → Q b) : Traced k Q s' := by
  cases SysRule.of_step hs with
  | @launch l =>
    refine h.spawn (fun _ hm => hm) fun b hb => ?_
    cases l <;> simp [Launch.proc, Proc.bundle?, SubmitPc.inserted] at hb
  | @deliver i host m hm hq =>
    have hmem := List.mem_of_getElem? hm
    refine h.spawn ?_ ?_
    · intro m' hm'
      simp only [World.handOut, List.mem_append, List.mem_singleton] at hm' ⊢
      rcases hm' with hm' | hm' | rfl
      · exact .inl (List.mem_of_mem_eraseIdx hm')
      · exact .inr hm'
      · exact .inl hmem
    · intro b hb hk
      obtain rfl := Option.some.inj hb
      exact h.messages m (List.mem_append_left _ hmem) hk
  | @redeliver i host m hm hq =>
    refine h.spawn (fun _ hm => hm) ?_
    intro b hb hk
    obtain rfl := Option.some.inj hb
    exact h.messages m (List.mem_append_right _ (List.mem_of_getElem? hm)) hk
  | @submit p o b pc w' pc' hp hr =>
    apply h.submit hp hr
    -- Only the insert brings in a bundle of the test.
    rintro rfl hne hk
    cases hr with
    | insert ht => exact hins b hp hk
    | insertFails => exact absurd rfl hne
  | task hp hr =>
    apply h.quiet hp hr.quiet
    intro b hb
    rw [Proc.bundle?, hr.same.2] at hb
    exact hb
  | heartbeat hp hr => exact h.quiet hp hr.quiet fun b hb => absurd hb (by simp [Proc.bundle?])
  | update hp hr => exact h.quiet hp hr.quiet fun b hb => absurd hb (by simp [Proc.bundle?])
  | sweep hp hr => exact h.quiet hp hr.quiet fun b hb => absurd hb (by simp [Proc.bundle?])
  | reap hp hr => exact h.quiet hp hr.quiet fun b hb => absurd hb (by simp [Proc.bundle?])
  | kill hp =>
    exact h.quiet hp ⟨rfl, rfl, .of_execs (fun _ h => h) rfl⟩ fun b hb =>
      absurd hb (by simp [Proc.bundle?])
  | exit hc hrun => exact ⟨h.messages, h.procs⟩
  | tick => exact ⟨h.messages, h.procs⟩

/-! ### The reapers release before they fail -/

lemma mem_reservationsOf {runs : List TestExecution} {row : TestExecution} {r : String}
    (hrow : row ∈ runs) (hr : row.qualiReservationId = some r) (hne : r ≠ "") :
    r ∈ reservationsOf runs := by
  refine List.mem_filterMap.mpr ⟨row, hrow, ?_⟩
  rw [hr, Option.filter_some, if_pos (by simpa using hne)]

lemma RunsReleased.set (h : RunsReleased s) (hreleased : s.world.released ⊆ w'.released)
    (hproc : ∀ row ∈ proc'.failing, ∀ r ∈ row.qualiReservationId, r ≠ "" → r ∈ w'.released) :
    RunsReleased ⟨w', s.procs.set p proc'⟩ := by
  intro other hmem row hrow r hr hne
  rcases List.mem_or_eq_of_mem_set hmem with hold | rfl
  · exact hreleased (h other hold row hrow r hr hne)
  · exact hproc row hrow r hr hne

lemma RunsReleased.spawn (h : RunsReleased s) (hreleased : w'.released = s.world.released)
    (hproc : proc'.failing = []) : RunsReleased ⟨w', s.procs ++ [proc']⟩ := by
  intro other hmem row hrow r hr hne
  show r ∈ w'.released
  rw [hreleased]
  rcases List.mem_append.mp hmem with hold | hnew
  · exact h other hold row hrow r hr hne
  · rw [List.mem_singleton.mp hnew, hproc] at hrow
    cases hrow

lemma runsReleased_step {a : Act} (h : RunsReleased s) (hs : step s a = some s') :
    RunsReleased s' := by
  have hreleased := (step_keeps hs).released
  cases SysRule.of_step hs with
  | @launch l => exact h.spawn rfl (by cases l <;> rfl)
  | deliver hm hq => exact h.spawn rfl rfl
  | redeliver hm hq => exact h.spawn rfl rfl
  | submit hp hr => exact h.set hreleased fun _ hrow => absurd hrow List.not_mem_nil
  | task hp hr => exact h.set hreleased fun _ hrow => absurd hrow List.not_mem_nil
  | heartbeat hp hr => exact h.set hreleased fun _ hrow => absurd hrow List.not_mem_nil
  | update hp hr => exact h.set hreleased fun _ hrow => absurd hrow List.not_mem_nil
  | sweep hp hr =>
    apply h.set hreleased
    cases hr with
    | select =>
      intro row hrow r hr hne
      exact List.mem_append_right _ (mem_reservationsOf hrow hr hne)
    | _ => exact fun _ hrow => absurd hrow List.not_mem_nil
  | reap hp hr =>
    apply h.set hreleased
    cases hr with
    | read =>
      intro row hrow r hr hne
      exact List.mem_append_right _ (mem_reservationsOf hrow hr hne)
    | _ => exact fun _ hrow => absurd hrow List.not_mem_nil
  | kill hp => exact h.set hreleased fun _ hrow => absurd hrow List.not_mem_nil
  | exit hc hrun => exact h
  | tick => exact h

/-! ### The step that fails the run, and what follows -/

/-- The release was attempted, or process `p` is about to attempt it. -/
def ReleaseDue (p : ℕ) (k r : NonEmptyStr) (s : Sys) : Prop :=
  r.val ∈ s.world.released ∨ ∃ t, s.procs[p]? = some (.task t) ∧ t.bundle.testId = k ∧
    t.bundle.qualiReservationId = some r ∧ t.pc = .release

lemma World.status_commitRun_failed {k' : String} {loaded new : TestExecution}
    (hbefore : w.status k' ≠ some .FAILED) {k : String}
    (hafter : (w.commitRun p k loaded new).status k' = some .FAILED) :
    k' = k ∧ new.status = .FAILED := by
  rw [World.status_commitRun] at hafter
  split_ifs at hafter with hk
  · obtain ⟨old, hold, hnew⟩ := Option.map_eq_some_iff.mp hafter
    refine ⟨hk, ?_⟩
    by_contra hne
    unfold writeBack at hnew
    split_ifs at hnew
    · exact hbefore (hnew ▸ hold)
    · exact hne hnew
  · exact absurd hafter hbefore

/-- An execution that fails its run does so in the `except` clause, and releases next. -/
lemma TaskRule.releaseDue {t t' : Task} {r : NonEmptyStr} (hr : TaskRule p w t o w' t')
    (hfail : (Proc.task t).FailsReleased k r)
    (hcarries : t.bundle.testId = k → t.bundle.qualiReservationId = some r)
    (hbefore : w.status k ≠ some .FAILED) (hafter : w'.status k = some .FAILED) :
    t.bundle.testId = k ∧ t'.bundle = t.bundle ∧ t.bundle.qualiReservationId = some r ∧
      t'.pc = .release := by
  cases hr with
  | running hpc =>
    obtain ⟨-, hne⟩ := World.status_commitRun_failed hbefore hafter
    cases hne
  | @verdict url row hpc =>
    obtain ⟨hk, hfinal⟩ := World.status_commitRun_failed hbefore hafter
    exact absurd hfinal (hfail.1 t rfl (Subtype.ext hk.symm) (by rw [hpc]; rfl))
  | failed hpc =>
    obtain ⟨hk, -⟩ := World.status_commitRun_failed hbefore hafter
    have hk : t.bundle.testId = k := Subtype.ext hk.symm
    exact ⟨hk, rfl, hcarries hk, rfl⟩
  | decrement hpc hw =>
    obtain ⟨-, rfl⟩ := World.commitHost_eq_some hw
    exact absurd hafter hbefore
  | _ => exact absurd hafter hbefore

/-- A reaper that fails the run has loaded the reservation with the row, and has released it. -/
lemma released_of_commitFailed {runs : List TestExecution} {r : NonEmptyStr}
    (hfail : ∀ row ∈ runs, row.testId = k → row.qualiReservationId = some r.val)
    (hreleased : ∀ row ∈ runs, ∀ r ∈ row.qualiReservationId, r ≠ "" → r ∈ w.released)
    (hbefore : w.status k ≠ some .FAILED)
    (hafter : (w.commitFailed (runs.map TestExecution.testId)).status k = some .FAILED) :
    r.val ∈ w.released := by
  rw [World.status_commitFailed] at hafter
  split_ifs at hafter with hk
  · obtain ⟨row, hrow, hk⟩ := List.mem_map.mp hk
    have hne : r.val ≠ "" := by
      intro h
      exact r.property (by rw [h]; rfl)
    exact hreleased row hrow r (hfail row hrow hk) hne
  · exact absurd hafter hbefore

lemma releaseDue_of_failed {r : NonEmptyStr} (hs : step s (.advance p o) = some s')
    (hG : FailsReleased k r s (.advance p o))
    (htraced : Traced k (fun b => b.qualiReservationId = some r) s) (hruns : RunsReleased s)
    (hkind : ∀ proc ∈ s.procs[p]?, proc.kind ≠ .submit)
    (hbefore : s.world.status k ≠ some .FAILED) (hafter : s'.world.status k = some .FAILED) :
    ReleaseDue p k r s' := by
  have hfail (proc : Proc) (hp : s.procs[p]? = some proc) (ho : o ≠ .raises) :
      proc.FailsReleased k r := by
    cases o with
    | ok url => exact hG proc hp
    | raises => exact absurd rfl ho
  cases SysRule.of_step hs with
  | submit hp hr => exact absurd rfl (hkind _ hp)
  | @task _ _ t w' t' hp hr =>
    -- The handler has failed the test, and its release comes next.
    have ho : o ≠ .raises := by
      rintro rfl
      cases hr <;> exact hbefore hafter
    have hcarries (hk : t.bundle.testId = k) : t.bundle.qualiReservationId = some r :=
      htraced.procs _ (List.mem_of_getElem? hp) t.bundle rfl hk
    obtain ⟨hk, hb, hq, hpc⟩ := hr.releaseDue (hfail _ hp ho) hcarries hbefore hafter
    refine .inr ⟨t', ?_, hb ▸ hk, hb ▸ hq, hpc⟩
    rw [Pool.getElem?_set_of_get hp, if_pos rfl]
  | heartbeat hp hr =>
    cases hr with
    | update hw =>
      obtain ⟨-, rfl⟩ := World.commitHost_eq_some hw
      exact absurd hafter hbefore
    | register hw =>
      obtain ⟨t, -, rfl⟩ := Option.map_eq_some_iff.mp hw
      exact absurd hafter hbefore
    | _ => exact absurd hafter hbefore
  | update hp hr =>
    cases hr with
    | commit hw =>
      obtain ⟨-, rfl⟩ := World.commitHost_eq_some hw
      exact absurd hafter hbefore
    | _ => exact absurd hafter hbefore
  | sweep hp hr =>
    cases hr with
    | fail =>
      -- The sweep releases before its commit.
      exact .inl (released_of_commitFailed (w := s.world) (hfail _ hp (by simp)).2
        (hruns _ (List.mem_of_getElem? hp)) hbefore hafter)
    | _ => exact absurd hafter hbefore
  | reap hp hr =>
    cases hr with
    | fail =>
      exact .inl (released_of_commitFailed (w := s.world) (hfail _ hp (by simp)).2
        (hruns _ (List.mem_of_getElem? hp)) hbefore hafter)
    | _ => exact absurd hafter hbefore

/-- What is due stays due until it is done. -/
lemma releaseDue_step {r : NonEmptyStr} {a : Act} (h : ReleaseDue p k r s)
    (hG : FailsReleased k r s a) (hs : step s a = some s') : ReleaseDue p k r s' := by
  rcases h with h | ⟨t, hp, hk, hq, hpc⟩
  · exact .inl ((step_keeps hs).released h)
  -- another process moves
  have hother {w' : World} {j : ℕ} {proc proc' : Proc} (hj : s.procs[j]? = some proc)
      (hne : p ≠ j) : ReleaseDue p k r ⟨w', s.procs.set j proc'⟩ :=
    .inr ⟨t, by rw [Pool.getElem?_set_of_get hj, if_neg hne, hp], hk, hq, hpc⟩
  cases SysRule.of_step hs with
  | launch => exact .inr ⟨t, Pool.getElem?_append_of_get hp, hk, hq, hpc⟩
  | deliver hm hc => exact .inr ⟨t, Pool.getElem?_append_of_get hp, hk, hq, hpc⟩
  | redeliver hm hc => exact .inr ⟨t, Pool.getElem?_append_of_get hp, hk, hq, hpc⟩
  | @task j o t' w' t'' hj hr =>
    by_cases hne : p = j
    · subst hne
      obtain rfl : t = t' := by simpa using hp.symm.trans hj
      left
      cases hr with
      | release hpc' => simp [hq]
      | abort hpc' | leave hpc' => rcases hpc' with h | h | ⟨row, h⟩ <;> simp [hpc] at h
      | failedFails hpc' => rcases hpc' with h | ⟨row, h⟩ <;> simp [hpc] at h
      | crash hpc' => simp [hpc, TaskPc.inTry] at hpc'
      | _ hpc' => simp [hpc] at hpc'
    · exact hother hj hne
  | submit hj hr | heartbeat hj hr | update hj hr | sweep hj hr | reap hj hr =>
    apply hother hj
    rintro rfl
    simp [hp] at hj
  | kill hj =>
    apply hother hj
    rintro rfl
    obtain rfl := Option.some.inj (hp.symm.trans hj)
    have := hG _ hp
    simp [Proc.releasing, hk, hpc] at this
  | exit hc hrun => exact .inr ⟨t, hp, hk, hq, hpc⟩
  | tick => exact .inr ⟨t, hp, hk, hq, hpc⟩

/-- An insert happens only while the test has no row. -/
lemma stored_of_inserts {a : Act} {b : TestBundleRequest} (hs : step s a = some s')
    (hins : Inserts s b a) :
    s.world.status b.testId = none ∧ s'.world.status b.testId ≠ none ∧
      s'.world.reservation b.testId = none := by
  cases SysRule.of_step hs with
  | @submit p o b' pc w' pc' hp hr =>
    cases o with
    | raises => exact hins.elim
    | ok url =>
      have heq : (Proc.submit b' pc) = .submit b .insert := Option.some.inj (hp.symm.trans hins)
      obtain ⟨rfl, rfl⟩ := Proc.submit.inj heq
      cases hr with
      | insert ht =>
        -- The primary key refuses a second row.
        obtain ⟨hfree, hget⟩ := Table.get?_insert? ht
        have hrow := hget b'.testId
        rw [newExecution_testId, if_pos rfl] at hrow
        refine ⟨by rw [World.status, ← newExecution_testId b' s.world.clock, hfree]; rfl, ?_, ?_⟩
        · simp [World.status, hrow]
        · simp [World.reservation, hrow, newExecution]
  | @task p o t _ _ hp | @heartbeat p o hostId cpu pc _ _ hp | @update p o form pc _ _ hp
  | @sweep p o maxAge pc _ _ hp | @reap p o hostId pc _ _ hp =>
    cases o with
    | raises => exact hins.elim
    | ok url =>
      have heq := hp.symm.trans hins
      simp at heq
  | _ => exact hins.elim

/-- A test without a row has nothing under way. -/
lemma traced_of_none {s₀ : Sys} {G : Sys → Act → Prop} (h₀ : s₀.Fresh) (h : Reaches step G s₀ s)
    (hnone : s.world.status k = none) : Traced k (fun _ => False) s := by
  suffices hi : s.world.status k = none → Traced k (fun _ => False) s from hi hnone
  refine h.invariant (I := fun s => s.world.status k = none → Traced k (fun _ => False) s) ?_ ?_
  · intro _
    exact ⟨by simp [h₀.queue, h₀.delivered], by simp [h₀.idle.1]⟩
  · intro s a s' hi _ hs hnone'
    have hnone : s.world.status k = none := by
      by_contra hne
      exact ((step_keeps hs).stored k hne).1 hnone'
    apply traced_step (hi hnone) hs
    intro b hins hk
    exact (stored_of_inserts hs hins).2.1 (hk ▸ hnone')

/-- The row that a submission inserts never carries the reservation of its bundle, so a reaper that
loads it releases nothing. -/
theorem submitted_row_carries_none {s₁ s₂ : Sys} {a : Act} {b : TestBundleRequest}
    {G : Sys → Act → Prop} (hins : Inserts s₁ b a) (hs : step s₁ a = some s₂)
    (h : Reaches step G s₂ s) : s.world.reservation b.testId = none := by
  suffices hi : s.world.status b.testId ≠ none ∧ s.world.reservation b.testId = none from hi.2
  refine h.invariant
    (I := fun s => s.world.status b.testId ≠ none ∧ s.world.reservation b.testId = none)
    (stored_of_inserts hs hins).2 ?_
  rintro s a s' ⟨hst, hnone⟩ _ hs
  obtain ⟨hst', hsame⟩ := (step_keeps hs).stored _ hst
  exact ⟨hst', hsame.trans hnone⟩

/-- In every run that meets `FailsReleased`, a worker or a reaper that fails the test has attempted
the release of its reservation once its operation is over. -/
theorem reservation_released {s₀ s₁ s₂ s₃ s₄ : Sys} {b : TestBundleRequest} {r : NonEmptyStr}
    {q : ℕ} {url : Option String} (h₀ : s₀.Fresh) (hr : b.qualiReservationId = some r)
    (h₁ : Reaches step (FailsReleased b.testId r) s₀ s₁)
    (hq : s₁.procs[q]? = some (.submit b .insert))
    (hinsert : step s₁ (.advance q (.ok url)) = some s₂)
    (h₂ : Reaches step (FailsReleased b.testId r) s₂ s₃)
    (hkind : ∀ proc ∈ s₃.procs[p]?, proc.kind ≠ .submit)
    (hG : FailsReleased b.testId r s₃ (.advance p o)) (hfail : step s₃ (.advance p o) = some s₄)
    (hbefore : s₃.world.status b.testId ≠ some .FAILED)
    (hafter : s₄.world.status b.testId = some .FAILED)
    (h₄ : Reaches step (FailsReleased b.testId r) s₄ s)
    (hend : ∀ proc ∈ s.procs[p]?, proc.finished = true) : r.val ∈ s.world.released := by
  have hins : Inserts s₁ b (.advance q (.ok url)) := hq
  have hnone := traced_of_none h₀ h₁ (stored_of_inserts hinsert hins).1
  -- from the insert on only this bundle is under way for the test
  have hsole : Traced b.testId (fun b => b.qualiReservationId = some r) s₂ := by
    refine traced_step (hnone.mono fun _ => False.elim) hinsert fun b' hins' _ => ?_
    have heq : (Proc.submit b .insert) = .submit b' .insert := Option.some.inj (hq.symm.trans hins')
    rw [← (Proc.submit.inj heq).1]
    exact hr
  have htraced : Traced b.testId (fun b => b.qualiReservationId = some r) s₃ ∧
      s₃.world.status b.testId ≠ none := by
    refine h₂.invariant (I := fun s => Traced b.testId _ s ∧ s.world.status b.testId ≠ none)
      ⟨hsole, (stored_of_inserts hinsert hins).2.1⟩ ?_
    rintro s a s' ⟨ht, hst⟩ _ hs
    refine ⟨traced_step ht hs fun b' hins' hk => ?_, ((step_keeps hs).stored _ hst).1⟩
    rw [← hk] at hst
    exact absurd (stored_of_inserts hs hins').1 hst
  have hruns : RunsReleased s₃ := by
    have h₀ : RunsReleased s₀ := by simp [RunsReleased, h₀.idle.1]
    have h₁ : RunsReleased s₁ := h₁.invariant h₀ fun _ _ _ hi _ hs => runsReleased_step hi hs
    exact h₂.invariant (runsReleased_step h₁ hinsert) fun _ _ _ hi _ hs => runsReleased_step hi hs
  have hdue : ReleaseDue p b.testId r s₄ :=
    releaseDue_of_failed hfail hG htraced.1 hruns hkind hbefore hafter
  rcases h₄.invariant hdue fun _ _ _ hd hG hs => releaseDue_step hd hG hs with
    h | ⟨t, hp, -, -, hpc⟩
  · exact h
  · have := hend _ hp
    simp [Proc.finished, hpc, TaskPc.executing] at this

def reservedBundle : TestBundleRequest :=
  { sampleBundle with qualiReservationId := some ⟨"r", by decide⟩ }

def submitted : Sys := { Sys.single idleHost with procs := [.submit reservedBundle .insert] }

lemma submitted_reached (G : Sys → Act → Prop)
    (hG : G (.single idleHost) (.launch (.submit reservedBundle))) :
    Reaches step G (.single idleHost) submitted := .single hG rfl

/-- A run from the insert on, cut at the step in which process 1 fails the test. -/
def failedRun (G : Sys → Act → Prop) [∀ s a, Decidable (G s a)] (before after : List Act)
    (p : Sys → Bool) : Bool :=
  (step submitted (.advance 0 (.ok none))).any fun s₂ =>
    (guardedRun step G s₂ before).any fun s₃ =>
      (∀ proc ∈ s₃.procs[1]?, proc.kind ≠ .submit) && G s₃ (.advance 1 (.ok none)) &&
        s₃.world.status "t" ≠ some .FAILED &&
          (step s₃ (.advance 1 (.ok none))).any fun s₄ => s₄.world.status "t" = some .FAILED &&
            (guardedRun step G s₄ after).any fun s =>
              (∀ proc ∈ s.procs[1]?, proc.finished = true) && p s

lemma exists_failedRun (G : Sys → Act → Prop) [∀ s a, Decidable (G s a)] (before after : List Act)
    (p : Sys → Bool) (h : failedRun G before after p = true) :
    ∃ s₂ s₃ s₄ s, step submitted (.advance 0 (.ok none)) = some s₂ ∧ Reaches step G s₂ s₃ ∧
      (∀ proc ∈ s₃.procs[1]?, proc.kind ≠ .submit) ∧ G s₃ (.advance 1 (.ok none)) ∧
      s₃.world.status "t" ≠ some .FAILED ∧ step s₃ (.advance 1 (.ok none)) = some s₄ ∧
      s₄.world.status "t" = some .FAILED ∧ Reaches step G s₄ s ∧
      (∀ proc ∈ s.procs[1]?, proc.finished = true) ∧ p s = true := by
  simp only [failedRun, Option.any_eq_true, Bool.and_eq_true, decide_eq_true_eq] at h
  obtain ⟨s₂, hins, s₃, h₃, ⟨⟨hkind, hG⟩, hbefore⟩, s₄, hfail, hafter, s, h, hend, hp⟩ := h
  exact ⟨s₂, s₃, s₄, s, hins, reaches_of_guardedRun h₃, hkind, hG, hbefore, hfail, hafter,
    reaches_of_guardedRun h, hend, hp⟩

/-- The accesses of the submission after its insert, and of the execution up to the container. -/
def startedRun : List Act :=
  List.replicate 4 (.advance 0 (.ok none)) ++ .deliver 0 "h" ::
    List.replicate 6 (.advance 1 (.ok none))

/-- The log stream of the container breaks off: the execution releases the reservation. -/
theorem crashedRun_released : ∃ s : Sys, s.world.status "t" = some .FAILED ∧
    "r" ∈ s.world.released := by
  obtain ⟨s₂, s₃, s₄, s, hins, h₂, hkind, hG, hbefore, hfail, hafter, h₄, hend, hp⟩ :=
    exists_failedRun (FailsReleased reservedBundle.testId ⟨"r", by decide⟩)
      (startedRun.dropLast ++ [.advance 1 .raises, .advance 1 (.ok none)])
      (List.replicate 5 (.advance 1 (.ok none)))
      (fun s => s.world.status "t" = some .FAILED) (by decide +kernel)
  exact ⟨s, of_decide_eq_true hp, reservation_released (.single _) rfl
    (submitted_reached _ trivial) rfl hins h₂ hkind hG hfail hbefore hafter h₄ hend⟩

/-- The container exits with code 1: the execution does not release the reservation. -/
theorem failedTest_keeps_reservation :
    ¬ ∀ (s₀ s₁ s₂ s₃ s₄ s : Sys) (b : TestBundleRequest) (r : NonEmptyStr) (p q : ℕ)
      (url : Option String) (o : Outcome), s₀.Fresh → b.qualiReservationId = some r →
      Reaches step (fun _ _ => True) s₀ s₁ → s₁.procs[q]? = some (.submit b .insert) →
      step s₁ (.advance q (.ok url)) = some s₂ → Reaches step (fun _ _ => True) s₂ s₃ →
      (∀ proc ∈ s₃.procs[p]?, proc.kind ≠ .submit) → step s₃ (.advance p o) = some s₄ →
      s₃.world.status b.testId ≠ some .FAILED → s₄.world.status b.testId = some .FAILED →
      Reaches step (fun _ _ => True) s₄ s → (∀ proc ∈ s.procs[p]?, proc.finished = true) →
      r.val ∈ s.world.released := by
  intro h
  obtain ⟨s₂, s₃, s₄, s, hins, h₂, hkind, -, hbefore, hfail, hafter, h₄, hend, hp⟩ :=
    exists_failedRun (fun _ _ => True)
      (startedRun ++ .exit "h" "test_t" 1 :: List.replicate 3 (.advance 1 (.ok none)))
      (List.replicate 4 (.advance 1 (.ok none))) (fun s => s.world.released = [])
      (by decide +kernel)
  have hr := h (.single idleHost) submitted s₂ s₃ s₄ s reservedBundle ⟨"r", by decide⟩ 1 0 none _
    (.single _) rfl (submitted_reached _ trivial) rfl hins h₂ hkind hfail hbefore hafter h₄ hend
  rw [of_decide_eq_true hp] at hr
  cases hr

end TestOrch
