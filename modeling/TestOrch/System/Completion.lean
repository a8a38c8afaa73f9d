import TestOrch.System.Verdicts

/-!
# Completed runs

Without failures a submitted run ends with the verdict of its execution or, when no host qualified,
as `FAILED`, as long as `DISPATCHED` is stored before the verdict. The argument is an account for
one test: its request sends at most one message, which starts at most one execution.
-/

namespace TestOrch

open Transition

/-- No call raises, no process dies and no message is delivered twice. -/
def FailureFree : Act → Prop
  | .advance _ .raises | .kill _ | .redeliver .. => False
  | _ => True

instance : ∀ a, Decidable (FailureFree a)
  | .advance _ .raises | .kill _ | .redeliver .. => inferInstanceAs (Decidable False)
  | .advance _ (.ok _) | .launch _ | .deliver .. | .exit .. | .tick _ =>
    inferInstanceAs (Decidable True)

/-- The process is an execution of the test that has not ended. -/
def Proc.executing (testId : String) : Proc → Bool
  | .task t => t.testId = testId && t.pc.executing
  | _ => false

def Proc.returned (testId : String) : Proc → Bool
  | .submit bundle (.returned _) => bundle.testId = testId
  | _ => false

/-- The request of the test has returned, no message of it is queued and no execution under way. -/
def Sys.Over (s : Sys) (testId : String) : Prop :=
  (∃ proc ∈ s.procs, proc.returned testId = true) ∧
    (∀ m ∈ s.world.queue, m.bundle.testId.val ≠ testId) ∧
    ∀ proc ∈ s.procs, proc.executing testId = false

instance (s : Sys) (testId : String) : Decidable (s.Over testId) :=
  inferInstanceAs (Decidable (_ ∧ _ ∧ _))

/-- The process is an execution of the test past its last status write. -/
def Proc.concluded (testId : String) : Proc → Bool
  | .task t => t.testId = testId && !t.pc.writes
  | _ => false

/-- The request is about to mark the test `DISPATCHED`. -/
def Proc.dispatches : Proc → Option String
  | .submit bundle (.close (some _)) => some bundle.testId
  | _ => none

/-- The condition on a run: `DISPATCHED` is stored while no execution of the test is past its last
status write. -/
def DispatchedFirst (s : Sys) : Act → Prop
  | .advance p _ => ∀ proc ∈ s.procs[p]?, ∀ testId ∈ proc.dispatches,
      ∀ other ∈ s.procs, other.concluded testId = false
  | _ => True

instance (s : Sys) : ∀ a, Decidable (DispatchedFirst s a)
  | .advance p _ => inferInstanceAs (Decidable (∀ proc ∈ s.procs[p]?, _))
  | .launch _ | .deliver .. | .redeliver .. | .kill _ | .exit .. | .tick _ =>
    inferInstanceAs (Decidable True)

/-! ### The account of one test -/

def SubmitPc.inserted : SubmitPc → Bool
  | .insert | .failed => false
  | _ => true

def SubmitPc.sent : SubmitPc → Bool
  | .close (some _) | .returned (some _) => true
  | _ => false

def Proc.inserted (testId : String) : Proc → Bool
  | .submit bundle pc => bundle.testId = testId && pc.inserted
  | _ => false

def Proc.sent (testId : String) : Proc → Bool
  | .submit bundle pc => bundle.testId = testId && pc.sent
  | _ => false

def Proc.executes (testId : String) : Proc → Bool
  | .task t => t.testId = testId
  | _ => false

def Message.isFor (testId : String) (m : Message) : Bool := m.bundle.testId = testId

/-- The test has a stored status that is not terminal. -/
def World.Open (w : World) (testId : String) : Prop :=
  ∃ status, w.status testId = some status ∧ status.terminal = false

/-- `PASSED` or `FAILED` is stored. -/
def World.Closed (w : World) (testId : String) : Prop :=
  w.status testId = some .PASSED ∨ w.status testId = some .FAILED

/-- What the stored status is while an execution of the test is at `pc`. -/
def TaskPc.Fine (w : World) (testId : String) : TaskPc → Prop
  | .setup | .runningRead | .runningCommit _ | .prepare | .start | .stream | .wait | .collect
  | .verdictRead => w.Open testId
  | .verdictCommit loaded => w.Open testId ∧ loaded.status.terminal = false
  | .cleanup | .decrementRead | .decrementCommit _ | .close | .ended => w.Closed testId
  | .failedRead | .failedCommit _ | .release | .aborted | .unreleased => False

/-- What the stored status is while the request of the test is at `pc`. -/
def SubmitPc.Fine (w : World) (testId : String) : SubmitPc → Prop
  | .select | .reserve .. | .send .. => w.Open testId
  | .returned none => w.status testId = some .FAILED
  | .refresh _ | .undo _ => False
  | _ => True

/-- What the stored status of the test is while the process is where it is. -/
def Proc.Fine (w : World) (testId : String) : Proc → Prop
  | .submit bundle pc => bundle.testId = testId → pc.Fine w testId
  | .task t => t.testId = testId → t.pc.Fine w testId
  | .dead _ => False
  | _ => True

/-- The account of one test. -/
structure Account (testId : String) (s : Sys) : Prop where
  /-- At most one request has inserted a row of the test. -/
  unique : s.procs.countP (Proc.inserted testId) ≤ 1
  stored : 0 < s.procs.countP (Proc.inserted testId) → s.world.status testId ≠ none
  /-- Every message that was sent is queued or was delivered. -/
  balance : s.world.queue.countP (Message.isFor testId) + s.procs.countP (Proc.executes testId) =
    s.procs.countP (Proc.sent testId)
  queued : 0 < s.world.queue.countP (Message.isFor testId) → s.world.Open testId
  fine : Pool.All s.procs fun _ proc => proc.Fine s.world testId

variable {s s' : Sys} {w w' : World} {p : ℕ} {proc proc' : Proc} {o : Outcome} {k : String}
  {url : Option String}

lemma Proc.inserted_of_sent (h : proc.sent k = true) : proc.inserted k = true := by
  cases proc with
  | submit bundle pc =>
    cases pc <;> simp_all [Proc.sent, Proc.inserted, SubmitPc.sent, SubmitPc.inserted]
  | _ => cases h

lemma World.open_congr (h : w'.status k = w.status k) : w'.Open k ↔ w.Open k := by
  rw [World.Open, h, World.Open]

lemma World.Closed.of_eq {status : TestStatus} (h : w.status k = some status)
    (hs : status = .PASSED ∨ status = .FAILED) : w.Closed k := by
  rcases hs with rfl | rfl
  · exact .inl h
  · exact .inr h

/-- What is fine depends on the stored status only. -/
lemma Proc.fine_congr (h : w'.status k = w.status k) : proc.Fine w' k ↔ proc.Fine w k := by
  cases proc with
  | submit bundle pc =>
    cases pc <;> simp only [Proc.Fine, SubmitPc.Fine, World.open_congr h]
    rename_i chosen
    cases chosen <;> simp only [h]
  | task t =>
    cases hpc : t.pc <;>
      simp only [Proc.Fine, hpc, TaskPc.Fine, World.open_congr h, World.Closed, h]
  | _ => exact Iff.rfl

/-- A request that has sent its message is fine whatever is stored. -/
lemma Proc.fine_of_sent (h : proc.sent k = true) : proc.Fine w k := by
  cases proc with
  | submit bundle pc =>
    intro _
    cases pc with
    | close chosen => trivial
    | returned chosen =>
      cases chosen with
      | none => simp [Proc.sent, SubmitPc.sent] at h
      | some k => trivial
    | _ => simp [Proc.sent, SubmitPc.sent] at h
  | _ => cases h

/-- A process that has nothing to do with the test is fine whatever is stored. -/
lemma Proc.fine_of_unrelated (hins : proc.inserted k = false) (hexec : proc.executes k = false)
    (h : proc.Fine w k) : proc.Fine w' k := by
  cases proc with
  | submit bundle pc =>
    intro hb
    cases pc <;> first | trivial | simp [Proc.inserted, SubmitPc.inserted, hb] at hins
  | task t =>
    intro ht
    simp [Proc.executes, ht] at hexec
  | _ => exact h

/-- An execution that still writes the status is fine as long as the status is not terminal. -/
lemma TaskPc.Fine.of_open {pc : TaskPc} (h : pc.Fine w k) (hw : pc.writes = true)
    (hopen : w'.Open k) : pc.Fine w' k := by
  cases pc with
  | verdictCommit loaded => exact ⟨hopen, h.2⟩
  | failedRead | failedCommit => exact h.elim
  | release | cleanup | decrementRead | decrementCommit | close | ended | aborted | unreleased =>
    cases hw
  | _ => exact hopen

/-- At most one message was sent. -/
lemma Account.sent_le (hi : Account k s) : s.procs.countP (Proc.sent k) ≤ 1 :=
  (List.countP_mono_left fun _ _ => Proc.inserted_of_sent).trans hi.unique

/-- Only one request of the test has inserted its row. -/
lemma Account.not_inserted (hi : Account k s) (hp : s.procs[p]? = some proc)
    (hins : proc.inserted k = true) {j : ℕ} {other : Proc} (hj : j ≠ p)
    (hget : s.procs[j]? = some other) : other.inserted k = false := by
  by_contra hne
  have htwo := Pool.two_le_countP hj hget hp (p := (Proc.inserted k)) (by simpa using hne) hins
    (.dead other) rfl
  have := hi.unique
  omega

/-- Before the request sends its message, there is no message and no execution of the test. -/
lemma Account.nothing_sent (hi : Account k s) (hp : s.procs[p]? = some proc)
    (hins : proc.inserted k = true) (hsent : proc.sent k = false) :
    s.world.queue.countP (Message.isFor k) = 0 ∧ s.procs.countP (Proc.executes k) = 0 := by
  have hzero : s.procs.countP (Proc.sent k) = 0 := by
    apply List.countP_eq_zero.mpr
    intro other hmem hother
    obtain ⟨j, hget⟩ := List.mem_iff_getElem?.mp hmem
    by_cases hj : j = p
    · subst hj
      obtain rfl := Option.some.inj (hp.symm.trans hget)
      simp [hsent] at hother
    · have := hi.not_inserted hp hins hj hget
      simp [Proc.inserted_of_sent hother] at this
  have := hi.balance
  omega

/-- While there is an execution of the test, every other process is fine whatever is stored. -/
lemma Account.others_fine (hi : Account k s) (hp : s.procs[p]? = some proc)
    (he : proc.executes k = true) : s.world.queue.countP (Message.isFor k) = 0 ∧
      ∀ j other, j ≠ p → s.procs[j]? = some other → other.Fine w' k := by
  have hpos := Pool.countP_pos_of_get (p := (Proc.executes k)) hp he
  have hle := hi.sent_le
  have hbal := hi.balance
  refine ⟨by omega, fun j other hj hget => ?_⟩
  have hexec : other.executes k = false := by
    by_contra hne
    have := Pool.two_le_countP hj hget hp (p := (Proc.executes k)) (by simpa using hne) he
      (.dead proc) rfl
    omega
  cases hins : other.inserted k with
  | false => exact Proc.fine_of_unrelated hins hexec (hi.fine j other hget)
  | true =>
    -- a message was sent, by the only request there is
    have hpos : 0 < s.procs.countP (Proc.sent k) := by omega
    obtain ⟨sender, hmem, hsent⟩ := List.countP_pos_iff.mp hpos
    obtain ⟨q, hq⟩ := List.mem_iff_getElem?.mp hmem
    obtain rfl : q = j := by
      by_contra hne
      have := hi.not_inserted hget hins hne hq
      simp [Proc.inserted_of_sent hsent] at this
    obtain rfl := Option.some.inj (hq.symm.trans hget)
    exact Proc.fine_of_sent hsent

/-- A process took a step that neither sends nor consumes a message of the test. -/
lemma Account.of_proc (hi : Account k s) (hp : s.procs[p]? = some proc)
    (hins : proc'.inserted k = proc.inserted k) (hsent : proc'.sent k = proc.sent k)
    (hexec : proc'.executes k = proc.executes k)
    (hq : w'.queue.countP (Message.isFor k) = s.world.queue.countP (Message.isFor k))
    (hstored : s.world.status k ≠ none → w'.status k ≠ none)
    (hqueued : 0 < s.world.queue.countP (Message.isFor k) → w'.Open k) (hfine : proc'.Fine w' k)
    (hothers : ∀ j other, j ≠ p → s.procs[j]? = some other → other.Fine w' k) :
    Account k ⟨w', s.procs.set p proc'⟩ := by
  have hI := Pool.countP_set_same hp hins
  have hS := Pool.countP_set_same hp hsent
  have hE := Pool.countP_set_same hp hexec
  exact {
    unique := hI ▸ hi.unique
    stored := fun h => hstored (hi.stored (hI ▸ h))
    balance := by rw [hq, hS, hE]; exact hi.balance
    queued := fun h => hqueued (hq ▸ h)
    fine := (Pool.all_set hp).mpr ⟨hfine, hothers⟩ }

/-- The same for a step that leaves the status of the test. -/
lemma Account.of_status (hi : Account k s) (hp : s.procs[p]? = some proc)
    (hins : proc'.inserted k = proc.inserted k) (hsent : proc'.sent k = proc.sent k)
    (hexec : proc'.executes k = proc.executes k)
    (hq : w'.queue.countP (Message.isFor k) = s.world.queue.countP (Message.isFor k))
    (hst : w'.status k = s.world.status k) (hfine : proc'.Fine w' k) :
    Account k ⟨w', s.procs.set p proc'⟩ :=
  hi.of_proc hp hins hsent hexec hq (fun h => by rwa [hst])
    (fun h => (World.open_congr hst).mpr (hi.queued h)) hfine
    fun j other _ hget => (Proc.fine_congr hst).mpr (hi.fine j other hget)

/-! ### The steps -/

/-- A commit of the status of another test. -/
lemma World.status_commitRun_ne {t : String} {loaded new : TestExecution} (hk : k ≠ t) :
    (w.commitRun p t loaded new).status k = w.status k := by
  rw [World.status_commitRun, if_neg hk]

/-- The request of another test takes a step. -/
lemma SubmitRule.frame {bundle : TestBundleRequest} {pc pc' : SubmitPc}
    (h : SubmitRule p bundle w pc o w' pc') (hk : bundle.testId.val ≠ k) :
    w'.status k = w.status k ∧
      w'.queue.countP (Message.isFor k) = w.queue.countP (Message.isFor k) := by
  cases h with
  | insert ht =>
    refine ⟨?_, rfl⟩
    rw [World.status_insert? ht, newExecution_testId, if_neg (Ne.symm hk)]
  | reserve hw =>
    obtain ⟨-, rfl⟩ := World.commitHost_eq_some hw
    exact ⟨rfl, rfl⟩
  | undo hpos hw =>
    obtain ⟨-, rfl⟩ := World.commitHost_eq_some hw
    exact ⟨rfl, rfl⟩
  | send => exact ⟨rfl, by simp [Message.isFor, hk]⟩
  | close => exact ⟨World.status_commitRun_ne (Ne.symm hk), rfl⟩
  | _ => exact ⟨rfl, rfl⟩

/-- The request of the test inserts its row. -/
lemma Account.insert {bundle : TestBundleRequest} {t : Executions} (hi : Account bundle.testId s)
    (hp : s.procs[p]? = some (.submit bundle .insert))
    (ht : s.world.execs.insert? (newExecution bundle s.world.clock) = some t) :
    Account bundle.testId
      ⟨{ s.world with execs := t }, s.procs.set p (.submit bundle .select)⟩ := by
  have hst := World.status_insert? ht bundle.testId
  rw [newExecution_testId, if_pos rfl, newExecution_status] at hst
  have hnone : s.world.status bundle.testId = none := by
    have hfree := (Table.get?_insert? ht).1
    rw [newExecution_testId] at hfree
    rw [World.status, hfree]
    rfl
  have hI := Pool.countP_set_succ (b := .submit bundle .select) (p := Proc.inserted bundle.testId)
    hp (by simp [Proc.inserted, SubmitPc.inserted]) (by simp [Proc.inserted, SubmitPc.inserted])
  have hS := Pool.countP_set_same (b := .submit bundle .select) (p := Proc.sent bundle.testId) hp
    (by simp [Proc.sent, SubmitPc.sent])
  have hE := Pool.countP_set_same (b := .submit bundle .select)
      (p := Proc.executes bundle.testId) hp
    rfl
  -- No other request has inserted the row, so none has sent a message either.
  have hins : s.procs.countP (Proc.inserted bundle.testId) = 0 := by
    by_contra hne
    exact hi.stored (Nat.pos_of_ne_zero hne) hnone
  have hsent : s.procs.countP (Proc.sent bundle.testId) = 0 := by
    have : s.procs.countP (Proc.sent bundle.testId) ≤
        s.procs.countP (Proc.inserted bundle.testId) :=
      List.countP_mono_left fun _ _ => Proc.inserted_of_sent
    omega
  have hbal := hi.balance
  have hopen : ({ s.world with execs := t } : World).Open bundle.testId := ⟨.PENDING, hst, rfl⟩
  refine {
    unique := by
      dsimp only
      omega
    stored := fun _ => by simp [hst]
    balance := by
      dsimp only
      omega
    queued := fun _ => hopen
    fine := (Pool.all_set hp).mpr ⟨fun _ => hopen, fun j other _ hget => ?_⟩ }
  -- So no other process is concerned with the test.
  have hmem := List.mem_of_getElem? hget
  refine Proc.fine_of_unrelated ?_ ?_ (hi.fine j other hget)
  · simpa using List.countP_eq_zero.mp hins other hmem
  · have hzero : s.procs.countP (Proc.executes bundle.testId) = 0 := by omega
    simpa using List.countP_eq_zero.mp hzero other hmem

/-- The request of the test sends its message. -/
lemma Account.send {bundle : TestBundleRequest} {chosen : WorkerHost} {queue : String}
    (hi : Account bundle.testId s) (hp : s.procs[p]? = some (.submit bundle (.send chosen queue))) :
    Account bundle.testId ⟨{ s.world with queue := s.world.queue ++ [⟨queue, bundle⟩] },
      s.procs.set p (.submit bundle (.close (some chosen.hostId)))⟩ := by
  have hopen : s.world.Open bundle.testId := hi.fine p _ hp rfl
  have hI := Pool.countP_set_same (b := .submit bundle (.close (some chosen.hostId)))
    (p := Proc.inserted bundle.testId) hp (by simp [Proc.inserted, SubmitPc.inserted])
  have hS := Pool.countP_set_succ (b := .submit bundle (.close (some chosen.hostId)))
    (p := Proc.sent bundle.testId) hp (by simp [Proc.sent, SubmitPc.sent])
    (by simp [Proc.sent, SubmitPc.sent])
  have hE := Pool.countP_set_same (b := .submit bundle (.close (some chosen.hostId)))
    (p := Proc.executes bundle.testId) hp rfl
  have hbal := hi.balance
  have huniq := hi.unique
  have hstored := hi.stored
  have hqueue : (s.world.queue ++ [(⟨queue, bundle⟩ : Message)]).countP
      (Message.isFor bundle.testId) = s.world.queue.countP (Message.isFor bundle.testId) + 1 := by
    rw [List.countP_append, List.countP_singleton, if_pos (by simp [Message.isFor])]
  refine {
    unique := by
      dsimp only
      omega
    stored := fun h => hstored (hI ▸ h)
    balance := by
      dsimp only
      omega
    queued := fun _ => hopen
    fine := (Pool.all_set hp).mpr ⟨fun _ => trivial, fun j other _ hget => ?_⟩ }
  exact (Proc.fine_congr rfl).mpr (hi.fine j other hget)

/-- The request of the test writes its last status. -/
lemma Account.close {bundle : TestBundleRequest} {chosen : Option String}
    (hi : Account bundle.testId s) (hp : s.procs[p]? = some (.submit bundle (.close chosen)))
    (hfirst : ∀ testId ∈ (Proc.submit bundle (.close chosen)).dispatches,
      ∀ other ∈ s.procs, other.concluded testId = false) :
    Account bundle.testId ⟨s.world.commitRun p bundle.testId (newExecution bundle s.world.clock)
      (closedExecution bundle s.world.clock chosen),
      s.procs.set p (.submit bundle (.returned chosen))⟩ := by
  have hins : (Proc.submit bundle (.close chosen)).inserted bundle.testId = true := by
    simp [Proc.inserted, SubmitPc.inserted]
  obtain ⟨old, hold⟩ := Option.ne_none_iff_exists'.mp
    (hi.stored (Pool.countP_pos_of_get (p := (Proc.inserted bundle.testId)) hp hins))
  have hst : (s.world.commitRun p bundle.testId (newExecution bundle s.world.clock)
      (closedExecution bundle s.world.clock chosen)).status bundle.testId =
        some (closedStatus chosen) := by
    simp [hold]
  refine hi.of_proc hp (by simp [Proc.inserted, SubmitPc.inserted])
    (by cases chosen <;> simp [Proc.sent, SubmitPc.sent]) rfl rfl (fun _ => by simp [hst]) ?_ ?_ ?_
  · -- The message that is still queued finds its row open.
    intro hqueue
    cases chosen with
    | none =>
      have := (hi.nothing_sent hp hins (by simp [Proc.sent, SubmitPc.sent])).1
      omega
    | some h => exact ⟨.DISPATCHED, hst, rfl⟩
  · intro _
    cases chosen with
    | none => exact hst
    | some h => trivial
  · intro j other hj hget
    -- An execution that is ahead of the request has not concluded, by the guard.
    have hother := hi.not_inserted hp hins hj hget
    have hfine := hi.fine j other hget
    cases hexec : other.executes bundle.testId with
    | false => exact Proc.fine_of_unrelated hother hexec hfine
    | true =>
      cases chosen with
      | none =>
        have hpos := Pool.countP_pos_of_get (p := (Proc.executes bundle.testId)) hget hexec
        have := (hi.nothing_sent hp hins (by simp [Proc.sent, SubmitPc.sent])).2
        omega
      | some h =>
        have hnot := hfirst _ rfl other (List.mem_of_getElem? hget)
        cases other with
        | task t =>
          intro ht
          have hw : t.pc.writes = true := by simpa [Proc.concluded, ht] using hnot
          exact TaskPc.Fine.of_open (hfine ht) hw ⟨.DISPATCHED, hst, rfl⟩
        | _ => cases hexec

lemma Account.submit {bundle : TestBundleRequest} {pc pc' : SubmitPc} (hi : Account k s)
    (hp : s.procs[p]? = some (.submit bundle pc))
    (hr : SubmitRule p bundle s.world pc (.ok url) w' pc')
    (hfirst : ∀ testId ∈ (Proc.submit bundle pc).dispatches,
      ∀ other ∈ s.procs, other.concluded testId = false) :
    Account k ⟨w', s.procs.set p (.submit bundle pc')⟩ := by
  by_cases hk : bundle.testId.val = k
  · subst hk
    have hfine : pc.Fine s.world bundle.testId := hi.fine p _ hp rfl
    cases hr with
    | insert ht => exact hi.insert hp ht
    | send => exact hi.send hp
    | close => exact hi.close hp hfirst
    | refresh | refreshNone | undo | undoNone => exact hfine.elim
    | reserve hw =>
      obtain ⟨-, rfl⟩ := World.commitHost_eq_some hw
      exact hi.of_status hp (by simp [Proc.inserted, SubmitPc.inserted])
        (by simp [Proc.sent, SubmitPc.sent]) rfl rfl rfl fun _ => hfine
    | select =>
      exact hi.of_status hp (by simp [Proc.inserted, SubmitPc.inserted])
        (by simp [Proc.sent, SubmitPc.sent]) rfl rfl rfl fun _ => hfine
    | selectAsserts | selectNone =>
      exact hi.of_status hp (by simp [Proc.inserted, SubmitPc.inserted])
        (by simp [Proc.sent, SubmitPc.sent]) rfl rfl rfl fun _ => trivial
  · obtain ⟨hst, hq⟩ := hr.frame hk
    exact hi.of_status hp (by simp [Proc.inserted, hk]) (by simp [Proc.sent, hk]) rfl hq hst
      fun h => absurd h hk

/-- The execution of the test commits a status. -/
lemma Account.commitRun {t t' : Task} {loaded new : TestExecution} (hi : Account t.testId s)
    (hp : s.procs[p]? = some (.task t)) (hid : t'.testId = t.testId)
    (hfine : t'.pc.Fine (s.world.commitRun p t.testId loaded new) t.testId) :
    Account t.testId ⟨s.world.commitRun p t.testId loaded new, s.procs.set p (.task t')⟩ := by
  have hexec : (Proc.task t).executes t.testId = true := by simp [Proc.executes]
  obtain ⟨hq, hothers⟩ := hi.others_fine hp hexec
  refine hi.of_proc hp rfl rfl (by simp [Proc.executes, hid]) rfl ?_ ?_ (fun _ => hfine) hothers
  · intro hst
    simp [hst]
  · intro h
    omega

/-- What an execution stores last is `PASSED` or `FAILED`. -/
lemma Task.final_eq (t : Task) : t.final = .PASSED ∨ t.final = .FAILED := by
  unfold Task.final
  split_ifs <;> simp

lemma Account.task {t t' : Task} (hi : Account k s) (hp : s.procs[p]? = some (.task t))
    (hr : TaskRule p s.world t (.ok url) w' t') :
    Account k ⟨w', s.procs.set p (.task t')⟩ := by
  by_cases hk : t.testId = k
  · subst hk
    have hfine : t.pc.Fine s.world t.testId := hi.fine p _ hp rfl
    cases hr with
    | @running _ row hpc =>
      -- The row is still open, and `RUNNING` leaves it so.
      refine hi.commitRun hp rfl ?_
      simp only [hpc, TaskPc.Fine] at hfine
      obtain ⟨status, hst, hterm⟩ := hfine
      refine ⟨writeBack row.status .RUNNING status, by simp [hst, TestExecution.assign], ?_⟩
      unfold writeBack
      split_ifs
      · exact hterm
      · rfl
    | @verdict _ row hpc =>
      -- The row was loaded open, so the verdict differs from what was loaded and is stored.
      refine hi.commitRun hp rfl ?_
      simp only [hpc, TaskPc.Fine] at hfine
      obtain ⟨⟨status, hst, -⟩, hterm⟩ := hfine
      refine World.Closed.of_eq ?_ t.final_eq
      have hne : t.final ≠ row.status := by
        intro heq
        rw [← heq] at hterm
        rcases t.final_eq with h | h <;> simp [h, TestStatus.terminal] at hterm
      simp [hst, TestExecution.assign, writeBack_of_ne hne]
    | decrement hpc hw =>
      obtain ⟨-, rfl⟩ := World.commitHost_eq_some hw
      simp only [hpc, TaskPc.Fine] at hfine
      exact hi.of_status hp rfl rfl rfl rfl rfl fun _ => hfine
    -- Without a failure the handler is never entered.
    | failed hpc | release hpc => simp [hpc, TaskPc.Fine] at hfine
    | failedRead hpc | failedNone hpc => simp [hpc, TaskPc.Fine] at hfine
    | verdictRead hpc hrow =>
      simp only [hpc, TaskPc.Fine] at hfine
      refine hi.of_status hp rfl rfl rfl rfl rfl fun _ => ⟨hfine, ?_⟩
      obtain ⟨status, hst, hterm⟩ := hfine
      rw [World.status, hrow, Option.map_some, Option.some.injEq] at hst
      rwa [hst]
    | verdictNone hpc hrow =>
      simp only [hpc, TaskPc.Fine] at hfine
      obtain ⟨status, hst, -⟩ := hfine
      simp [World.status, hrow] at hst
    | _ hpc =>
      simp only [hpc, TaskPc.Fine] at hfine
      exact hi.of_status hp rfl rfl rfl rfl rfl fun _ => hfine
  · -- An execution of another test.
    obtain ⟨-, hbundle⟩ := hr.same
    have hid : t'.testId = t.testId := by rw [Task.testId, hbundle]
    have hframe : w'.status k = s.world.status k ∧ w'.queue = s.world.queue := by
      cases hr with
      | running hpc => exact ⟨World.status_commitRun_ne (Ne.symm hk), rfl⟩
      | verdict hpc => exact ⟨World.status_commitRun_ne (Ne.symm hk), rfl⟩
      | failed hpc => exact ⟨World.status_commitRun_ne (Ne.symm hk), rfl⟩
      | decrement hpc hw =>
        obtain ⟨-, rfl⟩ := World.commitHost_eq_some hw
        exact ⟨rfl, rfl⟩
      | _ => exact ⟨rfl, rfl⟩
    exact hi.of_status hp rfl rfl (by simp [Proc.executes, hid]) (by rw [hframe.2]) hframe.1
      fun h => absurd (hid ▸ h) hk

lemma Account.heartbeat {hostId : String} {cpu : ℚ} {pc pc' : HeartbeatPc} (hi : Account k s)
    (hp : s.procs[p]? = some (.heartbeat hostId cpu pc))
    (hr : HeartbeatRule p hostId cpu s.world pc o w' pc') :
    Account k ⟨w', s.procs.set p (.heartbeat hostId cpu pc')⟩ := by
  cases hr with
  | update hw =>
    obtain ⟨-, rfl⟩ := World.commitHost_eq_some hw
    exact hi.of_status hp rfl rfl rfl rfl rfl trivial
  | register hw =>
    obtain ⟨t, -, rfl⟩ := Option.map_eq_some_iff.mp hw
    exact hi.of_status hp rfl rfl rfl rfl rfl trivial
  | _ => exact hi.of_status hp rfl rfl rfl rfl rfl trivial

/-- A process starts that has nothing to do with the messages. -/
lemma Account.spawn {new : Proc} (hi : Account k s) (hins : new.inserted k = false)
    (hsent : new.sent k = false) (hexec : new.executes k = false) (hfine : new.Fine s.world k) :
    Account k { s with procs := s.procs ++ [new] } where
  unique := by simpa [hins] using hi.unique
  stored := by simpa [hins] using hi.stored
  balance := by simpa [hsent, hexec] using hi.balance
  queued := hi.queued
  fine := Pool.all_append_singleton.mpr ⟨hi.fine, hfine⟩

/-- A message starts an execution. -/
lemma Account.deliver {i : ℕ} {m : Message} {host : String} (hi : Account k s)
    (hm : s.world.queue[i]? = some m) :
    Account k ⟨s.world.handOut i m, s.procs ++ [.task (.init host m.bundle)]⟩ := by
  have hqueue := Pool.countP_eraseIdx_of_get (Message.isFor k) hm
  have hexec : (Proc.task (.init host m.bundle)).executes k = m.isFor k := rfl
  have hbal := hi.balance
  refine {
    unique := by simpa [Proc.inserted] using hi.unique
    stored := fun h => hi.stored (by simpa [Proc.inserted] using h)
    balance := ?_
    queued := fun h => hi.queued ?_
    fine := Pool.all_append_singleton.mpr ⟨fun j other hget =>
      (Proc.fine_congr rfl).mpr (hi.fine j other hget), fun hk => ?_⟩ }
  · simp only [World.handOut, List.countP_append, List.countP_singleton, hexec, Proc.sent,
      Bool.false_eq_true, if_false, add_zero]
    omega
  · simp only [World.handOut] at h
    omega
  · refine (World.open_congr rfl).mpr (hi.queued (Pool.countP_pos_of_get hm ?_))
    exact decide_eq_true hk

lemma account_step {a : Act} (hi : Account k s) (hkind : Among [.submit, .task, .heartbeat] s a)
    (hfree : FailureFree a) (hfirst : DispatchedFirst s a) (h : step s a = some s') :
    Account k s' := by
  cases SysRule.of_step h with
  | @launch l =>
    cases l with
    | submit bundle =>
      exact hi.spawn (by simp [Launch.proc, Proc.inserted, SubmitPc.inserted])
        (by simp [Launch.proc, Proc.sent, SubmitPc.sent]) rfl fun _ => trivial
    | _ => exact hi.spawn rfl rfl rfl trivial
  | deliver hm hq => exact hi.deliver hm
  | redeliver hm hq => exact hfree.elim
  | kill hp => exact hfree.elim
  | @submit _ o _ _ _ _ hp hr =>
    cases o with
    | ok url => exact hi.submit hp hr (hfirst _ hp)
    | raises => exact hfree.elim
  | @task _ o _ _ _ hp hr =>
    cases o with
    | ok url => exact hi.task hp hr
    | raises => exact hfree.elim
  | heartbeat hp hr => exact hi.heartbeat hp hr
  | update hp hr => exact absurd (hkind _ hp) (by simp [Proc.kind])
  | sweep hp hr => exact absurd (hkind _ hp) (by simp [Proc.kind])
  | reap hp hr => exact absurd (hkind _ hp) (by simp [Proc.kind])
  | exit hc hrun => exact ⟨hi.unique, hi.stored, hi.balance, hi.queued, hi.fine⟩
  | tick => exact ⟨hi.unique, hi.stored, hi.balance, hi.queued, hi.fine⟩

lemma Proc.eq_of_returned (h : proc.returned k = true) :
    ∃ bundle chosen, proc = .submit bundle (.returned chosen) ∧ bundle.testId.val = k := by
  cases proc with
  | submit bundle pc =>
    cases pc with
    | returned chosen => exact ⟨bundle, chosen, rfl, of_decide_eq_true h⟩
    | _ => cases h
  | _ => cases h

/-- An execution that has ended has stored its verdict. -/
lemma TaskPc.Fine.closed {pc : TaskPc} (h : pc.Fine w k) (hended : pc.executing = false) :
    w.Closed k := by
  cases pc with
  | ended => exact h
  | aborted | unreleased => exact h.elim
  | _ => cases hended

lemma Account.closed_of_over (hi : Account k s) (hover : s.Over k) : s.world.Closed k := by
  obtain ⟨⟨request, hmem, hret⟩, hqueue, htasks⟩ := hover
  obtain ⟨bundle, chosen, rfl, rfl⟩ := Proc.eq_of_returned hret
  obtain ⟨p, hp⟩ := List.mem_iff_getElem?.mp hmem
  cases chosen with
  | none => exact .inr (hi.fine p _ hp rfl)
  | some host =>
    have hsent := Pool.countP_pos_of_get (p := Proc.sent bundle.testId) hp (by
      simp [Proc.sent, SubmitPc.sent])
    have hnone : s.world.queue.countP (Message.isFor bundle.testId) = 0 :=
      List.countP_eq_zero.mpr fun m hm => by simpa [Message.isFor] using hqueue m hm
    have hbal := hi.balance
    obtain ⟨proc, hmem, hexec⟩ := List.countP_pos_iff.mp
      (show 0 < s.procs.countP (Proc.executes bundle.testId) by omega)
    obtain ⟨q, hget⟩ := List.mem_iff_getElem?.mp hmem
    cases proc with
    | task t =>
      have ht : t.testId = bundle.testId := of_decide_eq_true hexec
      have hended : t.pc.executing = false := by simpa [Proc.executing, ht] using htasks _ hmem
      exact TaskPc.Fine.closed (hi.fine q _ hget ht) hended
    | _ => cases hexec

/-- In every failure-free run that stores `DISPATCHED` first: once the request of a test has
returned, no message of it is queued and no execution of it is under way, its status is `PASSED` or
`FAILED`. -/
theorem over_is_closed {s₀ : Sys} {testId : String} (h₀ : s₀.Idle) (hempty : s₀.world.queue = [])
    (h : Reaches step (fun s a => (Among [.submit, .task, .heartbeat] s a ∧ FailureFree a) ∧
      DispatchedFirst s a) s₀ s)
    (hover : s.Over testId) : s.world.Closed testId := by
  have hi : Account testId s := by
    refine h.invariant ?_ fun _ _ _ hi hG hs => account_step hi hG.1.1 hG.1.2 hG.2 hs
    exact ⟨by simp [h₀.1], by simp [h₀.1], by simp [h₀.1, hempty], by simp [hempty], by simp [h₀.1]⟩
  exact hi.closed_of_over hover

/-- The request and its execution in order, up to the end. -/
theorem orderlyRun_is_closed : ∃ s : Sys, s.Over "t" ∧ s.world.Closed "t" := by
  obtain ⟨s, hs, hp⟩ := exists_reaches_of_guardedRun step
    (fun s a => (Among [.submit, .task, .heartbeat] s a ∧ FailureFree a) ∧ DispatchedFirst s a)
    (.single idleHost) (orderlyRun ++ List.replicate 4 (.advance 1 (.ok none)))
    (fun s => s.Over "t") (by decide +kernel)
  have hover := of_decide_eq_true hp
  exact ⟨s, hover, over_is_closed (.single _) rfl hs hover⟩

/-- The worker has finished before the request writes `DISPATCHED`, which then stays. -/
theorem fastWorker_stays_dispatched :
    ¬ ∀ (s₀ s : Sys) (testId : String), s₀.Idle → s₀.world.queue = [] →
      Reaches step (fun s a => Among [.submit, .task, .heartbeat] s a ∧ FailureFree a) s₀ s →
      s.Over testId → s.world.Closed testId := by
  intro h
  obtain ⟨s, hs, hp⟩ := exists_reaches_of_guardedRun step
    (fun s a => Among [.submit, .task, .heartbeat] s a ∧ FailureFree a)
    (.single idleHost)
    (fastWorker ++ [.advance 0 (.ok none)] ++ List.replicate 4 (.advance 1 (.ok none)))
    (fun s => s.Over "t" && s.world.status "t" = some .DISPATCHED) (by decide +kernel)
  simp only [Bool.and_eq_true, decide_eq_true_eq] at hp
  rcases h _ s "t" (.single _) rfl hs hp.1 with hc | hc <;> simp [hp.2] at hc

end TestOrch
