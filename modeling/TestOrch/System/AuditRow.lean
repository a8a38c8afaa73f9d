import TestOrch.System.SoloSubmit

/-!
# The audit row and the broker

A request of `submit_test` that runs by itself while one of its commits or its send raises. The row
of the run and its message agree at the end, except where the closing commit raises: nothing catches
that, and the row stays PENDING whether or not the message is on its way.
-/

namespace TestOrch

/-- The commits of `submit_test` and its call to the broker. -/
inductive SubmitCall where
  | insert
  | reserve
  | send
  | undo
  | close
  deriving DecidableEq, Repr

namespace SubmitPc

/-- The commit or the send that comes next; the other accesses are queries. -/
def call : SubmitPc → Option SubmitCall
  | .insert => some .insert
  | .reserve .. => some .reserve
  | .send .. => some .send
  | .undo _ => some .undo
  | .close _ => some .close
  | .select | .refresh _ | .returned _ | .failed => none

/-- How the next access ends where the call `fault`, if any, is the one that raises. -/
def answer (fault : Option SubmitCall) (pc : SubmitPc) : Outcome :=
  if pc.call.isSome ∧ pc.call = fault then .raises else .ok none

/-- The request has ended, normally or by an exception. -/
def ended : SubmitPc → Bool
  | .returned _ | .failed => true
  | _ => false

end SubmitPc

/-- The request runs by itself from `w` until it stands at `pc` in `w'`, with at most one call that
raises. -/
def SubmitsAlone (fault : Option SubmitCall) (p : ℕ) (bundle : TestBundleRequest) (w w' : World)
    (pc : SubmitPc) : Prop :=
  Transition.Reaches (soloStep p bundle) (fun s o => o = s.2.answer fault) (w, .insert) (w', pc)

namespace World

def messagesFor (w : World) (testId : String) : List Message :=
  w.queue.filter fun m => m.bundle.testId = testId

/-- One message of the test is queued, for the host `h`, or none is. -/
def Queued (w : World) (testId : String) : Option String → Prop
  | none => w.messagesFor testId = []
  | some h => ∃ m, w.messagesFor testId = [m] ∧ queueNameFor h = .ok m.queue

/-- The row of the test, if there is one, is DISPATCHED with the host for which its only message is
queued, or it is FAILED and no message is queued. -/
def InStep (w : World) (testId : String) : Prop :=
  ∀ row, w.execs.get? testId = some row →
    (∃ h, row.status = .DISPATCHED ∧ row.targetHostId = some h ∧ w.Queued testId (some h)) ∨
      row.status = .FAILED ∧ w.Queued testId none

def RowIs (w : World) (testId : String) (status : TestStatus) (target : Option String) : Prop :=
  ∃ row, w.execs.get? testId = some row ∧ row.status = status ∧ row.targetHostId = target

variable {w w' : World} {testId : String} {status : TestStatus} {target : Option String}

lemma Queued.of_queue (h : w.Queued testId target) (hq : w'.queue = w.queue) :
    w'.Queued testId target := by
  cases target <;> simpa [Queued, messagesFor, hq] using h

lemma RowIs.of_execs (h : w.RowIs testId status target) (he : w'.execs = w.execs) :
    w'.RowIs testId status target := by
  rw [RowIs, he]
  exact h

end World

section Progress

variable (fault : Option SubmitCall) (bundle : TestBundleRequest)

/-- The row is inserted and waits for the closing commit; `target` tells what was sent. -/
structure Waiting (w : World) (target : Option String) : Prop where
  inserted : fault ≠ some .insert
  row : w.RowIs bundle.testId .PENDING none
  queued : w.Queued bundle.testId target

/-- What is stored and queued while the request is at a point of its run. -/
def Progress (w : World) : SubmitPc → Prop
  | .insert => w.execs.get? bundle.testId = none ∧ w.Queued bundle.testId none
  | .select | .refresh _ | .undo _ => Waiting fault bundle w none
  | .reserve chosen queue | .send chosen queue =>
    Waiting fault bundle w none ∧ queueNameFor chosen.hostId = .ok queue
  | .close chosen => Waiting fault bundle w chosen
  | .returned chosen => fault ≠ some .close ∧
    w.RowIs bundle.testId (closedStatus chosen) chosen ∧ w.Queued bundle.testId chosen
  | .failed => fault = some .insert ∧ w.execs.get? bundle.testId = none ∨
    fault = some .close ∧ w.RowIs bundle.testId .PENDING none

variable {fault bundle} {p : ℕ} {w w' : World} {pc pc' : SubmitPc} {o : Outcome}
  {target : Option String}

lemma Waiting.frame (h : Waiting fault bundle w target) (he : w'.execs = w.execs)
    (hq : w'.queue = w.queue) : Waiting fault bundle w' target :=
  ⟨h.inserted, h.row.of_execs he, h.queued.of_queue hq⟩

/-- The closing commit writes the status and the target that `dispatch` returned. -/
lemma rowIs_commitRun (h : w.RowIs bundle.testId .PENDING none) (chosen : Option String) :
    (w.commitRun p bundle.testId (newExecution bundle w.clock)
      (closedExecution bundle w.clock chosen)).RowIs bundle.testId (closedStatus chosen)
        chosen := by
  obtain ⟨row, hrow, hstatus, htarget⟩ := h
  refine ⟨_, by rw [World.get?_commitRun, if_pos rfl, hrow]; rfl, ?_, ?_⟩
  · simp
  · cases chosen with
    | none => simpa [closedExecution, newExecution, TestExecution.assign] using htarget
    | some h => rfl

/-- A call that raised is the faulty one. -/
lemma fault_of_raises {c : SubmitCall} (hc : pc.call = some c) (ho : .raises = pc.answer fault) :
    fault = some c := by
  rw [SubmitPc.answer] at ho
  split_ifs at ho with hraise
  exact hraise.2.symm.trans hc

/-- A call that returned is not. -/
lemma fault_ne_of_ok {c : SubmitCall} {url : Option String} (hc : pc.call = some c)
    (ho : .ok url = pc.answer fault) : fault ≠ some c := by
  rintro rfl
  simp [SubmitPc.answer, hc] at ho

/-- Each step keeps the account of what is stored and queued. -/
lemma Progress.step (h : Progress fault bundle w pc) (ho : o = pc.answer fault)
    (hs : submitStep p bundle w pc o = some (w', pc')) : Progress fault bundle w' pc' := by
  cases SubmitRule.of_submitStep hs with
  | insert hinsert =>
    obtain ⟨-, hget⟩ := Table.get?_insert? hinsert
    refine ⟨fault_ne_of_ok rfl ho, ⟨newExecution bundle w.clock, ?_, rfl, rfl⟩, h.2.of_queue rfl⟩
    exact (hget _).trans (if_pos rfl)
  | insertFails => exact .inl ⟨fault_of_raises rfl ho, h.1⟩
  | selectAsserts _ => exact Waiting.frame h rfl rfl
  | selectNone _ => exact h
  | select _ hchoose =>
    obtain ⟨-, -, hqueue, -⟩ := chooseHost_spec hchoose
    exact ⟨Waiting.frame h rfl rfl, hqueue⟩
  | selectFails => exact h
  | reserve hcommit =>
    obtain ⟨-, rfl⟩ := World.commitHost_eq_some hcommit
    exact ⟨h.1.frame rfl rfl, h.2⟩
  | reserveFails => exact h.1.frame rfl rfl
  | @send _ chosen queue =>
    -- The message of the send is the only one of the test.
    refine ⟨h.1.inserted, h.1.row.of_execs rfl, ⟨queue, bundle⟩, ?_, h.2⟩
    have hnone : w.messagesFor bundle.testId = [] := h.1.queued
    simpa [World.messagesFor, List.filter_append] using hnone
  | sendFails => exact h.1
  | refresh _ => exact h
  | refreshNone => exact h
  | undo _ hcommit =>
    obtain ⟨-, rfl⟩ := World.commitHost_eq_some hcommit
    exact Waiting.frame h rfl rfl
  | undoNone _ => exact h
  | @close _ chosen =>
    exact ⟨fault_ne_of_ok rfl ho, rowIs_commitRun h.row chosen, h.queued.of_queue rfl⟩
  | closeFails => exact .inr ⟨fault_of_raises rfl ho, h.row.of_execs rfl⟩

lemma Progress.of_submitsAlone (hfree : w.execs.get? bundle.testId = none)
    (hquiet : w.messagesFor bundle.testId = []) (hrun : SubmitsAlone fault p bundle w w' pc) :
    Progress fault bundle w' pc := by
  have hinit : Progress fault bundle w .insert := ⟨hfree, hquiet⟩
  apply Transition.Reaches.invariant (I := fun s => Progress fault bundle s.1 s.2) hrun hinit
  intro s o s' h ho hs
  exact h.step ho hs

/-- Whichever commit raises, or the send, when the request ends the row and the broker agree if and
only if it was not the closing commit. -/
theorem in_step_iff (hfree : w.execs.get? bundle.testId = none)
    (hquiet : w.messagesFor bundle.testId = []) (hrun : SubmitsAlone fault p bundle w w' pc)
    (hend : pc.ended = true) : w'.InStep bundle.testId ↔ fault ≠ some .close := by
  have h := Progress.of_submitsAlone hfree hquiet hrun
  cases pc with
  | returned chosen =>
    obtain ⟨hclose, ⟨row, hrow, hstatus, htarget⟩, hqueued⟩ := h
    refine iff_of_true ?_ hclose
    intro row' hrow'
    obtain rfl := Option.some.inj (hrow.symm.trans hrow')
    cases chosen with
    | none => exact .inr ⟨hstatus, hqueued⟩
    | some host => exact .inl ⟨host, hstatus, htarget, hqueued⟩
  | failed =>
    -- The insert failed and there is no row, or the closing commit did and it is `PENDING`.
    rcases h with ⟨rfl, hnone⟩ | ⟨rfl, row, hrow, hstatus, -⟩
    · refine iff_of_true ?_ (by simp)
      intro row hrow
      rw [hnone] at hrow
      cases hrow
    · refine iff_of_false ?_ (by simp)
      intro hstep
      rcases hstep row hrow with ⟨_, hstatus', -⟩ | ⟨hstatus', -⟩
      · rw [hstatus] at hstatus'
        cases hstatus'
      · rw [hstatus] at hstatus'
        cases hstatus'
  | _ => cases hend

/-- A broker that is down leaves a FAILED run and no message. -/
theorem in_step_sendFails : ∃ w' pc, SubmitsAlone (some .send) 0 sampleBundle
    (Sys.single idleHost).world w' pc ∧ pc.ended = true ∧ w'.InStep sampleBundle.testId := by
  obtain ⟨⟨w', pc⟩, hrun, hend⟩ := Transition.exists_reaches_of_guardedRun
    (soloStep 0 sampleBundle) (fun s o => o = s.2.answer (some .send))
    ((Sys.single idleHost).world, .insert)
    [.ok none, .ok none, .ok none, .raises, .ok none, .ok none] (fun s => s.2.ended)
    (by decide +kernel)
  exact ⟨w', pc, hrun, hend, (in_step_iff (by decide +kernel) rfl hrun hend).mpr (by decide)⟩

/-- A closing commit that raises leaves a PENDING run whose message is sent. -/
theorem closing_not_in_step : ¬ ∀ (fault : Option SubmitCall) (p : ℕ) (bundle : TestBundleRequest)
    (w w' : World) (pc : SubmitPc), w.execs.get? bundle.testId = none →
      w.messagesFor bundle.testId = [] → SubmitsAlone fault p bundle w w' pc →
      pc.ended = true → w'.InStep bundle.testId := by
  intro h
  obtain ⟨⟨w', pc⟩, hrun, hend⟩ := Transition.exists_reaches_of_guardedRun
    (soloStep 0 sampleBundle) (fun s o => o = s.2.answer (some .close))
    ((Sys.single idleHost).world, .insert)
    [.ok none, .ok none, .ok none, .ok none, .raises]
    (fun s => s.2.ended && s.1.status "t" == some .PENDING) (by decide +kernel)
  rw [Bool.and_eq_true, beq_iff_eq] at hend
  have hstep := h _ 0 sampleBundle _ w' pc (by decide +kernel) rfl hrun hend.1
  obtain ⟨row, hrow, hstatus⟩ := Option.map_eq_some_iff.mp hend.2
  rcases hstep row hrow with ⟨_, hstatus', -⟩ | ⟨hstatus', -⟩
  · rw [hstatus] at hstatus'
    cases hstatus'
  · rw [hstatus] at hstatus'
    cases hstatus'

end Progress

end TestOrch
