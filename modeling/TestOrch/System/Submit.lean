import TestOrch.Backend.Scheduler
import TestOrch.System.World

/-!
# Form submission (`submit_test` of `main.py`, `dispatch` of `scheduler.py`)

One process is one request whose form was accepted, cut at its database accesses and at the send.
The session does not expire its objects at a commit. So a rollback after the committed reservation
changes nothing in memory, and the undo writes the absolute value it computes from the row it holds.
-/

namespace TestOrch

/-- How an access of a process ends; an upload that succeeds comes with its URL. -/
inductive Outcome where
  | ok (url : Option String)
  | raises
  deriving DecidableEq, Repr

inductive SubmitPc where
  | insert
  /-- `dispatch` is about to lock and read the inventory. -/
  | select
  /-- The rows are locked; `chosen` is the row as loaded. -/
  | reserve (chosen : WorkerHost) (queue : String)
  /-- The slot is reserved; `chosen` is the row in memory. -/
  | send (chosen : WorkerHost) (queue : String)
  /-- The reservation could not be committed; its row is loaded again. -/
  | refresh (hostId : String)
  /-- The undo, with the row that the session holds. -/
  | undo (row : WorkerHost)
  /-- `dispatch` ended; the status is written next. -/
  | close (chosen : Option String)
  | returned (chosen : Option String)
  | failed
  deriving DecidableEq

/-- The execution row that `submit_test` creates. -/
def newExecution (bundle : TestBundleRequest) (now : ℤ) : TestExecution where
  testId := bundle.testId
  userId := bundle.userId
  targetHostId := none
  runnerType := bundle.runnerType
  frameworkImage := bundle.frameworkImage
  status := .PENDING
  qualiReservationId := none
  artifactUrl := none
  updatedAt := now

/-- The row that the closing commit of `submit_test` holds. -/
def closedExecution (bundle : TestBundleRequest) (now : ℤ) (chosen : Option String) :
    TestExecution :=
  match chosen with
  | none => (newExecution bundle now).assign .FAILED none none
  | some h => (newExecution bundle now).assign .DISPATCHED (some h) none

def closedStatus : Option String → TestStatus
  | none => .FAILED
  | some _ => .DISPATCHED

@[simp] lemma newExecution_testId (bundle : TestBundleRequest) (now : ℤ) :
    (newExecution bundle now).testId = bundle.testId.val := rfl

@[simp] lemma newExecution_status (bundle : TestBundleRequest) (now : ℤ) :
    (newExecution bundle now).status = .PENDING := rfl

/-- The closing commit writes the status whatever is stored. -/
@[simp] lemma writeBack_closed (bundle : TestBundleRequest) (now : ℤ) (chosen : Option String)
    (stored : TestStatus) :
    writeBack TestStatus.PENDING (closedExecution bundle now chosen).status stored =
      closedStatus chosen := by
  cases chosen <;> rfl

/-- The closing commit of a dispatched run names the chosen host, whatever is stored. -/
lemma flush_closed_targetHostId (bundle : TestBundleRequest) (now now' : ℤ) (h : String)
    (stored : TestExecution) :
    (TestExecution.flush (newExecution bundle now) (closedExecution bundle now (some h)) now'
      stored).targetHostId = some h := rfl

/-- The row after `active_containers += 1`. -/
def WorkerHost.increment (h : WorkerHost) : WorkerHost :=
  { h with activeContainers := h.activeContainers + 1 }

/-- `dispatch` from the locked read to its choice, with all locks taken at once. -/
def stepSelect (p : ℕ) (bundle : TestBundleRequest) (w : World) : Option (World × SubmitPc) :=
  if w.hosts.rows.any fun h => w.blocked p h.hostId then none
  else match chooseHost w.hosts.rows bundle with
    -- an assertion leaves `dispatch`, and the transaction with its locks stays open
    | .error _ => some (w.lockAll p, .close none)
    | .ok none => some (w, .close none)
    | .ok (some (chosen, queue)) => some (w.lockAll p, .reserve chosen queue)

def submitStep (p : ℕ) (bundle : TestBundleRequest) (w : World) (pc : SubmitPc) (o : Outcome) :
    Option (World × SubmitPc) :=
  match pc, o with
  | .insert, .ok _ =>
    (w.execs.insert? (newExecution bundle w.clock)).map fun t => ({ w with execs := t }, .select)
  | .insert, .raises => some (w, .failed)
  | .select, .ok _ => stepSelect p bundle w
  | .select, .raises => some (w, .close none)
  | .reserve chosen queue, .ok _ =>
    (w.commitHost p chosen.hostId chosen chosen.increment).map fun w' =>
      (w', .send chosen.increment queue)
  | .reserve chosen _, .raises => some (w.unlock p, .refresh chosen.hostId)
  | .send chosen queue, .ok _ =>
    some ({ w with queue := w.queue ++ [⟨queue, bundle⟩] }, .close (some chosen.hostId))
  | .send chosen _, .raises => some (w, .undo chosen)
  | .refresh hostId, .ok _ =>
    match w.hosts.get? hostId with
    | some row => some (w, .undo row)
    | none => some (w, .close none)
  | .refresh _, .raises => some (w, .close none)
  | .undo row, .ok _ =>
    if row.activeContainers > 0 then
      (w.commitHost p row.hostId row row.decrement).map fun w' => (w', .close none)
    else some (w, .close none)
  | .undo _, .raises => some (w, .close none)
  | .close chosen, .ok _ =>
    some (w.commitRun p bundle.testId (newExecution bundle w.clock)
      (closedExecution bundle w.clock chosen), .returned chosen)
  | .close _, .raises => some (w.unlock p, .failed)
  | .returned _, _ => none
  | .failed, _ => none

/-- The steps of a submission, one rule for each thing it can do. -/
inductive SubmitRule (p : ℕ) (bundle : TestBundleRequest) (w : World) :
    SubmitPc → Outcome → World → SubmitPc → Prop
  | insert {url t} (h : w.execs.insert? (newExecution bundle w.clock) = some t) :
      SubmitRule p bundle w .insert (.ok url) { w with execs := t } .select
  | insertFails : SubmitRule p bundle w .insert .raises w .failed
  | selectAsserts {url e} (h : chooseHost w.hosts.rows bundle = .error e) :
      SubmitRule p bundle w .select (.ok url) (w.lockAll p) (.close none)
  | selectNone {url} (h : chooseHost w.hosts.rows bundle = .ok none) :
      SubmitRule p bundle w .select (.ok url) w (.close none)
  | select {url chosen queue} (hfree : ∀ h ∈ w.hosts.rows, w.blocked p h.hostId = false)
      (h : chooseHost w.hosts.rows bundle = .ok (some (chosen, queue))) :
      SubmitRule p bundle w .select (.ok url) (w.lockAll p) (.reserve chosen queue)
  | selectFails : SubmitRule p bundle w .select .raises w (.close none)
  | reserve {url chosen queue w'}
      (h : w.commitHost p chosen.hostId chosen chosen.increment = some w') :
      SubmitRule p bundle w (.reserve chosen queue) (.ok url) w' (.send chosen.increment queue)
  | reserveFails {chosen queue} :
      SubmitRule p bundle w (.reserve chosen queue) .raises (w.unlock p) (.refresh chosen.hostId)
  | send {url chosen queue} :
      SubmitRule p bundle w (.send chosen queue) (.ok url)
        { w with queue := w.queue ++ [⟨queue, bundle⟩] } (.close (some chosen.hostId))
  | sendFails {chosen queue} : SubmitRule p bundle w (.send chosen queue) .raises w (.undo chosen)
  | refresh {url hostId row} (h : w.hosts.get? hostId = some row) :
      SubmitRule p bundle w (.refresh hostId) (.ok url) w (.undo row)
  | refreshNone {o hostId} : SubmitRule p bundle w (.refresh hostId) o w (.close none)
  | undo {url row w'} (hpos : row.activeContainers > 0)
      (h : w.commitHost p row.hostId row row.decrement = some w') :
      SubmitRule p bundle w (.undo row) (.ok url) w' (.close none)
  | undoNone {o row} (h : o ≠ .raises → row.activeContainers ≤ 0) :
      SubmitRule p bundle w (.undo row) o w (.close none)
  | close {url chosen} :
      SubmitRule p bundle w (.close chosen) (.ok url)
        (w.commitRun p bundle.testId (newExecution bundle w.clock)
          (closedExecution bundle w.clock chosen))
        (.returned chosen)
  | closeFails {chosen} : SubmitRule p bundle w (.close chosen) .raises (w.unlock p) .failed

variable {p : ℕ} {bundle : TestBundleRequest} {w w' : World} {pc pc' : SubmitPc} {o : Outcome}

lemma SubmitRule.of_stepSelect {url : Option String}
    (h : stepSelect p bundle w = some (w', pc')) :
    SubmitRule p bundle w .select (.ok url) w' pc' := by
  unfold stepSelect at h
  split_ifs at h with hblocked
  cases hc : chooseHost w.hosts.rows bundle with
  | error e =>
    simp only [hc, Option.some.injEq, Prod.mk.injEq] at h
    obtain ⟨rfl, rfl⟩ := h
    exact .selectAsserts hc
  | ok choice =>
    cases choice with
    | none =>
      simp only [hc, Option.some.injEq, Prod.mk.injEq] at h
      obtain ⟨rfl, rfl⟩ := h
      exact .selectNone hc
    | some choice =>
      simp only [hc, Option.some.injEq, Prod.mk.injEq] at h
      obtain ⟨rfl, rfl⟩ := h
      exact .select (by simpa using hblocked) hc

/-- Every step of a submission is an instance of a rule. -/
theorem SubmitRule.of_submitStep (h : submitStep p bundle w pc o = some (w', pc')) :
    SubmitRule p bundle w pc o w' pc' := by
  cases pc <;> cases o <;> simp only [submitStep, Option.map_eq_some_iff, Option.some.injEq,
    Prod.mk.injEq, reduceCtorEq] at h
  case insert.ok =>
    obtain ⟨t, ht, rfl, rfl⟩ := h
    exact .insert ht
  case select.ok => exact .of_stepSelect h
  case reserve.ok =>
    obtain ⟨w'', hw, rfl, rfl⟩ := h
    exact .reserve hw
  case refresh.ok hostId url =>
    cases hrow : w.hosts.get? hostId with
    | none =>
      simp only [hrow, Option.some.injEq, Prod.mk.injEq] at h
      obtain ⟨rfl, rfl⟩ := h
      exact .refreshNone
    | some row =>
      simp only [hrow, Option.some.injEq, Prod.mk.injEq] at h
      obtain ⟨rfl, rfl⟩ := h
      exact .refresh hrow
  case undo.ok row url =>
    split_ifs at h with hpos
    · obtain ⟨w'', hw, heq⟩ := Option.map_eq_some_iff.mp h
      simp only [Prod.mk.injEq] at heq
      obtain ⟨rfl, rfl⟩ := heq
      exact .undo hpos hw
    · simp only [Option.some.injEq, Prod.mk.injEq] at h
      obtain ⟨rfl, rfl⟩ := h
      exact .undoNone fun _ => not_lt.mp hpos
  -- Every other step has one outcome for each place in the program.
  all_goals
    obtain ⟨rfl, rfl⟩ := h
    first
      | exact .insertFails
      | exact .selectFails
      | exact .reserveFails
      | exact .send
      | exact .sendFails
      | exact .refreshNone
      | exact .undoNone (by simp)
      | exact .close
      | exact .closeFails

end TestOrch
