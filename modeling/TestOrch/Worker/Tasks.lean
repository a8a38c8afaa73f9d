import TestOrch.Core.Effect
import TestOrch.Backend.Models

/-!
# The task that runs a test (`run_test_bundle` in `worker/tasks.py`)

One execution of the task by itself. Every call that leaves the process is recorded when it is made
and may raise; which calls raise is arbitrary. A raising call has had no effect.
-/

namespace TestOrch

/-- The three calls of `_set_status` in `run_test_bundle`. -/
inductive StatusSite where
  | running
  | verdict
  | crashed
  deriving DecidableEq, Repr

/-- The external calls of `run_test_bundle`. -/
inductive Call where
  | initDb
  | dockerClient
  | influxClient
  | setStatus (site : StatusSite)
  | writeConfig
  | makedirs
  | startContainer
  /-- The log stream is asked for line `n`. -/
  | nextLine (n : ℕ)
  | writeLine (n : ℕ)
  | publishLine (n : ℕ)
  | checkpoint (n : ℕ)
  | closeSession
  | wait
  | listdir
  | upload (fname : String)
  | releaseReservation
  | cleanup
  | decrement
  | influxClose
  deriving DecidableEq, Repr

/-- The exceptions that end or cross `run_test_bundle`. -/
inductive Raised where
  | code (e : PyError)
  | external (c : Call)
  deriving DecidableEq

/-- What the calls find: which of them raise, the output of the container and its files, the URL an
upload returns, the time. -/
structure Environment where
  workerHostId : String
  raises : Call → Bool
  lines : List String
  statusCode : Option ℤ
  outputFiles : List String
  artifactUrl : String → String
  now : ℤ

/-- What the calls change, and the calls made so far. -/
structure JobState where
  calls : List Call
  hosts : Inventory
  execs : Executions
  influxLines : List (ℕ × String)
  published : List String
  logLines : List (ℕ × String)
  released : List NonEmptyStr

/-- A part of `run_test_bundle`. -/
abbrev Job := Eff JobState Raised

def getRunner (runnerType : String) : Except PyError Unit :=
  if runnerType ∈ ["pytest", "robot"] then .ok ()
  else .error (.keyError s!"Unknown runner_type '{runnerType}'. Known: ['pytest', 'robot']")

namespace Environment

variable (env : Environment)

def call (c : Call) : Job Unit := fun s =>
  (if env.raises c then .error (.external c) else .ok (), { s with calls := s.calls ++ [c] })

def setStatus (site : StatusSite) (testId : NonEmptyStr) (status : TestStatus)
    (targetHostId artifactUrl : Option String) : Job Unit := do
  env.call (.setStatus site)
  Eff.modify fun s => { s with
    execs := s.execs.modify [testId.val]
      (fun r => r.flush (r.assign status targetHostId artifactUrl) env.now r)
      fun r => r.flush_testId _ r env.now }

def decrementActiveContainers (hostId : String) : Job Unit := do
  env.call .decrement
  Eff.modify fun s => { s with
    hosts := s.hosts.modify [hostId]
      (fun h => if h.activeContainers > 0 then h.decrement else h) fun h => by split <;> rfl }

def logCheckpointEvery : ℕ := 25

/-- The loop over `stream_logs`, from line number `n` on. -/
def streamLines (n : ℕ) : List String → Job Unit
  | [] => env.call (.nextLine n)
  | line :: rest => do
    env.call (.nextLine n)
    env.call (.writeLine n)
    Eff.modify fun s => { s with influxLines := s.influxLines ++ [(n, line)] }
    env.call (.publishLine n)
    Eff.modify fun s => { s with published := s.published ++ [line] }
    if n % logCheckpointEvery = 0 then
      env.call (.checkpoint n)
      Eff.modify fun s => { s with logLines := s.logLines ++ [(n, line)] }
    streamLines (n + 1) rest

def isResultFile (fname : String) : Bool :=
  [".log", ".dmp", ".core", ".tar.gz"].any fun suffix => suffix.toList.isSuffixOf fname.toList

/-- The upload loop: the URLs of the uploads that succeeded. -/
def uploadAll : List String → Job (List String)
  | [] => pure []
  | fname :: rest =>
    if isResultFile fname then do
      let url ← Eff.tryExcept (do env.call (.upload fname); pure (some (env.artifactUrl fname)))
        fun _ => pure none
      let urls ← uploadAll rest
      pure (url.toList ++ urls)
    else uploadAll rest

/-- The body of the `try` statement. -/
def execute (req : TestBundleRequest) : Job String := do
  Eff.lift ((getRunner req.runnerType).mapError .code)
  env.call .writeConfig
  env.call .makedirs
  env.call .startContainer
  Eff.tryFinally (env.streamLines 0 env.lines) (env.call .closeSession)
  env.call .wait
  let exitCode := env.statusCode.getD 1
  env.call .listdir
  let artifactUrls ← env.uploadAll env.outputFiles
  let final := if exitCode = 0 then TestStatus.PASSED else .FAILED
  env.setStatus .verdict req.testId final none artifactUrls.head?
  pure final.value

/-- The `except` clause. -/
def onCrash (req : TestBundleRequest) (e : Raised) : Job String := do
  env.setStatus .crashed req.testId .FAILED none none
  match req.qualiReservationId with
  | some reservation =>
    Eff.tryExcept
      (do env.call .releaseReservation
          Eff.modify fun s => { s with released := s.released ++ [reservation] })
      fun _ => pure ()
  | none => pure ()
  Eff.raise e

/-- The `finally` clause. -/
def closing : Job Unit := do
  env.call .cleanup
  env.decrementActiveContainers env.workerHostId
  env.call .influxClose

/-- What happens before the `try` statement, once the bundle is decoded. -/
def prelude (req : TestBundleRequest) : Job Unit := do
  env.call .initDb
  env.call .dockerClient
  env.call .influxClient
  env.setStatus .running req.testId .RUNNING (some env.workerHostId) none

def runTestBundle (bundle : PyValue) : Job String := do
  let req ← Eff.lift ((TestBundleRequest.fromDict bundle).mapError .code)
  env.prelude req
  Eff.tryFinally (Eff.tryExcept (env.execute req) (env.onCrash req)) env.closing

/-! ### Cleanup and release -/

/-- Neither the container was removed nor the reservation released so far. -/
def Unclosed (s : JobState) : Prop := Call.cleanup ∉ s.calls ∧ Call.decrement ∉ s.calls

/-- The removal of the container was attempted and the reservation released by one call. -/
def Released (s : JobState) : Prop := Call.cleanup ∈ s.calls ∧ s.calls.count .decrement = 1

/-- The calls before the `try` statement return. -/
def PreludeReturns (env : Environment) : Prop :=
  env.raises .initDb = false ∧ env.raises .dockerClient = false ∧
    env.raises .influxClient = false ∧ env.raises (.setStatus .running) = false

variable {env} {P : JobState → Prop}

lemma Unclosed.not_released {s : JobState} (h : Unclosed s) : ¬ Released s := fun hr => h.1 hr.1

/-- A call other than the two of the `finally` clause. -/
lemma spec_call {c : Call} (hc : c ≠ .cleanup) (hd : c ≠ .decrement) :
    Eff.Spec Unclosed (env.call c) (fun _ s => Unclosed s ∧ env.raises c = false)
      fun _ s => Unclosed s ∧ env.raises c = true := by
  intro s hs
  have hs' : Unclosed { s with calls := s.calls ++ [c] } := by
    simp [Unclosed, hs.1, hs.2, hc.symm, hd.symm]
  cases hr : env.raises c <;> simp [call, hr, hs']

lemma keeps_call {c : Call} (hc : c ≠ .cleanup) (hd : c ≠ .decrement) :
    Eff.Keeps Unclosed (env.call c) :=
  (spec_call hc hd).conseq (fun _ h => h) (fun _ _ h => h.1) fun _ _ h => h.1

/-- A change that records no call. -/
lemma keeps_modify {f : JobState → JobState} (hf : ∀ s, (f s).calls = s.calls) :
    Eff.Keeps Unclosed (Eff.modify f : Job Unit) := by
  intro s hs
  simpa [Eff.modify, Unclosed, hf] using hs

lemma keeps_setStatus {site : StatusSite} {testId : NonEmptyStr} {status : TestStatus}
    {targetHostId artifactUrl : Option String} :
    Eff.Keeps Unclosed (env.setStatus site testId status targetHostId artifactUrl) :=
  (keeps_call (by simp) (by simp)).bind fun _ => keeps_modify fun _ => by rfl

lemma keeps_streamLines (n : ℕ) (lines : List String) :
    Eff.Keeps Unclosed (env.streamLines n lines) := by
  induction lines generalizing n with
  | nil => exact keeps_call (by simp) (by simp)
  | cons line rest ih =>
    apply (keeps_call (by simp) (by simp)).bind
    intro _
    apply (keeps_call (by simp) (by simp)).bind
    intro _
    refine (keeps_modify fun _ => by rfl).bind fun _ => ?_
    apply (keeps_call (by simp) (by simp)).bind
    intro _
    refine (keeps_modify fun _ => by rfl).bind fun _ => ?_
    split_ifs
    · apply (keeps_call (by simp) (by simp)).bind
      intro _
      exact (keeps_modify fun _ => by rfl).bind fun _ => ih (n + 1)
    · exact ih (n + 1)

lemma keeps_uploadAll (files : List String) : Eff.Keeps Unclosed (env.uploadAll files) := by
  induction files with
  | nil => exact .pure _
  | cons fname rest ih =>
    simp only [uploadAll]
    split_ifs
    · refine Eff.Keeps.bind ?_ fun url => ih.bind fun urls => .pure _
      exact ((keeps_call (by simp) (by simp)).bind fun _ => .pure _).tryExcept fun _ => .pure _
    · exact ih

lemma keeps_execute (req : TestBundleRequest) : Eff.Keeps Unclosed (env.execute req) := by
  apply (Eff.Keeps.lift _).bind
  intro _
  apply (keeps_call (by simp) (by simp)).bind
  intro _
  apply (keeps_call (by simp) (by simp)).bind
  intro _
  apply (keeps_call (by simp) (by simp)).bind
  intro _
  refine ((keeps_streamLines 0 env.lines).tryFinally (keeps_call (by simp) (by simp))).bind
    fun _ => ?_
  apply (keeps_call (by simp) (by simp)).bind
  intro _
  apply (keeps_call (by simp) (by simp)).bind
  intro _
  apply (keeps_uploadAll env.outputFiles).bind
  intro urls
  exact keeps_setStatus.bind fun _ => .pure _

lemma keeps_onCrash (req : TestBundleRequest) (e : Raised) :
    Eff.Keeps Unclosed (env.onCrash req e) := by
  apply keeps_setStatus.bind
  intro _
  cases req.qualiReservationId with
  | none => exact Eff.Spec.raise fun _ h => h
  | some reservation =>
    refine Eff.Keeps.bind ?_ fun _ => Eff.Spec.raise fun _ h => h
    exact ((keeps_call (by simp) (by simp)).bind fun _ => keeps_modify fun _ => by rfl).tryExcept
      fun _ => .pure _

/-- The calls before the `try` statement never close anything, and they go through exactly when none
of them raises. -/
lemma spec_prelude (req : TestBundleRequest) :
    Eff.Spec Unclosed (env.prelude req) (fun _ s => Unclosed s ∧ PreludeReturns env)
      fun _ s => Unclosed s ∧ ¬ PreludeReturns env := by
  intro s hs
  have hkeep : Eff.Keeps Unclosed (env.prelude req) := by
    apply (keeps_call (by simp) (by simp)).bind
    intro _
    apply (keeps_call (by simp) (by simp)).bind
    intro _
    exact (keeps_call (by simp) (by simp)).bind fun _ => keeps_setStatus
  have h := hkeep s hs
  cases hinit : env.raises .initDb <;> cases hdocker : env.raises .dockerClient <;>
    cases hinflux : env.raises .influxClient <;>
    cases hstatus : env.raises (.setStatus .running) <;>
    simp_all [prelude, setStatus, call, bind, Eff.modify, PreludeReturns]

/-- The `finally` clause releases the reservation exactly when the removal does not raise. -/
lemma spec_closing :
    Eff.Ends Unclosed env.closing fun s => Released s ↔ env.raises .cleanup = false := by
  intro s ⟨hcleanup, hdecrement⟩
  have hcount : s.calls.count .decrement = 0 := List.count_eq_zero.mpr hdecrement
  cases hc : env.raises .cleanup <;> cases hd : env.raises .decrement <;>
    cases hi : env.raises .influxClose <;>
    simp [closing, decrementActiveContainers, call, bind, Eff.modify, Released, hc, hd, hi, hcount,
      List.count_append]

/-- An execution of the task, by return or by exception, leaves the container removed (as far as
Docker obeys) and the reservation released by exactly one call if and only if nothing raised before
the `try` statement and the removal did not raise. -/
theorem released_iff {bundle : PyValue} {req : TestBundleRequest} {s : JobState}
    (hreq : TestBundleRequest.fromDict bundle = .ok req) (hs : s.calls = []) :
    Released (env.runTestBundle bundle s).2 ↔
      PreludeReturns env ∧ env.raises .cleanup = false := by
  have hbody (hret : PreludeReturns env) : Eff.Ends Unclosed
      (Eff.tryFinally (Eff.tryExcept (env.execute req) (env.onCrash req)) env.closing)
      fun s => Released s ↔ PreludeReturns env ∧ env.raises .cleanup = false := by
    have hclosing : Eff.Ends Unclosed env.closing
        fun s => Released s ↔ PreludeReturns env ∧ env.raises .cleanup = false :=
      spec_closing.conseq (fun _ h => h) (fun _ _ h => by simp [h, hret])
        fun _ _ h => by simp [h, hret]
    exact Eff.Spec.tryFinally ((keeps_execute req).tryExcept (keeps_onCrash req))
      (fun _ => hclosing) fun _ => hclosing
  have hrun : Eff.Ends Unclosed (env.prelude req >>= fun _ =>
      Eff.tryFinally (Eff.tryExcept (env.execute req) (env.onCrash req)) env.closing)
      fun s => Released s ↔ PreludeReturns env ∧ env.raises .cleanup = false := by
    refine Eff.Spec.bind ((spec_prelude req).conseq (fun _ h => h) (fun _ _ h => h) ?_)
      fun _ => Eff.Spec.of_and hbody
    intro _ s h
    simp [h.1.not_released, h.2]
  have hend := hrun.apply s (by simp [Unclosed, hs])
  simpa [runTestBundle, hreq, Except.mapError] using hend

/-- Everything works, except that the calls in `failing` raise. -/
def failingAt (failing : List Call) : Environment where
  workerHostId := "h"
  raises c := c ∈ failing
  lines := ["line"]
  statusCode := some 0
  outputFiles := []
  artifactUrl fname := fname
  now := 0

/-- No host, no execution, no call so far. -/
def JobState.init : JobState := ⟨[], .empty _, .empty _, [], [], [], []⟩

/-- With a log store that fails, the reservation is still released once. -/
theorem released_failingAt_writeLine :
    Released ((failingAt [.writeLine 0]).runTestBundle samplePayload JobState.init).2 :=
  (released_iff fromDict_samplePayload rfl).mpr
    ⟨⟨by decide, by decide, by decide, by decide⟩, by decide⟩

/-- An Influx client that cannot be created leaks the reservation. -/
theorem not_always_released :
    ¬ ∀ (env : Environment) (bundle : PyValue) (req : TestBundleRequest) (s : JobState),
      TestBundleRequest.fromDict bundle = .ok req → s.calls = [] → env.raises .decrement = false →
      Released (env.runTestBundle bundle s).2 := by
  intro h
  have hrel := h (failingAt [.influxClient]) samplePayload sampleBundle JobState.init
    fromDict_samplePayload rfl (by decide)
  exact absurd hrel.1 (by decide +kernel)

end Environment

end TestOrch
