import TestOrch.Worker.Tasks

/-!
# The verdict that is stored

What one execution of `run_test_bundle` leaves in the row of its run, compared with how the task
ends, when the database does not fail and any other call may. The two agree except where a raising
call is not followed by the `except` clause: a client that cannot be created before the `try`
statement leaves the row as it was, and an exception of the `finally` clause comes after the verdict
is stored.
-/

namespace TestOrch

/-- The calls that reach only the database. -/
def Call.database : Call → Bool
  | .initDb | .setStatus _ | .checkpoint _ | .closeSession | .decrement => true
  | _ => false

namespace Environment

variable (env : Environment)

def DatabaseReturns : Prop := ∀ c, c.database = true → env.raises c = false

/-- The calls of the log loop outside the database, from line number `n` on. -/
def lineCalls (n : ℕ) : List String → List Call
  | [] => [.nextLine n]
  | _ :: rest => [.nextLine n, .writeLine n, .publishLine n] ++ lineCalls (n + 1) rest

/-- The calls of the body of the `try` statement outside the database, the uploads apart. -/
def bodyCalls : List Call :=
  [.writeConfig, .makedirs, .startContainer] ++ lineCalls 0 env.lines ++ [.wait, .listdir]

/-- The runner type is known and none of the calls of the body raises; an upload may. -/
structure BodyReturns (req : TestBundleRequest) : Prop where
  runner : getRunner req.runnerType = .ok ()
  calls : ∀ c ∈ env.bodyCalls, env.raises c = false

/-- The status that belongs to the exit code of the container. -/
def verdict : TestStatus := if env.statusCode = some 0 then .PASSED else .FAILED

/-- The URL of the first upload, in the order of the listing, that returns. -/
def firstUpload : Option String :=
  (env.outputFiles.find? fun fname => isResultFile fname && !env.raises (.upload fname)).map
    env.artifactUrl

def StoredAs (testId : String) (status : TestStatus) (url : Option String) (s : JobState) : Prop :=
  ∃ row, s.execs.get? testId = some row ∧ row.status = status ∧ row.artifactUrl = url

/-- The stored row tells how the task ended, where `url` was stored before. -/
def VerdictStored (testId : String) (url : Option String) : Except Raised String × JobState → Prop
  | (.ok v, s) => ∃ status, status.value = v ∧ (status = .PASSED ↔ env.statusCode = some 0) ∧
      StoredAs testId status (env.firstUpload <|> url) s
  | (.error _, s) => ∃ url', StoredAs testId .FAILED url' s

def ClientsReturn : Prop := env.raises .dockerClient = false ∧ env.raises .influxClient = false

/-- Where an exception is not followed by the `except` clause, the row is FAILED all the same. -/
structure VerdictSafe (req : TestBundleRequest) (stored : TestStatus) : Prop where
  clients : env.raises .dockerClient = true ∨ env.raises .influxClient = true → stored = .FAILED
  closing : env.ClientsReturn → env.raises .cleanup = true ∨ env.raises .influxClose = true →
    env.BodyReturns req → env.statusCode ≠ some 0

/-- Where an execution raises, and what it leaves in a row that was stored with `status` and
`url`. -/
inductive Crashed (req : TestBundleRequest) (status : TestStatus) (url : Option String)
    (s : JobState) : Prop
  | clients (h : env.raises .dockerClient = true ∨ env.raises .influxClient = true)
      (hs : StoredAs req.testId status url s)
  | body (hclients : env.ClientsReturn) (h : ¬ env.BodyReturns req)
      (hs : StoredAs req.testId .FAILED url s)
  | closing (hclients : env.ClientsReturn) (hbody : env.BodyReturns req)
      (h : env.raises .cleanup = true ∨ env.raises .influxClose = true)
      (hs : StoredAs req.testId env.verdict (env.firstUpload <|> url) s)

/-- An execution that returns `v`, and what it leaves in a row that was stored with `url`. -/
structure Finished (req : TestBundleRequest) (url : Option String) (v : String) (s : JobState) :
    Prop where
  clients : env.ClientsReturn
  closing : env.raises .cleanup = false ∧ env.raises .influxClose = false
  value : v = env.verdict.value
  stored : StoredAs req.testId env.verdict (env.firstUpload <|> url) s

/-- The computation keeps `P`; it returns if none of the calls `l` raises, and raises otherwise. -/
abbrev Visits {α : Type} (P : JobState → Prop) (l : List Call) (x : Job α) : Prop :=
  Eff.Spec P x (fun _ s => P s ∧ ∀ c ∈ l, env.raises c = false)
    fun _ s => P s ∧ ∃ c ∈ l, env.raises c = true

variable {env} {α β : Type} {testId : String} {status : TestStatus} {url : Option String}

section Visits

variable {P : JobState → Prop} {l l' : List Call} {x : Job α}

lemma StoredAs.of_execs {s s' : JobState} (h : StoredAs testId status url s)
    (he : s'.execs = s.execs) : StoredAs testId status url s' := by
  rw [StoredAs, he]
  exact h

lemma visits_call (c : Call) : Visits env (StoredAs testId status url) [c] (env.call c) := by
  intro s hs
  have hs' : StoredAs testId status url { s with calls := s.calls ++ [c] } := hs.of_execs rfl
  cases hr : env.raises c <;> simp [call, hr, hs']

/-- A call to the database returns. -/
lemma visits_database (hdb : env.DatabaseReturns) {c : Call} (hc : c.database = true) :
    Visits env (StoredAs testId status url) [] (env.call c) := by
  apply (visits_call c).conseq (fun _ h => h)
  · intro _ s h
    exact ⟨h.1, by simp⟩
  · intro _ s h
    have hraise : env.raises c = true := by simpa using h.2
    rw [hdb c hc] at hraise
    cases hraise

lemma visits_modify {f : JobState → JobState} (hf : ∀ s, (f s).execs = s.execs) :
    Visits env (StoredAs testId status url) [] (Eff.modify f : Job Unit) := by
  apply Eff.Spec.modify
  intro s hs
  exact ⟨hs.of_execs (hf s), by simp⟩

lemma Visits.bind {f : α → Job β} (hx : Visits env P l x) (hf : ∀ a, Visits env P l' (f a)) :
    Visits env P (l ++ l') (x >>= f) := by
  have hx' : Eff.Spec P x (fun _ s => P s ∧ ∀ c ∈ l, env.raises c = false)
      fun _ s => P s ∧ ∃ c ∈ l ++ l', env.raises c = true := by
    apply hx.conseq (fun _ h => h) (fun _ _ h => h)
    rintro _ s ⟨hs, c, hc, hr⟩
    exact ⟨hs, c, List.mem_append_left l' hc, hr⟩
  apply Eff.Spec.bind hx'
  intro a
  apply Eff.Spec.of_and
  intro hl
  apply (hf a).conseq (fun _ h => h)
  · rintro _ s ⟨hs, hl'⟩
    exact ⟨hs, fun c hc => (List.mem_append.mp hc).elim (hl c) (hl' c)⟩
  · rintro _ s ⟨hs, c, hc, hr⟩
    exact ⟨hs, c, List.mem_append_right l hc, hr⟩

/-- After `x` the rest has to be looked at only if the calls of `x` return. -/
lemma Visits.andThen {f : α → Job β} {Q : β → JobState → Prop} {R : Prop} (hx : Visits env P l x)
    (hR : (∃ c ∈ l, env.raises c = true) → R)
    (hf : ∀ a, (∀ c ∈ l, env.raises c = false) → Eff.Spec P (f a) Q fun _ s => P s ∧ R) :
    Eff.Spec P (x >>= f) Q fun _ s => P s ∧ R := by
  apply Eff.Spec.bind (hx.conseq (fun _ h => h) (fun _ _ h => h) fun _ _ h => ⟨h.1, hR h.2⟩)
  intro a
  exact Eff.Spec.of_and (hf a)

lemma Visits.tryFinally {f : Job Unit} (hx : Visits env P l x) (hf : Visits env P [] f) :
    Visits env P l (Eff.tryFinally x f) := by
  have hno : ∀ {Q : Prop}, (∃ c ∈ ([] : List Call), env.raises c = true) → Q := by simp
  apply Eff.Spec.tryFinally hx
  · intro _
    apply Eff.Spec.of_and
    intro hl
    exact hf.conseq (fun _ h => h) (fun _ _ h => ⟨h.1, hl⟩) fun _ _ h => hno h.2
  · intro _
    apply Eff.Spec.of_and
    intro hl
    exact hf.conseq (fun _ h => h) (fun _ _ h => ⟨h.1, hl⟩) fun _ _ h => hno h.2

/-- The log loop returns exactly if the stream, the log store and the live exchange do. -/
lemma visits_streamLines (hdb : env.DatabaseReturns) (n : ℕ) (lines : List String) :
    Visits env (StoredAs testId status url) (lineCalls n lines) (env.streamLines n lines) := by
  induction lines generalizing n with
  | nil => exact visits_call _
  | cons line rest ih =>
    apply (visits_call (.nextLine n)).bind
    intro _
    apply (visits_call (.writeLine n)).bind
    intro _
    apply Visits.bind (l := []) (visits_modify fun _ => by rfl)
    intro _
    apply (visits_call (.publishLine n)).bind
    intro _
    apply Visits.bind (l := []) (visits_modify fun _ => by rfl)
    intro _
    split_ifs
    · apply (visits_database hdb (by rfl)).bind
      intro _
      exact (visits_modify fun _ => by rfl).bind fun _ => ih (n + 1)
    · exact ih (n + 1)

end Visits

/-- `_set_status` overwrites the status, and the artifact URL if one is given. -/
lemma spec_setStatus (hdb : env.DatabaseReturns) {site : StatusSite} {id : NonEmptyStr}
    {new : TestStatus} {target newUrl : Option String} :
    Eff.Spec (StoredAs id status url) (env.setStatus site id new target newUrl)
      (fun _ => StoredAs id new (newUrl <|> url)) fun _ _ => False := by
  have hcall : Eff.Spec (StoredAs id status url) (env.call (.setStatus site))
      (fun _ => StoredAs id status url) fun _ _ => False :=
    (visits_database hdb (by rfl)).conseq (fun _ h => h) (fun _ _ h => h.1) fun _ _ h => by
      simp at h
  apply hcall.bind
  intro _
  apply Eff.Spec.modify
  rintro s ⟨row, hrow, hstatus, hurl⟩
  refine ⟨_, by rw [Table.get?_modify, if_pos (by simp), hrow]; rfl, ?_, ?_⟩
  · simp [TestExecution.assign]
  · simp [TestExecution.flush, TestExecution.assign, hurl]

/-- One upload: its URL, or nothing where it raises. -/
lemma spec_upload (fname : String) : Eff.Spec (StoredAs testId status url)
    (Eff.tryExcept (do env.call (.upload fname); pure (some (env.artifactUrl fname)))
      fun _ => pure none : Job (Option String))
    (fun u s => StoredAs testId status url s ∧
      u = if env.raises (.upload fname) then none else some (env.artifactUrl fname))
    fun _ _ => False := by
  have hput : Eff.Spec (StoredAs testId status url)
      (do env.call (.upload fname); pure (some (env.artifactUrl fname)) : Job (Option String))
      (fun u s => StoredAs testId status url s ∧
        u = if env.raises (.upload fname) then none else some (env.artifactUrl fname))
      fun _ s => StoredAs testId status url s ∧ ∃ c ∈ [Call.upload fname], env.raises c = true := by
    apply Eff.Spec.bind (visits_call (.upload fname))
    intro _
    apply Eff.Spec.pure
    rintro s ⟨hs, hr⟩
    exact ⟨hs, by simp [hr]⟩
  apply hput.tryExcept
  intro _
  apply Eff.Spec.pure
  rintro s ⟨hs, hr⟩
  refine ⟨hs, ?_⟩
  rw [if_pos (by simpa using hr)]

/-- The uploads neither raise nor touch the row; they collect the URLs of those that returned. -/
lemma spec_uploadAll (files : List String) :
    Eff.Spec (StoredAs testId status url) (env.uploadAll files)
      (fun urls s => StoredAs testId status url s ∧ urls = (files.filter fun fname =>
        isResultFile fname && !env.raises (.upload fname)).map env.artifactUrl)
      fun _ _ => False := by
  induction files with
  | nil => exact Eff.Spec.pure fun _ h => ⟨h, rfl⟩
  | cons fname rest ih =>
    simp only [uploadAll]
    split_ifs with hfile
    · apply (spec_upload fname).bind
      intro u
      apply Eff.Spec.of_and
      rintro rfl
      apply ih.bind
      rintro urls
      apply Eff.Spec.pure
      rintro s ⟨hs, rfl⟩
      refine ⟨hs, ?_⟩
      cases hr : env.raises (.upload fname) <;> simp [hfile, hr]
    · simpa [hfile] using ih

/-- Before the `try` statement the row becomes RUNNING, if the clients can be created. -/
lemma spec_prelude_stored (hdb : env.DatabaseReturns) (req : TestBundleRequest) :
    Eff.Spec (StoredAs req.testId status url) (env.prelude req)
      (fun _ s => StoredAs req.testId .RUNNING url s ∧ env.ClientsReturn)
      fun _ s => StoredAs req.testId status url s ∧
        (env.raises .dockerClient = true ∨ env.raises .influxClient = true) := by
  apply (visits_database hdb (by rfl)).andThen (by simp)
  intro _ _
  apply (visits_call .dockerClient).andThen (by simp +contextual)
  intro _ hdocker
  apply (visits_call .influxClient).andThen (by simp +contextual)
  intro _ hinflux
  apply (spec_setStatus hdb).conseq (fun _ h => h)
  · intro _ s hs
    exact ⟨hs, by simpa using hdocker, by simpa using hinflux⟩
  · intro _ _ h
    exact h.elim

lemma verdict_eq : env.verdict =
    if env.statusCode.getD 1 = 0 then TestStatus.PASSED else .FAILED := by
  cases hcode : env.statusCode <;> simp [verdict, hcode]

/-- The body returns exactly if none of its calls raises, and then the verdict is stored. -/
lemma spec_execute_stored (hdb : env.DatabaseReturns) (req : TestBundleRequest) :
    Eff.Spec (StoredAs req.testId .RUNNING url) (env.execute req)
      (fun v s => StoredAs req.testId env.verdict (env.firstUpload <|> url) s ∧
        v = env.verdict.value ∧ env.BodyReturns req)
      fun _ s => StoredAs req.testId .RUNNING url s ∧ ¬ env.BodyReturns req := by
  have hraise : ∀ {l : List Call}, (∀ c ∈ l, c ∈ env.bodyCalls) →
      (∃ c ∈ l, env.raises c = true) → ¬ env.BodyReturns req := by
    rintro l hl ⟨c, hc, hr⟩ hret
    rw [hret.calls c (hl c hc)] at hr
    cases hr
  cases hrunner : getRunner req.runnerType with
  | error e =>
    intro s hs
    have hno : ¬ env.BodyReturns req := fun hret => by simpa [hrunner] using hret.runner
    simpa [execute, hrunner, Except.mapError, Eff.lift, bind] using ⟨hs, hno⟩
  | ok _ =>
    simp only [execute, hrunner, Except.mapError, Eff.lift_ok_bind]
    -- Call by call: a raising one leaves the body with the row as it was.
    apply (visits_call .writeConfig).andThen (hraise (by simp [bodyCalls]))
    intro _ hconfig
    apply (visits_call .makedirs).andThen (hraise (by simp [bodyCalls]))
    intro _ hdirs
    apply (visits_call .startContainer).andThen (hraise (by simp [bodyCalls]))
    intro _ hstart
    apply ((visits_streamLines hdb 0 env.lines).tryFinally (visits_database hdb (by rfl))).andThen
      (hraise (by simp +contextual [bodyCalls]))
    intro _ hlines
    apply (visits_call .wait).andThen (hraise (by simp [bodyCalls]))
    intro _ hwait
    apply (visits_call .listdir).andThen (hraise (by simp [bodyCalls]))
    intro _ hlist
    have hret : env.BodyReturns req := by
      refine ⟨hrunner, ?_⟩
      simp only [bodyCalls, List.forall_mem_append]
      refine ⟨⟨?_, hlines⟩, ?_⟩
      · simpa using ⟨by simpa using hconfig, by simpa using hdirs, by simpa using hstart⟩
      · simpa using ⟨by simpa using hwait, by simpa using hlist⟩
    -- Uploads do not raise, and so the verdict is stored.
    refine Eff.Spec.bind ((spec_uploadAll env.outputFiles).conseq (fun _ h => h)
      (fun _ _ h => h) fun _ _ h => h.elim) fun urls => Eff.Spec.of_and ?_
    rintro rfl
    rw [← verdict_eq]
    refine Eff.Spec.bind ((spec_setStatus hdb).conseq (fun _ h => h) (fun _ _ h => h)
      fun _ _ h => h.elim) fun _ => Eff.Spec.pure fun s hs => ⟨?_, rfl, hret⟩
    simpa [firstUpload] using hs

/-- The `except` clause leaves FAILED, whether or not the release of Quali raises. -/
lemma spec_onCrash_stored (hdb : env.DatabaseReturns) (req : TestBundleRequest) (e : Raised) :
    Eff.Spec (StoredAs req.testId status url) (env.onCrash req e) (fun _ _ => False)
      fun _ => StoredAs req.testId .FAILED url := by
  refine Eff.Spec.bind ((spec_setStatus hdb).conseq (fun _ h => h) (fun _ _ h => h)
    fun _ _ h => h.elim) fun _ => ?_
  cases req.qualiReservationId with
  | none => exact Eff.Spec.raise fun _ h => h
  | some reservation =>
    refine Eff.Spec.bind (Q := fun _ => StoredAs req.testId .FAILED url) ?_
      fun _ => Eff.Spec.raise fun _ h => h
    apply Eff.Spec.tryExcept (E := fun _ => StoredAs req.testId .FAILED url)
    · exact ((visits_call .releaseReservation).bind fun _ => visits_modify fun _ => by rfl).conseq
        (fun _ h => h) (fun _ _ h => h.1) fun _ _ h => h.1
    · intro _
      exact Eff.Spec.pure fun _ h => h

/-- The `finally` clause does not touch the row. -/
lemma spec_closing_stored (hdb : env.DatabaseReturns) :
    Visits env (StoredAs testId status url) [.cleanup, .influxClose] env.closing := by
  refine (visits_call .cleanup).bind fun _ => ?_
  refine Visits.bind (l := []) ?_ fun _ => visits_call .influxClose
  exact (visits_database hdb (by rfl)).bind fun _ => visits_modify fun _ => by rfl

/-- What the row holds when the task has returned, and when it has raised. -/
lemma spec_runTestBundle_stored (hdb : env.DatabaseReturns) {bundle : PyValue}
    {req : TestBundleRequest} (hreq : TestBundleRequest.fromDict bundle = .ok req) :
    Eff.Spec (StoredAs req.testId status url) (env.runTestBundle bundle) (env.Finished req url)
      fun _ => env.Crashed req status url := by
  -- The `try` with its `except`, then with its `finally`, then behind the prelude.
  have hbody : Eff.Spec (StoredAs req.testId .RUNNING url)
      (Eff.tryExcept (env.execute req) (env.onCrash req))
      (fun v s => StoredAs req.testId env.verdict (env.firstUpload <|> url) s ∧
        v = env.verdict.value ∧ env.BodyReturns req)
      fun _ s => StoredAs req.testId .FAILED url s ∧ ¬ env.BodyReturns req := by
    apply (spec_execute_stored hdb req).tryExcept
    intro e
    apply Eff.Spec.of_and
    intro hno
    exact (spec_onCrash_stored hdb req e).conseq (fun _ h => h) (fun _ _ h => h.elim)
      fun _ _ h => ⟨h, hno⟩
  have htry (hclients : env.ClientsReturn) : Eff.Spec (StoredAs req.testId .RUNNING url)
      (Eff.tryFinally (Eff.tryExcept (env.execute req) (env.onCrash req)) env.closing)
      (env.Finished req url) fun _ => env.Crashed req status url := by
    apply Eff.Spec.tryFinally hbody
    · intro v
      apply Eff.Spec.of_and
      rintro ⟨hv, hret⟩
      apply (spec_closing_stored hdb).conseq (fun _ h => h)
      · rintro _ s ⟨hs, hcalls⟩
        exact ⟨hclients, by simpa using hcalls, hv, hs⟩
      · rintro _ s ⟨hs, hcall⟩
        exact .closing hclients hret (by simpa using hcall) hs
    · intro e
      apply Eff.Spec.of_and
      intro hno
      apply (spec_closing_stored hdb).conseq (fun _ h => h)
      · rintro _ s ⟨hs, -⟩
        exact .body hclients hno hs
      · rintro _ s ⟨hs, -⟩
        exact .body hclients hno hs
  simp only [runTestBundle, hreq, Except.mapError, Eff.lift_ok_bind]
  apply Eff.Spec.bind ((spec_prelude_stored hdb req).conseq (fun _ h => h) (fun _ _ h => h)
    fun _ _ h => .clients h.2 h.1)
  intro _
  exact Eff.Spec.of_and htry

lemma StoredAs.unique {s : JobState} {status' : TestStatus} {url' : Option String}
    (h : StoredAs testId status url s) (h' : StoredAs testId status' url' s) :
    status = status' ∧ url = url' := by
  obtain ⟨row, hrow, rfl, rfl⟩ := h
  obtain ⟨row', hrow', rfl, rfl⟩ := h'
  obtain rfl : row = row' := Option.some.inj (hrow.symm.trans hrow')
  exact ⟨rfl, rfl⟩

/-- After an exception the row tells the truth exactly if it is FAILED. -/
lemma verdictStored_error_iff {e : Raised} {s : JobState} (h : StoredAs testId status url s)
    {url' : Option String} :
    env.VerdictStored testId url' (.error e, s) ↔ status = .FAILED := by
  constructor
  · rintro ⟨url'', h'⟩
    exact (h.unique h').1
  · rintro rfl
    exact ⟨url, h⟩

lemma ClientsReturn.not_raises (h : env.ClientsReturn) :
    ¬ (env.raises .dockerClient = true ∨ env.raises .influxClient = true) := by
  simp [h.1, h.2]

/-- However the calls outside the database fail, the stored row tells how the task ended if and only
if no client fails to be created, unless the row was FAILED before, and no exception of the
`finally` clause follows a run that passed. -/
theorem verdict_stored_iff {bundle : PyValue} {req : TestBundleRequest} {s : JobState}
    {row : TestExecution} (hreq : TestBundleRequest.fromDict bundle = .ok req)
    (hrow : s.execs.get? req.testId = some row) (hdb : env.DatabaseReturns) :
    env.VerdictStored req.testId row.artifactUrl (env.runTestBundle bundle s) ↔
      env.VerdictSafe req row.status := by
  have hspec := spec_runTestBundle_stored hdb hreq s ⟨row, hrow, rfl, rfl⟩
  rcases hrun : env.runTestBundle bundle s with ⟨e | v, s'⟩
  · simp only [hrun] at hspec
    cases hspec with
    | clients h hs =>
      -- No client: the row is what it was before.
      rw [verdictStored_error_iff hs]
      constructor
      · intro hfailed
        exact ⟨fun _ => hfailed, fun hclients => absurd h hclients.not_raises⟩
      · intro hsafe
        exact hsafe.clients h
    | body hclients h hs =>
      rw [verdictStored_error_iff hs]
      exact iff_of_true rfl
        ⟨fun hraise => absurd hraise hclients.not_raises, fun _ _ hbody => absurd hbody h⟩
    | closing hclients hbody h hs =>
      rw [verdictStored_error_iff hs]
      -- The `finally` clause raised after the verdict was stored.
      have hverdict : env.verdict = .FAILED ↔ env.statusCode ≠ some 0 := by
        simp [verdict]
      rw [hverdict]
      constructor
      · intro hcode
        exact ⟨fun hraise => absurd hraise hclients.not_raises, fun _ _ _ => hcode⟩
      · intro hsafe
        exact hsafe.closing hclients h hbody
  · simp only [hrun] at hspec
    obtain ⟨hclients, hclosing, rfl, hstored⟩ := hspec
    refine iff_of_true ⟨env.verdict, rfl, by simp [verdict], hstored⟩ ⟨?_, ?_⟩
    · intro hraise
      exact absurd hraise hclients.not_raises
    · simp [hclosing]

/-- The row of the sample bundle, as its submission leaves it. -/
def dispatchedRow : TestExecution where
  testId := "t"
  userId := 1
  targetHostId := some "h"
  runnerType := "pytest"
  frameworkImage := "img"
  status := .DISPATCHED
  qualiReservationId := none
  artifactUrl := none
  updatedAt := 0

def JobState.dispatched : JobState := { JobState.init with execs := ⟨[dispatchedRow], by decide⟩ }

lemma failingAt_databaseReturns {failing : List Call} (h : ∀ c ∈ failing, c.database = false) :
    (failingAt failing).DatabaseReturns := by
  intro c hc
  have hno : c ∉ failing := fun hmem => by simp [h c hmem] at hc
  simpa [failingAt] using hno

/-- With a log store that fails, the run is stored as FAILED and the task raises. -/
theorem verdict_stored_writeLine :
    (failingAt [.writeLine 0]).VerdictStored sampleBundle.testId dispatchedRow.artifactUrl
      ((failingAt [.writeLine 0]).runTestBundle samplePayload JobState.dispatched) := by
  have hrow : JobState.dispatched.execs.get? sampleBundle.testId = some dispatchedRow := by
    decide +kernel
  have hdb : (failingAt [.writeLine 0]).DatabaseReturns := failingAt_databaseReturns (by decide)
  have hsafe : (failingAt [.writeLine 0]).VerdictSafe sampleBundle dispatchedRow.status :=
    ⟨fun h => absurd h (by decide), fun _ h => absurd h (by decide)⟩
  have hiff := verdict_stored_iff fromDict_samplePayload hrow hdb
  rw [hiff]
  exact hsafe

/-- A Docker client that cannot be created leaves the run DISPATCHED. -/
theorem verdict_not_stored : ¬ ∀ (env : Environment) (bundle : PyValue) (req : TestBundleRequest)
    (s : JobState) (row : TestExecution), TestBundleRequest.fromDict bundle = .ok req →
      s.execs.get? req.testId = some row → env.DatabaseReturns →
      env.VerdictStored req.testId row.artifactUrl (env.runTestBundle bundle s) := by
  intro h
  have hrow : JobState.dispatched.execs.get? sampleBundle.testId = some dispatchedRow := by
    decide +kernel
  have hstored := h (failingAt [.dockerClient]) samplePayload sampleBundle JobState.dispatched
    dispatchedRow fromDict_samplePayload hrow (failingAt_databaseReturns (by decide))
  have hrun : (failingAt [.dockerClient]).runTestBundle samplePayload JobState.dispatched =
    (.error (.external .dockerClient),
      { JobState.dispatched with calls := [.initDb, .dockerClient] }) := by
    rw [runTestBundle, fromDict_samplePayload]
    rfl
  rw [hrun] at hstored
  have hdispatched : StoredAs sampleBundle.testId .DISPATCHED none
      { JobState.dispatched with calls := [.initDb, .dockerClient] } :=
    ⟨dispatchedRow, hrow, rfl, rfl⟩
  have hstatus := (verdictStored_error_iff hdispatched).mp hstored
  cases hstatus

end Environment

end TestOrch
