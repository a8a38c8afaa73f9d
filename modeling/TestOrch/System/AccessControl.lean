import TestOrch.System.Attribution

/-!
# What a session gives access to

A cookie opens the application to one user or to nobody. Nobody gets the login page's address and
changes nothing; a user sees runs of that user, and goes on only under that user's id. A log socket
opens for every test but somebody else's, also for an id that no test has yet. Except for it no
answer depends on the runs of others.
-/

namespace TestOrch

open Transition

/-- The answer to a browser without a valid session. -/
def Route.refusal : Route → Response
  | .wsLogs _ | .wsAdmin => .closed 4401
  | _ => .redirect "/login"

/-- The test has a row of another user. -/
def World.Foreign (w : World) (u : User) (testId : String) : Prop :=
  ∃ r, w.execs.get? testId = some r ∧ r.userId ≠ u.id

/-- All that the answer to a request shows or starts is the user's; of the tests that have a row,
log sockets open for the user's own and for no other. -/
def Response.Own (w : World) (u : User) (route : Route) : Response → Prop
  | .redirect url => url = "/"
  | .closed code => code = 4403 ∧ ∃ testId, route = .wsLogs testId ∧ w.Foreign u testId
  | .dashboard v runs => v = u ∧ ∀ r ∈ runs, r ∈ w.execs.rows ∧ r.userId = u.id
  | .testLogs v run => v = u ∧ run ∈ w.execs.rows ∧ run.userId = u.id
  | .admin v hosts => v = u ∧ hosts.Perm w.hosts.rows
  | .socket v => v = u ∧ ∀ testId, route = .wsLogs testId → ¬ w.Foreign u testId
  | .goesOn (.submit bundle) => (bundle.userId : ℤ) = u.id
  | .goesOn (.update _) => True
  | .goesOn _ | .loginPage => False

/-- The two states differ, as far as requests of the user show, in runs of others only. -/
structure World.SameFor (u : User) (w w' : World) : Prop where
  hosts : w.hosts.rows = w'.hosts.rows
  runs : w.execs.rows.filter (fun r => r.userId = (u.id : ℤ)) =
    w'.execs.rows.filter fun r => r.userId = (u.id : ℤ)

variable {w w' : World} {u : User} {route : Route} {testId : String} {r : TestExecution}

lemma mem_recentRuns {userId : ℤ} (h : r ∈ recentRuns w.execs userId) :
    r ∈ w.execs.rows ∧ r.userId = userId := by
  have hmem := List.mem_filter.mp (List.mem_of_mem_take h)
  exact ⟨List.mem_reverse.mp hmem.1, of_decide_eq_true hmem.2⟩

/-- Without a session nothing is shown and nothing goes on. -/
lemma respond_none (hroute : route ≠ .loginForm) : respond w none route = route.refusal := by
  cases route with
  | loginForm => exact absurd rfl hroute
  | _ => rfl

/-- The log socket is refused exactly for a test of somebody else. -/
lemma respond_wsLogs [Decidable (w.Foreign u testId)] :
    respond w (some u) (.wsLogs testId) =
      if w.Foreign u testId then .closed 4403 else .socket u := by
  simp only [respond, LogStreams.wsLogs]
  cases hrow : w.execs.get? testId with
  | none => simp [World.Foreign, hrow]
  | some run =>
    by_cases hown : run.userId = u.id
    · simp [World.Foreign, hrow, hown]
    · simp [World.Foreign, hrow, hown]

lemma respond_own (hroute : route ≠ .loginForm) : (respond w (some u) route).Own w u route := by
  classical
  cases route with
  | loginForm => exact absurd rfl hroute
  | dashboard => exact ⟨rfl, fun r hr => mem_recentRuns hr⟩
  | submitTest form testId =>
    simp only [respond]
    cases hbundle : form.bundle testId u.id with
    | error e => rfl
    | ok bundle => exact SubmitForm.userId_bundle hbundle
  | testLogsPage testId =>
    simp only [respond, LogStreams.testLogsPage]
    cases hrow : w.execs.get? testId with
    | none => rfl
    | some run =>
      by_cases hown : run.userId = u.id
      · simpa [hown, Response.Own] using Table.mem_of_get? hrow
      · simp [hown, Response.Own]
  | admin => exact ⟨rfl, List.mergeSort_perm ..⟩
  | updateHost form => trivial
  | wsLogs testId =>
    rw [respond_wsLogs]
    split_ifs with hforeign
    · exact ⟨rfl, testId, rfl, hforeign⟩
    · refine ⟨rfl, fun testId' heq => ?_⟩
      cases heq
      exact hforeign
  | wsAdmin => exact ⟨rfl, fun _ heq => by cases heq⟩

/-- A row of the user is found in both tables or in none. -/
lemma World.SameFor.get?_iff (h : w.SameFor u w') (hown : r.userId = u.id) :
    w.execs.get? testId = some r ↔ w'.execs.get? testId = some r := by
  have hmem : r ∈ w.execs.rows ↔ r ∈ w'.execs.rows := by
    simpa [List.mem_filter, hown] using congrArg (r ∈ ·) h.runs
  constructor
  · intro hr
    rw [← Table.key_of_get? hr]
    exact Table.get?_of_mem (hmem.mp (Table.mem_of_get? hr))
  · intro hr
    rw [← Table.key_of_get? hr]
    exact Table.get?_of_mem (hmem.mpr (Table.mem_of_get? hr))

lemma World.SameFor.recentRuns (h : w.SameFor u w') :
    TestOrch.recentRuns w.execs u.id = TestOrch.recentRuns w'.execs u.id := by
  simp only [TestOrch.recentRuns, List.filter_reverse, h.runs]

lemma testLogsPage_eq_logs {execs : Executions} {userId : ℤ} :
    LogStreams.testLogsPage execs (some userId) testId = .logs r ↔
      execs.get? testId = some r ∧ r.userId = userId := by
  simp only [LogStreams.testLogsPage]
  cases execs.get? testId with
  | none => simp
  | some run =>
    by_cases hown : run.userId = userId
    · simp only [hown, ne_eq, not_true_eq_false, if_false, LogStreams.Page.logs.injEq,
        Option.some.injEq]
      constructor
      · rintro rfl
        exact ⟨rfl, hown⟩
      · exact And.left
    · simp only [ne_eq, hown, not_false_eq_true, if_true, reduceCtorEq, false_iff, not_and,
        Option.some.injEq]
      rintro rfl
      exact hown

/-- What is not shown is redirected to the dashboard, whether it exists or not. -/
lemma testLogsPage_cases (execs : Executions) (userId : ℤ) (testId : String) :
    LogStreams.testLogsPage execs (some userId) testId = .redirect "/" ∨
      ∃ r, LogStreams.testLogsPage execs (some userId) testId = .logs r := by
  simp only [LogStreams.testLogsPage]
  split
  · exact .inl rfl
  · split_ifs
    · exact .inl rfl
    · exact .inr ⟨_, rfl⟩

lemma World.SameFor.testLogsPage (h : w.SameFor u w') (testId : String) :
    LogStreams.testLogsPage w.execs (some u.id) testId =
      LogStreams.testLogsPage w'.execs (some u.id) testId := by
  rcases testLogsPage_cases w.execs u.id testId with heq | ⟨r, hr⟩
  · rcases testLogsPage_cases w'.execs u.id testId with heq' | ⟨r, hr⟩
    · rw [heq, heq']
    · obtain ⟨hrow, hown⟩ := testLogsPage_eq_logs.mp hr
      rw [hr, testLogsPage_eq_logs.mpr ⟨(h.get?_iff hown).mpr hrow, hown⟩]
  · obtain ⟨hrow, hown⟩ := testLogsPage_eq_logs.mp hr
    rw [hr, testLogsPage_eq_logs.mpr ⟨(h.get?_iff hown).mp hrow, hown⟩]

/-- The runs of others decide about the log socket only. -/
lemma respond_eq_iff (h : w.SameFor u w') :
    respond w (some u) route = respond w' (some u) route ↔
      ∀ testId, route = .wsLogs testId → (w.Foreign u testId ↔ w'.Foreign u testId) := by
  classical
  cases route with
  | dashboard => simp [respond, h.recentRuns]
  | admin => simp [respond, h.hosts]
  | testLogsPage testId => simp [respond, h.testLogsPage testId]
  | wsLogs testId =>
    simp only [respond_wsLogs, Route.wsLogs.injEq, forall_eq']
    by_cases hw : w.Foreign u testId <;> by_cases hw' : w'.Foreign u testId <;> simp [hw, hw']
  | _ => simp [respond]

namespace Site

variable {settings : LdapSettings} {returned : TimeReturn} {t₀ t t' t₁ t₂ : Site}
  {cookie : Option String}

/-- Alice logs in, submits a test, and logs in again after more than twelve hours. -/
def secondLogin : List Act :=
  [.login (openDirectory fun _ => false) "alice" "secret" (letterToken 'r'),
    .request (some "r") (.submitTest aliceForm "t"), .behind (.advance 0 (.ok none)),
    .behind (.tick (12 * 60 * 60 * 1000000 + 1)),
    .login (openDirectory fun _ => false) "alice" "secret" (letterToken 's')]

/-- What a user is answered tells nothing about the runs of others. In any two runs that differ for
the user in runs of others only, an authorized request has the same answer, unless it asks for the
log socket of a test that is somebody else's in one run and not in the other. -/
theorem other_runs_hidden {s₁ s₂ : Site} (h₁ : s₁.New) (h₂ : s₂.New)
    (hs₁ : Reaches (step settings returned) FreshTokens s₁ t₁)
    (hs₂ : Reaches (step settings returned) FreshTokens s₂ t₂)
    (ha₁ : t₁.Authorizes settings cookie t₁.now u) (ha₂ : t₂.Authorizes settings cookie t₂.now u)
    (hsame : t₁.sys.world.SameFor u t₂.sys.world) :
    t₁.answer returned cookie route = t₂.answer returned cookie route ↔
      ∀ testId, route = .wsLogs testId →
        (t₁.sys.world.Foreign u testId ↔ t₂.sys.world.Foreign u testId) := by
  have hu₁ := ((attributed h₁ hs₁).currentUser_iff returned).mpr ha₁
  have hu₂ := ((attributed h₂ hs₂).currentUser_iff returned).mpr ha₂
  rw [answer, answer, hu₁, hu₂]
  exact respond_eq_iff hsame

/-- Alice and Bob log in, and Bob submits a test. -/
def bobRuns : List Act :=
  [.login (openDirectory fun _ => false) "alice" "secret" (letterToken 's'),
    .login (openDirectory fun _ => false) "bob" "secret" (letterToken 'r'),
    .request (some "r") (.submitTest aliceForm "t"), .behind (.advance 0 (.ok none))]

def alice : User := ⟨1, "alice", some "alice", none⟩

/-- Only the log socket tells Alice of the test. -/
theorem bobRuns_hidden : ∃ t₁ t₂ : Site,
    t₁.answer .withoutOffset (some "s") .dashboard =
      t₂.answer .withoutOffset (some "s") .dashboard ∧
    t₁.answer .withoutOffset (some "s") (.wsLogs "t") ≠
      t₂.answer .withoutOffset (some "s") (.wsLogs "t") := by
  -- without Bob, and with him
  obtain ⟨t₁, ht₁, hp₁⟩ := exists_reaches_of_guardedRun (step {} .withoutOffset) FreshTokens
    freshSite (bobRuns.take 1) (fun t => t.currentUser .withoutOffset (some "s") = some alice &&
      t.sys.world.hosts.rows = [idleHost] && t.sys.world.execs.rows = []) (by decide +kernel)
  obtain ⟨t₂, ht₂, hp₂⟩ := exists_reaches_of_guardedRun (step {} .withoutOffset) FreshTokens
    freshSite bobRuns (fun t => t.currentUser .withoutOffset (some "s") = some alice &&
      t.sys.world.hosts.rows = [idleHost] &&
      t.sys.world.execs.rows = [newExecution { sampleBundle with userId := ⟨2, by decide⟩ } 0])
    (by decide +kernel)
  simp only [Bool.and_eq_true, decide_eq_true_eq] at hp₁ hp₂
  obtain ⟨⟨hu₁, hhosts₁⟩, hrows₁⟩ := hp₁
  obtain ⟨⟨hu₂, hhosts₂⟩, hrows₂⟩ := hp₂
  have ha₁ := ((attributed freshSite_new ht₁).currentUser_iff _).mp hu₁
  have ha₂ := ((attributed freshSite_new ht₂).currentUser_iff _).mp hu₂
  have hsame : t₁.sys.world.SameFor alice t₂.sys.world :=
    ⟨hhosts₁.trans hhosts₂.symm, by rw [hrows₁, hrows₂]; rfl⟩
  refine ⟨t₁, t₂, ?_, fun heq => ?_⟩
  · refine (other_runs_hidden freshSite_new freshSite_new ht₁ ht₂ ha₁ ha₂ hsame).mpr ?_
    simp
  · have hforeign := (other_runs_hidden freshSite_new freshSite_new ht₁ ht₂ ha₁ ha₂ hsame).mp heq
      "t" rfl
    have hno : ¬ t₁.sys.world.Foreign alice "t" := by
      simp [World.Foreign, Table.get?, hrows₁]
    exact hno (hforeign.mpr ⟨_, by rw [Table.get?, hrows₂]; rfl, by decide⟩)

end Site

end TestOrch
