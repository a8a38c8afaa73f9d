import TestOrch.Core.Transition
import TestOrch.Backend.StatusRender
import TestOrch.System.Step

/-!
# Live logs (`ws_logs` and `test_logs_page` in `backend/main.py`)

A worker publishes each log line of a run on the exchange of its test, and a log socket sends on
what arrives on the exchange that it is bound to. Whether a user may have the socket is decided when
it is opened, against the row as it is then. The socket admits any logged-in user to a test that has
no row yet; the page does not.
-/

namespace TestOrch.LogStreams

open Transition

/-- `log_exchange_for`, which the worker publishes to under the same name. -/
def logExchangeFor (testId : String) : String := "test_logs." ++ testId

/-- `ws_logs` up to its consumer, for a session that resolves to `user`: the code that it closes the
socket with, or the user that it streams to. -/
def wsLogs (execs : Executions) (user : Option ℤ) (testId : String) : Except ℕ ℤ :=
  match user with
  | none => .error 4401
  | some user =>
    match (execs.get? testId).map TestExecution.userId with
    | none => .ok user
    | some ownerId => if ownerId ≠ user then .error 4403 else .ok user

/-- What `test_logs_page` answers. -/
inductive Page where
  | redirect (url : String)
  | logs (run : TestExecution)
  deriving DecidableEq

def testLogsPage (execs : Executions) (user : Option ℤ) (testId : String) : Page :=
  match user with
  | none => .redirect "/login"
  | some user =>
    match execs.get? testId with
    | none => .redirect "/"
    | some run => if run.userId ≠ user then .redirect "/" else .logs run

def Page.granted : Page → Bool
  | .logs _ => true
  | .redirect _ => false

/-- `render` of `ws_logs`. -/
def renderLine (line : String) : String :=
  "<div id=\"terminal\" hx-swap-oob=\"beforeend\">" ++
    s!"<div class=\"log-line\">{escape line}</div></div>"

/-- A log socket that was granted, with its consumer. -/
structure LogSocket where
  user : ℤ
  testId : String
  /-- The consumer has bound its queue. -/
  bound : Bool
  /-- The consumer runs. -/
  live : Bool
  /-- The lines in the queue, each with the run that it is of. -/
  queue : List (String × String)
  deriving DecidableEq

/-- A fragment sent to a user, with the run whose line it shows. -/
structure Shown where
  user : ℤ
  run : String
  fragment : String
  deriving DecidableEq

/-- The table of runs, the sockets granted so far, and what was sent on them. -/
structure State where
  execs : Executions
  sockets : List LogSocket
  sent : List Shown

inductive Act where
  /-- A form submission creates the row of a run. -/
  | submit (bundle : TestBundleRequest) (now : ℤ)
  /-- A browser opens `/ws/logs/{test_id}`. -/
  | connect (user : Option ℤ) (testId : String)
  /-- The consumer of socket `i` binds its queue. -/
  | bind (i : ℕ)
  /-- The worker publishes a line of a run. -/
  | publish (testId line : String)
  /-- The consumer of socket `i` sends its next line; an exception ends it. -/
  | send (i : ℕ) (delivered : Bool)
  | disconnect (i : ℕ)

/-- Put a line on the queue of a socket that is bound to its exchange. -/
def LogSocket.receive (testId line : String) (c : LogSocket) : LogSocket :=
  if c.live && c.bound && logExchangeFor c.testId = logExchangeFor testId then
    { c with queue := c.queue ++ [(testId, line)] }
  else c

/-- The steps of the log streams. Only runs that exist publish lines. -/
def step (s : State) : Act → Option State
  | .submit bundle now =>
    (s.execs.insert? (newExecution bundle now)).map fun t => { s with execs := t }
  | .connect user testId =>
    match wsLogs s.execs user testId with
    | .ok user => some { s with sockets := s.sockets ++ [⟨user, testId, false, true, []⟩] }
    | .error _ => some s
  | .bind i => do
    let c ← s.sockets[i]?
    if c.live then some { s with sockets := s.sockets.set i { c with bound := true } } else none
  | .publish testId line =>
    if (s.execs.get? testId).isSome then
      some { s with sockets := s.sockets.map (LogSocket.receive testId line) }
    else none
  | .send i delivered => do
    let c ← s.sockets[i]?
    match c.live, c.queue with
    | true, (run, line) :: rest =>
      some { s with
        sockets := s.sockets.set i { c with queue := rest, live := delivered }
        sent := if delivered then s.sent ++ [⟨c.user, run, renderLine line⟩] else s.sent }
    | _, _ => none
  | .disconnect i => do
    let c ← s.sockets[i]?
    some { s with sockets := s.sockets.set i { c with live := false } }

def State.owner (s : State) (testId : String) : Option ℤ :=
  (s.execs.get? testId).map TestExecution.userId

/-- The condition on a run: a logged-in user opens a log socket only on a test that has a row. -/
def KnownTest (s : State) : Act → Prop
  | .connect (some _) testId => (s.execs.get? testId).isSome = true
  | _ => True

instance (s : State) : ∀ a, Decidable (KnownTest s a)
  | .connect (some _) testId => inferInstanceAs (Decidable ((s.execs.get? testId).isSome = true))
  | .connect none _ | .submit .. | .bind _ | .publish .. | .send .. | .disconnect _ =>
    inferInstanceAs (Decidable True)

variable {s s' : State} {user : ℤ} {testId : String}

/-- The socket grants access where the page does, and to every logged-in user where there is no row.
-/
lemma wsLogs_eq_ok {user? : Option ℤ} :
    wsLogs s.execs user? testId = .ok user ↔ user? = some user ∧
      ((testLogsPage s.execs user? testId).granted = true ∨ s.execs.get? testId = none) := by
  cases user? with
  | none => simp [wsLogs]
  | some u =>
    simp only [wsLogs, testLogsPage, Option.some.injEq]
    cases hrow : s.execs.get? testId with
    | none => simp
    | some run =>
      by_cases hu : run.userId = u <;> simp [hu, Page.granted]

/-- The page shows the run to its owner only. -/
lemma granted_iff_owner :
    (testLogsPage s.execs (some user) testId).granted = true ↔ s.owner testId = some user := by
  simp only [testLogsPage, State.owner]
  cases s.execs.get? testId with
  | none => simp [Page.granted]
  | some run => by_cases hu : run.userId = user <;> simp [hu, Page.granted]

lemma logExchangeFor_inj {a b : String} (h : logExchangeFor a = logExchangeFor b) : a = b := by
  simpa [logExchangeFor] using h

/-- Every socket belongs to the owner of its test and has only lines of that test, and everything
was sent to the owner of the run. -/
structure Private (s : State) : Prop where
  sockets : ∀ c ∈ s.sockets, s.owner c.testId = some c.user ∧ ∀ m ∈ c.queue, m.1 = c.testId
  sent : ∀ d ∈ s.sent, s.owner d.run = some d.user

/-- A run keeps its owner when another one is created. -/
lemma owner_insert {row : TestExecution} {t : Executions} (h : s.execs.insert? row = some t)
    (howner : s.owner testId = some user) :
    State.owner { s with execs := t } testId = some user := by
  obtain ⟨hfree, hget⟩ := Table.get?_insert? h
  have hne : testId ≠ row.testId := by
    rintro rfl
    simp [State.owner, hfree] at howner
  rw [State.owner, hget, if_neg hne]
  exact howner

/-- One socket changes and stays what it is. -/
lemma Private.set {i : ℕ} {c c' : LogSocket} (h : Private s) (hc : s.sockets[i]? = some c)
    (huser : c'.user = c.user) (htest : c'.testId = c.testId)
    (hqueue : ∀ m ∈ c'.queue, m ∈ c.queue) : Private { s with sockets := s.sockets.set i c' } where
  sockets d hd := by
    rcases List.mem_or_eq_of_mem_set hd with hold | rfl
    · exact h.sockets d hold
    · obtain ⟨howner, hlines⟩ := h.sockets c (List.mem_of_getElem? hc)
      rw [huser, htest]
      exact ⟨howner, fun m hm => hlines m (hqueue m hm)⟩
  sent := h.sent

lemma Private.publish {line : String} (h : Private s) :
    Private { s with sockets := s.sockets.map (LogSocket.receive testId line) } where
  sockets d hd := by
    obtain ⟨c, hc, rfl⟩ := List.mem_map.mp hd
    obtain ⟨howner, hlines⟩ := h.sockets c hc
    unfold LogSocket.receive
    split_ifs with hbound
    · refine ⟨howner, fun m hm => ?_⟩
      rcases List.mem_append.mp hm with hm | hm
      · exact hlines m hm
      · rw [List.mem_singleton.mp hm]
        simp only [Bool.and_eq_true, decide_eq_true_eq] at hbound
        exact (logExchangeFor_inj hbound.2).symm
    · exact ⟨howner, hlines⟩
  sent := h.sent

/-- The step lemma: sockets opened on tests with a row keep the logs private. -/
lemma private_step {a : Act} (h : Private s) (hG : KnownTest s a) (hs : step s a = some s') :
    Private s' := by
  cases a with
  | submit bundle now =>
    obtain ⟨t, ht, rfl⟩ := Option.map_eq_some_iff.mp hs
    constructor
    · intro c hc
      obtain ⟨howner, hlines⟩ := h.sockets c hc
      exact ⟨owner_insert ht howner, hlines⟩
    · intro d hd
      exact owner_insert ht (h.sent d hd)
  | connect user? testId =>
    simp only [step] at hs
    cases hws : wsLogs s.execs user? testId with
    | error code =>
      rw [hws] at hs
      obtain rfl := Option.some.inj hs
      exact h
    | ok user =>
      rw [hws] at hs
      obtain rfl := Option.some.inj hs
      -- The guard gives the test a row, so the user who is let in owns it.
      obtain ⟨rfl, hgrant⟩ := wsLogs_eq_ok.mp hws
      have hpage : (testLogsPage s.execs (some user) testId).granted = true := by
        apply hgrant.resolve_right
        intro hnone
        rw [KnownTest, hnone] at hG
        cases hG
      refine ⟨fun c hc => ?_, h.sent⟩
      rcases List.mem_append.mp hc with hold | hnew
      · exact h.sockets c hold
      · rw [List.mem_singleton.mp hnew]
        exact ⟨granted_iff_owner.mp hpage, fun m hm => absurd hm List.not_mem_nil⟩
  | bind i =>
    obtain ⟨c, hc, hs⟩ := Option.bind_eq_some_iff.mp hs
    split_ifs at hs
    obtain rfl := Option.some.inj hs
    exact h.set hc rfl rfl fun _ hm => hm
  | publish testId line =>
    simp only [step] at hs
    split_ifs at hs
    obtain rfl := Option.some.inj hs
    exact h.publish
  | send i delivered =>
    obtain ⟨c, hc, hs⟩ := Option.bind_eq_some_iff.mp hs
    split at hs
    · next run line rest _ hqueue =>
      obtain rfl := Option.some.inj hs
      -- What is sent comes from the queue, which has lines of the test of the socket only.
      obtain ⟨howner, hlines⟩ := h.sockets c (List.mem_of_getElem? hc)
      have hset : Private { s with
          sockets := s.sockets.set i { c with queue := rest, live := delivered } } :=
        h.set hc rfl rfl fun m hm => by rw [hqueue]; exact List.mem_cons_of_mem _ hm
      refine ⟨hset.sockets, fun d hd => ?_⟩
      have hrun : run = c.testId := hlines (run, line) (by rw [hqueue]; exact List.mem_cons_self)
      cases delivered with
      | false => exact h.sent d hd
      | true =>
        rcases List.mem_append.mp hd with hold | hnew
        · exact h.sent d hold
        · rw [List.mem_singleton.mp hnew, hrun]
          exact howner
    · cases hs
  | disconnect i =>
    obtain ⟨c, hc, hs⟩ := Option.bind_eq_some_iff.mp hs
    obtain rfl := Option.some.inj hs
    exact h.set hc rfl rfl fun _ hm => hm

/-- In every run that meets `KnownTest`, lines are sent to the owner of their run only, and every
socket was granted to a user who may see the page. -/
theorem logs_confidential {s₀ : State} (h₀ : s₀.sockets = []) (h₁ : s₀.sent = [])
    (h : Reaches step KnownTest s₀ s) :
    (∀ d ∈ s.sent, s.owner d.run = some d.user) ∧
      ∀ c ∈ s.sockets, (testLogsPage s.execs (some c.user) c.testId).granted = true := by
  have hp : Private s := h.invariant ⟨by simp [h₀], by simp [h₁]⟩
    fun _ _ _ hp hG hs => private_step hp hG hs
  exact ⟨hp.sent, fun c hc => granted_iff_owner.mpr (hp.sockets c hc).1⟩

def State.empty : State := ⟨.empty _, [], []⟩

/-- The owner follows the logs of a run. -/
theorem ownLogs_confidential : ∃ s : State, s.sent.length = 1 ∧
    ∀ d ∈ s.sent, s.owner d.run = some d.user := by
  obtain ⟨s, hs, hp⟩ := exists_reaches_of_guardedRun step KnownTest .empty
    [.submit sampleBundle 0, .connect (some 1) "t", .bind 0, .publish "t" "line", .send 0 true]
    (fun s => s.sent.length = 1) (by decide +kernel)
  exact ⟨s, of_decide_eq_true hp, (logs_confidential rfl rfl hs).1⟩

/-- A user opens the socket before the run of another user is created, and is sent its lines. -/
theorem earlySocket_sees_logs :
    ¬ ∀ s₀ s : State, s₀.sockets = [] → s₀.sent = [] → Reaches step (fun _ _ => True) s₀ s →
      ∀ d ∈ s.sent, s.owner d.run = some d.user := by
  intro h
  obtain ⟨s, hs, hp⟩ := exists_reaches_of_guardedRun step (fun _ _ => True) .empty
    [.connect (some 2) "t", .bind 0, .submit sampleBundle 0, .publish "t" "line", .send 0 true]
    (fun s => s.sent.any fun d => s.owner d.run ≠ some d.user) (by decide +kernel)
  obtain ⟨d, hd, hne⟩ := List.any_eq_true.mp hp
  exact of_decide_eq_true hne (h _ s rfl rfl hs d hd)

end TestOrch.LogStreams
