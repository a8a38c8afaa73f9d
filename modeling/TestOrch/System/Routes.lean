import TestOrch.Backend.Sessions
import TestOrch.System.AuditTrail
import TestOrch.System.LogStreams
import TestOrch.System.TagStrings

/-!
# The routes of the web application (`backend/main.py`)

Every route but those of the login first resolves the session cookie, and sends a browser without a
valid session to the login. A form that is accepted goes on as a process of its own, next to all the
others; a login and a lookup of a session are one step each. The state keeps what was requested, for
the proofs only.
-/

namespace TestOrch

/-- A request, other than the submission of the login form. -/
inductive Route where
  | dashboard
  /-- The test id is the one that `submit_test` generates. -/
  | submitTest (form : SubmitForm) (testId : String)
  | testLogsPage (testId : String)
  | loginForm
  | admin
  | updateHost (form : HostForm)
  | wsLogs (testId : String)
  | wsAdmin

inductive Response where
  | redirect (url : String)
  | loginPage
  | dashboard (user : User) (runs : List TestExecution)
  | testLogs (user : User) (run : TestExecution)
  | admin (user : User) (hosts : List WorkerHost)
  /-- The socket is closed with the code. -/
  | closed (code : ℕ)
  /-- The socket stays open. -/
  | socket (user : User)
  /-- The handler goes on in the database; its redirect comes when it ends. -/
  | goesOn (l : Launch)

/-- The query of `dashboard`, the latest runs first. `created_at` is not modelled: it is the time of
the insert, and the order of the rows, in which they were inserted, stands for it. -/
def recentRuns (execs : Executions) (userId : ℤ) : List TestExecution :=
  (execs.rows.reverse.filter fun r => r.userId = userId).take 50

/-- The handlers, for the user that the cookie resolves to. -/
def respond (w : World) (user : Option User) : Route → Response
  | .dashboard =>
    match user with
    | none => .redirect "/login"
    | some user => .dashboard user (recentRuns w.execs user.id)
  | .submitTest form testId =>
    match user with
    | none => .redirect "/login"
    | some user =>
      match form.bundle testId user.id with
      | .error _ => .redirect "/"
      | .ok bundle => .goesOn (.submit bundle)
  | .testLogsPage testId =>
    match user with
    | none => .redirect "/login"
    | some user =>
      match LogStreams.testLogsPage w.execs (some user.id) testId with
      | .redirect url => .redirect url
      | .logs run => .testLogs user run
  | .loginForm => .loginPage
  | .admin =>
    match user with
    | none => .redirect "/login"
    | some user => .admin user (w.hosts.rows.mergeSort fun a b => a.hostId ≤ b.hostId)
  | .updateHost form =>
    match user with
    | none => .redirect "/login"
    | some _ => .goesOn (.update form)
  | .wsLogs testId =>
    match user with
    | none => .closed 4401
    | some user =>
      match LogStreams.wsLogs w.execs (some user.id) testId with
      | .error code => .closed code
      | .ok _ => .socket user
  | .wsAdmin =>
    match user with
    | none => .closed 4401
    | some user => .socket user

structure Request where
  time : ℤ
  cookie : Option String
  route : Route

/-- The web application in front of the system. -/
structure Site where
  auth : AuthDb
  sys : Sys
  /-- The login attempts so far. -/
  logins : List LoginAttempt
  /-- The requests so far. -/
  requests : List Request

namespace Site

inductive Act where
  /-- The login form is submitted; the token is the one that a success generates. -/
  | login (dir : Directory) (username password : String) (token : Token)
  | request (cookie : Option String) (route : Route)
  /-- A step of the system behind the application. -/
  | behind (a : TestOrch.Act)

/-- What starts only by a request. -/
def byRequest : TestOrch.Act → Bool
  | .launch (.submit _) | .launch (.update _) => true
  | _ => false

def now (s : Site) : ℤ := s.sys.world.clock

def currentUser (returned : TimeReturn) (s : Site) (cookie : Option String) : Option User :=
  resolveSession returned s.auth cookie s.now

def answer (returned : TimeReturn) (s : Site) (cookie : Option String) (route : Route) : Response :=
  respond s.sys.world (s.currentUser returned cookie) route

def step (settings : LdapSettings) (returned : TimeReturn) (s : Site) : Act → Option Site
  | .login dir username password token =>
    some { s with
      auth := (loginSubmit settings dir token s.now username password s.auth).2
      logins := s.logins ++ [⟨dir, username, password, token, s.now⟩] }
  | .request cookie route =>
    let handled := { s with requests := s.requests ++ [⟨s.now, cookie, route⟩] }
    match s.answer returned cookie route with
    | .goesOn l => (TestOrch.step s.sys (.launch l)).map fun sys => { handled with sys := sys }
    | _ => some handled
  | .behind a =>
    if byRequest a then none else (TestOrch.step s.sys a).map fun sys => { s with sys := sys }

/-- `secrets.token_urlsafe` does not repeat. -/
def FreshTokens (s : Site) : Act → Prop
  | .login _ _ _ token => token ∉ s.logins.map LoginAttempt.token
  | _ => True

instance (s : Site) : ∀ a, Decidable (FreshTokens s a)
  | .login _ _ _ token => inferInstanceAs (Decidable (token ∉ s.logins.map LoginAttempt.token))
  | .request .. | .behind _ => inferInstanceAs (Decidable True)

/-- A new deployment, over any inventory: nobody has logged in. -/
structure New (s : Site) : Prop where
  auth : s.auth = .init
  sys : s.sys.Unused
  logins : s.logins = []
  requests : s.requests = []

end Site

end TestOrch
