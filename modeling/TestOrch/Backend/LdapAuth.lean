import TestOrch.Backend.Models
import TestOrch.Core.Effect
import TestOrch.Shared.PyValue

/-!
# Login (`backend/auth/ldap_auth.py`, `login_submit` of `backend/main.py`)

A login binds to the directory, reads a profile there, and stores the user and a session in one
transaction. The directory is asked in four calls, any of which may raise an `LDAPException`; only
the first stands in the handler that translates it. So the route answers cleanly if and only if the
bind fails, or everything after it succeeds (`cleanLogin_iff`). The database works, and what the
directory gives fits into the columns for names.
-/

namespace TestOrch

section Source

/-- The calls to the directory, with what they are given. -/
inductive LdapCall where
  | bind (userDn password : String)
  | search (searchBase searchFilter : String)
  | entries
  | unbind
  deriving DecidableEq

/-- An entry of the directory, with the texts of the attributes that a login reads. -/
structure LdapEntry where
  cn : Option String
  mail : Option String

/-- The directory during one login: the text of the `LDAPException` that a call raises, and what
the search finds. -/
structure Directory where
  raises : LdapCall → Option String
  entries : List LdapEntry

/-- The settings that a login reads, with their defaults. -/
structure LdapSettings where
  ldapBaseDn : String := "dc=corp,dc=example,dc=com"
  ldapUserDnTemplate : String := "uid=\x7busername\x7d,ou=people,dc=corp,dc=example,dc=com"

inductive LoginError where
  | code (e : PyError)
  | ldapAuthError (message : String)
  | ldapException (text : String)
  /-- A unique constraint is violated. -/
  | integrityError
  deriving DecidableEq

structure User where
  id : ℕ
  username : String
  displayName : Option String
  email : Option String
  deriving DecidableEq

structure UserSession where
  token : String
  userId : ℕ
  expiresAt : DateTime
  deriving DecidableEq

/-- The two tables, and the id that the next new user gets. -/
structure AuthDb where
  users : Table User.username
  userSessions : Table UserSession.token
  nextUserId : ℕ

def AuthDb.init : AuthDb := ⟨.empty _, .empty _, 1⟩

/-- What `secrets.token_urlsafe` returns; it is never empty. -/
abbrev Token := { t : String // t ≠ "" }

abbrev Login := Eff AuthDb LoginError

def sessionTtl : ℤ := seconds (12 * 60 * 60)

def Directory.call (dir : Directory) (c : LdapCall) : Login Unit :=
  match dir.raises c with
  | some text => Eff.raise (.ldapException text)
  | none => pure ()

/-- The attributes that `_ldap_bind` returns. -/
structure Profile where
  displayName : String
  email : Option String

/-- The attributes of the first entry, with their fallbacks. -/
def Directory.profile (dir : Directory) (username : String) : Profile :=
  match dir.entries with
  | [] => ⟨username, none⟩
  | entry :: _ =>
    let mail := entry.mail.getD ""
    ⟨entry.cn.getD username, if mail = "" then none else some mail⟩

/-- The DN that is bound: `template.format(username=username)`, for a template whose only braces are
those of the field. -/
def userDn (template username : String) : String := replace template "\x7busername\x7d" username

def searchFilter (username : String) : String := s!"(uid={username})"

def ldapBind (settings : LdapSettings) (dir : Directory) (username password : String) :
    Login Profile := do
  Eff.tryExcept (dir.call (.bind (userDn settings.ldapUserDnTemplate username) password)) fun
    | .ldapException text => Eff.raise (.ldapAuthError s!"LDAP bind failed for {username}: {text}")
    | e => Eff.raise e
  Eff.tryFinally
    (do dir.call (.search settings.ldapBaseDn (searchFilter username))
        dir.call .entries
        pure (dir.profile username))
    (dir.call .unbind)

/-- The row of the user, which is inserted if there is none. -/
def AuthDb.findOrAddUser (db : AuthDb) (username : String) (attrs : Profile) :
    Option (User × AuthDb) :=
  match db.users.get? username with
  | some user => some (user, db)
  | none =>
    let user : User := ⟨db.nextUserId, username, some attrs.displayName, attrs.email⟩
    (db.users.insert? user).map fun t =>
      (user, { db with users := t, nextUserId := db.nextUserId + 1 })

/-- The session that a login of the user at the time `now` mints. -/
def mintedSession (user : User) (token : Token) (now : ℤ) : UserSession :=
  ⟨token, user.id, DateTime.utc (now + sessionTtl)⟩

def AuthDb.addSession (db : AuthDb) (user : User) (token : Token) (now : ℤ) :
    Option (UserSession × AuthDb) :=
  (db.userSessions.insert? (mintedSession user token now)).map fun t =>
    (mintedSession user token now, { db with userSessions := t })

/-- The transaction of a login: either both tables are written or none. -/
def storeLogin (username : String) (attrs : Profile) (token : Token) (now : ℤ) :
    Login (User × UserSession) := fun db =>
  let stored := do
    let (user, db') ← db.findOrAddUser username attrs
    let (session, db'') ← db'.addSession user token now
    pure ((user, session), db'')
  match stored with
  | some (r, db'') => (.ok r, db'')
  | none => (.error .integrityError, db)

/-- `authenticate_ldap`, with the token that is generated and the time. -/
def authenticateLdap (settings : LdapSettings) (dir : Directory) (token : Token) (now : ℤ)
    (username password : PyValue) : Login (User × UserSession) := do
  let username ← Eff.lift ((requireNonEmptyStr username "username").mapError .code)
  let password ← Eff.lift ((requireNonEmptyStr password "password").mapError .code)
  let attrs ← ldapBind settings dir username password
  storeLogin username attrs token now

structure Cookie where
  key : String
  value : String
  httponly : Bool
  samesite : String
  maxAge : ℕ
  deriving DecidableEq

inductive LoginResponse where
  | redirect (url : String) (statusCode : ℕ) (cookie : Cookie)
  | page (name error : String) (statusCode : ℕ)
  deriving DecidableEq

def loggedIn (session : UserSession) : LoginResponse :=
  .redirect "/" 302 ⟨"session_token", session.token, true, "lax", 12 * 3600⟩

def loginFailed : LoginResponse :=
  .page "login.html" "Invalid credentials or directory unavailable." 401

def loginSubmit (settings : LdapSettings) (dir : Directory) (token : Token) (now : ℤ)
    (username password : String) : Login LoginResponse :=
  Eff.tryExcept
    (do let (_, session) ← authenticateLdap settings dir token now (.str username) (.str password)
        pure (loggedIn session))
    fun
    | .ldapAuthError _ => pure loginFailed
    | .code (.valueError _) => pure loginFailed
    | .code (.typeError _) => pure loginFailed
    | e => Eff.raise e

end Source

/-! ### What a login stores -/

/-- What a successful login of `username` does to the tables; `user` is its row. -/
structure LoginStored (username : String) (token : Token) (now : ℤ) (user : User)
    (db db' : AuthDb) : Prop where
  username : user.username = username
  users : ∀ r, r ∈ db'.users.rows ↔ r ∈ db.users.rows ∨ r = user
  /-- The row was there before, or it is new with the next id. -/
  row : (user ∈ db.users.rows ∧ db'.nextUserId = db.nextUserId) ∨
    (user.id = db.nextUserId ∧ db'.nextUserId = db.nextUserId + 1)
  sessions : ∀ s, s ∈ db'.userSessions.rows ↔
    s ∈ db.userSessions.rows ∨ s = mintedSession user token now

variable {settings : LdapSettings} {dir : Directory} {token : Token} {now : ℤ}
  {username password : String} {db : AuthDb}

lemma findOrAddUser_spec (db : AuthDb) (username : String) (attrs : Profile) :
    ∃ user db', db.findOrAddUser username attrs = some (user, db') ∧ user.username = username ∧
      db'.userSessions = db.userSessions ∧
      (∀ r, r ∈ db'.users.rows ↔ r ∈ db.users.rows ∨ r = user) ∧
      ((user ∈ db.users.rows ∧ db'.nextUserId = db.nextUserId) ∨
        (user.id = db.nextUserId ∧ db'.nextUserId = db.nextUserId + 1)) := by
  unfold AuthDb.findOrAddUser
  cases hget : db.users.get? username with
  | some user =>
    have hmem := Table.mem_of_get? hget
    refine ⟨user, db, rfl, Table.key_of_get? hget, rfl, ?_, .inl ⟨hmem, rfl⟩⟩
    intro r
    constructor
    · exact .inl
    · rintro (h | rfl)
      · exact h
      · exact hmem
  | none =>
    -- no row has the name, so the constraint on it is kept
    cases hinsert : db.users.insert? ⟨db.nextUserId, username, some attrs.displayName,
        attrs.email⟩ with
    | none =>
      obtain ⟨r, hr⟩ := Table.insert?_eq_none_iff.mp hinsert
      rw [hget] at hr
      cases hr
    | some t =>
      refine ⟨⟨db.nextUserId, username, some attrs.displayName, attrs.email⟩,
        { db with users := t, nextUserId := db.nextUserId + 1 }, ?_, rfl, rfl,
        fun r => Table.mem_insert? hinsert, .inr ⟨rfl, rfl⟩⟩
      simp [hinsert]

/-- With a new token the transaction goes through. -/
lemma storeLogin_spec (hfresh : db.userSessions.get? token = none) (username : String)
    (attrs : Profile) (now : ℤ) : ∃ user db',
      storeLogin username attrs token now db = (.ok (user, mintedSession user token now), db') ∧
        LoginStored username token now user db db' := by
  obtain ⟨user, db', hfind, hname, hsessions, husers, hrow⟩ := findOrAddUser_spec db username attrs
  cases hinsert : db'.userSessions.insert? (mintedSession user token now) with
  | none =>
    obtain ⟨s, hs⟩ := Table.insert?_eq_none_iff.mp hinsert
    rw [hsessions, show (mintedSession user token now).token = token.val from rfl, hfresh] at hs
    cases hs
  | some t =>
    refine ⟨user, { db' with userSessions := t }, ?_, hname, husers, hrow, ?_⟩
    · simp [storeLogin, hfind, AuthDb.addSession, hinsert]
    · intro s
      rw [← hsessions]
      exact Table.mem_insert? hinsert

/-! ### How a login ends -/

/-- The calls after the bind raise nothing. -/
structure Directory.Reads (dir : Directory) (settings : LdapSettings) (username : String) :
    Prop where
  search : dir.raises (.search settings.ldapBaseDn (searchFilter username)) = none
  entries : dir.raises .entries = none
  unbind : dir.raises .unbind = none

def Directory.refusal (dir : Directory) (settings : LdapSettings) (username password : String) :
    Option String :=
  dir.raises (.bind (userDn settings.ldapUserDnTemplate username) password)

/-- The three ways in which `_ldap_bind` ends; it does not touch the tables. -/
lemma ldapBind_cases (settings : LdapSettings) (dir : Directory) (username password : String)
    (db : AuthDb) :
    (dir.refusal settings username password = none ∧ dir.Reads settings username ∧
      ldapBind settings dir username password db = (.ok (dir.profile username), db)) ∨
    (dir.refusal settings username password ≠ none ∧ ∃ message,
      ldapBind settings dir username password db = (.error (.ldapAuthError message), db)) ∨
    (dir.refusal settings username password = none ∧ ¬ dir.Reads settings username ∧ ∃ text,
      ldapBind settings dir username password db = (.error (.ldapException text), db)) := by
  have hreads : dir.Reads settings username ↔
      dir.raises (.search settings.ldapBaseDn (searchFilter username)) = none ∧
        dir.raises .entries = none ∧ dir.raises .unbind = none :=
    ⟨fun h => ⟨h.search, h.entries, h.unbind⟩, fun h => ⟨h.1, h.2.1, h.2.2⟩⟩
  rw [hreads]
  simp only [ldapBind, Directory.refusal, Directory.call, bind, pure, Eff.tryExcept,
    Eff.tryFinally]
  cases dir.raises (.bind (userDn settings.ldapUserDnTemplate username) password) <;>
    cases dir.raises (.search settings.ldapBaseDn (searchFilter username)) <;>
    cases dir.raises .entries <;> cases dir.raises .unbind <;> simp [Eff.raise]

/-- A login with a name and a password goes to the directory, then to the tables. -/
lemma authenticateLdap_nonblank (hname : strip username ≠ "") (hpassword : strip password ≠ "")
    (db : AuthDb) :
    authenticateLdap settings dir token now (.str username) (.str password) db =
      (ldapBind settings dir username password >>= fun attrs =>
        storeLogin username attrs token now) db := by
  rw [authenticateLdap, requireNonEmptyStr_str ⟨username, hname⟩,
    requireNonEmptyStr_str ⟨password, hpassword⟩]
  rfl

/-- The exceptions that `authenticate_ldap` documents. -/
def LoginError.Documented : LoginError → Prop
  | .code (.typeError _) => True
  | .code (.valueError _) => True
  | .ldapAuthError _ => True
  | _ => False

/-- How a login ends that is given a new token. -/
inductive LoginOutcome (settings : LdapSettings) (dir : Directory) (token : Token) (now : ℤ)
    (username password : String) (db : AuthDb) :
    Except LoginError (User × UserSession) × AuthDb → Prop
  | refused {e} (he : e.Documented) (h : strip username = "" ∨ strip password = "" ∨
      dir.refusal settings username password ≠ none) :
      LoginOutcome settings dir token now username password db (.error e, db)
  | breaks {text} (hname : strip username ≠ "") (hpassword : strip password ≠ "")
      (hbind : dir.refusal settings username password = none)
      (h : ¬ dir.Reads settings username) :
      LoginOutcome settings dir token now username password db (.error (.ldapException text), db)
  | accepted {user db'} (hname : strip username ≠ "") (hpassword : strip password ≠ "")
      (hbind : dir.refusal settings username password = none) (h : dir.Reads settings username)
      (hstored : LoginStored username token now user db db') :
      LoginOutcome settings dir token now username password db
        (.ok (user, mintedSession user token now), db')

lemma LoginOutcome.of_authenticateLdap (hfresh : db.userSessions.get? token = none) :
    LoginOutcome settings dir token now username password db
      (authenticateLdap settings dir token now (.str username) (.str password) db) := by
  by_cases hname : strip username = ""
  · have hraise : authenticateLdap settings dir token now (.str username) (.str password) db =
        (.error (.code (.valueError "username must not be empty")), db) := by
      rw [authenticateLdap, requireNonEmptyStr, dif_pos hname]
      rfl
    rw [hraise]
    exact .refused trivial (.inl hname)
  · by_cases hpassword : strip password = ""
    · have hraise : authenticateLdap settings dir token now (.str username) (.str password) db =
          (.error (.code (.valueError "password must not be empty")), db) := by
        rw [authenticateLdap, requireNonEmptyStr_str ⟨username, hname⟩, requireNonEmptyStr,
          dif_pos hpassword]
        rfl
      rw [hraise]
      exact .refused trivial (.inr (.inl hpassword))
    · rw [authenticateLdap_nonblank hname hpassword]
      -- Both texts are there, and the directory decides.
      rcases ldapBind_cases settings dir username password db with
        ⟨hbind, hreads, hrun⟩ | ⟨hbind, message, hrun⟩ | ⟨hbind, hreads, text, hrun⟩
      · obtain ⟨user, db', hstore, hstored⟩ :=
          storeLogin_spec hfresh username (dir.profile username) now
        simp only [bind, hrun, hstore]
        exact .accepted hname hpassword hbind hreads hstored
      · simp only [bind, hrun]
        exact .refused trivial (.inr (.inr hbind))
      · simp only [bind, hrun]
        exact .breaks hname hpassword hbind hreads

section Route

variable {user : User} {session : UserSession} {e : LoginError} {db' : AuthDb}

lemma loginSubmit_ok
    (h : authenticateLdap settings dir token now (.str username) (.str password) db =
      (.ok (user, session), db')) :
    loginSubmit settings dir token now username password db = (.ok (loggedIn session), db') := by
  simp only [loginSubmit, Eff.tryExcept, bind, h]
  rfl

/-- The route catches what is documented. -/
lemma loginSubmit_documented (he : e.Documented)
    (h : authenticateLdap settings dir token now (.str username) (.str password) db =
      (.error e, db')) :
    loginSubmit settings dir token now username password db = (.ok loginFailed, db') := by
  simp only [loginSubmit, Eff.tryExcept, bind, h]
  cases e with
  | code e =>
    cases e with
    | typeError _ => rfl
    | valueError _ => rfl
    | _ => cases he
  | ldapAuthError _ => rfl
  | _ => cases he

lemma loginSubmit_ldapException {text : String}
    (h : authenticateLdap settings dir token now (.str username) (.str password) db =
      (.error (.ldapException text), db')) :
    loginSubmit settings dir token now username password db =
      (.error (.ldapException text), db') := by
  simp only [loginSubmit, Eff.tryExcept, bind, h]
  rfl

end Route

/-- The route answers with the redirect and the cookie of a session that it has stored, or with the
login page and the tables as they were. -/
def AnswersCleanly (db : AuthDb) : Except LoginError LoginResponse × AuthDb → Prop
  | (.ok response, db') =>
    (∃ session ∈ db'.userSessions.rows, db.userSessions.get? session.token = none ∧
      response = loggedIn session) ∨
    (response = loginFailed ∧ db'.users = db.users ∧ db'.userSessions = db.userSessions)
  | (.error _, _) => False

/-- A login answers cleanly and raises only what is documented if and only if it does not get as far
as the directory, or the bind fails, or none of the calls after the bind raises. -/
theorem cleanLogin_iff (hfresh : db.userSessions.get? token = none) :
    (AnswersCleanly db (loginSubmit settings dir token now username password db) ∧
      ∀ e, (authenticateLdap settings dir token now (.str username) (.str password) db).1 =
        .error e → e.Documented) ↔
    strip username = "" ∨ strip password = "" ∨ dir.refusal settings username password ≠ none ∨
      dir.Reads settings username := by
  have hout : LoginOutcome settings dir token now username password db
      (authenticateLdap settings dir token now (.str username) (.str password) db) :=
    .of_authenticateLdap hfresh
  generalize hlogin : authenticateLdap settings dir token now (.str username) (.str password) db =
    result at hout ⊢
  cases hout with
  | refused he h =>
    rw [loginSubmit_documented he hlogin]
    refine iff_of_true ⟨.inr ⟨rfl, rfl, rfl⟩, ?_⟩ (h.imp_right (Or.imp_right .inl))
    intro e h
    rwa [← Except.error.inj h]
  | breaks hname hpassword hbind h =>
    -- The bind went through and a later call raised, which nothing translates.
    rw [loginSubmit_ldapException hlogin]
    refine iff_of_false (fun hclean => hclean.1) ?_
    rintro (hblank | hblank | hrefused | hreads)
    · exact hname hblank
    · exact hpassword hblank
    · exact hrefused hbind
    · exact h hreads
  | accepted hname hpassword hbind h hstored =>
    rw [loginSubmit_ok hlogin]
    have hsession := (hstored.sessions (mintedSession _ token now)).mpr (.inr rfl)
    refine iff_of_true ⟨.inl ⟨_, hsession, hfresh, rfl⟩, ?_⟩ (.inr (.inr (.inr h)))
    intro e h
    cases h

/-- A directory that lets everybody in and raises in the calls with `broken`. -/
def openDirectory (broken : LdapCall → Bool) : Directory where
  raises c := if broken c then some "socket closed" else none
  entries := []

theorem openDirectory_clean :
    AnswersCleanly .init (loginSubmit {} (openDirectory fun _ => false) ⟨"t", by decide⟩ 0
      "alice" "secret" .init) := by
  have hreads : (openDirectory fun _ => false).Reads {} "alice" := ⟨rfl, rfl, rfl⟩
  have hclean := (@cleanLogin_iff {} (openDirectory fun _ => false) ⟨"t", by decide⟩ 0 "alice"
    "secret" .init rfl).mpr (.inr (.inr (.inr hreads)))
  exact hclean.1

/-- An exception of the search is translated by nobody. -/
lemma loginSubmit_breaks (hname : strip username ≠ "") (hpassword : strip password ≠ "")
    (hbind : dir.refusal settings username password = none)
    (h : ¬ dir.Reads settings username) : ∃ text,
      loginSubmit settings dir token now username password db =
        (.error (.ldapException text), db) := by
  rcases ldapBind_cases settings dir username password db with
    ⟨-, hreads, -⟩ | ⟨hrefused, -⟩ | ⟨-, -, text, hrun⟩
  · exact absurd hreads h
  · exact absurd hbind hrefused
  · refine ⟨text, loginSubmit_ldapException ?_⟩
    rw [authenticateLdap_nonblank hname hpassword]
    simp only [bind, hrun]

/-- An exception of the search after a successful bind leaves the route. -/
theorem searchFails_not_clean :
    ¬ ∀ (settings : LdapSettings) (dir : Directory) (token : Token) (now : ℤ)
      (username password : String) (db : AuthDb), db.userSessions.get? token = none →
      AnswersCleanly db (loginSubmit settings dir token now username password db) ∧
        ∀ e, (authenticateLdap settings dir token now (.str username) (.str password) db).1 =
          .error e → e.Documented := by
  intro h
  have hbroken : ¬ (openDirectory fun c => c matches .search _ _).Reads {} "alice" := by
    intro hreads
    exact absurd hreads.search (by decide)
  have hclean := (h {} (openDirectory fun c => c matches .search _ _) ⟨"t", by decide⟩ 0 "alice"
    "secret" .init rfl).1
  have hname : strip "alice" ≠ "" := by decide
  have hpassword : strip "secret" ≠ "" := by decide
  obtain ⟨text, hrun⟩ := loginSubmit_breaks hname hpassword rfl hbroken
  rw [hrun] at hclean
  exact hclean

end TestOrch
