import TestOrch.Backend.LdapAuth

/-!
# The life of a session (`resolve_session` in `backend/auth/ldap_auth.py`)

A sequence of login attempts from empty tables, each with its own token. The sessions stored are
those of the successful attempts, and a token resolves to a user as long as the session that it was
minted for is not older than `SESSION_TTL`, whichever way the database hands back the time. A login
whose names do not fit into their columns is none of the successful ones, and is left out.
-/

namespace TestOrch

/-- How the database returns a time that was stored with the offset of UTC. -/
inductive TimeReturn where
  | withOffset (offset : ℤ)
  | withoutOffset

/-- The returned value: the same instant with an offset, or the time in UTC without one. -/
def TimeReturn.apply : TimeReturn → DateTime → DateTime
  | .withOffset offset, d => ⟨d.instant + offset, some offset⟩
  | .withoutOffset, d => ⟨d.instant, none⟩

/-- `expires_at.replace(tzinfo=dt.timezone.utc)` if there is no offset. -/
def assumeUtc (d : DateTime) : DateTime :=
  if d.utcoffset = none then { d with utcoffset := some 0 } else d

/-- `sess.user`. -/
def AuthDb.userOf (db : AuthDb) (session : UserSession) : Option User :=
  db.users.rows.find? fun u => u.id = session.userId

/-- `resolve_session` at the time `now`. -/
def resolveSession (returned : TimeReturn) (db : AuthDb) (token : Option String) (now : ℤ) :
    Option User :=
  match token with
  | none => none
  | some token =>
    if token = "" then none
    else match db.userSessions.get? token with
      | none => none
      | some session =>
        let expiresAt := assumeUtc (returned.apply session.expiresAt)
        if expiresAt.instant < now then none else db.userOf session

/-! ### Attempts -/

/-- A login attempt: what the directory does, what is submitted, the generated token, the time. -/
structure LoginAttempt where
  dir : Directory
  username : String
  password : String
  token : Token
  time : ℤ

variable (settings : LdapSettings)

namespace LoginAttempt

/-- The call of `authenticate_ldap`. -/
def run (a : LoginAttempt) : Login (User × UserSession) :=
  authenticateLdap settings a.dir a.token a.time (.str a.username) (.str a.password)

/-- There is something to submit, and the directory raises in none of its calls. -/
structure Accepted (a : LoginAttempt) : Prop where
  username : strip a.username ≠ ""
  password : strip a.password ≠ ""
  bind : a.dir.refusal settings a.username a.password = none
  reads : a.dir.Reads settings a.username

end LoginAttempt

def afterLogins (attempts : List LoginAttempt) : AuthDb :=
  attempts.foldl (fun db a => (a.run settings db).2) .init

/-- The attempt stands in the sequence, and returned a session there. -/
def Succeeded (attempts : List LoginAttempt) (a : LoginAttempt) : Prop :=
  ∃ before after, attempts = before ++ a :: after ∧
    ∃ r, (a.run settings (afterLogins settings before)).1 = .ok r

variable {settings} {attempts : List LoginAttempt} {a : LoginAttempt} {db db' : AuthDb}

lemma afterLogins_concat (attempts : List LoginAttempt) (a : LoginAttempt) :
    afterLogins settings (attempts ++ [a]) = (a.run settings (afterLogins settings attempts)).2 :=
  List.foldl_concat ..

/-! ### What is stored -/

/-- What the tables hold after the attempts. -/
structure Tracks (settings : LdapSettings) (attempts : List LoginAttempt) (db : AuthDb) : Prop where
  ids : ∀ u ∈ db.users.rows, ∀ v ∈ db.users.rows, u.id = v.id → u = v
  nextId : ∀ u ∈ db.users.rows, u.id < db.nextUserId
  /-- Every accepted attempt has its user. -/
  user : ∀ a ∈ attempts, a.Accepted settings → ∃ u ∈ db.users.rows, u.username = a.username
  /-- The sessions are those of the accepted attempts. -/
  session : ∀ s, s ∈ db.userSessions.rows ↔ ∃ a ∈ attempts, a.Accepted settings ∧
    ∃ u ∈ db.users.rows, u.username = a.username ∧ s = mintedSession u a.token a.time

lemma tracks_init : Tracks settings [] .init := by
  constructor <;> simp [AuthDb.init, Table.empty]

/-- The outcome of an attempt with a token that was not used before. -/
lemma Tracks.outcome (h : Tracks settings attempts db)
    (htoken : a.token ∉ attempts.map LoginAttempt.token) :
    LoginOutcome settings a.dir a.token a.time a.username a.password db (a.run settings db) := by
  apply LoginOutcome.of_authenticateLdap
  rw [Table.get?_eq_none_iff]
  intro hmem
  obtain ⟨s, hs, heq⟩ := List.mem_map.mp hmem
  obtain ⟨b, hb, -, u, -, -, rfl⟩ := (h.session s).mp hs
  exact htoken (List.mem_map.mpr ⟨b, hb, Subtype.ext heq⟩)

/-- An attempt whose token is new returns exactly if it is accepted. -/
lemma ok_iff_accepted {r : Except LoginError (User × UserSession) × AuthDb}
    (h : LoginOutcome settings a.dir a.token a.time a.username a.password db r) :
    (∃ result, r.1 = .ok result) ↔ a.Accepted settings := by
  cases h with
  | refused he h =>
    refine iff_of_false (by simp) fun haccepted => ?_
    rcases h with h | h | h
    · exact haccepted.username h
    · exact haccepted.password h
    · exact h haccepted.bind
  | breaks hname hpassword hbind h =>
    exact iff_of_false (by simp) fun haccepted => h haccepted.reads
  | accepted hname hpassword hbind h hstored =>
    exact iff_of_true ⟨_, rfl⟩ ⟨hname, hpassword, hbind, h⟩

/-- An attempt that raises leaves the tables as they were. -/
lemma eq_of_error {r : Except LoginError (User × UserSession) × AuthDb} {e : LoginError}
    (h : LoginOutcome settings a.dir a.token a.time a.username a.password db r)
    (he : r.1 = .error e) : r.2 = db := by
  cases h with
  | refused _ _ => rfl
  | breaks _ _ _ _ => rfl
  | accepted _ _ _ _ _ => cases he

/-- An attempt that is not accepted adds nothing. -/
lemma Tracks.reject (h : Tracks settings attempts db) (ha : ¬ a.Accepted settings) :
    Tracks settings (attempts ++ [a]) db where
  ids := h.ids
  nextId := h.nextId
  user := by
    intro b hb hb'
    rcases List.mem_append.mp hb with hb | hb
    · exact h.user b hb hb'
    · rw [List.mem_singleton.mp hb] at hb'
      exact absurd hb' ha
  session := by
    intro s
    rw [h.session]
    constructor
    · rintro ⟨b, hb, hs⟩
      exact ⟨b, List.mem_append_left _ hb, hs⟩
    · rintro ⟨b, hb, hb', hs⟩
      rcases List.mem_append.mp hb with hb | hb
      · exact ⟨b, hb, hb', hs⟩
      · rw [List.mem_singleton.mp hb] at hb'
        exact absurd hb' ha

/-- Rows with one user name are one row. -/
lemma eq_of_username {u v : User} (hu : u ∈ db.users.rows) (hv : v ∈ db.users.rows)
    (h : u.username = v.username) : u = v :=
  List.inj_on_of_nodup_map db.users.nodup hu hv h

section Stored

variable {user : User} (hstored : LoginStored a.username a.token a.time user db db')
include hstored

lemma LoginStored.user_mem : user ∈ db'.users.rows := (hstored.users user).mpr (.inr rfl)

lemma LoginStored.mem_of_mem {u : User} (hu : u ∈ db.users.rows) : u ∈ db'.users.rows :=
  (hstored.users u).mpr (.inl hu)

/-- The id of the user was free, or it is the user's row that had it. -/
lemma Tracks.eq_of_id (h : Tracks settings attempts db) {u : User} (hu : u ∈ db.users.rows)
    (hid : u.id = user.id) : u = user := by
  rcases hstored.row with ⟨huser, -⟩ | ⟨hnext, -⟩
  · exact h.ids u hu user huser hid
  · have hlt := h.nextId u hu
    omega

end Stored

/-- An accepted attempt adds its session, and its user if it is the first one. -/
lemma Tracks.accept (h : Tracks settings attempts db) (ha : a.Accepted settings) {user : User}
    (hstored : LoginStored a.username a.token a.time user db db') :
    Tracks settings (attempts ++ [a]) db' where
  ids := by
    -- The id of a new user is one that nobody had.
    intro u hu v hv hid
    rcases (hstored.users u).mp hu with hu | rfl
    · rcases (hstored.users v).mp hv with hv | rfl
      · exact h.ids u hu v hv hid
      · exact h.eq_of_id hstored hu hid
    · rcases (hstored.users v).mp hv with hv | rfl
      · exact (h.eq_of_id hstored hv hid.symm).symm
      · rfl
  nextId := by
    intro u hu
    rcases hstored.row with ⟨huser, hnext⟩ | ⟨hid, hnext⟩
    · rw [hnext]
      rcases (hstored.users u).mp hu with hu | rfl
      · exact h.nextId u hu
      · exact h.nextId u huser
    · rcases (hstored.users u).mp hu with hu | rfl
      · have hlt := h.nextId u hu
        omega
      · omega
  user := by
    intro b hb hb'
    rcases List.mem_append.mp hb with hb | hb
    · obtain ⟨u, hu, hname⟩ := h.user b hb hb'
      exact ⟨u, hstored.mem_of_mem hu, hname⟩
    · rw [List.mem_singleton.mp hb]
      exact ⟨user, hstored.user_mem, hstored.username⟩
  session := by
    intro s
    rw [hstored.sessions, h.session]
    constructor
    · rintro (⟨b, hb, hb', u, hu, hs⟩ | hs)
      · exact ⟨b, List.mem_append_left _ hb, hb', u, hstored.mem_of_mem hu, hs⟩
      · exact ⟨a, List.mem_append_right _ (List.mem_singleton_self a), ha, user,
          hstored.user_mem, hstored.username, hs⟩
    · rintro ⟨b, hb, hb', u, hu, hname, hs⟩
      rcases List.mem_append.mp hb with hb | hb
      · -- the user of an earlier login was there before
        obtain ⟨v, hv, hvname⟩ := h.user b hb hb'
        have hvu : v = u := eq_of_username (hstored.mem_of_mem hv) hu
          (hvname.trans hname.symm)
        exact .inl ⟨b, hb, hb', u, hvu ▸ hv, hname, hs⟩
      · -- This login has the session just stored.
        obtain rfl := List.mem_singleton.mp hb
        have huu : u = user :=
          eq_of_username hu hstored.user_mem (hname.trans hstored.username.symm)
        exact .inr (huu ▸ hs)

/-- The step: one more attempt. -/
lemma Tracks.step (h : Tracks settings attempts db)
    (htoken : a.token ∉ attempts.map LoginAttempt.token) :
    Tracks settings (attempts ++ [a]) (a.run settings db).2 := by
  have hout := h.outcome htoken
  have hok := ok_iff_accepted hout
  generalize a.run settings db = r at hout hok ⊢
  cases hout with
  | refused he hno => exact h.reject fun haccepted => by simpa using hok.mpr haccepted
  | breaks hname hpassword hbind hno =>
    exact h.reject fun haccepted => by simpa using hok.mpr haccepted
  | accepted hname hpassword hbind hreads hstored =>
    exact h.accept ⟨hname, hpassword, hbind, hreads⟩ hstored

lemma tracks_afterLogins (htokens : (attempts.map LoginAttempt.token).Nodup) :
    Tracks settings attempts (afterLogins settings attempts) := by
  induction attempts using List.reverseRecOn with
  | nil => exact tracks_init
  | append_singleton attempts a ih =>
    rw [List.map_append, List.map_singleton, ← List.concat_eq_append, List.nodup_concat] at htokens
    rw [afterLogins_concat]
    exact (ih htokens.2).step htokens.1

/-! ### What is resolved -/

lemma instant_assumeUtc (returned : TimeReturn) (d : DateTime) :
    (assumeUtc (returned.apply d)).instant = d.instant := by
  cases returned <;> simp [assumeUtc, TimeReturn.apply, DateTime.instant]

lemma userOf_eq_some (h : Tracks settings attempts db) {session : UserSession} {u : User} :
    db.userOf session = some u ↔ u ∈ db.users.rows ∧ u.id = session.userId := by
  constructor
  · intro hu
    exact ⟨List.mem_of_find?_eq_some hu, by simpa using List.find?_some hu⟩
  · rintro ⟨hu, hid⟩
    cases hfind : db.userOf session with
    | none =>
      have hno := List.find?_eq_none.mp hfind u hu
      simp [hid] at hno
    | some v =>
      have hv : v.id = session.userId := by simpa using List.find?_some hfind
      rw [h.ids v (List.mem_of_find?_eq_some hfind) u hu (hv.trans hid.symm)]

/-- A token resolves to the user of its session until the session expires. -/
lemma resolveSession_eq_some {returned : TimeReturn} {token : String} {now : ℤ} {u : User} :
    resolveSession returned db (some token) now = some u ↔ token ≠ "" ∧
      ∃ s ∈ db.userSessions.rows, s.token = token ∧ now ≤ s.expiresAt.instant ∧
        db.userOf s = some u := by
  unfold resolveSession
  by_cases htoken : token = ""
  · simp [htoken]
  · cases hget : db.userSessions.get? token with
    | none =>
      have hno : ∀ s ∈ db.userSessions.rows, s.token ≠ token := by
        simpa using Table.get?_eq_none_iff.mp hget
      simp only [htoken, hget, if_false, ne_eq, not_false_eq_true, true_and]
      refine iff_of_false (by simp) ?_
      rintro ⟨s, hs, heq, -⟩
      exact hno s hs heq
    | some session =>
      have hmem := Table.mem_of_get? hget
      have hkey : session.token = token := Table.key_of_get? hget
      simp only [htoken, hget, if_false, instant_assumeUtc, ne_eq, not_false_eq_true, true_and]
      constructor
      · intro hu
        split_ifs at hu with hexpired
        exact ⟨session, hmem, hkey, Int.not_lt.mp hexpired, hu⟩
      · rintro ⟨s, hs, heq, hnow, hu⟩
        obtain rfl : s = session :=
          List.inj_on_of_nodup_map db.userSessions.nodup hs hmem (heq.trans hkey.symm)
        rw [if_neg (Int.not_lt.mpr hnow), hu]

lemma Tracks.resolveSession_iff (h : Tracks settings attempts db) {returned : TimeReturn}
    {token : String} {now : ℤ} {u : User} :
    resolveSession returned db (some token) now = some u ↔
      ∃ a ∈ attempts, a.Accepted settings ∧ a.token.val = token ∧
        (u ∈ db.users.rows ∧ u.username = a.username) ∧ now ≤ a.time + sessionTtl := by
  rw [resolveSession_eq_some]
  constructor
  · rintro ⟨-, s, hs, htoken, hnow, hu⟩
    obtain ⟨a, ha, haccepted, v, hv, hname, rfl⟩ := (h.session s).mp hs
    obtain ⟨hmem, hid⟩ := (userOf_eq_some h).mp hu
    obtain rfl : u = v := h.ids u hmem v hv hid
    refine ⟨a, ha, haccepted, htoken, ⟨hmem, hname⟩, ?_⟩
    simpa [mintedSession] using hnow
  · rintro ⟨a, ha, haccepted, rfl, ⟨hu, hname⟩, hnow⟩
    refine ⟨a.token.property, mintedSession u a.token a.time,
      (h.session _).mpr ⟨a, ha, haccepted, u, hu, hname, rfl⟩, rfl, ?_,
      (userOf_eq_some h).mpr ⟨hu, rfl⟩⟩
    simpa [mintedSession] using hnow

/-- How an attempt ends at its place in a sequence with distinct tokens. -/
lemma outcome_at {before after : List LoginAttempt}
    (htokens : ((before ++ a :: after).map LoginAttempt.token).Nodup) :
    LoginOutcome settings a.dir a.token a.time a.username a.password (afterLogins settings before)
      (a.run settings (afterLogins settings before)) := by
  rw [List.map_append, List.map_cons, List.nodup_append] at htokens
  apply (tracks_afterLogins htokens.1).outcome
  intro hmem
  exact htokens.2.2 _ hmem _ List.mem_cons_self rfl

/-- In a sequence with distinct tokens an attempt is successful exactly if it is accepted. -/
lemma succeeded_iff (htokens : (attempts.map LoginAttempt.token).Nodup) :
    Succeeded settings attempts a ↔ a ∈ attempts ∧ a.Accepted settings := by
  have hplace : ∀ before after, attempts = before ++ a :: after →
      ((∃ r, (a.run settings (afterLogins settings before)).1 = .ok r) ↔ a.Accepted settings) := by
    rintro before after rfl
    exact ok_iff_accepted (outcome_at htokens)
  constructor
  · rintro ⟨before, after, heq, hok⟩
    exact ⟨by simp [heq], (hplace before after heq).mp hok⟩
  · rintro ⟨hmem, haccepted⟩
    obtain ⟨before, after, heq⟩ := List.append_of_mem hmem
    exact ⟨before, after, heq, (hplace before after heq).mpr haccepted⟩

/-- After any sequence of login attempts with distinct tokens, no user name has two rows, an attempt
has failed only without changing a table, and has succeeded exactly if the directory accepted it.
A token resolves to a user exactly if a successful login of that user minted it and is not longer
ago than the life of a session, whether times come back with an offset or without. -/
theorem sessions_spec (htokens : (attempts.map LoginAttempt.token).Nodup) :
    (∀ name, ((afterLogins settings attempts).users.rows.map User.username).count name ≤ 1) ∧
    (∀ before a after e, attempts = before ++ a :: after →
      (a.run settings (afterLogins settings before)).1 = .error e →
        afterLogins settings (before ++ [a]) = afterLogins settings before) ∧
    (∀ a ∈ attempts, Succeeded settings attempts a ↔ a.Accepted settings) ∧
    ∀ (returned : TimeReturn) (token : String) (now : ℤ) (u : User),
      resolveSession returned (afterLogins settings attempts) (some token) now = some u ↔
        ∃ a, Succeeded settings attempts a ∧ a.token.val = token ∧
          (u ∈ (afterLogins settings attempts).users.rows ∧ u.username = a.username) ∧
          now ≤ a.time + sessionTtl := by
  refine ⟨?_, ?_, ?_, ?_⟩
  · exact List.nodup_iff_count_le_one.mp (afterLogins settings attempts).users.nodup
  · rintro before a after e rfl he
    rw [afterLogins_concat]
    exact eq_of_error (outcome_at htokens) he
  · intro a ha
    rw [succeeded_iff htokens, and_iff_right ha]
  · intro returned token now u
    rw [(tracks_afterLogins htokens).resolveSession_iff]
    simp only [succeeded_iff htokens, and_assoc]

/-- Two logins of one user, twelve hours apart. -/
def twoLogins : List LoginAttempt :=
  [⟨openDirectory fun _ => false, "alice", "secret", ⟨"s", by decide⟩, 0⟩,
    ⟨openDirectory fun _ => false, "alice", "secret", ⟨"t", by decide⟩, sessionTtl⟩]

/-- The first session is still valid at the time of the second login. -/
theorem twoLogins_resolved :
    resolveSession .withoutOffset (afterLogins {} twoLogins) (some "s") sessionTtl =
      some ⟨1, "alice", some "alice", none⟩ := by
  have htokens : (twoLogins.map LoginAttempt.token).Nodup := by decide
  obtain ⟨-, -, hsucceeded, hresolve⟩ := @sessions_spec {} twoLogins htokens
  refine (hresolve _ _ _ _).mpr ⟨_, (hsucceeded _ List.mem_cons_self).mpr ?_, rfl, ?_, by decide⟩
  · exact ⟨by decide, by decide, rfl, ⟨rfl, rfl, rfl⟩⟩
  · decide

end TestOrch
