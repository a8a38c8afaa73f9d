import TestOrch.System.Routes

/-!
# Who is behind a run

The rows, the messages and the executions of the system all go back to submissions that somebody
started, and a submission is started only by a request with the cookie of a login that the directory
accepted, not longer ago than the life of a session, under the id of the user who logged in.
-/

namespace TestOrch

open Transition

/-- The bundle of the submission that the process is, or was when it was killed. -/
def Proc.submitted : Proc → Option TestBundleRequest
  | .submit bundle _ => some bundle
  | .dead was => was.submitted
  | _ => none

def Sys.Submitted (s : Sys) (bundle : TestBundleRequest) : Prop :=
  ∃ proc ∈ s.procs, proc.submitted = some bundle

/-- Every row and every message is of a bundle that was submitted. -/
structure Originated (s : Sys) : Prop where
  rows : ∀ k r, s.world.execs.get? k = some r → ∃ bundle, s.Submitted bundle ∧ r.Records bundle
  messages : ∀ m ∈ s.world.queue ++ s.world.delivered, s.Submitted m.bundle

/-- No row is new, and what the rows record of their bundles stays. -/
def World.SameRecords (w w' : World) : Prop :=
  ∀ k r', w'.execs.get? k = some r' →
    ∃ r, w.execs.get? k = some r ∧ ∀ bundle, r.Records bundle → r'.Records bundle

variable {s s' : Sys} {w w' : World} {p : ℕ} {o : Outcome} {proc proc' : Proc}
  {bundle : TestBundleRequest} {loaded new : TestExecution}

/-! ### Where rows and messages come from -/

namespace World.SameRecords

lemma of_eq (h : w'.execs = w.execs) : w.SameRecords w' :=
  fun _ r hr => ⟨r, h ▸ hr, fun _ => id⟩

lemma commitRun (testId : String) : w.SameRecords (w.commitRun p testId loaded new) := by
  intro k r' hr'
  rw [World.get?_commitRun] at hr'
  split_ifs at hr'
  · obtain ⟨r, hr, rfl⟩ := Option.map_eq_some_iff.mp hr'
    exact ⟨r, hr, fun _ h => ⟨h.testId, h.userId, h.runnerType, h.frameworkImage⟩⟩
  · exact ⟨r', hr', fun _ => id⟩

lemma commitFailed (testIds : List String) : w.SameRecords (w.commitFailed testIds) := by
  intro k r' hr'
  rw [World.commitFailed, get?_failRuns] at hr'
  split_ifs at hr'
  · obtain ⟨r, hr, rfl⟩ := Option.map_eq_some_iff.mp hr'
    exact ⟨r, hr, fun _ h => ⟨h.testId, h.userId, h.runnerType, h.frameworkImage⟩⟩
  · exact ⟨r', hr', fun _ => id⟩

end World.SameRecords

/-- One process moved: what it submitted, it submitted before. -/
lemma Sys.submitted_set (hp : s.procs[p]? = some proc) (hsame : proc'.submitted = proc.submitted) :
    Sys.Submitted ⟨w', s.procs.set p proc'⟩ bundle ↔ s.Submitted bundle := by
  simp only [Sys.Submitted, List.mem_iff_getElem?, Pool.getElem?_set_of_get hp]
  constructor
  · rintro ⟨other, ⟨j, hj⟩, hb⟩
    split_ifs at hj with hjp
    · obtain rfl := Option.some.inj hj
      exact ⟨proc, ⟨p, hp⟩, hsame ▸ hb⟩
    · exact ⟨other, ⟨j, hj⟩, hb⟩
  · rintro ⟨other, ⟨j, hj⟩, hb⟩
    by_cases hjp : j = p
    · subst hjp
      obtain rfl := Option.some.inj (hp.symm.trans hj)
      exact ⟨proc', ⟨j, if_pos rfl⟩, hsame.trans hb⟩
    · exact ⟨other, ⟨j, by rw [if_neg hjp, hj]⟩, hb⟩

namespace Originated

/-- One process moved, and sent nothing. -/
lemma set (hi : Originated s) (hp : s.procs[p]? = some proc)
    (hsame : proc'.submitted = proc.submitted) (hrows : s.world.SameRecords w')
    (hq : w'.queue = s.world.queue) (hd : w'.delivered = s.world.delivered) :
    Originated ⟨w', s.procs.set p proc'⟩ where
  rows k r' hr' := by
    obtain ⟨r, hr, hrec⟩ := hrows k r' hr'
    obtain ⟨bundle, hb, hrecords⟩ := hi.rows k r hr
    exact ⟨bundle, (Sys.submitted_set hp hsame).mpr hb, hrec bundle hrecords⟩
  messages m hm := (Sys.submitted_set hp hsame).mpr (hi.messages m (by rwa [hq, hd] at hm))

lemma spawn (hi : Originated s) (new : Proc) (he : w'.execs = s.world.execs)
    (hm : ∀ m ∈ w'.queue ++ w'.delivered, m ∈ s.world.queue ++ s.world.delivered) :
    Originated ⟨w', s.procs ++ [new]⟩ := by
  have hkept : ∀ {bundle}, s.Submitted bundle → Sys.Submitted ⟨w', s.procs ++ [new]⟩ bundle :=
    fun ⟨proc, hproc, hb⟩ => ⟨proc, List.mem_append_left _ hproc, hb⟩
  refine ⟨fun k r hr => ?_, fun m hmem => hkept (hi.messages m (hm m hmem))⟩
  obtain ⟨bundle, hb, hrec⟩ := hi.rows k r (he ▸ hr)
  exact ⟨bundle, hkept hb, hrec⟩

/-- A submission moved. -/
lemma submit {pc pc' : SubmitPc} (hi : Originated s)
    (hp : s.procs[p]? = some (.submit bundle pc))
    (h : SubmitRule p bundle s.world pc o w' pc') :
    Originated ⟨w', s.procs.set p (.submit bundle pc')⟩ := by
  have hself : ∀ {w'}, Sys.Submitted ⟨w', s.procs.set p (.submit bundle pc')⟩ bundle :=
    ⟨_, List.mem_set (List.getElem?_eq_some_iff.mp hp).1 _, rfl⟩
  have hkept : ∀ {w' b}, s.Submitted b →
      Sys.Submitted ⟨w', s.procs.set p (.submit bundle pc')⟩ b :=
    fun h => (Sys.submitted_set hp (by rfl)).mpr h
  cases h with
  | insert ht =>
    obtain ⟨-, hget⟩ := Table.get?_insert? ht
    refine ⟨fun k r hr => ?_, fun m hm => hkept (hi.messages m hm)⟩
    replace hr := (hget k).symm.trans hr
    split_ifs at hr with hk
    · obtain rfl := Option.some.inj hr
      exact ⟨bundle, hself, rfl, rfl, rfl, rfl⟩
    · obtain ⟨b, hb, hrec⟩ := hi.rows k r hr
      exact ⟨b, hkept hb, hrec⟩
  | send =>
    refine ⟨fun k r hr => ?_, fun m hm => ?_⟩
    · obtain ⟨b, hb, hrec⟩ := hi.rows k r hr
      exact ⟨b, hkept hb, hrec⟩
    · simp only [List.mem_append, List.mem_singleton] at hm
      rcases hm with (hm | rfl) | hm
      · exact hkept (hi.messages m (List.mem_append_left _ hm))
      · exact hself
      · exact hkept (hi.messages m (List.mem_append_right _ hm))
  | close => exact hi.set hp rfl (.commitRun _) rfl rfl
  | reserve hw =>
    obtain ⟨-, rfl⟩ := World.commitHost_eq_some hw
    exact hi.set hp rfl (.of_eq rfl) rfl rfl
  | undo hpos hw =>
    obtain ⟨-, rfl⟩ := World.commitHost_eq_some hw
    exact hi.set hp rfl (.of_eq rfl) rfl rfl
  | _ => exact hi.set hp rfl (.of_eq rfl) rfl rfl

end Originated

/-- Every step keeps the origin of rows and messages. -/
theorem originated_step {a : Act} (hi : Originated s) (h : step s a = some s') :
    Originated s' := by
  cases SysRule.of_step h with
  | launch => exact hi.spawn _ rfl fun _ => id
  | deliver hm hq =>
    refine hi.spawn _ ?_ fun m' hm' => (World.mem_handOut hm).mp hm'
    rfl
  | redeliver hm hq => exact hi.spawn _ rfl fun _ => id
  | submit hp hr => exact hi.submit hp hr
  | task hp hr =>
    cases hr with
    | decrement hpc hw =>
      obtain ⟨-, rfl⟩ := World.commitHost_eq_some hw
      exact hi.set hp rfl (.of_eq rfl) rfl rfl
    | running | verdict | failed => exact hi.set hp rfl (.commitRun _) rfl rfl
    | _ => exact hi.set hp rfl (.of_eq rfl) rfl rfl
  | heartbeat hp hr =>
    cases hr with
    | update hw =>
      obtain ⟨-, rfl⟩ := World.commitHost_eq_some hw
      exact hi.set hp rfl (.of_eq rfl) rfl rfl
    | register hw =>
      obtain ⟨t, -, rfl⟩ := Option.map_eq_some_iff.mp hw
      exact hi.set hp rfl (.of_eq rfl) rfl rfl
    | _ => exact hi.set hp rfl (.of_eq rfl) rfl rfl
  | update hp hr =>
    cases hr with
    | commit hw =>
      obtain ⟨-, rfl⟩ := World.commitHost_eq_some hw
      exact hi.set hp rfl (.of_eq rfl) rfl rfl
    | _ => exact hi.set hp rfl (.of_eq rfl) rfl rfl
  | sweep hp hr =>
    cases hr with
    | fail => exact hi.set hp rfl (.commitFailed _) rfl rfl
    | _ => exact hi.set hp rfl (.of_eq rfl) rfl rfl
  | reap hp hr =>
    cases hr with
    | fail => exact hi.set hp rfl (.commitFailed _) rfl rfl
    | _ => exact hi.set hp rfl (.of_eq rfl) rfl rfl
  | kill hp => exact hi.set hp rfl (.of_eq rfl) rfl rfl
  | exit hc hrun => exact ⟨hi.rows, hi.messages⟩
  | tick => exact ⟨hi.rows, hi.messages⟩

/-- A step starts no submission but the one that it launches. -/
lemma submitted_of_step {a : Act} (h : step s a = some s') (hb : s'.Submitted bundle) :
    s.Submitted bundle ∨ a = .launch (.submit bundle) := by
  cases SysRule.of_step h with
  | @launch l =>
    obtain ⟨proc, hproc, hb⟩ := hb
    rcases List.mem_append.mp hproc with hproc | hproc
    · exact .inl ⟨proc, hproc, hb⟩
    · obtain rfl := List.mem_singleton.mp hproc
      cases l with
      | submit b =>
        obtain rfl := Option.some.inj hb
        exact .inr rfl
      | _ => cases hb
  | deliver | redeliver =>
    obtain ⟨proc, hproc, hb⟩ := hb
    rcases List.mem_append.mp hproc with hproc | hproc
    · exact .inl ⟨proc, hproc, hb⟩
    · obtain rfl := List.mem_singleton.mp hproc
      cases hb
  | submit hp | task hp | heartbeat hp | update hp | sweep hp | reap hp | kill hp =>
    refine .inl ((Sys.submitted_set hp ?_).mp hb)
    rfl
  | exit | tick => exact .inl hb

lemma SubmitForm.userId_bundle {form : SubmitForm} {testId : String} {userId : ℤ}
    (h : form.bundle testId userId = .ok bundle) : (bundle.userId : ℤ) = userId := by
  have hfields := congrArg TestBundleRequest.Fields.userId
    (TestBundleRequest.construct_eq_ok (f := ⟨_, _, _, _, _, _, _, _⟩).mp h)
  exact (PyValue.int.inj hfields).symm

/-! ### Sessions -/

namespace Site

variable {settings : LdapSettings} {returned : TimeReturn} {t t' : Site} {cookie : Option String}
  {route : Route} {u : User}

/-- The cookie was set by an accepted login of the user, and its session was alive at the time. -/
def Authorizes (settings : LdapSettings) (t : Site) (cookie : Option String) (time : ℤ)
    (u : User) : Prop :=
  ∃ a ∈ t.logins, a.Accepted settings ∧ cookie = some a.token.val ∧ a.time ≤ time ∧
    time ≤ a.time + sessionTtl ∧ u ∈ t.auth.users.rows ∧ u.username = a.username

/-- The user submitted the bundle, with a request that a login of the user authorizes. -/
def Requested (settings : LdapSettings) (t : Site) (u : User) (bundle : TestBundleRequest) : Prop :=
  ∃ r ∈ t.requests, ∃ form testId, r.route = .submitTest form testId ∧
    t.Authorizes settings r.cookie r.time u ∧ form.bundle testId u.id = .ok bundle

/-- The sessions are those of the logins, and all submissions were requested. -/
structure Attributed (settings : LdapSettings) (t : Site) : Prop where
  tracks : Tracks settings t.logins t.auth
  past : ∀ a ∈ t.logins, a.time ≤ t.now
  originated : Originated t.sys
  audited : Audited (fun _ => True) t.sys
  requested : ∀ bundle, t.sys.Submitted bundle → ∃ u, t.Requested settings u bundle

/-- Logins, requests and users are only added. -/
structure Extends (t t' : Site) : Prop where
  logins : t.logins ⊆ t'.logins
  requests : t.requests ⊆ t'.requests
  users : t.auth.users.rows ⊆ t'.auth.users.rows

lemma Authorizes.extends {time : ℤ} (ha : t.Authorizes settings cookie time u)
    (h : t.Extends t') : t'.Authorizes settings cookie time u := by
  obtain ⟨a, ha, hok, hcookie, hbefore, halive, hu, hname⟩ := ha
  exact ⟨a, h.logins ha, hok, hcookie, hbefore, halive, h.users hu, hname⟩

lemma Requested.extends {bundle : TestBundleRequest} (hr : t.Requested settings u bundle)
    (h : t.Extends t') : t'.Requested settings u bundle := by
  obtain ⟨r, hr, form, testId, hroute, ha, hbundle⟩ := hr
  exact ⟨r, h.requests hr, form, testId, hroute, ha.extends h, hbundle⟩

/-- The id of the user is in the bundle. -/
lemma Requested.userId {bundle : TestBundleRequest} (hr : t.Requested settings u bundle) :
    (bundle.userId : ℤ) = u.id := by
  obtain ⟨-, -, form, testId, -, -, hbundle⟩ := hr
  exact SubmitForm.userId_bundle hbundle

/-- A cookie resolves to exactly the users whose logins authorize it. -/
lemma Attributed.currentUser_iff (hi : Attributed settings t) (returned : TimeReturn) :
    t.currentUser returned cookie = some u ↔ t.Authorizes settings cookie t.now u := by
  cases cookie with
  | none => simp [currentUser, resolveSession, Authorizes]
  | some token =>
    rw [currentUser, hi.tracks.resolveSession_iff]
    constructor
    · rintro ⟨a, ha, hok, rfl, ⟨hu, hname⟩, hnow⟩
      exact ⟨a, ha, hok, rfl, hi.past a ha, hnow, hu, hname⟩
    · rintro ⟨a, ha, hok, heq, -, hnow, hu, hname⟩
      exact ⟨a, ha, hok, (Option.some.inj heq).symm, ⟨hu, hname⟩, hnow⟩

/-! ### Steps of the application -/

/-- A login leaves in the tables what `authenticate_ldap` left there. -/
lemma loginSubmit_tables (a : LoginAttempt) (db : AuthDb) :
    (loginSubmit settings a.dir a.token a.time a.username a.password db).2 =
      (a.run settings db).2 := by
  simp only [loginSubmit, LoginAttempt.run, Eff.tryExcept, bind]
  rcases authenticateLdap settings a.dir a.token a.time (.str a.username) (.str a.password) db with
    ⟨e | r, db'⟩
  · cases e with
    | code e => cases e <;> rfl
    | _ => rfl
  · rfl

/-- No user goes away with a login. -/
lemma users_subset_run {a : LoginAttempt} (hi : Tracks settings t.logins t.auth)
    (htoken : a.token ∉ t.logins.map LoginAttempt.token) :
    t.auth.users.rows ⊆ (a.run settings t.auth).2.users.rows := by
  have hout := hi.outcome htoken
  generalize a.run settings t.auth = r at hout ⊢
  cases hout with
  | refused | breaks => exact List.Subset.refl _
  | accepted _ _ _ _ hstored => exact fun u hu => (hstored.users u).mpr (.inl hu)

/-- A handler goes on in the database for a valid session only, and a submission under the id of its
user. -/
lemma respond_eq_goesOn {w : World} {user : Option User} {l : Launch}
    (h : respond w user route = .goesOn l) : ∃ u, user = some u ∧
      ((∃ form testId bundle, route = .submitTest form testId ∧
        form.bundle testId u.id = .ok bundle ∧ l = .submit bundle) ∨
      ∃ form, route = .updateHost form ∧ l = .update form) := by
  cases user with
  | none => cases route <;> cases h
  | some u =>
    refine ⟨u, rfl, ?_⟩
    cases route with
    | submitTest form testId =>
      simp only [respond] at h
      cases hbundle : form.bundle testId u.id with
      | error e => simp [hbundle] at h
      | ok bundle =>
        simp only [hbundle, Response.goesOn.injEq] at h
        exact .inl ⟨form, testId, bundle, rfl, hbundle, h.symm⟩
    | updateHost form =>
      simp only [respond, Response.goesOn.injEq] at h
      exact .inr ⟨form, rfl, h.symm⟩
    | testLogsPage testId =>
      simp only [respond] at h
      split at h <;> cases h
    | wsLogs testId =>
      simp only [respond] at h
      split at h <;> cases h
    | _ => cases h

namespace Attributed

lemma of_new (h : t.New) : Attributed settings t where
  tracks := by
    rw [h.auth, h.logins]
    exact tracks_init
  past a ha := by simp [h.logins] at ha
  originated :=
    ⟨fun k r hr => by simp [Table.get?, h.sys.execs] at hr,
      fun m hm => by simp [h.sys.queue, h.sys.delivered] at hm⟩
  audited := .of_unused h.sys
  requested bundle hb := by
    obtain ⟨proc, hproc, -⟩ := hb
    simp [h.sys.procs] at hproc

/-- The system behind the application made a step. -/
lemma advance {a : TestOrch.Act} (hi : Attributed settings t) (hext : t.Extends t')
    (hauth : t'.auth = t.auth) (hlogins : t'.logins = t.logins)
    (hsys : TestOrch.step t.sys a = some t'.sys)
    (hlaunch : ∀ bundle, a = .launch (.submit bundle) → ∃ u, t'.Requested settings u bundle) :
    Attributed settings t' where
  tracks := by
    rw [hauth, hlogins]
    exact hi.tracks
  past b hb := (hi.past b (hlogins ▸ hb)).trans (clock_le_of_step hsys)
  originated := originated_step hi.originated hsys
  audited := audited_step hi.audited (fun _ _ => trivial) hsys
  requested bundle hb := by
    rcases submitted_of_step hsys hb with hb | rfl
    · obtain ⟨u, hr⟩ := hi.requested bundle hb
      exact ⟨u, hr.extends hext⟩
    · exact hlaunch bundle rfl

/-- Nothing but the history of requests changed. -/
lemma handled {r : Request} (hi : Attributed settings t) :
    Attributed settings { t with requests := t.requests ++ [r] } where
  tracks := hi.tracks
  past := hi.past
  originated := hi.originated
  audited := hi.audited
  requested bundle hb := by
    obtain ⟨u, hr⟩ := hi.requested bundle hb
    refine ⟨u, hr.extends ⟨?_, ?_, ?_⟩⟩
    · exact List.Subset.refl _
    · exact List.subset_append_left _ _
    · exact List.Subset.refl _

lemma login {a : LoginAttempt} (hi : Attributed settings t) (htime : a.time = t.now)
    (htoken : a.token ∉ t.logins.map LoginAttempt.token) :
    Attributed settings { t with
      auth := (a.run settings t.auth).2
      logins := t.logins ++ [a] } where
  tracks := hi.tracks.step htoken
  past b hb := by
    rcases List.mem_append.mp hb with hb | hb
    · exact hi.past b hb
    · obtain rfl := List.mem_singleton.mp hb
      exact htime.le
  originated := hi.originated
  audited := hi.audited
  requested bundle hb := by
    obtain ⟨u, hr⟩ := hi.requested bundle hb
    refine ⟨u, hr.extends ⟨?_, ?_, ?_⟩⟩
    · exact List.subset_append_left _ _
    · exact List.Subset.refl _
    · exact users_subset_run hi.tracks htoken

end Attributed

/-- The steps of the application, one rule for each kind of step. -/
inductive Rule (settings : LdapSettings) (returned : TimeReturn) (t : Site) : Act → Site → Prop
  | login {dir username password token} :
      Rule settings returned t (.login dir username password token)
        { t with
          auth := ((⟨dir, username, password, token, t.now⟩ : LoginAttempt).run settings t.auth).2
          logins := t.logins ++ [⟨dir, username, password, token, t.now⟩] }
  | goesOn {cookie : Option String} {route : Route} {l sys}
      (hanswer : t.answer returned cookie route = .goesOn l)
      (hsys : TestOrch.step t.sys (.launch l) = some sys) :
      Rule settings returned t (.request cookie route)
        { t with requests := t.requests ++ [⟨t.now, cookie, route⟩], sys := sys }
  | handled {cookie : Option String} {route : Route}
      (hanswer : ∀ l, t.answer returned cookie route ≠ .goesOn l) :
      Rule settings returned t (.request cookie route)
        { t with requests := t.requests ++ [⟨t.now, cookie, route⟩] }
  | behind {a sys} (ha : byRequest a = false) (hsys : TestOrch.step t.sys a = some sys) :
      Rule settings returned t (.behind a) { t with sys := sys }

theorem Rule.of_step {a : Act} (h : step settings returned t a = some t') :
    Rule settings returned t a t' := by
  cases a with
  | login dir username password token =>
    obtain rfl := Option.some.inj h
    rw [loginSubmit_tables ⟨dir, username, password, token, t.now⟩]
    exact .login
  | request cookie route =>
    simp only [step] at h
    split at h
    · rename_i l hanswer
      obtain ⟨sys, hsys, rfl⟩ := Option.map_eq_some_iff.mp h
      exact .goesOn hanswer hsys
    · rename_i hanswer
      obtain rfl := Option.some.inj h
      exact .handled hanswer
  | behind a =>
    simp only [step] at h
    split_ifs at h with ha
    obtain ⟨sys, hsys, rfl⟩ := Option.map_eq_some_iff.mp h
    exact .behind (Bool.eq_false_iff.mpr ha) hsys

theorem attributed_step {a : Act} (hi : Attributed settings t) (hfresh : FreshTokens t a)
    (h : step settings returned t a = some t') : Attributed settings t' := by
  cases Rule.of_step h with
  | login => exact hi.login rfl hfresh
  | @goesOn cookie route l sys hanswer hsys =>
    have hext : t.Extends
        { t with requests := t.requests ++ [⟨t.now, cookie, route⟩], sys := sys } :=
      ⟨List.Subset.refl _, List.subset_append_left _ _, List.Subset.refl _⟩
    refine hi.advance hext rfl rfl hsys fun bundle hb => ?_
    obtain ⟨u, hu, ⟨form, testId, bundle', rfl, hbundle, rfl⟩ | ⟨form, rfl, rfl⟩⟩ :=
      respond_eq_goesOn hanswer
    · -- the request itself is what the bundle goes back to
      obtain rfl : bundle' = bundle := by simpa using hb
      have hauth := ((hi.currentUser_iff returned).mp hu).extends hext
      exact ⟨u, _, List.mem_append_right _ List.mem_cons_self, form, testId, rfl, hauth, hbundle⟩
    · simp at hb
  | handled => exact hi.handled
  | @behind a sys ha hsys =>
    refine hi.advance ⟨List.Subset.refl _, List.Subset.refl _, List.Subset.refl _⟩ rfl rfl hsys
      fun bundle hb => ?_
    subst hb
    cases ha

variable {t₀ : Site}

lemma attributed (h₀ : t₀.New) (h : Reaches (step settings returned) FreshTokens t₀ t) :
    Attributed settings t :=
  h.invariant (.of_new h₀) fun _ _ _ hi hfresh hs => attributed_step hi hfresh hs

/-- Nothing runs in somebody else's name. In every run, whatever fails or is killed, each row is of
a bundle that its recorded user submitted with the cookie of an accepted login that was not expired,
and the test of each execution was submitted so by its user. -/
theorem runs_attributed (h₀ : t₀.New)
    (h : Reaches (step settings returned) FreshTokens t₀ t) :
    (∀ k r, t.sys.world.execs.get? k = some r → ∃ u bundle, r.Records bundle ∧ r.userId = u.id ∧
      t.Requested settings u bundle) ∧
    ∀ proc ∈ t.sys.procs, ∀ x, proc.exec? = some x → ∃ u, (x.bundle.userId : ℤ) = u.id ∧
      t.Requested settings u x.bundle := by
  have hi : Attributed settings t := attributed h₀ h
  constructor
  · intro k r hr
    obtain ⟨bundle, hb, hrec⟩ := hi.originated.rows k r hr
    obtain ⟨u, hu⟩ := hi.requested bundle hb
    exact ⟨u, bundle, hrec, hrec.userId.trans hu.userId, hu⟩
  · intro proc hproc x hx
    obtain ⟨j, hj⟩ := List.mem_iff_getElem?.mp hproc
    obtain ⟨m, hm, hbundle, -⟩ := (hi.audited.procs j proc hj).sent hx
    obtain ⟨u, hu⟩ := hi.requested _ (hi.originated.messages m hm)
    rw [hbundle] at hu
    exact ⟨u, hu.userId, hu⟩

def freshSite : Site := ⟨.init, .single idleHost, [], []⟩

lemma freshSite_new : freshSite.New := ⟨rfl, .single _, rfl, rfl⟩

def letterToken (c : Char) : Token := ⟨String.singleton c, by simp⟩

def aliceForm : SubmitForm := ⟨"pytest", "img", "", "", false⟩

/-- Alice logs in and submits a test, which is run up to its stored verdict. -/
def aliceRuns : List Act :=
  [.login (openDirectory fun _ => false) "alice" "secret" (letterToken 's'),
    .request (some "s") (.submitTest aliceForm "t")] ++ orderlyRun.tail.map .behind

/-- The row with the verdict goes back to Alice. -/
theorem aliceRuns_attributed : ∃ t : Site, ∃ r, t.sys.world.execs.get? "t" = some r ∧
    r.status = .PASSED ∧ ∃ u bundle, r.Records bundle ∧ r.userId = u.id ∧
      t.Requested {} u bundle := by
  obtain ⟨t, ht, hp⟩ := exists_reaches_of_guardedRun (step {} .withoutOffset) FreshTokens freshSite
    aliceRuns (fun t => (t.sys.world.execs.get? "t").any fun r => r.status = .PASSED)
    (by decide +kernel)
  simp only [Option.any_eq_true, decide_eq_true_eq] at hp
  obtain ⟨r, hr, hpassed⟩ := hp
  exact ⟨t, r, hr, hpassed, (runs_attributed freshSite_new ht).1 "t" r hr⟩

end Site

end TestOrch
