import TestOrch.System.Conservation

/-!
# The account of the slots of a host

A slot is held from the reservation of `dispatch` until the decrement after the execution: by a
request that is about to send its message, by a queued message, or by an execution. Where every
database session runs as one transaction, what relates the stored row to the slots that are held is
changed by few kinds of steps.
-/

namespace TestOrch

open Transition

/-- The process is between the read and the commit of a database session. -/
def Proc.midSession : Proc → Bool
  | .submit _ (.reserve ..) => true
  | .task t => match t.pc with
    | .runningCommit _ | .verdictCommit _ | .failedCommit _ | .decrementCommit _ => true
    | _ => false
  | .heartbeat _ _ (.stamp ..) | .heartbeat _ _ (.commit ..) => true
  | _ => false

/-- No call fails and no process dies. -/
def NothingFails : Act → Prop
  | .advance _ .raises | .kill _ => False
  | _ => True

instance : ∀ a, Decidable (NothingFails a)
  | .advance _ .raises | .kill _ => inferInstanceAs (Decidable False)
  | .advance _ (.ok _) | .launch _ | .deliver .. | .redeliver .. | .exit .. | .tick _ =>
    inferInstanceAs (Decidable True)

/-- Every database session runs as one atomic transaction. -/
def SessionsAtomic (s : Sys) : Act → Prop
  | .advance p _ => Pool.All s.procs fun q other => q ≠ p → other.midSession = false
  | _ => True

instance (s : Sys) : ∀ a, Decidable (SessionsAtomic s a)
  | .advance p _ =>
    inferInstanceAs (Decidable (Pool.All s.procs fun q other => q ≠ p → other.midSession = false))
  | .launch _ | .deliver .. | .redeliver .. | .kill _ | .exit .. | .tick _ =>
    inferInstanceAs (Decidable True)

/-- The process is a request about to send a bundle to the host, or an execution there that has not
given back its slot. -/
def Proc.holdsSlot (h : String) : Proc → Bool
  | .submit _ (.send chosen _) => chosen.hostId = h
  | .task t => t.host = h && (t.pc.executing && !t.pc.released)
  | _ => false

/-- The process is an execution on the host that has given back its slot and not ended yet. -/
def Proc.returning (h : String) : Proc → Bool
  | .task t => t.host = h && t.pc = .close
  | _ => false

/-- The reservations of the host that are held: by bundles being sent, queued or executing. -/
def Sys.held (s : Sys) (h : String) : ℕ :=
  s.world.queue.countP (consumes h) + s.procs.countP (Proc.holdsSlot h)

/-- The count that a heartbeat is about to store. -/
def HeartbeatPc.reporting : HeartbeatPc → Option ℤ
  | .commit live _ _ => some live
  | _ => none

/-- A process in a session has the row that is stored, and a request has the queue of its host. -/
def Proc.InSession (w : World) : Proc → Prop
  | .submit _ (.reserve chosen queue) =>
    queueNameFor chosen.hostId = .ok queue ∧ 0 ≤ chosen.activeContainers
  | .submit _ (.send chosen queue) => queueNameFor chosen.hostId = .ok queue
  | .submit _ (.refresh _) | .submit _ (.undo _) => False
  | .task t => ∀ loaded ∈ t.pc.decrementing, w.hosts.get? t.host = some loaded
  | .heartbeat hostId _ (.stamp _ loaded) | .heartbeat hostId _ (.commit _ loaded _) =>
    w.hosts.get? hostId = loaded
  | _ => True

/-- The account of one host: `R` relates its row, the number of slots held, and the number of
executions that have given back theirs and not ended. -/
structure Accounted (R : Option WorkerHost → ℕ → ℕ → Prop) (h : String) (s : Sys) : Prop where
  locked : s.Locked
  sessions : Pool.All s.procs fun _ proc => proc.InSession s.world
  account : R (s.world.hosts.get? h) (s.held h) (s.procs.countP (Proc.returning h))

/-- What the step does to the row and the slots of the host keeps the account. -/
structure KeepsAccount (R : Option WorkerHost → ℕ → ℕ → Prop) (h : String) (s : Sys) (a : Act) :
    Prop where
  reserve {p o bundle chosen queue returning} : a = .advance p o →
    s.procs[p]? = some (.submit bundle (.reserve chosen queue)) → chosen.hostId = h →
    0 ≤ chosen.activeContainers → returning = s.procs.countP (Proc.returning h) →
    R (some chosen) (s.held h) returning → R (some chosen.increment) (s.held h + 1) returning
  decrement {p o t loaded held returning} : a = .advance p o → s.procs[p]? = some (.task t) →
    t.pc = .decrementCommit loaded → R (some loaded) (held + 1) returning →
    R (some loaded.decrement) held (returning + 1)
  skip {row held returning} : (∀ r ∈ row, r.activeContainers ≤ 0) → R row (held + 1) returning →
    R row held (returning + 1)
  leave {row held returning} : R row held (returning + 1) → R row held returning
  beat {p o cpu live loaded now returning} : a = .advance p o →
    s.procs[p]? = some (.heartbeat h cpu (.commit live (some loaded) now)) →
    R (some loaded) (s.held h) returning → R (some (loaded.beat live cpu now)) (s.held h) returning
  register {p o cpu live now returning} : a = .advance p o →
    s.procs[p]? = some (.heartbeat h cpu (.commit live none now)) →
    R none (s.held h) returning →
    R (some ((registeredHost h).beat live cpu now)) (s.held h) returning
  redeliver {i} : a = .redeliver i h →
    R (s.world.hosts.get? h) (s.held h) (s.procs.countP (Proc.returning h)) →
    R (s.world.hosts.get? h) (s.held h + 1) (s.procs.countP (Proc.returning h))

variable {s s' : Sys} {w w' : World} {p : ℕ} {proc proc' : Proc} {h : String} {url : Option String}
  {R : Option WorkerHost → ℕ → ℕ → Prop}

/-- What a process that is in no session knows does not depend on what is stored. -/
lemma Proc.InSession.of_not_midSession (hs : proc.InSession w) (hmid : proc.midSession = false) :
    proc.InSession w' := by
  cases proc with
  | submit bundle pc => cases pc <;> exact hs
  | task t =>
    intro loaded hloaded
    cases hpc : t.pc <;> simp_all [TaskPc.decrementing, midSession]
  | heartbeat hostId cpu pc =>
    cases pc with
    | stamp | commit => cases hmid
    | _ => trivial
  | _ => trivial

lemma Proc.InSession.congr (hs : proc.InSession w) (hh : w'.hosts = w.hosts) :
    proc.InSession w' := by
  cases proc with
  | submit bundle pc => cases pc <;> exact hs
  | task t => exact fun loaded hloaded => hh ▸ hs loaded hloaded
  | heartbeat hostId cpu pc =>
    cases pc with
    | stamp | commit => exact (congrArg (Table.get? · hostId) hh).trans hs
    | _ => trivial
  | _ => trivial

lemma consumes_of_queue {m : Message} (hm : queueNameFor h = .ok m.queue) :
    consumes h m = true := by
  simp [consumes, hm]

/-- A message is for the host that the queue is named after and for no other. -/
lemma consumes_eq {m : Message} {host : String} (hq : consumes host m = true) (h : String) :
    consumes h m = decide (host = h) := by
  have hqueue {host : String} (hq : consumes host m = true) : queueNameFor host = .ok m.queue := by
    unfold consumes at hq
    split at hq
    · rename_i queue hname
      rw [hname, of_decide_eq_true hq]
    · cases hq
  by_cases hk : host = h
  · subst hk
    simp [hq]
  · cases hc : consumes h m with
    | false => simp [hk]
    | true => exact absurd (queueNameFor_inj (hqueue hq) (hqueue hc)) hk

/-- A commit of a row that is still the stored one. -/
lemma World.get?_commitHost_of_stored {k : String} {loaded new : WorkerHost}
    (hw : w.commitHost p k loaded new = some w') (hstored : w.hosts.get? k = some loaded)
    (hid : new.hostId = loaded.hostId) :
    w'.queue = w.queue ∧ ∀ h, w'.hosts.get? h = if h = k then some new else w.hosts.get? h := by
  obtain ⟨-, rfl⟩ := World.commitHost_eq_some hw
  refine ⟨rfl, fun h => ?_⟩
  by_cases hk : h = k
  · subst hk
    simp [hstored, hid]
  · simp [hk]

/-! ### The counts after a step -/

lemma Sys.held_set_same (hp : s.procs[p]? = some proc) (hqueue : w'.queue = s.world.queue)
    (hhold : proc'.holdsSlot h = proc.holdsSlot h) :
    Sys.held ⟨w', s.procs.set p proc'⟩ h = s.held h := by
  simp only [Sys.held, hqueue, Pool.countP_set_same hp hhold]

lemma Sys.held_set_succ (hp : s.procs[p]? = some proc) (hqueue : w'.queue = s.world.queue)
    (hold : proc.holdsSlot h = false) (hnew : proc'.holdsSlot h = true) :
    Sys.held ⟨w', s.procs.set p proc'⟩ h = s.held h + 1 := by
  simp only [Sys.held, hqueue, Pool.countP_set_succ hp hold hnew]
  omega

lemma Sys.held_set_pred (hp : s.procs[p]? = some proc) (hqueue : w'.queue = s.world.queue)
    (hold : proc.holdsSlot h = true) (hnew : proc'.holdsSlot h = false) :
    s.held h = Sys.held ⟨w', s.procs.set p proc'⟩ h + 1 := by
  simp only [Sys.held, hqueue, ← Pool.countP_set_pred hp hold hnew]
  omega

/-- A request that sends its message hands its slot on to the queue. -/
lemma Sys.held_send {bundle : TestBundleRequest} {chosen : WorkerHost} {queue : String}
    (hp : s.procs[p]? = some (.submit bundle (.send chosen queue)))
    (hname : queueNameFor chosen.hostId = .ok queue) :
    Sys.held ⟨{ s.world with queue := s.world.queue ++ [⟨queue, bundle⟩] },
      s.procs.set p (.submit bundle (.close (some chosen.hostId)))⟩ h = s.held h := by
  have hset := Pool.countP_set_of_get (Proc.holdsSlot h) hp
    (.submit bundle (.close (some chosen.hostId)))
  have hm : consumes h ⟨queue, bundle⟩ = decide (chosen.hostId = h) :=
    consumes_eq (consumes_of_queue hname) h
  simp only [Proc.holdsSlot, Bool.false_eq_true, if_false, decide_eq_true_eq] at hset
  simp only [Sys.held, List.countP_append, List.countP_singleton, hm, decide_eq_true_eq]
  omega

/-- A message that is delivered hands its slot on to its execution. -/
lemma Sys.held_deliver {i : ℕ} {host : String} {m : Message} (hm : s.world.queue[i]? = some m)
    (hq : consumes host m = true) :
    Sys.held ⟨s.world.handOut i m, s.procs ++ [.task (.init host m.bundle)]⟩ h = s.held h := by
  have herase := Pool.countP_eraseIdx_of_get (consumes h) hm
  rw [consumes_eq hq] at herase
  simp only [decide_eq_true_eq] at herase
  simp only [Sys.held, World.handOut, List.countP_append, List.countP_singleton, Proc.holdsSlot,
    Task.init, TaskPc.executing, TaskPc.released, Bool.not_false, Bool.and_true, decide_eq_true_eq]
  omega

lemma Proc.returning_init {host : String} {bundle : TestBundleRequest} :
    (Proc.task (.init host bundle)).returning h = false := by
  simp [returning, Task.init]

/-! ### Every step keeps the account -/

/-- A process moved; the others are in no session. -/
lemma Accounted.set (hi : Accounted R h s) (hp : s.procs[p]? = some proc)
    (hatomic : Pool.All s.procs fun q other => q ≠ p → other.midSession = false)
    (hlocked : Sys.Locked ⟨w', s.procs.set p proc'⟩) (hproc : proc'.InSession w')
    (haccount : R (w'.hosts.get? h) (Sys.held ⟨w', s.procs.set p proc'⟩ h)
      ((s.procs.set p proc').countP (Proc.returning h))) :
    Accounted R h ⟨w', s.procs.set p proc'⟩ where
  locked := hlocked
  sessions := (Pool.all_set hp).mpr ⟨hproc, fun j other hj hget =>
    (hi.sessions j other hget).of_not_midSession (hatomic j other hget hj)⟩
  account := haccount

/-- A step that leaves the row, the queue and the place of the process. -/
lemma Accounted.of_same (hi : Accounted R h s) (hp : s.procs[p]? = some proc)
    (hatomic : Pool.All s.procs fun q other => q ≠ p → other.midSession = false)
    (hlocked : Sys.Locked ⟨w', s.procs.set p proc'⟩) (hproc : proc'.InSession w')
    (hrow : w'.hosts.get? h = s.world.hosts.get? h) (hqueue : w'.queue = s.world.queue)
    (hhold : proc'.holdsSlot h = proc.holdsSlot h)
    (hret : proc'.returning h = proc.returning h) : Accounted R h ⟨w', s.procs.set p proc'⟩ := by
  apply hi.set hp hatomic hlocked hproc
  rw [hrow, Sys.held_set_same hp hqueue hhold, Pool.countP_set_same hp hret]
  exact hi.account

lemma Accounted.submit {bundle : TestBundleRequest} {pc pc' : SubmitPc} (hi : Accounted R h s)
    (hp : s.procs[p]? = some (.submit bundle pc))
    (hr : SubmitRule p bundle s.world pc (.ok url) w' pc')
    (hatomic : Pool.All s.procs fun q other => q ≠ p → other.midSession = false)
    (hkeep : KeepsAccount R h s (.advance p (.ok url)))
    (hlocked : Sys.Locked ⟨w', s.procs.set p (.submit bundle pc')⟩) :
    Accounted R h ⟨w', s.procs.set p (.submit bundle pc')⟩ := by
  have hin := hi.sessions p _ hp
  cases hr with
  | insert | selectAsserts | selectNone | close =>
    exact hi.of_same hp hatomic hlocked trivial rfl rfl rfl rfl
  | select hfree hchosen =>
    exact hi.of_same hp hatomic hlocked (chooseHost_spec hchosen).2.2 rfl rfl rfl rfl
  | @reserve _ chosen queue _ hw =>
    obtain ⟨-, hstored⟩ := hi.locked p _ hp
    obtain ⟨hqueue, hget⟩ := World.get?_commitHost_of_stored hw hstored rfl
    by_cases hk : h = chosen.hostId
    · subst hk
      apply hi.set hp hatomic hlocked hin.1
      rw [hget, if_pos rfl, Pool.countP_set_same hp (by rfl),
        Sys.held_set_succ hp hqueue rfl (by simp [Proc.holdsSlot, WorkerHost.increment])]
      exact hkeep.reserve rfl hp rfl hin.2 rfl (hstored ▸ hi.account)
    · refine hi.of_same hp hatomic hlocked hin.1 ?_ hqueue ?_ rfl
      · rw [hget, if_neg hk]
      · simp [Proc.holdsSlot, WorkerHost.increment, Ne.symm hk]
  | @send _ chosen queue =>
    apply hi.set hp hatomic hlocked trivial
    rw [Sys.held_send hp hin, Pool.countP_set_same hp (by rfl)]
    exact hi.account
  | refresh | refreshNone | undo | undoNone => exact hin.elim

lemma Accounted.task {t t' : Task} (hi : Accounted R h s) (hp : s.procs[p]? = some (.task t))
    (hr : TaskRule p s.world t (.ok url) w' t')
    (hkeep : KeepsAccount R h s (.advance p (.ok url)))
    (hatomic : Pool.All s.procs fun q other => q ≠ p → other.midSession = false)
    (hlocked : Sys.Locked ⟨w', s.procs.set p (.task t')⟩) :
    Accounted R h ⟨w', s.procs.set p (.task t')⟩ := by
  have hin := hi.sessions p _ hp
  cases hr with
  | decrementRead hpc hrow hpos =>
    -- The row is read in the session that writes it, so it is still stored at the commit.
    refine hi.of_same hp hatomic hlocked ?_ rfl rfl ?_ ?_
    · rintro loaded ⟨⟩
      exact hrow
    · simp [Proc.holdsSlot, hpc, TaskPc.executing, TaskPc.released]
    · simp [Proc.returning, hpc]
  | @decrement _ loaded _ hpc hw =>
    have hstored : s.world.hosts.get? t.host = some loaded := hin loaded (by rw [hpc]; rfl)
    obtain ⟨hqueue, hget⟩ := World.get?_commitHost_of_stored hw hstored rfl
    by_cases hk : h = t.host
    · subst hk
      have hheld : s.held t.host =
          Sys.held ⟨w', s.procs.set p (.task { t with pc := .close })⟩ t.host + 1 :=
        Sys.held_set_pred hp hqueue
          (by simp [Proc.holdsSlot, hpc, TaskPc.executing, TaskPc.released])
          (by simp [Proc.holdsSlot, TaskPc.released])
      apply hi.set hp hatomic hlocked (by simp [Proc.InSession, TaskPc.decrementing])
      rw [hget, if_pos rfl, Pool.countP_set_succ hp (by simp [Proc.returning, hpc])
        (by simp [Proc.returning])]
      exact hkeep.decrement rfl hp hpc (hheld ▸ hstored ▸ hi.account)
    · refine hi.of_same hp hatomic hlocked (by simp [Proc.InSession, TaskPc.decrementing]) ?_ hqueue
        (by simp [Proc.holdsSlot, Ne.symm hk]) (by simp [Proc.returning, Ne.symm hk])
      rw [hget, if_neg hk]
  | decrementNone hpc hnone =>
    by_cases hk : h = t.host
    · subst hk
      -- Without a positive gauge the slot is given up but the row stays.
      have hheld : s.held t.host =
          Sys.held ⟨s.world, s.procs.set p (.task { t with pc := .close })⟩ t.host + 1 :=
        Sys.held_set_pred hp rfl
          (by simp [Proc.holdsSlot, hpc, TaskPc.executing, TaskPc.released])
          (by simp [Proc.holdsSlot, TaskPc.released])
      apply hi.set hp hatomic hlocked (by simp [Proc.InSession, TaskPc.decrementing])
      rw [Pool.countP_set_succ hp (by simp [Proc.returning, hpc]) (by simp [Proc.returning])]
      exact hkeep.skip hnone (hheld ▸ hi.account)
    · exact hi.of_same hp hatomic hlocked (by simp [Proc.InSession, TaskPc.decrementing]) rfl rfl
        (by simp [Proc.holdsSlot, Ne.symm hk]) (by simp [Proc.returning, Ne.symm hk])
  | @close _ result hpc =>
    by_cases hk : h = t.host
    · subst hk
      apply hi.set hp hatomic hlocked (by simp [Proc.InSession, TaskPc.decrementing])
      rw [Sys.held_set_same hp rfl (by
        simp [Proc.holdsSlot, hpc, TaskPc.executing, TaskPc.released])]
      have hret := Pool.countP_set_pred (p := Proc.returning t.host) hp
        (by simp [Proc.returning, hpc])
        (show (Proc.task { t with result := result, pc := .ended }).returning t.host = false by
          simp [Proc.returning])
      exact hkeep.leave (hret ▸ hi.account)
    · exact hi.of_same hp hatomic hlocked (by simp [Proc.InSession, TaskPc.decrementing]) rfl rfl
        (by simp [Proc.holdsSlot, Ne.symm hk]) (by simp [Proc.returning, Ne.symm hk])
  | _ hpc =>
    refine hi.of_same hp hatomic hlocked (by simp [Proc.InSession, TaskPc.decrementing]) rfl rfl
      ?_ ?_
    · simp [Proc.holdsSlot, hpc, TaskPc.executing, TaskPc.released]
    · simp [Proc.returning, hpc]

lemma Accounted.heartbeat {hostId : String} {cpu : ℚ} {pc pc' : HeartbeatPc} (hi : Accounted R h s)
    (hp : s.procs[p]? = some (.heartbeat hostId cpu pc))
    (hr : HeartbeatRule p hostId cpu s.world pc (.ok url) w' pc')
    (hatomic : Pool.All s.procs fun q other => q ≠ p → other.midSession = false)
    (hkeep : KeepsAccount R h s (.advance p (.ok url)))
    (hlocked : Sys.Locked ⟨w', s.procs.set p (.heartbeat hostId cpu pc')⟩) :
    Accounted R h ⟨w', s.procs.set p (.heartbeat hostId cpu pc')⟩ := by
  have hin := hi.sessions p _ hp
  cases hr with
  | count | cached => exact hi.of_same hp hatomic hlocked trivial rfl rfl rfl rfl
  | read => exact hi.of_same hp hatomic hlocked rfl rfl rfl rfl rfl
  | stamp => exact hi.of_same hp hatomic hlocked hin rfl rfl rfl rfl
  | @update _ live loaded now _ hw =>
    obtain ⟨hqueue, hget⟩ := World.get?_commitHost_of_stored hw hin rfl
    by_cases hk : h = hostId
    · subst hk
      apply hi.set hp hatomic hlocked trivial
      rw [hget, if_pos rfl, Sys.held_set_same hp hqueue (by rfl), Pool.countP_set_same hp (by rfl)]
      exact hkeep.beat rfl hp (hin ▸ hi.account)
    · refine hi.of_same hp hatomic hlocked trivial ?_ hqueue rfl rfl
      rw [hget, if_neg hk]
  | @register _ live now _ hw =>
    have hget : ∀ k, w'.hosts.get? k = if k = hostId then
        some ((registeredHost hostId).beat live cpu now) else s.world.hosts.get? k :=
      (World.get?_of_insertHost hw).2.2
    have hqueue : w'.queue = s.world.queue := by
      obtain ⟨t, -, rfl⟩ := Option.map_eq_some_iff.mp hw
      rfl
    by_cases hk : h = hostId
    · subst hk
      apply hi.set hp hatomic hlocked trivial
      rw [hget, if_pos rfl, Sys.held_set_same hp hqueue (by rfl), Pool.countP_set_same hp (by rfl)]
      exact hkeep.register rfl hp (hin ▸ hi.account)
    · refine hi.of_same hp hatomic hlocked trivial ?_ hqueue rfl rfl
      rw [hget, if_neg hk]

/-- A step that changes neither the inventory nor the processes. -/
lemma Accounted.of_eq (hi : Accounted R h s) (hlocked : Sys.Locked ⟨w', s.procs⟩)
    (hhosts : w'.hosts = s.world.hosts) (hqueue : w'.queue = s.world.queue) :
    Accounted R h ⟨w', s.procs⟩ where
  locked := hlocked
  sessions := hi.sessions.mono fun _ _ hin => hin.congr hhosts
  account := by
    rw [Sys.held, hqueue, hhosts]
    exact hi.account

lemma Accounted.spawn {new : Proc} (hi : Accounted R h s)
    (hlocked : Sys.Locked ⟨w', s.procs ++ [new]⟩)
    (hhosts : w'.hosts = s.world.hosts) (hnew : new.InSession w')
    (haccount : R (s.world.hosts.get? h) (Sys.held ⟨w', s.procs ++ [new]⟩ h)
      (s.procs.countP (Proc.returning h))) (hret : new.returning h = false) :
    Accounted R h ⟨w', s.procs ++ [new]⟩ where
  locked := hlocked
  sessions := Pool.all_append_singleton.mpr ⟨hi.sessions.mono fun _ _ hin => hin.congr hhosts, hnew⟩
  account := by
    rw [List.countP_append, List.countP_singleton, hret, hhosts]
    exact haccount

lemma Accounted.redeliver {i : ℕ} {host : String} {bundle : TestBundleRequest}
    (hi : Accounted R h s) (hkeep : KeepsAccount R h s (.redeliver i host))
    (hlocked : Sys.Locked { s with procs := s.procs ++ [.task (.init host bundle)] }) :
    Accounted R h { s with procs := s.procs ++ [.task (.init host bundle)] } := by
  refine hi.spawn hlocked rfl (by simp [Proc.InSession, Task.init, TaskPc.decrementing]) ?_
    Proc.returning_init
  have hheld : Sys.held ⟨s.world, s.procs ++ [.task (.init host bundle)]⟩ h =
      s.held h + if host = h then 1 else 0 := by
    simp [Sys.held, Proc.holdsSlot, Task.init, TaskPc.executing, TaskPc.released, Nat.add_assoc]
  rw [hheld]
  split_ifs with hk
  · subst hk
    exact hkeep.redeliver rfl hi.account
  · exact hi.account

/-- A step without failures, in a run with atomic sessions, that keeps the account. -/
lemma accounted_step {a : Act} (hi : Accounted R h s)
    (hkind : Among [.submit, .task, .heartbeat] s a)
    (hfree : NothingFails a) (hatomic : SessionsAtomic s a) (hkeep : KeepsAccount R h s a)
    (hs : step s a = some s') : Accounted R h s' := by
  have hlocked := locked_step hi.locked hs
  cases SysRule.of_step hs with
  | @launch l =>
    refine hi.spawn hlocked rfl ?_ ?_ ?_
    · cases l <;> trivial
    · have hheld : Sys.held ⟨s.world, s.procs ++ [l.proc]⟩ h = s.held h := by
        cases l <;> simp [Sys.held, Launch.proc, Proc.holdsSlot]
      rw [hheld]
      exact hi.account
    · cases l <;> rfl
  | deliver hm hq =>
    refine hi.spawn hlocked rfl (by simp [Proc.InSession, Task.init, TaskPc.decrementing]) ?_
      Proc.returning_init
    rw [Sys.held_deliver hm hq]
    exact hi.account
  | redeliver hm hq => exact hi.redeliver hkeep hlocked
  | @submit _ o _ _ _ _ hp hr =>
    cases o with
    | ok url => exact hi.submit hp hr hatomic hkeep hlocked
    | raises => exact hfree.elim
  | @task _ o _ _ _ hp hr =>
    cases o with
    | ok url => exact hi.task hp hr hkeep hatomic hlocked
    | raises => exact hfree.elim
  | @heartbeat _ o _ _ _ _ _ hp hr =>
    cases o with
    | ok url => exact hi.heartbeat hp hr hatomic hkeep hlocked
    | raises => exact hfree.elim
  | update hp hr => exact absurd (hkind _ hp) (by simp [Proc.kind])
  | sweep hp hr => exact absurd (hkind _ hp) (by simp [Proc.kind])
  | reap hp hr => exact absurd (hkind _ hp) (by simp [Proc.kind])
  | kill hp => exact hfree.elim
  | exit hc hrun => exact hi.of_eq hlocked rfl rfl
  | tick => exact hi.of_eq hlocked rfl rfl

end TestOrch
