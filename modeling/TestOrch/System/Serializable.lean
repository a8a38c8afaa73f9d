import TestOrch.System.AtomicDispatch
import TestOrch.System.Capacity
import TestOrch.System.Completion

/-!
# Concurrent submissions are serializable

Any number of form submissions run side by side, their database accesses interleaved in any way.
What they leave is what the same submissions leave when each calls `dispatch` alone, one after the
other, in the order in which they committed their reservations or found no host.
-/

namespace TestOrch

open Transition

/-- `dispatch` alone on the deployment, as `submit_test` calls it: an exception counts as no host.
-/
def attempt (bundle : TestBundleRequest) (w : World) : World × Option String :=
  match dispatch 0 bundle w with
  | .ok result => result
  | .error _ => (w, none)

/-- Attempts one after the other, each with its bundle and its result. -/
inductive Attempts (w : World) : List (TestBundleRequest × Option String) → World → Prop
  | nil : Attempts w [] w
  | snoc {calls w'} (h : Attempts w calls w') (bundle : TestBundleRequest) :
      Attempts w (calls ++ [(bundle, (attempt bundle w').2)]) (attempt bundle w').1

/-- What a submission got from `dispatch`. -/
def SubmitPc.decision : SubmitPc → Option (Option String)
  | .send chosen _ => some (some chosen.hostId)
  | .close result | .returned result => some result
  | _ => none

/-- A submission that has its result, with the result. -/
def Proc.decision : Proc → Option (TestBundleRequest × Option String)
  | .submit bundle pc => pc.decision.map (bundle, ·)
  | _ => none

/-- The message of a submission that has its slot and sends next. -/
def Proc.unsent : Proc → Option Message
  | .submit bundle (.send _ queue) => some ⟨queue, bundle⟩
  | _ => none

/-- Only submissions run, and nothing fails. -/
def OnlySubmissions (s : Sys) (a : Act) : Prop := Among [.submit] s a ∧ FailureFree a

instance (s : Sys) (a : Act) : Decidable (OnlySubmissions s a) :=
  inferInstanceAs (Decidable (_ ∧ _))

/-- A submission without failures; where it has chosen, it would choose the same now. -/
def Proc.Undisturbed (hosts : Inventory) : Proc → Prop
  | .submit bundle (.reserve chosen queue) =>
    chooseHost hosts.rows bundle = .ok (some (chosen, queue))
  | .submit _ (.refresh _) | .submit _ (.undo _) => False
  | _ => True

/-- The state is one that attempts one after the other lead to, but for the messages on their way.
-/
structure Serial (w₀ : World) (s : Sys) : Prop where
  owned : LocksOwned s
  locked : s.Locked
  undisturbed : Pool.All s.procs fun _ proc => proc.Undisturbed s.world.hosts
  history : ∃ calls w, Attempts w₀ calls w ∧ w.hosts = s.world.hosts ∧
    w.queue.Perm (s.world.queue ++ s.procs.filterMap Proc.unsent) ∧
    calls.Perm (s.procs.filterMap Proc.decision)

variable {s s' : Sys} {w w' w₀ : World} {p q : ℕ} {proc proc' : Proc} {o : Outcome}
  {bundle : TestBundleRequest} {chosen : WorkerHost} {queue : String}

/-! ### One attempt -/

lemma attempt_of_error {e : PyError} (h : chooseHost w.hosts.rows bundle = .error e) :
    attempt bundle w = (w, none) := by
  have hd : dispatch 0 bundle w = .error e := by
    rw [dispatch, h]
    rfl
  rw [attempt, hd]

lemma attempt_of_none (h : chooseHost w.hosts.rows bundle = .ok none) :
    attempt bundle w = (w, none) := by
  have hd : dispatch 0 bundle w = .ok (w, none) := by
    rw [dispatch, h]
    rfl
  rw [attempt, hd]

lemma attempt_of_some (h : chooseHost w.hosts.rows bundle = .ok (some (chosen, queue))) :
    (attempt bundle w).1.hosts = reserveOn w.hosts chosen.hostId ∧
      (attempt bundle w).1.queue = w.queue ++ [⟨queue, bundle⟩] ∧
      (attempt bundle w).2 = some chosen.hostId := by
  have hd : dispatch 0 bundle w = .ok ({ w.reserve 0 chosen with
      queue := (w.reserve 0 chosen).queue ++ [⟨queue, bundle⟩] }, some chosen.hostId) := by
    rw [dispatch, h]
    rfl
  rw [attempt, hd]
  exact ⟨hosts_reserve 0 (chooseHost_spec h).1, rfl, rfl⟩

/-! ### The step -/

lemma Proc.filterMap_set_same {β : Type*} {procs : List Proc} (f : Proc → Option β)
    (hp : procs[p]? = some proc) (hf : f proc' = f proc) :
    ((procs.set p proc').filterMap f).Perm (procs.filterMap f) := by
  have hperm := Pool.filterMap_set_perm f hp proc'
  rwa [hf, List.perm_append_left_iff] at hperm

/-- Two submissions cannot both be about to reserve. -/
lemma Serial.sole_reserve (hi : Serial w₀ s) {bundle' : TestBundleRequest} {chosen' : WorkerHost}
    {queue' : String} (hp : s.procs[p]? = some (.submit bundle (.reserve chosen queue)))
    (hq : s.procs[q]? = some (.submit bundle' (.reserve chosen' queue'))) : q = p :=
  hi.owned.single _ (hi.locked q _ hq).1 _ (hi.locked p _ hp).1

namespace Serial

/-- One submission moved without a decision and without a message. -/
lemma quiet (hi : Serial w₀ s) (hp : s.procs[p]? = some proc)
    (howned : LocksOwned ⟨w', s.procs.set p proc'⟩)
    (hlocked : Sys.Locked ⟨w', s.procs.set p proc'⟩) (hh : w'.hosts = s.world.hosts)
    (hq : w'.queue = s.world.queue) (hunsent : proc'.unsent = proc.unsent)
    (hdecision : proc'.decision = proc.decision) (hundisturbed : proc'.Undisturbed s.world.hosts) :
    Serial w₀ ⟨w', s.procs.set p proc'⟩ where
  owned := howned
  locked := hlocked
  undisturbed := (Pool.all_set hp).mpr
    ⟨hh.symm ▸ hundisturbed, fun j other _ hj => hh.symm ▸ hi.undisturbed j other hj⟩
  history := by
    obtain ⟨calls, w, hcalls, hhosts, hqueue, hdecisions⟩ := hi.history
    refine ⟨calls, w, hcalls, hhosts.trans hh.symm, ?_, ?_⟩
    · rw [hq]
      exact hqueue.trans ((Proc.filterMap_set_same _ hp hunsent).symm.append_left _)
    · exact hdecisions.trans (Proc.filterMap_set_same _ hp hdecision).symm

/-- A submission got its result, as an attempt alone gets it now. -/
lemma decide (bundle : TestBundleRequest) (result : Option String) (hi : Serial w₀ s)
    (hp : s.procs[p]? = some proc)
    (howned : LocksOwned ⟨w', s.procs.set p proc'⟩)
    (hlocked : Sys.Locked ⟨w', s.procs.set p proc'⟩)
    (hattempt : ∀ w : World, w.hosts = s.world.hosts → (attempt bundle w).1.hosts = w'.hosts ∧
      (attempt bundle w).1.queue = w.queue ++ proc'.unsent.toList ∧ (attempt bundle w).2 = result)
    (hq : w'.queue = s.world.queue) (hunsent : proc.unsent = none)
    (hbefore : proc.decision = none) (hafter : proc'.decision = some (bundle, result))
    (hundisturbed : proc'.Undisturbed w'.hosts)
    (hothers : ∀ j other, j ≠ p → s.procs[j]? = some other → other.Undisturbed w'.hosts) :
    Serial w₀ ⟨w', s.procs.set p proc'⟩ where
  owned := howned
  locked := hlocked
  undisturbed := (Pool.all_set hp).mpr ⟨hundisturbed, hothers⟩
  history := by
    obtain ⟨calls, w, hcalls, hhosts, hqueue, hdecisions⟩ := hi.history
    obtain ⟨hhosts', hqueue', hresult⟩ := hattempt w hhosts
    refine ⟨_, _, hcalls.snoc bundle, hhosts', ?_, ?_⟩
    · have hperm := Pool.filterMap_set_perm Proc.unsent hp proc'
      rw [hunsent, Option.toList_none, List.nil_append] at hperm
      rw [hqueue', hq]
      calc List.Perm (w.queue ++ proc'.unsent.toList)
            (s.world.queue ++ s.procs.filterMap Proc.unsent ++ proc'.unsent.toList) :=
          hqueue.append_right _
        List.Perm _ (s.world.queue ++ (proc'.unsent.toList ++ s.procs.filterMap Proc.unsent)) := by
          rw [List.append_assoc]
          exact List.perm_append_comm.append_left _
        List.Perm _ _ := hperm.symm.append_left _
    · have hperm := Pool.filterMap_set_perm Proc.decision hp proc'
      rw [hbefore, hafter, Option.toList_none, List.nil_append] at hperm
      rw [hresult]
      exact (List.perm_append_comm.trans (hdecisions.append_left _)).trans hperm.symm

end Serial

lemma serial_step {a : Act} (hi : Serial w₀ s) (hG : OnlySubmissions s a)
    (h : step s a = some s') : Serial w₀ s' := by
  have howned := locksOwned_step hi.owned h
  have hlocked := locked_step hi.locked h
  obtain ⟨hkind, hfree⟩ := hG
  cases SysRule.of_step h with
  | @launch l =>
    cases l with
    | submit bundle =>
      refine ⟨howned, hlocked, Pool.all_append_singleton.mpr ⟨hi.undisturbed, trivial⟩, ?_⟩
      obtain ⟨calls, w, hcalls, hhosts, hqueue, hdecisions⟩ := hi.history
      refine ⟨calls, w, hcalls, hhosts, ?_, ?_⟩ <;> rw [List.filterMap_append]
      · exact (List.append_nil (s.procs.filterMap Proc.unsent)).symm ▸ hqueue
      · exact (List.append_nil (s.procs.filterMap Proc.decision)).symm ▸ hdecisions
    | _ => simp [Among, Launch.proc, Proc.kind] at hkind
  | deliver => simp [Among] at hkind
  | redeliver => simp [Among] at hkind
  | @submit p o bundle pc w' pc' hp hr =>
    have hundisturbed := hi.undisturbed p _ hp
    cases hr with
    -- Before the choice and after the send nothing is decided.
    | insert => exact hi.quiet hp howned hlocked rfl rfl rfl rfl trivial
    | close => exact hi.quiet hp howned hlocked rfl rfl rfl rfl trivial
    | select _ hc => exact hi.quiet hp howned hlocked rfl rfl rfl rfl hc
    | selectAsserts hc =>
      -- No host: the attempt alone leaves the inventory as it is.
      refine hi.decide bundle none hp howned hlocked (fun w hw => ?_) rfl
        rfl rfl rfl trivial fun j other _ hj => hi.undisturbed j other hj
      rw [attempt_of_error (hw ▸ hc)]
      exact ⟨hw, (List.append_nil _).symm, rfl⟩
    | selectNone hc =>
      refine hi.decide bundle none hp howned hlocked (fun w hw => ?_) rfl
        rfl rfl rfl trivial fun j other _ hj => hi.undisturbed j other hj
      rw [attempt_of_none (hw ▸ hc)]
      exact ⟨hw, (List.append_nil _).symm, rfl⟩
    | @reserve url chosen queue w' hw =>
      -- The reservation is the moment at which an attempt takes effect; the locks keep the
      -- others from choosing before it.
      have hhosts := hosts_of_commit (hi.locked p _ hp).2 hw
      have hqueue : w'.queue = s.world.queue := by
        obtain ⟨-, rfl⟩ := World.commitHost_eq_some hw
        rfl
      refine hi.decide bundle (some chosen.hostId) hp howned hlocked
        (fun w hw => ?_) hqueue rfl rfl rfl trivial fun j other hj hget => ?_
      · obtain ⟨hh, hq, hr⟩ := attempt_of_some (w := w) (hw ▸ hundisturbed)
        exact ⟨by rw [hh, hw, hhosts], hq, hr⟩
      · have hother := hi.undisturbed j other hget
        cases other with
        | submit bundle' pc =>
          cases pc with
          | reserve chosen' queue' => exact absurd (hi.sole_reserve hp hget) hj
          | refresh _ | undo _ => exact hother
          | _ => trivial
        | _ => trivial
    | @send url chosen queue =>
      obtain ⟨calls, w, hcalls, hhosts, hqueue, hdecisions⟩ := hi.history
      -- The message of the attempt goes from those on their way to the queue.
      have hsame := Proc.filterMap_set_same Proc.decision hp
        (show (Proc.submit bundle (.close (some chosen.hostId))).decision = _ from rfl)
      have hsent := Pool.filterMap_set_perm Proc.unsent hp
        (.submit bundle (.close (some chosen.hostId)))
      refine ⟨howned, hlocked, (Pool.all_set hp).mpr ⟨trivial, fun j other _ hj =>
        hi.undisturbed j other hj⟩, calls, w, hcalls, hhosts, ?_, hdecisions.trans hsame.symm⟩
      show w.queue.Perm (s.world.queue ++ [⟨queue, bundle⟩] ++ _)
      rw [List.append_assoc]
      exact hqueue.trans (hsent.symm.append_left _)
    -- A failure is excluded by the guard, and without one nothing is undone.
    | refresh | undo => exact hundisturbed.elim
    | refreshNone | undoNone => exact hundisturbed.elim
    | insertFails | selectFails | reserveFails | sendFails | closeFails => exact hfree.elim
  | task hp => simpa [Proc.kind] using hkind _ hp
  | heartbeat hp => simpa [Proc.kind] using hkind _ hp
  | update hp => simpa [Proc.kind] using hkind _ hp
  | sweep hp => simpa [Proc.kind] using hkind _ hp
  | reap hp => simpa [Proc.kind] using hkind _ hp
  | kill => exact hfree.elim
  | exit hc hrun => exact ⟨howned, hlocked, hi.undisturbed, hi.history⟩
  | tick => exact ⟨howned, hlocked, hi.undisturbed, hi.history⟩

/-- Concurrent submissions are serializable. In every state of every run of submissions, the
inventory is the one that attempts alone, one after the other, lead to; the attempts are those of
the submissions that have their result, with the same results, and their messages are queued, or
on their way. -/
theorem submissions_serialize {s₀ : Sys} (h₀ : s₀.Idle) (h : Reaches step OnlySubmissions s₀ s) :
    ∃ calls w, Attempts s₀.world calls w ∧ w.hosts = s.world.hosts ∧
      w.queue.Perm (s.world.queue ++ s.procs.filterMap Proc.unsent) ∧
      calls.Perm (s.procs.filterMap Proc.decision) := by
  have hstart : Serial s₀.world s₀ := by
    have hprocs := h₀.1
    exact ⟨.of_idle h₀, by simp [Sys.Locked, hprocs], by simp [hprocs],
      [], s₀.world, .nil, rfl, by simp [hprocs], by simp [hprocs]⟩
  exact (h.invariant hstart fun _ _ _ hi hG hs => serial_step hi hG hs).history

/-- Two submissions for one slot, the second of which starts before the first has committed. -/
def twoSubmissions : List Act :=
  [.launch (.submit sampleBundle), .launch (.submit anotherBundle)] ++
    List.replicate 2 (.advance 0 (.ok none)) ++ [.advance 1 (.ok none)] ++
    List.replicate 3 (.advance 0 (.ok none)) ++ List.replicate 2 (.advance 1 (.ok none))

theorem twoSubmissions_serialize : ∃ (s : Sys) (calls : List (TestBundleRequest × Option String))
    (w : World), calls.length = 2 ∧ Attempts (Sys.single idleHost).world calls w ∧
      w.hosts = s.world.hosts := by
  obtain ⟨s, hs, hp⟩ := exists_reaches_of_guardedRun step OnlySubmissions (.single idleHost)
    twoSubmissions (fun s => (s.procs.filterMap Proc.decision).length = 2) (by decide +kernel)
  obtain ⟨calls, w, hcalls, hhosts, -, hperm⟩ := submissions_serialize (.single _) hs
  exact ⟨s, calls, w, hperm.length_eq.trans (decide_eq_true_eq.mp hp), hcalls, hhosts⟩

end TestOrch
