import TestOrch.System.Step

/-!
# Row locks

The locked read of `dispatch` protects its row up to the commit: a request that is about to reserve
a slot holds the lock, and the row it loaded is still the one that is stored.
-/

namespace TestOrch

/-- A request that is about to commit its reservation holds the lock on the row that it loaded. -/
def Proc.Locked (w : World) (p : ℕ) : Proc → Prop
  | .submit _ (.reserve chosen _) =>
    (chosen.hostId, p) ∈ w.locks ∧ w.hosts.get? chosen.hostId = some chosen
  | _ => True

/-- All reservations under way hold their locks. -/
def Sys.Locked (s : Sys) : Prop := Pool.All s.procs fun p proc => proc.Locked s.world p

/-- What process `p` changes in the tables and the locks, it changes with regard to the locks of the
others. -/
def World.Respects (p : ℕ) (w w' : World) : Prop :=
  ∀ q h row, q ≠ p → (h, q) ∈ w.locks → w.hosts.get? h = some row →
    (h, q) ∈ w'.locks ∧ w'.hosts.get? h = some row

variable {s s' : Sys} {w w' : World} {p q : ℕ} {proc : Proc} {o : Outcome} {hostId : String}

lemma World.mem_locks_unlock {h : String} (hq : q ≠ p) (hlock : (h, q) ∈ w.locks) :
    (h, q) ∈ (w.unlock p).locks := by
  simp [World.unlock, hlock, hq]

lemma World.ne_of_not_blocked {h k : String} (hq : q ≠ p) (hlock : (h, q) ∈ w.locks)
    (hfree : w.blocked p k = false) : h ≠ k := by
  rintro rfl
  simp only [World.blocked, List.any_eq_false, Bool.and_eq_true, decide_eq_true_eq,
    not_and] at hfree
  exact hfree _ hlock rfl hq

lemma World.Respects.of_eq (hh : w'.hosts = w.hosts) (hl : w'.locks = w.locks) :
    World.Respects p w w' := fun _ _ _ _ hlock hrow => ⟨hl ▸ hlock, hh ▸ hrow⟩

lemma World.Respects.of_lockAll : World.Respects p w (w.lockAll p) :=
  fun _ _ _ _ hlock hrow => ⟨List.mem_append_left _ hlock, hrow⟩

lemma World.Respects.of_unlock (hh : w'.hosts = w.hosts) (hl : w'.locks = (w.unlock p).locks) :
    World.Respects p w w' := fun _ _ _ hq hlock hrow =>
  ⟨hl ▸ World.mem_locks_unlock hq hlock, hh ▸ hrow⟩

lemma World.Respects.commitHost {k : String} {loaded new : WorkerHost}
    (hw : w.commitHost p k loaded new = some w') : World.Respects p w w' := by
  obtain ⟨hfree, rfl⟩ := World.commitHost_eq_some hw
  intro q h row hq hlock hrow
  refine ⟨World.mem_locks_unlock hq hlock, ?_⟩
  simp [World.ne_of_not_blocked hq hlock hfree, hrow]

lemma World.Respects.insertHost {row : WorkerHost} (hw : w.insertHost p row = some w') :
    World.Respects p w w' := by
  obtain ⟨-, hnone, hget⟩ := World.get?_of_insertHost hw
  obtain ⟨t, -, rfl⟩ := Option.map_eq_some_iff.mp hw
  intro q h row' hq hlock hrow
  refine ⟨World.mem_locks_unlock hq hlock, ?_⟩
  have hne : h ≠ row.hostId := by
    rintro rfl
    simp [hnone] at hrow
  rw [hget, if_neg hne, hrow]

lemma World.Respects.commitOffline {affected : List WorkerHost}
    (hfree : ∀ r ∈ affected, w.blocked p r.hostId = false) :
    World.Respects p w (w.commitOffline (affected.map WorkerHost.hostId)) := by
  intro q h row hq hlock hrow
  refine ⟨hlock, ?_⟩
  have hne : h ∉ affected.map WorkerHost.hostId := by
    intro hmem
    obtain ⟨r, hr, rfl⟩ := List.mem_map.mp hmem
    exact World.ne_of_not_blocked hq hlock (hfree r hr) rfl
  rw [World.commitOffline, get?_markOffline, if_neg hne, hrow]

/-! ### Every process respects the locks of the others -/

lemma SubmitRule.respects {bundle : TestBundleRequest} {pc pc' : SubmitPc}
    (h : SubmitRule p bundle w pc o w' pc') : World.Respects p w w' := by
  cases h with
  | reserve hw | undo _ hw => exact .commitHost hw
  | selectAsserts | select => exact .of_lockAll
  | reserveFails | closeFails | close => exact .of_unlock rfl rfl
  | _ => exact .of_eq rfl rfl

lemma TaskRule.respects {t t' : Task} (h : TaskRule p w t o w' t') : World.Respects p w w' := by
  cases h with
  | decrement hpc hw => exact .commitHost hw
  | running | verdict | failed => exact .of_unlock rfl rfl
  | _ => exact .of_eq rfl rfl

lemma HeartbeatRule.respects {cpu : ℚ} {pc pc' : HeartbeatPc}
    (h : HeartbeatRule p hostId cpu w pc o w' pc') : World.Respects p w w' := by
  cases h with
  | update hw => exact .commitHost hw
  | register hw => exact .insertHost hw
  | _ => exact .of_eq rfl rfl

lemma UpdateRule.respects {form : HostForm} {pc pc' : UpdatePc}
    (h : UpdateRule p form w pc o w' pc') : World.Respects p w w' := by
  cases h with
  | commit hw => exact .commitHost hw
  | _ => exact .of_eq rfl rfl

lemma SweepRule.respects {maxAge : ℤ} {pc pc' : SweepPc} (h : SweepRule p maxAge w pc o w' pc') :
    World.Respects p w w' := by
  cases h with
  | mark hfree => exact .commitOffline hfree
  | _ => exact .of_eq rfl rfl

lemma ReapRule.respects {pc pc' : ReapPc} (h : ReapRule hostId w pc o w' pc') :
    World.Respects p w w' := by
  cases h <;> exact .of_eq rfl rfl

lemma Proc.Locked.of_respects (h : proc.Locked w q) (hq : q ≠ p) (hr : World.Respects p w w') :
    proc.Locked w' q := by
  cases proc with
  | submit bundle pc =>
    cases pc with
    | reserve chosen queue => exact hr q chosen.hostId chosen hq h.1 h.2
    | _ => trivial
  | _ => trivial

/-- A request that comes to its reservation has just locked the row it loaded. -/
lemma SubmitRule.locked {bundle : TestBundleRequest} {pc pc' : SubmitPc}
    (h : SubmitRule p bundle w pc o w' pc') : (Proc.submit bundle pc').Locked w' p := by
  cases h with
  | select hfree hchosen =>
    have hmem := (chooseHost_spec hchosen).1
    refine ⟨List.mem_append_right _ (List.mem_map.mpr ⟨_, hmem, rfl⟩), ?_⟩
    rw [World.lockAll_hosts, Table.get?_of_mem hmem]
  | _ => trivial

lemma Sys.Locked.set {proc' : Proc} (hi : s.Locked) (hp : s.procs[p]? = some proc)
    (hr : World.Respects p s.world w') (hproc : proc'.Locked w' p) :
    Sys.Locked ⟨w', s.procs.set p proc'⟩ :=
  (Pool.all_set hp).mpr ⟨hproc, fun j other hj hget => (hi j other hget).of_respects hj hr⟩

lemma Sys.Locked.of_eq (hi : s.Locked) (hh : w'.hosts = s.world.hosts)
    (hl : w'.locks = s.world.locks) : Sys.Locked ⟨w', s.procs⟩ := fun j other hget =>
  (hi j other hget).of_respects (p := j + 1) (by omega) (.of_eq hh hl)

lemma Sys.Locked.spawn {new : Proc} (hi : s.Locked) (hh : w'.hosts = s.world.hosts)
    (hl : w'.locks = s.world.locks) (hnew : new.Locked w' s.procs.length) :
    Sys.Locked ⟨w', s.procs ++ [new]⟩ :=
  Pool.all_append_singleton.mpr ⟨hi.of_eq hh hl, hnew⟩

/-- In every run whatsoever the reservations under way hold their locks. -/
lemma locked_step {a : Act} (hi : s.Locked) (h : step s a = some s') : s'.Locked := by
  cases SysRule.of_step h with
  | @launch l =>
    apply hi.spawn rfl rfl
    cases l <;> trivial
  | deliver hm hq => exact hi.spawn rfl rfl trivial
  | redeliver hm hq => exact hi.spawn rfl rfl trivial
  | submit hp hr => exact hi.set hp hr.respects hr.locked
  | task hp hr => exact hi.set hp hr.respects trivial
  | heartbeat hp hr => exact hi.set hp hr.respects trivial
  | update hp hr => exact hi.set hp hr.respects trivial
  | sweep hp hr => exact hi.set hp hr.respects trivial
  | reap hp hr => exact hi.set hp hr.respects trivial
  | kill hp => exact hi.set hp (.of_unlock rfl rfl) trivial
  | exit hc hrun => exact hi.of_eq rfl rfl
  | tick => exact hi.of_eq rfl rfl

end TestOrch
