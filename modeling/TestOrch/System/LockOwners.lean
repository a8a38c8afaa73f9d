import TestOrch.System.Step

/-!
# Who holds row locks

Between its locking read and the end of its transaction, one request at a time holds locks on all
the rows that the inventory had then. Nobody else holds any, so at the end of the transaction there
are none.
-/

namespace TestOrch

open Transition

/-- The transaction of the request is open, with the rows locked. -/
def SubmitPc.inTransaction : SubmitPc → Bool
  | .reserve .. | .close none => true
  | _ => false

def Proc.inTransaction : Proc → Bool
  | .submit _ pc => pc.inTransaction
  | _ => false

/-- The names of the hosts, in the order in which their rows were inserted. -/
def World.hostIds (w : World) : List String := w.hosts.rows.map WorkerHost.hostId

/-- All locks are on known rows and held by one request, whose transaction is open. -/
structure LocksOwned (s : Sys) : Prop where
  known : ∀ l ∈ s.world.locks, l.1 ∈ s.world.hostIds
  single : ∀ l ∈ s.world.locks, ∀ l' ∈ s.world.locks, l.2 = l'.2
  owner : ∀ l ∈ s.world.locks, ∃ proc, s.procs[l.2]? = some proc ∧ proc.inTransaction = true

/-- The step takes no lock and deletes no row; new rows come after the others. -/
structure World.Frees (w w' : World) : Prop where
  locks : w'.locks ⊆ w.locks
  hostIds : w.hostIds <+: w'.hostIds

variable {s s' : Sys} {w w' : World} {p q : ℕ} {proc proc' : Proc} {o : Outcome} {hostId : String}

namespace World.Frees

lemma of_eq (hh : w'.hosts = w.hosts) (hl : w'.locks = w.locks) : Frees w w' where
  locks := hl ▸ List.Subset.refl _
  hostIds := by simp only [World.hostIds, hh, List.prefix_rfl]

lemma of_unlock (hh : w'.hosts = w.hosts) (hl : w'.locks = (w.unlock p).locks) : Frees w w' where
  locks := hl ▸ List.filter_subset_self _
  hostIds := by simp only [World.hostIds, hh, List.prefix_rfl]

lemma commitHost {loaded new : WorkerHost} (hw : w.commitHost p hostId loaded new = some w') :
    Frees w w' := by
  obtain ⟨-, rfl⟩ := World.commitHost_eq_some hw
  have hsame := w.hosts.map_key_modify [hostId] (loaded.flush new) (loaded.flush_hostId new)
  exact ⟨List.filter_subset_self _, [], (List.append_nil _).trans hsame.symm⟩

lemma insertHost {row : WorkerHost} (hw : w.insertHost p row = some w') : Frees w w' := by
  obtain ⟨t, ht, rfl⟩ := Option.map_eq_some_iff.mp hw
  exact ⟨List.filter_subset_self _, [row.hostId], (Table.map_key_insert? ht).symm⟩

lemma commitOffline (hostIds : List String) : Frees w (w.commitOffline hostIds) := by
  have hsame := w.hosts.map_key_modify hostIds (fun h => { h with isOnline := false }) fun _ => rfl
  exact ⟨List.Subset.refl _, [], (List.append_nil _).trans hsame.symm⟩

end World.Frees

/-! ### What the processes do to the locks -/

lemma TaskRule.frees {t t' : Task} (h : TaskRule p w t o w' t') : World.Frees w w' := by
  cases h with
  | decrement hpc hw => exact .commitHost hw
  | running | verdict | failed => exact .of_unlock rfl rfl
  | _ => exact .of_eq rfl rfl

lemma HeartbeatRule.frees {cpu : ℚ} {pc pc' : HeartbeatPc}
    (h : HeartbeatRule p hostId cpu w pc o w' pc') : World.Frees w w' := by
  cases h with
  | update hw => exact .commitHost hw
  | register hw => exact .insertHost hw
  | _ => exact .of_eq rfl rfl

lemma UpdateRule.frees {form : HostForm} {pc pc' : UpdatePc}
    (h : UpdateRule p form w pc o w' pc') : World.Frees w w' := by
  cases h with
  | commit hw => exact .commitHost hw
  | _ => exact .of_eq rfl rfl

lemma SweepRule.frees {maxAge : ℤ} {pc pc' : SweepPc} (h : SweepRule p maxAge w pc o w' pc') :
    World.Frees w w' := by
  cases h with
  | mark hfree => exact .commitOffline _
  | _ => exact .of_eq rfl rfl

lemma ReapRule.frees {pc pc' : ReapPc} (h : ReapRule hostId w pc o w' pc') :
    World.Frees w w' := by
  cases h <;> exact .of_eq rfl rfl

/-- The locking read returns only when no row of the inventory is locked by somebody else. -/
lemma free_of_stepSelect {bundle : TestBundleRequest} {pc : SubmitPc}
    (h : stepSelect p bundle w = some (w', pc)) :
    ∀ row ∈ w.hosts.rows, w.blocked p row.hostId = false := by
  unfold stepSelect at h
  split_ifs at h with hblocked
  simpa using hblocked

/-- A request locks all rows, or ends its transaction, or takes no lock. -/
lemma locks_of_submitStep {bundle : TestBundleRequest} {pc pc' : SubmitPc}
    (h : submitStep p bundle w pc o = some (w', pc')) :
    (pc = .select ∧ (∃ url, o = .ok url) ∧ pc'.inTransaction = true ∧ w' = w.lockAll p ∧
      ∀ row ∈ w.hosts.rows, w.blocked p row.hostId = false) ∨
    (World.Frees w w' ∧ (pc.inTransaction = true → w'.locks = (w.unlock p).locks)) := by
  cases SubmitRule.of_submitStep h with
  | selectAsserts | select => exact .inl ⟨rfl, ⟨_, rfl⟩, rfl, rfl, free_of_stepSelect h⟩
  | reserve hw =>
    refine .inr ⟨.commitHost hw, fun _ => ?_⟩
    obtain ⟨-, rfl⟩ := World.commitHost_eq_some hw
    rfl
  | undo _ hw => exact .inr ⟨.commitHost hw, fun hpc => by simp [SubmitPc.inTransaction] at hpc⟩
  | reserveFails | closeFails | close => exact .inr ⟨.of_unlock rfl rfl, fun _ => rfl⟩
  | _ => exact .inr ⟨.of_eq rfl rfl, fun hpc => by simp [SubmitPc.inTransaction] at hpc⟩

lemma submitStep_of_step {bundle : TestBundleRequest} {pc : SubmitPc}
    (hp : s.procs[p]? = some (.submit bundle pc)) (h : step s (.advance p o) = some s') :
    ∃ w' pc', submitStep p bundle s.world pc o = some (w', pc') ∧
      s' = ⟨w', s.procs.set p (.submit bundle pc')⟩ := by
  obtain ⟨proc, hproc, h⟩ := Option.bind_eq_some_iff.mp h
  obtain rfl : proc = .submit bundle pc := Option.some.inj (hproc.symm.trans hp)
  obtain ⟨⟨w', proc'⟩, hs, rfl⟩ := Option.map_eq_some_iff.mp h
  obtain ⟨⟨w'', pc'⟩, hsub, heq⟩ := Option.map_eq_some_iff.mp hs
  obtain ⟨rfl, rfl⟩ := Prod.mk.inj heq
  exact ⟨w'', pc', hsub, rfl⟩

/-- Unless it is the locking read of a request, a step takes no lock. -/
lemma frees_of_step {a : Act} (h : step s a = some s') :
    (∃ p bundle url, a = .advance p (.ok url) ∧ s.procs[p]? = some (.submit bundle .select) ∧
      s'.world = s.world.lockAll p) ∨ World.Frees s.world s'.world := by
  cases SysRule.of_step h with
  | submit hp hr =>
    obtain ⟨w'', pc'', hs, heq⟩ := submitStep_of_step hp h
    rw [heq]
    rcases locks_of_submitStep hs with ⟨rfl, ⟨url, rfl⟩, -, rfl, -⟩ | ⟨hw, -⟩
    · exact .inl ⟨_, _, url, rfl, hp, rfl⟩
    · exact .inr hw
  | task hp hr => exact .inr hr.frees
  | heartbeat hp hr => exact .inr hr.frees
  | update hp hr => exact .inr hr.frees
  | sweep hp hr => exact .inr hr.frees
  | reap hp hr => exact .inr hr.frees
  | kill hp => exact .inr (.of_unlock rfl rfl)
  | launch | deliver | redeliver | exit | tick => exact .inr (.of_eq rfl rfl)

namespace LocksOwned

/-- One process moved and took no lock. -/
lemma set (hi : LocksOwned s) (hp : s.procs[p]? = some proc) (hw : World.Frees s.world w')
    (hends : proc.inTransaction = true → w'.locks = (s.world.unlock p).locks) :
    LocksOwned ⟨w', s.procs.set p proc'⟩ := by
  refine ⟨fun l hl => hw.hostIds.subset (hi.known l (hw.locks hl)),
    fun l hl l' hl' => hi.single l (hw.locks hl) l' (hw.locks hl'), fun l hl => ?_⟩
  obtain ⟨holder, hholder, htx⟩ := hi.owner l (hw.locks hl)
  have hne : l.2 ≠ p := by
    intro heq
    rw [heq, hp] at hholder
    obtain rfl := Option.some.inj hholder
    replace hl : l ∈ w'.locks := hl
    rw [hends htx] at hl
    simp [World.unlock, heq] at hl
  refine ⟨holder, ?_, htx⟩
  rw [Pool.getElem?_set_of_get hp, if_neg hne, hholder]

/-- The other processes keep their locks. -/
lemma of_frees (hi : LocksOwned s) (hw : World.Frees s.world w') :
    LocksOwned ⟨w', s.procs⟩ :=
  ⟨fun l hl => hw.hostIds.subset (hi.known l (hw.locks hl)),
    fun l hl l' hl' => hi.single l (hw.locks hl) l' (hw.locks hl'),
    fun l hl => hi.owner l (hw.locks hl)⟩

lemma spawn (hi : LocksOwned s) (hw : World.Frees s.world w') (new : Proc) :
    LocksOwned ⟨w', s.procs ++ [new]⟩ := by
  refine ⟨(hi.of_frees hw).known, (hi.of_frees hw).single, fun l hl => ?_⟩
  obtain ⟨holder, hholder, htx⟩ := hi.owner l (hw.locks hl)
  exact ⟨holder, Pool.getElem?_append_of_get hholder, htx⟩

/-- Where no row is locked by anybody else, the others hold no lock at all. -/
lemma locks_of_free (hi : LocksOwned s)
    (hfree : ∀ row ∈ s.world.hosts.rows, s.world.blocked p row.hostId = false) :
    ∀ l ∈ s.world.locks, l.2 = p := by
  intro l hl
  obtain ⟨row, hrow, hname⟩ := List.mem_map.mp (hi.known l hl)
  have hblocked := hfree row hrow
  simp only [World.blocked, List.any_eq_false, Bool.and_eq_true, decide_eq_true_eq,
    not_and, not_not] at hblocked
  exact hblocked l hl hname.symm

/-- A request locked all rows. -/
lemma lockAll (hi : LocksOwned s) (hp : s.procs[p]? = some proc)
    (hfree : ∀ row ∈ s.world.hosts.rows, s.world.blocked p row.hostId = false)
    (htx : proc'.inTransaction = true) :
    LocksOwned ⟨s.world.lockAll p, s.procs.set p proc'⟩ := by
  have hmine : ∀ l ∈ (s.world.lockAll p).locks, l.2 = p := by
    intro l hl
    rcases List.mem_append.mp hl with hl | hl
    · exact hi.locks_of_free hfree l hl
    · obtain ⟨row, -, rfl⟩ := List.mem_map.mp hl
      rfl
  refine ⟨fun l hl => ?_, fun l hl l' hl' => (hmine l hl).trans (hmine l' hl').symm,
    fun l hl => ⟨proc', ?_, htx⟩⟩
  · rcases List.mem_append.mp hl with hl | hl
    · exact hi.known l hl
    · obtain ⟨row, hrow, rfl⟩ := List.mem_map.mp hl
      exact List.mem_map_of_mem hrow
  · rw [hmine l hl, Pool.getElem?_set_of_get hp, if_pos rfl]

end LocksOwned

lemma LocksOwned.of_idle (h : s.Idle) : LocksOwned s := by
  constructor <;> simp [h.2]

/-- Every step keeps all locks in the hands of one request. -/
theorem locksOwned_step {a : Act} (hi : LocksOwned s) (h : step s a = some s') :
    LocksOwned s' := by
  cases SysRule.of_step h with
  | launch => exact hi.spawn (.of_eq rfl rfl) _
  | deliver hm hq =>
    refine hi.spawn ?_ _
    exact .of_eq rfl rfl
  | redeliver hm hq => exact hi.spawn (.of_eq rfl rfl) _
  | submit hp hr =>
    obtain ⟨w'', pc'', hs, heq⟩ := submitStep_of_step hp h
    rw [heq]
    rcases locks_of_submitStep hs with ⟨-, -, htx, rfl, hfree⟩ | ⟨hw, hends⟩
    · exact hi.lockAll hp hfree htx
    · exact hi.set hp hw hends
  | task hp hr => exact hi.set hp hr.frees (by simp [Proc.inTransaction])
  | heartbeat hp hr => exact hi.set hp hr.frees (by simp [Proc.inTransaction])
  | update hp hr => exact hi.set hp hr.frees (by simp [Proc.inTransaction])
  | sweep hp hr => exact hi.set hp hr.frees (by simp [Proc.inTransaction])
  | reap hp hr => exact hi.set hp hr.frees (by simp [Proc.inTransaction])
  | kill hp => exact hi.set hp (.of_unlock rfl rfl) fun _ => rfl
  | exit hc hrun => exact hi.of_frees (.of_eq rfl rfl)
  | tick => exact hi.of_frees (.of_eq rfl rfl)

end TestOrch
