import TestOrch.System.Placement

/-!
# A submission by itself

One request runs while nobody else writes and some of its calls raise. The `except` clause of
`dispatch` undoes a reservation without asking whether it was stored, and the closing commit of
`submit_test` is the one call whose exception nobody catches after the run is stored.
-/

namespace TestOrch

def soloStep (p : ℕ) (bundle : TestBundleRequest) (s : World × SubmitPc) (o : Outcome) :
    Option (World × SubmitPc) :=
  submitStep p bundle s.1 s.2 o

/-! ### The undo of `dispatch` -/

/-- Which call of the `try` statement of `dispatch` raises. -/
inductive DispatchFault where
  | commit
  | send
  deriving DecidableEq

/-- How the calls of `dispatch` end where one of the `try` statement raises and the others return:
the locked read, the calls of the `try` statement, and the undo, which loads its row again after a
failed commit. -/
def DispatchFault.outcomes : DispatchFault → List Outcome
  | .commit => [.ok none, .raises, .ok none, .ok none]
  | .send => [.ok none, .ok none, .raises, .ok none]

section Undo

variable {p : ℕ} {bundle : TestBundleRequest} {w w' : World} {chosen : WorkerHost} {queue : String}

/-- A commit of a row under locks of the process itself. -/
lemma commitHost_of_free {hostId : String} {loaded new : WorkerHost}
    (hfree : w.blocked p hostId = false) : w.commitHost p hostId loaded new =
      some (World.unlock { w with
        hosts := w.hosts.modify [hostId] (loaded.flush new) (loaded.flush_hostId new) } p) := by
  rw [World.commitHost, hfree]
  rfl

lemma unlock_blocked (hostId : String) : (w.unlock p).blocked p hostId = w.blocked p hostId := by
  rw [World.blocked, World.unlock, World.blocked, List.any_filter]
  congr 1
  funext l
  by_cases hl : l.2 = p <;> simp [hl]

/-- The undo after a failed send gives back what the reservation took. -/
lemma undo_reserved (hmem : chosen ∈ w.hosts.rows) :
    (w.hosts.modify [chosen.hostId] (chosen.flush chosen.increment)
        (chosen.flush_hostId chosen.increment)).modify [chosen.hostId]
      (chosen.increment.flush chosen.increment.decrement)
      (chosen.increment.flush_hostId chosen.increment.decrement) = w.hosts := by
  rw [Table.modify_modify]
  apply Table.modify_eq_self
  intro row hrow hkey
  obtain rfl : row = chosen :=
    List.inj_on_of_nodup_map w.hosts.nodup hrow hmem (List.mem_singleton.mp hkey)
  rw [WorkerHost.flush_self _ _ (by rfl)]
  have hinc : row.increment.flush row.increment.decrement row.increment =
      row.increment.decrement := WorkerHost.flush_self _ _ rfl
  rw [hinc]
  simp [WorkerHost.increment, WorkerHost.decrement]

/-- The undo after a failed commit takes away what nobody added. -/
lemma undo_unreserved_ne (hmem : chosen ∈ w.hosts.rows) :
    w.hosts.modify [chosen.hostId] (chosen.flush chosen.decrement)
      (chosen.flush_hostId chosen.decrement) ≠ w.hosts := by
  intro heq
  have hget := congrArg (fun t : Inventory => t.get? chosen.hostId) heq
  rw [Table.get?_modify, if_pos (by simp), Table.get?_of_mem hmem, Option.map_some,
    WorkerHost.flush_self _ _ (by rfl), Option.some.injEq] at hget
  have hcount := congrArg WorkerHost.activeContainers hget
  simp [WorkerHost.decrement] at hcount

/-- A call of `dispatch` that gets to its `try` statement. -/
lemma soloStep_select (hfree : ∀ h ∈ w.hosts.rows, w.blocked p h.hostId = false)
    (hc : chooseHost w.hosts.rows bundle = .ok (some (chosen, queue))) :
    soloStep p bundle (w, .select) (.ok none) = some (w.lockAll p, .reserve chosen queue) := by
  have hany : (w.hosts.rows.any fun h => w.blocked p h.hostId) = false := by
    simpa using hfree
  show stepSelect p bundle w = _
  rw [stepSelect, hany, hc]
  rfl

/-- The tables of hosts after the undo: only a failed commit of a host that was in use is not undone
as it should be. -/
lemma run_outcomes (fault : DispatchFault)
    (hfree : ∀ h ∈ w.hosts.rows, w.blocked p h.hostId = false)
    (hc : chooseHost w.hosts.rows bundle = .ok (some (chosen, queue))) :
    ∃ w', Transition.run (soloStep p bundle) (w, .select) fault.outcomes = some (w', .close none) ∧
      w'.hosts = if fault = .commit ∧ 0 < chosen.activeContainers then
        w.hosts.modify [chosen.hostId] (chosen.flush chosen.decrement)
          (chosen.flush_hostId chosen.decrement) else w.hosts := by
  obtain ⟨hmem, -, -, hcount⟩ := chooseHost_spec hc
  have hselect := soloStep_select hfree hc
  cases fault with
  | commit =>
    -- The rolled back row is read again, and the undo lowers a counter nobody raised.
    have hget : ((w.lockAll p).unlock p).hosts.get? chosen.hostId = some chosen :=
      Table.get?_of_mem hmem
    have hblocked : ((w.lockAll p).unlock p).blocked p chosen.hostId = false := by
      rw [unlock_blocked, lockAll_blocked, hfree chosen hmem]
    simp only [DispatchFault.outcomes, Transition.run_cons, hselect, Option.bind_some]
    simp only [soloStep, submitStep, hget, Option.bind_some]
    split_ifs with hpos hcond
    · rw [commitHost_of_free hblocked]
      exact ⟨_, rfl, rfl⟩
    · simp [hpos] at hcond
    · simp_all
    · exact ⟨_, rfl, rfl⟩
  | send =>
    -- The undo lowers the counter that the reservation raised.
    have hpos : chosen.increment.activeContainers > 0 := by
      show 0 < chosen.activeContainers + 1
      omega
    have hlocked : (w.lockAll p).blocked p chosen.hostId = false := by
      rw [lockAll_blocked, hfree chosen hmem]
    simp only [DispatchFault.outcomes, Transition.run_cons, hselect, Option.bind_some]
    simp only [soloStep, submitStep, commitHost_of_free hlocked, Option.map_some, Option.bind_some,
      if_pos hpos]
    rw [commitHost_of_free]
    · refine ⟨_, rfl, ?_⟩
      simp only [reduceCtorEq, false_and, if_false]
      exact undo_reserved hmem
    · rw [unlock_blocked]
      exact hlocked

/-- Every run starts with the locked read. -/
lemma run_select (fault : DispatchFault) :
    Transition.run (soloStep p bundle) (w, .select) fault.outcomes =
      (stepSelect p bundle w).bind fun s =>
        Transition.run (soloStep p bundle) s fault.outcomes.tail := by
  cases fault <;> rfl

/-- Once `dispatch` has ended, too few calls are left. -/
lemma run_close (fault : DispatchFault) (chosen : Option String) :
    Transition.run (soloStep p bundle) (w, .close chosen) fault.outcomes.tail = none := by
  cases fault <;> rfl

/-- A run of `dispatch` in which a call of the `try` statement raises got that far. -/
lemma chooseHost_of_run {fault : DispatchFault}
    (hrun : Transition.run (soloStep p bundle) (w, .select) fault.outcomes =
      some (w', .close none)) :
    (∀ h ∈ w.hosts.rows, w.blocked p h.hostId = false) ∧
      ∃ chosen queue, chooseHost w.hosts.rows bundle = .ok (some (chosen, queue)) := by
  rw [run_select, Option.bind_eq_some_iff] at hrun
  obtain ⟨⟨v, pc⟩, hselect, hrun⟩ := hrun
  have hrule : SubmitRule p bundle w .select (.ok none) v pc := .of_stepSelect hselect
  cases hrule with
  | selectAsserts h =>
    rw [run_close] at hrun
    cases hrun
  | selectNone h =>
    rw [run_close] at hrun
    cases hrun
  | select hfree h => exact ⟨hfree, _, _, h⟩

/-- `dispatch` that raises because its reservation could not be committed or because its message
could not be sent leaves every host as it was, if and only if it was the message or the least loaded
eligible host had nothing running. -/
theorem hosts_restored_iff {fault : DispatchFault}
    (hrun : Transition.run (soloStep p bundle) (w, .select) fault.outcomes =
      some (w', .close none)) :
    w'.hosts = w.hosts ↔
      (fault = .commit → ∀ h, Placement w.hosts.rows bundle h → h.activeContainers = 0) := by
  obtain ⟨hfree, chosen, queue, hc⟩ := chooseHost_of_run hrun
  obtain ⟨hmem, -, -, hcount⟩ := chooseHost_spec hc
  have hplace : Placement w.hosts.rows bundle chosen := placement_of_chooseHost w.hosts.nodup hc
  have hzero : (∀ h, Placement w.hosts.rows bundle h → h.activeContainers = 0) ↔
      ¬ 0 < chosen.activeContainers := by
    constructor
    · intro hall
      simp [hall chosen hplace]
    · intro hpos h hh
      rw [hh.unique hplace]
      omega
  obtain ⟨w'', hrun', hhosts⟩ := run_outcomes fault hfree hc
  obtain ⟨rfl, -⟩ := Prod.mk.inj (Option.some.inj (hrun.symm.trans hrun'))
  rw [hhosts, hzero]
  split_ifs with hcond
  · exact iff_of_false (undo_unreserved_ne hmem) fun h => h hcond.1 hcond.2
  · exact iff_of_true rfl fun hf hpos => hcond ⟨hf, hpos⟩

/-- An idle machine is not disturbed by a reservation that could not be committed. -/
theorem idleHost_restored : ∃ w', Transition.run (soloStep 0 sampleBundle)
      ((Sys.single idleHost).world, .select) DispatchFault.commit.outcomes =
        some (w', .close none) ∧ w'.hosts = (Sys.single idleHost).world.hosts := by
  have hc : chooseHost (Sys.single idleHost).world.hosts.rows sampleBundle =
      .ok (some (idleHost, "queue_h")) := by decide +kernel
  obtain ⟨w', hrun, -⟩ := run_outcomes (p := 0) .commit (fun _ _ => rfl) hc
  refine ⟨w', hrun, (hosts_restored_iff hrun).mpr fun _ h hh => ?_⟩
  obtain rfl : h = idleHost := List.mem_singleton.mp hh.mem
  rfl

def sharedHost : WorkerHost := { idleHost with activeContainers := 1, maxContainers := 2 }

/-- A reservation that could not be committed frees the slot of another run. -/
theorem sharedHost_not_restored : ¬ ∀ (p : ℕ) (bundle : TestBundleRequest) (w w' : World)
    (fault : DispatchFault), Transition.run (soloStep p bundle) (w, .select) fault.outcomes =
      some (w', .close none) → w'.hosts = w.hosts := by
  intro h
  have hc : chooseHost (Sys.single sharedHost).world.hosts.rows sampleBundle =
      .ok (some (sharedHost, "queue_h")) := by decide +kernel
  obtain ⟨w', hrun, hhosts⟩ := run_outcomes (p := 0) .commit (fun _ _ => rfl) hc
  have hsame := h 0 sampleBundle (Sys.single sharedHost).world w' .commit hrun
  rw [hhosts, if_pos ⟨rfl, by decide⟩] at hsame
  exact undo_unreserved_ne (List.mem_singleton_self _) hsame

end Undo

end TestOrch
