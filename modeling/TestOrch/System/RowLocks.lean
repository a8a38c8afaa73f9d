import TestOrch.Core.WaitFor
import TestOrch.System.LockOwners

/-!
# Row locks, one after the other

A statement that locks several rows of the inventory gets the locks one at a time and waits at the
first row that somebody else has locked. The commit of a sweep writes its rows in the order of their
primary keys, which is the one in which they were inserted; the locking read of `dispatch` states no
order. The accesses take place with all their locks, so they are those of the system without partial
waits.
-/

namespace TestOrch

open Transition

/-- The system, and the row locks that its processes get for their next accesses. -/
structure RowSys where
  sys : Sys
  /-- The rows that are locked, each with its process. -/
  taken : List (String × ℕ)
  /-- The row that a process waits for. -/
  asked : ℕ → Option String

inductive RowAct where
  /-- A process asks for the lock on the row of a host. -/
  | request (p : ℕ) (hostId : String)
  /-- A process gets the lock that it asked for. -/
  | grant (p : ℕ)
  | access (a : Act)

/-- The rows that the next access locks, in the order of their keys. The row that a request reserves
a slot on is locked already. -/
def Proc.wants (w : World) : Proc → List String
  | .submit _ .select => w.hostIds
  | .submit _ (.undo row) => if row.activeContainers > 0 then [row.hostId] else []
  | .task t =>
    match t.pc with
    | .decrementCommit _ => [t.host]
    | _ => []
  | .heartbeat hostId _ (.commit _ (some _) _) => [hostId]
  | .update form (.commit _) => [form.hostId]
  | .sweep _ (.mark _ affected) => affected.map WorkerHost.hostId
  | _ => []

/-- The process whose turn it is. -/
def Act.mover? : Act → Option ℕ
  | .advance p _ | .kill p => some p
  | _ => none

namespace RowSys

/-- The rows that the next access of a process locks. -/
def wants (s : RowSys) (p : ℕ) : List String :=
  (s.sys.procs[p]?).elim [] (Proc.wants s.sys.world)

/-- The next row in the order of the keys. -/
def next? (s : RowSys) (p : ℕ) : Option String := (s.wants p).find? fun h => (h, p) ∉ s.taken

/-- The process writes its rows in the order of their keys. -/
def flushes (s : RowSys) (p : ℕ) : Bool := (s.sys.procs[p]?).any fun proc => proc.kind = .sweep

/-- Nobody else has the row locked. -/
def unlocked (s : RowSys) (p : ℕ) (hostId : String) : Bool :=
  (s.taken ++ s.sys.world.locks).all fun l => l.1 = hostId → l.2 = p

/-- An access that does not fail has its locks. -/
def ready (s : RowSys) : Act → Bool
  | .advance p (.ok _) => (s.wants p).all fun h => (h, p) ∈ s.taken
  | _ => true

/-- After an access the locks it got are those of the transaction, or gone. -/
def after (s : RowSys) (a : Act) (sys : Sys) : RowSys where
  sys := sys
  taken := s.taken.filter fun l => a.mover? ≠ some l.2
  asked p := if a.mover? = some p then none else s.asked p

def step (s : RowSys) : RowAct → Option RowSys
  | .request p hostId =>
    if s.asked p = none ∧ hostId ∈ s.wants p ∧ (hostId, p) ∉ s.taken ∧
        (s.flushes p → s.next? p = some hostId) then
      some { s with asked := Function.update s.asked p (some hostId) }
    else none
  | .grant p => do
    let hostId ← s.asked p
    if s.unlocked p hostId then
      some { s with
        taken := s.taken ++ [(hostId, p)]
        asked := Function.update s.asked p none }
    else none
  | .access a => if s.ready a then (TestOrch.step s.sys a).map (s.after a) else none

/-- Locks are asked for in the order of the keys. -/
def InOrder (s : RowSys) : RowAct → Prop
  | .request p hostId => s.next? p = some hostId
  | _ => True

instance (s : RowSys) : ∀ a, Decidable (InOrder s a)
  | .request p hostId => inferInstanceAs (Decidable (s.next? p = some hostId))
  | .grant _ | .access _ => inferInstanceAs (Decidable True)

/-- The process has the row locked, for its next access or in its transaction. -/
def Holds (s : RowSys) (p : ℕ) (hostId : String) : Prop :=
  (hostId, p) ∈ s.taken ∨ (hostId, p) ∈ s.sys.world.locks

def waitFor (s : RowSys) : WaitFor ℕ String := ⟨s.Holds, s.asked⟩

/-- The process can go on by itself. -/
def GoesOn (s : RowSys) (p : ℕ) : Prop :=
  ∃ a, (a = .grant p ∨ (∃ hostId, a = .request p hostId) ∨ a = .access (.advance p (.ok none))) ∧
    InOrder s a ∧ (s.step a).isSome = true

structure Idle (s : RowSys) : Prop where
  sys : s.sys.Idle
  taken : s.taken = []
  asked : ∀ p, s.asked p = none

end RowSys

/-- The rows that the process wants are listed as they stand in the table. -/
def Proc.InTable (w : World) (proc : Proc) : Prop :=
  (proc.wants w).length ≤ 1 ∨ (proc.wants w).Sublist w.hostIds

variable {s s' : Sys} {t t' : RowSys} {w w' : World} {p q : ℕ} {proc : Proc} {a : Act}
  {h k : String}

/-! ### What a step of the system does to the rows and to the processes -/

lemma hostIds_of_step (hs : step s a = some s') : s.world.hostIds <+: s'.world.hostIds := by
  rcases frees_of_step hs with ⟨p, _, _, -, -, hw⟩ | hw
  · rw [hw]
    exact List.prefix_rfl
  · exact hw.hostIds

/-- Only the process whose turn it is moves. -/
lemma getElem?_of_step (hs : step s a = some s') (ha : a.mover? ≠ some q)
    (hq : s.procs[q]? = some proc) : s'.procs[q]? = some proc := by
  have hset : ∀ {p : ℕ} {old new : Proc}, p ≠ q → s.procs[p]? = some old →
      (s.procs.set p new)[q]? = some proc := by
    intro p old new hne hp
    rw [Pool.getElem?_set_of_get hp, if_neg hne.symm, hq]
  cases SysRule.of_step hs with
  | launch | deliver hm hc | redeliver hm hc => exact Pool.getElem?_append_of_get hq
  | exit hc hrun | tick => exact hq
  | submit hp hr | task hp hr | heartbeat hp hr | update hp hr | sweep hp hr | reap hp hr
  | kill hp =>
    exact hset (fun heq => ha (congrArg some heq)) hp

/-- A locking read that begins later finds more rows; nothing else depends on the table. -/
lemma Proc.wants_cases (proc : Proc) (w w' : World) :
    proc.wants w' = proc.wants w ∨ proc.wants w = w.hostIds ∧ proc.wants w' = w'.hostIds := by
  cases proc with
  | submit bundle pc =>
    cases pc with
    | select => exact .inr ⟨rfl, rfl⟩
    | _ => exact .inl rfl
  | heartbeat hostId cpu pc =>
    left
    cases pc with
    | commit live loaded now => cases loaded <;> rfl
    | _ => rfl
  | update form pc => left; cases pc <;> rfl
  | sweep maxAge pc => left; cases pc <;> rfl
  | _ => exact .inl rfl

lemma Proc.wants_prefix (hw : w.hostIds <+: w'.hostIds) : proc.wants w <+: proc.wants w' := by
  rcases proc.wants_cases w w' with heq | ⟨heq, heq'⟩
  · rw [heq]
  · rwa [heq, heq']

lemma Proc.InTable.mono (hi : proc.InTable w) (hw : w.hostIds <+: w'.hostIds) :
    proc.InTable w' := by
  rcases proc.wants_cases w w' with heq | ⟨-, heq⟩
  · rw [InTable, heq]
    exact hi.imp_right fun hsub => hsub.trans hw.sublist
  · rw [InTable, heq]
    exact .inr (List.Sublist.refl _)

/-- Processes other than sweeps lock one row or read the table. -/
lemma Proc.inTable_of_kind (hkind : proc.kind ≠ .sweep) : proc.InTable w := by
  cases proc with
  | submit bundle pc =>
    cases pc with
    | select => exact .inr (List.Sublist.refl _)
    | undo row =>
      left
      simp only [wants]
      split_ifs <;> simp
    | _ => exact .inl (Nat.zero_le _)
  | task task =>
    left
    cases hpc : task.pc <;> simp [wants, hpc]
  | heartbeat hostId cpu pc =>
    left
    cases pc with
    | commit live loaded now => cases loaded <;> simp [wants]
    | _ => exact Nat.zero_le _
  | update form pc => left; cases pc <;> simp [wants]
  | sweep maxAge pc => exact absurd rfl hkind
  | reap hostId pc => exact .inl (Nat.zero_le _)
  | dead was => exact .inl (Nat.zero_le _)

lemma inTable_step (hi : Pool.All s.procs fun _ proc => proc.InTable s.world)
    (hs : step s a = some s') : Pool.All s'.procs fun _ proc => proc.InTable s'.world := by
  have hrows := hostIds_of_step hs
  have hothers : Pool.All s.procs fun _ proc => proc.InTable s'.world :=
    hi.mono fun _ _ h => h.mono hrows
  cases SysRule.of_step hs with
  | @launch l =>
    refine Pool.all_append_singleton.mpr ⟨hothers, ?_⟩
    cases l with
    | sweep maxAge => exact .inl (Nat.zero_le _)
    | _ => exact Proc.inTable_of_kind (by simp [Launch.proc, Proc.kind])
  | deliver hm hc | redeliver hm hc =>
    exact Pool.all_append_singleton.mpr ⟨hothers, Proc.inTable_of_kind (by simp [Proc.kind])⟩
  | submit hp hr | task hp hr | heartbeat hp hr | update hp hr | reap hp hr | kill hp =>
    exact (Pool.all_set hp).mpr
      ⟨Proc.inTable_of_kind (by simp [Proc.kind]), fun j other _ hj => hothers j other hj⟩
  | sweep hp hr =>
    refine (Pool.all_set hp).mpr ⟨?_, fun j other _ hj => hothers j other hj⟩
    cases hr with
    | read => exact .inr (List.filter_sublist.map _)
    | _ => exact .inl (Nat.zero_le _)
  | exit hc hrun | tick => exact hothers

namespace RowSys

/-- What holds in every run whatsoever. -/
structure Kept (t : RowSys) : Prop where
  owned : LocksOwned t.sys
  inTable : Pool.All t.sys.procs fun _ proc => proc.InTable t.sys.world
  /-- No row is locked by two processes. -/
  alone : ∀ p q h, t.Holds p h → t.Holds q h → p = q
  taken : ∀ l ∈ t.taken, l.1 ∈ t.wants l.2
  asked : ∀ p h, t.asked p = some h → h ∈ t.wants p ∧ (h, p) ∉ t.taken

lemma exists_proc_of_mem_wants (hmem : h ∈ t.wants p) :
    ∃ proc, t.sys.procs[p]? = some proc ∧ h ∈ proc.wants t.sys.world := by
  unfold wants at hmem
  cases hp : t.sys.procs[p]? with
  | none => simp [hp] at hmem
  | some proc => exact ⟨proc, rfl, by simpa [hp] using hmem⟩

lemma wants_of_get (hp : t.sys.procs[p]? = some proc) : t.wants p = proc.wants t.sys.world := by
  rw [wants, hp, Option.elim_some]

lemma step_access (hs : t.step (.access a) = some t') :
    t.ready a = true ∧ TestOrch.step t.sys a = some t'.sys ∧ t' = t.after a t'.sys := by
  simp only [step] at hs
  split_ifs at hs with hready
  obtain ⟨sys, hsys, rfl⟩ := Option.map_eq_some_iff.mp hs
  exact ⟨hready, hsys, rfl⟩

/-- The accesses of a run are a run of the system. -/
theorem reaches_sys {G : RowSys → RowAct → Prop} (hr : Reaches step G t t') :
    Reaches TestOrch.step (fun _ _ => True) t.sys t'.sys := by
  induction hr with
  | refl => exact .refl
  | @next _ _ act _ _ hs ih =>
    cases act with
    | request p h =>
      simp only [step] at hs
      split_ifs at hs
      obtain rfl := Option.some.inj hs
      exact ih
    | grant p =>
      obtain ⟨h, -, hs⟩ := Option.bind_eq_some_iff.mp hs
      split_ifs at hs
      obtain rfl := Option.some.inj hs
      exact ih
    | access a => exact .next ih trivial (step_access hs).2.1

/-- Another process than the one whose turn it is wants no fewer rows after the access. -/
lemma wants_prefix_of_access (hs : t.step (.access a) = some t') (ha : a.mover? ≠ some p)
    (hp : t.sys.procs[p]? = some proc) :
    t'.wants p = proc.wants t'.sys.world ∧ t.wants p <+: t'.wants p := by
  obtain ⟨-, hsys, -⟩ := step_access hs
  rw [wants_of_get hp, wants_of_get (getElem?_of_step hsys ha hp)]
  exact ⟨rfl, Proc.wants_prefix (hostIds_of_step hsys)⟩

/-- Whoever has a row locked after an access had it locked before. -/
lemma holds_of_access (hs : t.step (.access a) = some t') (hh : t'.Holds p h) : t.Holds p h := by
  obtain ⟨hready, hsys, heq⟩ := step_access hs
  rcases hh with hh | hh
  · rw [heq] at hh
    exact .inl (List.mem_filter.mp hh).1
  · rcases frees_of_step hsys with ⟨q, bundle, url, rfl, hq, hw⟩ | hw
    · -- a locking read keeps the locks that it got
      rw [hw, World.lockAll, List.mem_append, List.mem_map] at hh
      rcases hh with hh | ⟨row, hrow, heq⟩
      · exact .inr hh
      · obtain ⟨rfl, rfl⟩ := Prod.mk.inj heq
        simp only [ready, List.all_eq_true, decide_eq_true_eq, wants_of_get hq] at hready
        exact .inl (hready _ (List.mem_map_of_mem hrow))
    · exact .inr (hw.locks hh)

lemma mem_taken_of_access (hs : t.step (.access a) = some t') :
    (h, p) ∈ t'.taken ↔ (h, p) ∈ t.taken ∧ a.mover? ≠ some p := by
  rw [(step_access hs).2.2]
  simp [after, List.mem_filter]

lemma asked_of_access (hs : t.step (.access a) = some t') :
    t'.asked p = some h ↔ t.asked p = some h ∧ a.mover? ≠ some p := by
  rw [(step_access hs).2.2]
  by_cases ha : a.mover? = some p <;> simp [after, ha]

lemma Kept.of_idle (hi : t.Idle) : t.Kept where
  owned := .of_idle hi.sys
  inTable := by simp [hi.sys.1]
  alone p q h hp := by simp [Holds, hi.taken, hi.sys.2] at hp
  taken := by simp [hi.taken]
  asked p h hp := by simp [hi.asked] at hp

/-- Every step of the system with its locks keeps them apart. -/
theorem kept_step {act : RowAct} (hi : t.Kept) (hs : t.step act = some t') : t'.Kept := by
  cases act with
  | request p h =>
    simp only [step] at hs
    split_ifs at hs with hask
    -- A request is only noted.
    obtain ⟨-, hwants, htaken, -⟩ := hask
    obtain rfl := Option.some.inj hs
    refine ⟨hi.owned, hi.inTable, hi.alone, hi.taken, fun q k hq => ?_⟩
    rcases eq_or_ne q p with rfl | hne
    · simp only [Function.update_self, Option.some.injEq] at hq
      exact hq ▸ ⟨hwants, htaken⟩
    · simp only [Function.update_of_ne hne] at hq
      exact hi.asked q k hq
  | grant p =>
    obtain ⟨h, hask, hs⟩ := Option.bind_eq_some_iff.mp hs
    split_ifs at hs with hfree
    obtain rfl := Option.some.inj hs
    obtain ⟨hwants, htaken⟩ := hi.asked p h hask
    -- The lock is granted only when nobody else holds it.
    have hnobody : ∀ q, t.Holds q h → q = p := by
      intro q hq
      simp only [unlocked, List.all_eq_true, List.mem_append, decide_eq_true_eq] at hfree
      exact hfree (h, q) hq rfl
    have hholds : ∀ q k, (⟨t.sys, t.taken ++ [(h, p)], Function.update t.asked p none⟩ :
        RowSys).Holds q k → t.Holds q k ∨ q = p ∧ k = h := by
      rintro q k (hq | hq)
      · rcases List.mem_append.mp hq with hq | hq
        · exact .inl (.inl hq)
        · obtain ⟨rfl, rfl⟩ := Prod.mk.inj (List.mem_singleton.mp hq)
          exact .inr ⟨rfl, rfl⟩
      · exact .inl (.inr hq)
    refine ⟨hi.owned, hi.inTable, fun q q' k hq hq' => ?_, fun l hl => ?_, fun q k hq => ?_⟩
    · rcases hholds q k hq with hold | ⟨rfl, rfl⟩
      · rcases hholds q' k hq' with hold' | ⟨rfl, rfl⟩
        · exact hi.alone q q' k hold hold'
        · exact hnobody q hold
      · rcases hholds q' k hq' with hold' | ⟨rfl, -⟩
        · exact (hnobody q' hold').symm
        · rfl
    · rcases List.mem_append.mp hl with hl | hl
      · exact hi.taken l hl
      · obtain rfl := List.mem_singleton.mp hl
        exact hwants
    · rcases eq_or_ne q p with rfl | hne
      · simp at hq
      · simp only [Function.update_of_ne hne] at hq
        refine ⟨(hi.asked q k hq).1, fun hmem => ?_⟩
        rcases List.mem_append.mp hmem with hmem | hmem
        · exact (hi.asked q k hq).2 hmem
        · exact hne (Prod.mk.inj (List.mem_singleton.mp hmem)).2
  | access a =>
    obtain ⟨-, hsys, -⟩ := step_access hs
    -- The one that moves lets go of its locks, and nobody gets one.
    have hwants : ∀ {q k}, a.mover? ≠ some q → k ∈ t.wants q → k ∈ t'.wants q := by
      intro q k ha hk
      obtain ⟨proc, hq, -⟩ := exists_proc_of_mem_wants hk
      exact (wants_prefix_of_access hs ha hq).2.subset hk
    refine ⟨locksOwned_step hi.owned hsys, inTable_step hi.inTable hsys, fun p q h hp hq => ?_,
      fun l hl => ?_, fun p h hp => ?_⟩
    · exact hi.alone p q h (holds_of_access hs hp) (holds_of_access hs hq)
    · obtain ⟨hl, ha⟩ := (mem_taken_of_access hs).mp hl
      exact hwants ha (hi.taken l hl)
    · obtain ⟨hp, ha⟩ := (asked_of_access hs).mp hp
      obtain ⟨hmem, hnot⟩ := hi.asked p h hp
      exact ⟨hwants ha hmem, fun htaken => hnot ((mem_taken_of_access hs).mp htaken).1⟩

end RowSys

end TestOrch
