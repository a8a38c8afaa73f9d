import TestOrch.System.RowLocks

/-!
# Deadlocks

If every locking read gets its row locks in the order of the primary keys, as the sweeps do, nobody
waits for itself through others, and behind everybody who waits stands a process that can go on. A
locking read in another order can deadlock with a sweep.
-/

namespace TestOrch

open Transition

variable {t t' : RowSys} {w : World} {p q : ℕ} {proc : Proc} {a : Act} {h k : String}

/-! ### Going on -/

lemma World.isSome_commitHost {loaded new : WorkerHost} (hfree : w.blocked p h = false) :
    (w.commitHost p h loaded new).isSome = true := by
  simp [World.commitHost, hfree]

lemma isSome_stepSelect {bundle : TestBundleRequest}
    (hfree : ∀ row ∈ w.hosts.rows, w.blocked p row.hostId = false) :
    (stepSelect p bundle w).isSome = true := by
  rw [stepSelect, if_neg (by simpa using hfree)]
  split <;> rfl

/-- A process whose rows nobody else has locked is not held up. -/
lemma Proc.isSome_step_of_wants (hwants : proc.wants w ≠ [])
    (hfree : ∀ k ∈ proc.wants w, w.blocked p k = false) :
    (proc.step p w (.ok none)).isSome = true := by
  cases proc with
  | submit bundle pc =>
    cases pc with
    | select =>
      rw [Proc.step, submitStep, Option.isSome_map]
      exact isSome_stepSelect fun row hrow => hfree _ (List.mem_map_of_mem hrow)
    | undo row =>
      simp only [wants] at hwants hfree
      split_ifs at hwants hfree with hpos
      · simp [Proc.step, submitStep, hpos, World.isSome_commitHost (hfree _ List.mem_cons_self)]
      · exact absurd rfl hwants
    | _ => exact absurd rfl hwants
  | task task =>
    cases hpc : task.pc <;> simp only [wants, hpc, ne_eq, not_true_eq_false] at hwants hfree
    case decrementCommit row =>
      simp [Proc.step, taskStep, hpc, World.isSome_commitHost (hfree _ List.mem_cons_self)]
  | heartbeat hostId cpu pc =>
    cases pc with
    | commit live loaded now =>
      cases loaded with
      | some loaded =>
        simp [Proc.step, heartbeatStep, World.isSome_commitHost (hfree _ List.mem_cons_self)]
      | none => exact absurd rfl hwants
    | _ => exact absurd rfl hwants
  | update form pc =>
    cases pc with
    | commit loaded =>
      simp [Proc.step, updateStep, World.isSome_commitHost (hfree _ List.mem_cons_self)]
    | _ => exact absurd rfl hwants
  | sweep maxAge pc =>
    cases pc with
    | mark cutoff affected =>
      have hany : ((affected.map WorkerHost.hostId).any fun k => w.blocked p k) = false :=
        List.any_eq_false.mpr fun k hk => by rw [hfree k hk]; exact Bool.false_ne_true
      simp [Proc.step, sweepStep, hany]
    | _ => exact absurd rfl hwants
  | reap hostId pc => exact absurd rfl hwants
  | dead was => exact absurd rfl hwants

/-- A request with an open transaction has the row locked that it writes. -/
lemma Proc.isSome_step_of_inTransaction (htx : proc.inTransaction = true)
    (hfree : ∀ k, w.blocked p k = false) : (proc.step p w (.ok none)).isSome = true := by
  cases proc with
  | submit bundle pc =>
    cases pc with
    | reserve chosen queue =>
      simp [Proc.step, submitStep, World.isSome_commitHost (hfree _)]
    | close chosen => simp [Proc.step, submitStep]
    | _ => simp [Proc.inTransaction, SubmitPc.inTransaction] at htx
  | _ => simp [Proc.inTransaction] at htx

namespace RowSys

/-! ### Locks in the order of the keys -/

/-- Where the row of a host stands in the table. -/
def rank (t : RowSys) (h : String) : ℕ := t.sys.world.hostIds.idxOf h

/-- Who has a lock, or waits for one, has all the locks that come before. -/
structure Ordered (t : RowSys) : Prop where
  taken : ∀ l ∈ t.taken, ∀ k ∈ t.wants l.2, t.rank k < t.rank l.1 → (k, l.2) ∈ t.taken
  asked : ∀ p h, t.asked p = some h → ∀ k ∈ t.wants p, t.rank k < t.rank h → (k, p) ∈ t.taken

lemma pairwise_rank (t : RowSys) : t.sys.world.hostIds.Pairwise fun h k => t.rank h < t.rank k := by
  have hnodup : t.sys.world.hostIds.Nodup := t.sys.world.hosts.nodup
  rw [List.pairwise_iff_getElem]
  intro i j hi hj hij
  rwa [rank, rank, hnodup.idxOf_getElem i hi, hnodup.idxOf_getElem j hj]

/-- The rows are wanted in the order of their keys. -/
lemma Kept.pairwise_wants (hi : t.Kept) (p : ℕ) :
    (t.wants p).Pairwise fun h k => t.rank h < t.rank k := by
  unfold wants
  cases hp : t.sys.procs[p]? with
  | none => exact .nil
  | some proc =>
    rcases hi.inTable p proc hp with hshort | hsub
    · rw [Option.elim_some]
      match proc.wants t.sys.world, hshort with
      | [], _ => exact .nil
      | [h], _ => exact List.pairwise_singleton _ _
    · exact (pairwise_rank t).sublist hsub

/-- Of two rows that a process wants one comes first. -/
lemma Kept.rank_lt_or (hi : t.Kept) (hh : h ∈ t.wants p) (hk : k ∈ t.wants p) (hne : h ≠ k) :
    t.rank h < t.rank k ∨ t.rank k < t.rank h := by
  have hpairwise := hi.pairwise_wants p
  obtain ⟨i, hi, rfl⟩ := List.mem_iff_getElem.mp hh
  obtain ⟨j, hj, rfl⟩ := List.mem_iff_getElem.mp hk
  rcases Nat.lt_trichotomy i j with hij | rfl | hij
  · exact .inl (List.pairwise_iff_getElem.mp hpairwise i j hi hj hij)
  · exact absurd rfl hne
  · exact .inr (List.pairwise_iff_getElem.mp hpairwise j i hj hi hij)

/-- Before the next row in the order of the keys a process has all. -/
lemma Kept.taken_of_next (hi : t.Kept) (hnext : t.next? p = some h) (hk : k ∈ t.wants p)
    (hlt : t.rank k < t.rank h) : (k, p) ∈ t.taken := by
  obtain ⟨-, before, rest, hwants, hbefore⟩ := List.find?_eq_some_iff_append.mp hnext
  have hpairwise := hi.pairwise_wants p
  rw [hwants] at hk hpairwise
  rcases List.mem_append.mp hk with hk | hk
  · simpa using hbefore k hk
  · exfalso
    have htail := (List.pairwise_append.mp hpairwise).2.1
    rcases List.mem_cons.mp hk with rfl | hk
    · exact lt_irrefl _ hlt
    · exact lt_asymm hlt (List.rel_of_pairwise_cons htail hk)

/-- A row that comes before a wanted one after an access came before it already. -/
lemma Kept.before_of_access (hi : t.Kept) (hs : t.step (.access a) = some t')
    (ha : a.mover? ≠ some p) (hh : h ∈ t.wants p) (hk : k ∈ t'.wants p)
    (hlt : t'.rank k < t'.rank h) : k ∈ t.wants p ∧ t.rank k < t.rank h := by
  obtain ⟨proc, hp, hmem⟩ := exists_proc_of_mem_wants hh
  obtain ⟨hwants, -⟩ := wants_prefix_of_access hs ha hp
  obtain ⟨rest, hrest⟩ := hostIds_of_step (step_access hs).2.1
  -- The table only grows at its end.
  have hsame : ∀ {j}, j ∈ t.sys.world.hostIds → t'.rank j = t.rank j := by
    intro j hj
    rw [rank, rank, ← hrest, List.idxOf_append_of_mem hj]
  have hnew : ∀ {j}, j ∉ t.sys.world.hostIds → t.sys.world.hostIds.length ≤ t'.rank j := by
    intro j hj
    rw [rank, ← hrest, List.idxOf_append_of_notMem hj]
    exact Nat.le_add_right _ _
  rcases proc.wants_cases t.sys.world t'.sys.world with heq | ⟨heq, heq'⟩
  · rw [hwants, heq] at hk
    refine ⟨by rwa [wants_of_get hp], ?_⟩
    rcases hi.inTable p proc hp with hshort | hsub
    · -- there is only one row
      have hone : k = h := by
        match proc.wants t.sys.world, hshort, hmem, hk with
        | [_], _, hmem, hk => rw [List.mem_singleton.mp hmem, List.mem_singleton.mp hk]
      exact absurd (hone ▸ hlt) (lt_irrefl _)
    · rwa [hsame (hsub.subset hk), hsame (hsub.subset hmem)] at hlt
  · -- rows that were added come after all that were there
    rw [heq] at hmem
    rw [hsame hmem] at hlt
    by_cases hold : k ∈ t.sys.world.hostIds
    · exact ⟨by rwa [wants_of_get hp, heq], by rwa [hsame hold] at hlt⟩
    · have hlong := hnew hold
      have hshort : t.rank h < t.sys.world.hostIds.length := List.idxOf_lt_length_of_mem hmem
      omega

/-- Asking in the order of the keys keeps the order. -/
theorem ordered_step {act : RowAct} (hi : t.Kept) (ho : t.Ordered) (hg : InOrder t act)
    (hs : t.step act = some t') : t'.Ordered := by
  cases act with
  | request p h =>
    simp only [step] at hs
    split_ifs at hs
    obtain rfl := Option.some.inj hs
    refine ⟨ho.taken, fun q k hq j hj hlt => ?_⟩
    rcases eq_or_ne q p with rfl | hne
    · simp only [Function.update_self, Option.some.injEq] at hq
      subst hq
      -- It asks for the first row that it has not taken.
      exact hi.taken_of_next hg hj hlt
    · simp only [Function.update_of_ne hne] at hq
      exact ho.asked q k hq j hj hlt
  | grant p =>
    obtain ⟨h, hask, hs⟩ := Option.bind_eq_some_iff.mp hs
    split_ifs at hs
    obtain rfl := Option.some.inj hs
    refine ⟨fun l hl k hk hlt => ?_, fun q k hq j hj hlt => ?_⟩
    · rcases List.mem_append.mp hl with hl | hl
      · exact List.mem_append_left _ (ho.taken l hl k hk hlt)
      · obtain rfl := List.mem_singleton.mp hl
        exact List.mem_append_left _ (ho.asked p h hask k hk hlt)
    · rcases eq_or_ne q p with rfl | hne
      · simp at hq
      · simp only [Function.update_of_ne hne] at hq
        exact List.mem_append_left _ (ho.asked q k hq j hj hlt)
  | access a =>
    -- New rows come last in the table, so the order of the others stays.
    refine ⟨fun l hl k hk hlt => ?_, fun p h hp k hk hlt => ?_⟩
    · obtain ⟨hl, ha⟩ := (mem_taken_of_access hs).mp hl
      obtain ⟨hk, hlt⟩ := hi.before_of_access hs ha (hi.taken l hl) hk hlt
      exact (mem_taken_of_access hs).mpr ⟨ho.taken l hl k hk hlt, ha⟩
    · obtain ⟨hp, ha⟩ := (asked_of_access hs).mp hp
      obtain ⟨hk, hlt⟩ := hi.before_of_access hs ha (hi.asked p h hp).1 hk hlt
      exact (mem_taken_of_access hs).mpr ⟨ho.asked p h hp k hk hlt, ha⟩

/-- A request in its transaction asks for no more locks. -/
lemma wants_of_inTransaction (hp : t.sys.procs[p]? = some proc)
    (htx : proc.inTransaction = true) : t.wants p = [] := by
  rw [wants_of_get hp]
  cases proc with
  | submit bundle pc =>
    cases pc with
    | reserve | close => rfl
    | _ => simp [Proc.inTransaction, SubmitPc.inTransaction] at htx
  | _ => simp [Proc.inTransaction] at htx

/-- Everybody waits for a row beyond all that it has locked. -/
lemma Ordered.ranked (ho : t.Ordered) (hi : t.Kept) : t.waitFor.Ranked t.rank := by
  intro p h k hask hold
  obtain ⟨hmem, hnot⟩ := hi.asked p h hask
  rcases hold with hold | hold
  · have hne : k ≠ h := by
      rintro rfl
      exact hnot hold
    refine (hi.rank_lt_or (hi.taken _ hold) hmem hne).resolve_right fun hlt => hnot ?_
    exact ho.taken _ hold h hmem hlt
  · obtain ⟨proc, hp, htx⟩ := hi.owned.owner _ hold
    rw [wants_of_inTransaction hp htx] at hmem
    cases hmem

/-! ### No deadlock -/

lemma Kept.not_blocked (hi : t.Kept) (hold : t.Holds p h) :
    t.sys.world.blocked p h = false := by
  simp only [World.blocked, List.any_eq_false, Bool.and_eq_true, decide_eq_true_eq, not_and,
    not_not]
  rintro ⟨k, q⟩ hl rfl
  exact hi.alone q p k (.inr hl) hold

/-- A process that has a lock or waits for one, and waits for nobody, can go on. -/
lemma Kept.goesOn (hi : t.Kept) (hfree : ∀ q, ¬ t.waitFor.Edge p q)
    (hlock : (t.asked p).isSome = true ∨ ∃ h, t.Holds p h) : t.GoesOn p := by
  cases hask : t.asked p with
  | some h =>
    -- It waits for a lock that nobody holds.
    have hunlocked : t.unlocked p h = true := by
      simp only [unlocked, List.all_eq_true, List.mem_append, decide_eq_true_eq]
      rintro ⟨k, q⟩ hl rfl
      exact absurd ⟨k, hask, hl⟩ (hfree q)
    exact ⟨.grant p, .inl rfl, trivial, by simp [step, hask, hunlocked]⟩
  | none =>
    simp only [hask, Option.isSome_none, Bool.false_eq_true, false_or] at hlock
    obtain ⟨h, hold⟩ := hlock
    rcases hold with hold | hold
    · obtain ⟨proc, hp, hmem⟩ := exists_proc_of_mem_wants (hi.taken _ hold)
      cases hnext : t.next? p with
      | some k =>
        -- there are locks left to ask for
        have hk := List.find?_some hnext
        have hwants := List.mem_of_find?_eq_some hnext
        refine ⟨.request p k, .inr (.inl ⟨k, rfl⟩), hnext, ?_⟩
        simp [step, hask, hwants, hnext, of_decide_eq_true hk]
      | none =>
        -- It has all locks that its access needs.
        have hall : ∀ k ∈ t.wants p, (k, p) ∈ t.taken := by
          simpa [next?, List.find?_eq_none] using hnext
        have hready : t.ready (.advance p (.ok none)) = true := by simpa [ready] using hall
        rw [wants_of_get hp] at hall
        have hstep := Proc.isSome_step_of_wants (List.ne_nil_of_mem hmem)
          fun k hk => hi.not_blocked (.inl (hall k hk))
        refine ⟨.access (.advance p (.ok none)), .inr (.inr rfl), trivial, ?_⟩
        simp [step, hready, TestOrch.step, hp, hstep]
    · -- the transaction of a request is open
      obtain ⟨proc, hp, htx⟩ := hi.owned.owner _ hold
      have hready : t.ready (.advance p (.ok none)) = true := by
        simp [ready, wants_of_inTransaction hp htx]
      have hmine : ∀ k, t.sys.world.blocked p k = false := by
        intro k
        simp only [World.blocked, List.any_eq_false, Bool.and_eq_true, decide_eq_true_eq, not_and,
          not_not]
        exact fun l hl _ => hi.owned.single l hl _ hold
      refine ⟨.access (.advance p (.ok none)), .inr (.inr rfl), trivial, ?_⟩
      simp [step, hready, TestOrch.step, hp, Proc.isSome_step_of_inTransaction htx hmine]

/-- Only processes wait. -/
lemma Kept.finite_asked (hi : t.Kept) : {p | (t.asked p).isSome = true}.Finite := by
  refine (Set.finite_lt_nat t.sys.procs.length).subset fun p hp => ?_
  obtain ⟨h, hask⟩ := Option.isSome_iff_exists.mp hp
  obtain ⟨proc, hproc, -⟩ := exists_proc_of_mem_wants (hi.asked p h hask).1
  exact (List.getElem?_eq_some_iff.mp hproc).1

/-- If locks are asked for in the order of the keys there is no deadlock: the accesses are those of
a run of the system, nobody waits for itself through others, and behind everybody who waits stands
a process that can go on. -/
theorem no_deadlock (hidle : t.Idle) (hr : Reaches step InOrder t t') :
    Reaches TestOrch.step (fun _ _ => True) t.sys t'.sys ∧
      ∀ p, ¬ Relation.TransGen t'.waitFor.Edge p p ∧
        ((t'.asked p).isSome = true →
          ∃ q, Relation.ReflTransGen t'.waitFor.Edge p q ∧ t'.GoesOn q) := by
  have hi : t'.Kept ∧ t'.Ordered := by
    apply hr.invariant (I := fun u => u.Kept ∧ u.Ordered)
    · refine ⟨.of_idle hidle, ?_⟩
      exact ⟨by simp [hidle.taken], fun p h hp => by simp [hidle.asked] at hp⟩
    · exact fun _ _ _ hi hg hs => ⟨kept_step hi.1 hs, ordered_step hi.1 hi.2 hg hs⟩
  have hranked := hi.2.ranked hi.1
  refine ⟨reaches_sys hr, fun p => ⟨WaitFor.acyclic hranked p, fun hask => ?_⟩⟩
  obtain ⟨q, hq, hfree⟩ := WaitFor.exists_free hranked hi.1.finite_asked p
  refine ⟨q, hq, hi.1.goesOn hfree ?_⟩
  rcases Relation.ReflTransGen.cases_tail hq with rfl | ⟨b, -, h, -, hold⟩
  · exact .inl hask
  · exact .inr ⟨h, hold⟩

/-- Two hosts that are online and were never heard of. -/
def silentHosts : RowSys where
  sys := {
    world := ⟨0, ⟨[⟨"h1", true, 0, 1, 0, "", false, none⟩, ⟨"h2", true, 0, 1, 0, "", false, none⟩],
      by simp⟩, [], .empty _, [], [], fun _ => .empty, []⟩
    procs := [] }
  taken := []
  asked _ := none

lemma silentHosts_idle : silentHosts.Idle := ⟨⟨rfl, rfl⟩, rfl, fun _ => rfl⟩

/-- A sweep is about to mark both hosts, and a request is about to read them. -/
def sweepAndDispatch : List RowAct :=
  [.access (.launch (.sweep 0)), .access (.advance 0 (.ok none)), .access (.advance 0 (.ok none)),
    .access (.launch (.submit sampleBundle)), .access (.advance 1 (.ok none))]

/-- The request locks the first row, and the sweep waits for it. -/
def dispatchInOrder : List RowAct :=
  sweepAndDispatch ++ [.request 1 "h1", .grant 1, .request 0 "h1"]

theorem dispatchInOrder_goes_on : ∃ t' : RowSys, t'.asked 0 = some "h1" ∧
    ∃ q, Relation.ReflTransGen t'.waitFor.Edge 0 q ∧ t'.GoesOn q := by
  obtain ⟨t', ht', hp⟩ := exists_reaches_of_guardedRun step InOrder silentHosts dispatchInOrder
    (fun t => t.asked 0 = some "h1") (by decide +kernel)
  have hask := of_decide_eq_true hp
  exact ⟨t', hask, ((no_deadlock silentHosts_idle ht').2 0).2 (Option.isSome_of_mem hask)⟩

/-- The request locks the second row first, and the sweep the first one. -/
def dispatchOutOfOrder : List RowAct :=
  sweepAndDispatch ++ [.request 1 "h2", .grant 1, .request 0 "h1", .grant 0, .request 1 "h1",
    .request 0 "h2"]

/-- Each of the two waits for the other. -/
theorem dispatchOutOfOrder_deadlock : ∃ t' : RowSys,
    Reaches step (fun _ _ => True) silentHosts t' ∧ t'.waitFor.Edge 0 1 ∧ t'.waitFor.Edge 1 0 := by
  obtain ⟨t', ht', hp⟩ := exists_reaches_of_guardedRun step (fun _ _ => True) silentHosts
    dispatchOutOfOrder (fun t => t.asked 0 = some "h2" && t.asked 1 = some "h1" &&
      ("h2", 1) ∈ t.taken && ("h1", 0) ∈ t.taken) (by decide +kernel)
  simp only [Bool.and_eq_true, decide_eq_true_eq] at hp
  obtain ⟨⟨⟨hsweep, hrequest⟩, hsecond⟩, hfirst⟩ := hp
  exact ⟨t', ht', ⟨"h2", hsweep, .inl hsecond⟩, "h1", hrequest, .inl hfirst⟩

end RowSys

end TestOrch
