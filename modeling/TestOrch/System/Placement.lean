import Mathlib.Logic.Relation
import TestOrch.System.Step

/-!
# The chosen host

Two functions place a bundle: `select_host`, which only reads, and `dispatch`, which locks the rows
first. Both choose the host that is least in workload and name among those that can take the bundle,
whatever the order of the rows. They differ only where this host has a blank name: `dispatch` cannot
name its queue and raises.
-/

namespace TestOrch

structure Eligible (bundle : TestBundleRequest) (h : WorkerHost) : Prop where
  online : h.isOnline = true
  room : h.activeContainers < h.maxContainers
  emulation : bundle.requiresEmulation = true → h.supportsEmulation = true
  tags : ∀ t ∈ bundle.requiredHwTags, t ∈ h.tagSet

def workload (h : WorkerHost) : ℚ := 20 * h.activeContainers + h.cpuUtilization

/-- Hosts are ranked by workload, then by name. -/
def rank (h : WorkerHost) : ℚ ×ₗ String := toLex (workload h, h.hostId)

/-- `h` is the placement of the bundle: strictly least among the hosts that can take it. -/
structure Placement (rows : List WorkerHost) (bundle : TestBundleRequest) (h : WorkerHost) :
    Prop where
  mem : h ∈ rows
  eligible : Eligible bundle h
  least : ∀ h' ∈ rows, Eligible bundle h' → h' ≠ h → rank h < rank h'

/-- The counts and utilisations of the rows are not negative. -/
structure Counted (rows : List WorkerHost) : Prop where
  containers : ∀ h ∈ rows, 0 ≤ h.activeContainers
  cpu : ∀ h ∈ rows, 0 ≤ h.cpuUtilization

/-- The committed reservation of a slot on the locked row `chosen`. -/
def World.reserve (w : World) (p : ℕ) (chosen : WorkerHost) : World :=
  World.unlock { w.lockAll p with
    hosts := w.hosts.modify [chosen.hostId] (chosen.flush chosen.increment)
      (chosen.flush_hostId chosen.increment) } p

/-- `dispatch` by process `p` once it holds the row locks, when its commit and its send succeed. -/
def dispatch (p : ℕ) (bundle : TestBundleRequest) (w : World) :
    Except PyError (World × Option String) := do
  match ← chooseHost w.hosts.rows bundle with
  | none => pure (w, none)
  | some (chosen, queue) =>
    let reserved := w.reserve p chosen
    pure ({ reserved with queue := reserved.queue ++ [⟨queue, bundle⟩] }, some chosen.hostId)

section Ranking

variable {rows rows' survivors : List WorkerHost} {bundle : TestBundleRequest} {h h' : WorkerHost}

lemma passesFilter_iff_eligible : passesFilter h bundle = true ↔ Eligible bundle h := by
  rw [passesFilter_iff]
  constructor
  · rintro ⟨hon, hroom, hem, htags⟩
    exact ⟨hon, hroom, hem, htags⟩
  · rintro ⟨hon, hroom, hem, htags⟩
    exact ⟨hon, hroom, hem, htags⟩

lemma mem_survivors :
    h ∈ rows.filter (fun h => passesFilter h bundle) ↔ h ∈ rows ∧ Eligible bundle h := by
  rw [List.mem_filter, passesFilter_iff_eligible]

lemma Counted.perm (hc : Counted rows) (hp : rows'.Perm rows) : Counted rows' where
  containers h hh := hc.containers h (hp.mem_iff.mp hh)
  cpu h hh := hc.cpu h (hp.mem_iff.mp hh)

lemma Counted.filter (hc : Counted rows) (f : WorkerHost → Bool) : Counted (rows.filter f) where
  containers h hh := hc.containers h (List.mem_of_mem_filter hh)
  cpu h hh := hc.cpu h (List.mem_of_mem_filter hh)

/-- The assertions of `_workload_score` hold of a counted row. -/
lemma workloadScore_eq (ha : 0 ≤ h.activeContainers) (hc : 0 ≤ h.cpuUtilization) :
    workloadScore h = .ok (workload h) := by
  have ha' : (0 : ℚ) ≤ h.activeContainers := by exact_mod_cast ha
  have hscore : (h.activeContainers * 20 + h.cpuUtilization : ℚ) = workload h := by
    rw [workload, mul_comm]
  have hpos : 0 ≤ workload h := add_nonneg (mul_nonneg (by decide) ha') hc
  unfold workloadScore
  rw [if_neg (not_lt.mpr ha), if_neg (not_lt.mpr hc)]
  simp only [hscore]
  rw [if_neg (not_lt.mpr hpos)]

lemma lightest_eq (hc : Counted survivors) :
    lightest survivors =
      .ok ((survivors.map fun h => (workload h, h)).argmin rankKey) := by
  have hscore : ∀ h ∈ survivors, scoreRow h = .ok (workload h, h) := by
    intro h hh
    rw [scoreRow, workloadScore_eq (hc.containers h hh) (hc.cpu h hh)]
    rfl
  rw [lightest, Except.mapM_eq_ok_map hscore]
  rfl

/-- Without survivors there is no choice; otherwise the choice is a survivor of least rank. -/
lemma lightest_spec (hc : Counted survivors) :
    (survivors = [] ∧ lightest survivors = .ok none) ∨
      ∃ h ∈ survivors, lightest survivors = .ok (some (workload h, h)) ∧
        ∀ h' ∈ survivors, rank h ≤ rank h' := by
  rw [lightest_eq hc]
  cases hmin : (survivors.map fun h => (workload h, h)).argmin rankKey with
  | none =>
    left
    rw [List.argmin_eq_none, List.map_eq_nil_iff] at hmin
    exact ⟨hmin, rfl⟩
  | some best =>
    right
    obtain ⟨h, hh, rfl⟩ := List.mem_map.mp (List.argmin_mem hmin)
    refine ⟨h, hh, rfl, ?_⟩
    intro h' hh'
    have hmem : (workload h', h') ∈ survivors.map fun h => (workload h, h) :=
      List.mem_map_of_mem hh'
    show rankKey (workload h, h) ≤ rankKey (workload h', h')
    exact List.le_of_mem_argmin hmem hmin

/-- Two rows of one table have different ranks. -/
lemma rank_ne (hn : (rows.map WorkerHost.hostId).Nodup) (hh : h ∈ rows) (hh' : h' ∈ rows)
    (hne : h' ≠ h) : rank h ≠ rank h' := by
  intro heq
  have hid : h'.hostId = h.hostId := by
    have := congrArg (fun r => (ofLex r).2) heq
    exact this.symm
  exact hne (List.inj_on_of_nodup_map hn hh' hh hid)

lemma Placement.unique (ha : Placement rows bundle h) (hb : Placement rows bundle h') : h = h' := by
  by_contra hne
  exact lt_asymm (ha.least h' hb.mem hb.eligible (Ne.symm hne))
    (hb.least h ha.mem ha.eligible hne)

/-- Whether a host is the placement does not depend on the order of the rows. -/
lemma Placement.perm (hp : rows'.Perm rows) (hh : Placement rows bundle h) :
    Placement rows' bundle h where
  mem := hp.mem_iff.mpr hh.mem
  eligible := hh.eligible
  least h' hh' := hh.least h' (hp.mem_iff.mp hh')

/-- What both functions take from the ranking: nothing if no host is eligible, else the placement.
-/
lemma lightest_placement (bundle : TestBundleRequest)
    (hn : (rows.map WorkerHost.hostId).Nodup)
    (hc : Counted (rows.filter fun h => passesFilter h bundle)) :
    ((∀ h ∈ rows, ¬Eligible bundle h) ∧
      lightest (rows.filter fun h => passesFilter h bundle) = .ok none) ∨
    ∃ h, Placement rows bundle h ∧
      lightest (rows.filter fun h => passesFilter h bundle) = .ok (some (workload h, h)) := by
  rcases lightest_spec hc with ⟨hnil, hnone⟩ | ⟨h, hh, hsome, hle⟩
  · left
    refine ⟨?_, hnone⟩
    intro h hh he
    have hmem := mem_survivors.mpr ⟨hh, he⟩
    rw [hnil] at hmem
    exact List.not_mem_nil hmem
  · right
    obtain ⟨hmem, he⟩ := mem_survivors.mp hh
    refine ⟨h, ⟨hmem, he, ?_⟩, hsome⟩
    intro h' hh' he' hne
    exact lt_of_le_of_ne (hle h' (mem_survivors.mpr ⟨hh', he'⟩)) (rank_ne hn hmem hh' hne)

/-- Where a lightest row is found, the assertions hold of every survivor. -/
lemma counted_of_lightest {best : Option (ℚ × WorkerHost)} (hl : lightest survivors = .ok best) :
    Counted survivors := by
  obtain ⟨scored, hscored, -⟩ := Except.bind_eq_ok.mp hl
  have hscore : ∀ h ∈ survivors, ∃ score, workloadScore h = .ok score := by
    intro h hh
    obtain ⟨row, hrow⟩ := Except.exists_ok_of_mapM hscored h hh
    obtain ⟨score, hs, -⟩ := Except.bind_eq_ok.mp hrow
    exact ⟨score, hs⟩
  constructor
  · intro h hh
    obtain ⟨score, hs⟩ := hscore h hh
    exact activeContainers_nonneg hs
  · intro h hh
    obtain ⟨score, hs⟩ := hscore h hh
    unfold workloadScore at hs
    split_ifs at hs with ha hc
    exact not_lt.mp hc

/-- The row that `dispatch` chooses is the placement. -/
lemma placement_of_chooseHost {queue : String} (hn : (rows.map WorkerHost.hostId).Nodup)
    (hc : chooseHost rows bundle = .ok (some (h, queue))) : Placement rows bundle h := by
  obtain ⟨best, hbest, hc⟩ := Except.bind_eq_ok.mp hc
  have hcounted := counted_of_lightest hbest
  rcases lightest_spec hcounted with ⟨-, hnone⟩ | ⟨least, hleast, hsome, hle⟩
  · obtain rfl := Except.ok.inj (hnone.symm.trans hbest)
    simp at hc
  · obtain rfl := Except.ok.inj (hsome.symm.trans hbest)
    obtain ⟨q, -, hc⟩ := Except.bind_eq_ok.mp hc
    simp only [Except.pure_eq_ok, Option.some.injEq, Prod.mk.injEq] at hc
    obtain ⟨rfl, -⟩ := hc
    obtain ⟨hmem, he⟩ := mem_survivors.mp hleast
    refine ⟨hmem, he, ?_⟩
    intro h' hh' he' hne
    exact lt_of_le_of_ne (hle h' (mem_survivors.mpr ⟨hh', he'⟩)) (rank_ne hn hmem hh' hne)

/-- `dispatch` finds nothing only where no host is eligible. -/
lemma not_eligible_of_chooseHost (hc : chooseHost rows bundle = .ok none) :
    ∀ h ∈ rows, ¬Eligible bundle h := by
  obtain ⟨best, hbest, hc⟩ := Except.bind_eq_ok.mp hc
  rcases lightest_spec (counted_of_lightest hbest) with ⟨hnil, -⟩ | ⟨least, -, hsome, -⟩
  · intro h hh he
    have hmem := mem_survivors.mpr ⟨hh, he⟩
    rw [hnil] at hmem
    exact List.not_mem_nil hmem
  · obtain rfl := Except.ok.inj (hsome.symm.trans hbest)
    obtain ⟨q, -, hc⟩ := Except.bind_eq_ok.mp hc
    simp at hc

lemma selectHost_none (hl : lightest (rows.filter fun h => passesFilter h bundle) = .ok none) :
    selectHost rows bundle = .ok none := by
  simp only [selectHost, hl]
  rfl

/-- The placement is among the survivors, so the closing assertion of `select_host` holds. -/
lemma selectHost_some (hp : Placement rows bundle h)
    (hl : lightest (rows.filter fun h => passesFilter h bundle) = .ok (some (workload h, h))) :
    selectHost rows bundle = .ok (some ⟨h.hostId, workload h⟩) := by
  have hany : ((rows.filter fun h => passesFilter h bundle).any
      fun r => r.hostId = h.hostId) = true := by
    rw [List.any_eq_true]
    exact ⟨h, mem_survivors.mpr ⟨hp.mem, hp.eligible⟩, by simp⟩
  simp only [selectHost, hl]
  exact if_pos hany

lemma chooseHost_none (hl : lightest (rows.filter fun h => passesFilter h bundle) = .ok none) :
    chooseHost rows bundle = .ok none := by
  rw [chooseHost, hl]
  rfl

lemma chooseHost_some
    (hl : lightest (rows.filter fun h => passesFilter h bundle) = .ok (some (workload h, h))) :
    chooseHost rows bundle = (fun queue => some (h, queue)) <$> queueNameFor h.hostId := by
  simp only [chooseHost, hl, bind, Except.bind]
  cases queueNameFor h.hostId <;> rfl

end Ranking

lemma queueNameFor_of_blank {hostId : String} (hb : strip hostId = "") :
    queueNameFor hostId = .error (.valueError "host_id must not be empty") := by
  simp only [queueNameFor, requireNonEmptyStr, hb]
  rfl

lemma queueNameFor_of_nonblank {hostId : String} (hb : strip hostId ≠ "") :
    queueNameFor hostId = .ok ("queue_" ++ hostId) := by
  rw [queueNameFor, requireNonEmptyStr_str ⟨hostId, hb⟩]
  rfl

section Agreement

variable {p : ℕ} {bundle : TestBundleRequest} {w w' : World} {h : WorkerHost}

/-- `dispatch` returns what it chose, or raises what the choice raised. -/
lemma snd_dispatch : Prod.snd <$> dispatch p bundle w =
    (Option.map fun c => c.1.hostId) <$> chooseHost w.hosts.rows bundle := by
  rw [dispatch]
  rcases chooseHost w.hosts.rows bundle with e | c | ⟨chosen, queue⟩
  · rfl
  · rfl
  · rfl

def Succeeds (p : ℕ) (bundle : TestBundleRequest) (a b : World × SubmitPc) : Prop :=
  submitStep p bundle a.1 a.2 (.ok none) = some b

lemma lockAll_blocked (hostId : String) : (w.lockAll p).blocked p hostId = w.blocked p hostId := by
  simp [World.blocked, World.lockAll, List.any_append]

/-- The reservation is the commit of the incremented row under the locks of `dispatch`. -/
lemma commitHost_lockAll (hfree : w.blocked p h.hostId = false) :
    (w.lockAll p).commitHost p h.hostId h h.increment = some (w.reserve p h) := by
  rw [World.commitHost, lockAll_blocked, hfree]
  rfl

/-- A submission that waits for no lock goes through `dispatch` to what it returns. -/
lemma dispatch_steps (hfree : ∀ h ∈ w.hosts.rows, w.blocked p h.hostId = false)
    {chosen : Option String} (hd : dispatch p bundle w = .ok (w', chosen)) :
    Relation.ReflTransGen (Succeeds p bundle) (w, .select) (w', .close chosen) := by
  have hany : (w.hosts.rows.any fun h => w.blocked p h.hostId) = false := by
    simpa using hfree
  obtain ⟨choice, hc, hd⟩ := Except.bind_eq_ok.mp hd
  have hselect : submitStep p bundle w .select (.ok none) = stepSelect p bundle w := rfl
  rw [stepSelect, hany] at hselect
  cases choice with
  | none =>
    obtain ⟨rfl, rfl⟩ := Prod.mk.inj (Except.pure_eq_ok.mp hd)
    apply Relation.ReflTransGen.single
    show submitStep p bundle w .select (.ok none) = _
    rw [hselect, hc]
    rfl
  | some choice =>
    obtain ⟨host, queue⟩ := choice
    obtain ⟨rfl, rfl⟩ := Prod.mk.inj (Except.pure_eq_ok.mp hd)
    obtain ⟨hmem, -⟩ := chooseHost_spec hc
    have h₁ : Succeeds p bundle (w, .select) (w.lockAll p, .reserve host queue) := by
      show submitStep p bundle w .select (.ok none) = _
      rw [hselect, hc]
      rfl
    have h₂ : Succeeds p bundle (w.lockAll p, .reserve host queue)
        (w.reserve p host, .send host.increment queue) := by
      show ((w.lockAll p).commitHost p host.hostId host host.increment).map _ = _
      rw [commitHost_lockAll (hfree host hmem)]
      rfl
    exact ((Relation.ReflTransGen.single h₁).tail h₂).tail rfl

end Agreement

instance (bundle : TestBundleRequest) (h : WorkerHost) : Decidable (Eligible bundle h) :=
  decidable_of_iff _ passesFilter_iff_eligible

/-- In whatever order the rows come, `select_host` returns the placement, or nothing when no host
is eligible, and `dispatch` returns the same; only for a placement with a blank name it raises. -/
theorem placement_agrees {rows : List WorkerHost} {w : World} (hp : rows.Perm w.hosts.rows)
    (hc : Counted w.hosts.rows) (p : ℕ) (bundle : TestBundleRequest) :
    (selectHost rows bundle = .ok none ↔ ∀ h ∈ w.hosts.rows, ¬Eligible bundle h) ∧
    ((∀ h ∈ w.hosts.rows, ¬Eligible bundle h) →
      Prod.snd <$> dispatch p bundle w = .ok none) ∧
    ((∃ h ∈ w.hosts.rows, Eligible bundle h) → ∃! h, Placement w.hosts.rows bundle h) ∧
    ∀ h, Placement w.hosts.rows bundle h →
      selectHost rows bundle = .ok (some ⟨h.hostId, workload h⟩) ∧
      (strip h.hostId ≠ "" → Prod.snd <$> dispatch p bundle w = .ok (some h.hostId)) ∧
      (strip h.hostId = "" →
        Prod.snd <$> dispatch p bundle w = .error (.valueError "host_id must not be empty")) := by
  -- The rows come in the order of the query or of the lock; the placement is the same.
  have hn : (rows.map WorkerHost.hostId).Nodup := (hp.map _).nodup_iff.mpr w.hosts.nodup
  have hrows := lightest_placement bundle hn ((hc.perm hp).filter _)
  have hlocked := lightest_placement bundle w.hosts.nodup (hc.filter _)
  have hsome : ∀ h, Placement w.hosts.rows bundle h →
      selectHost rows bundle = .ok (some ⟨h.hostId, workload h⟩) := by
    intro h hh
    rcases hrows with ⟨hnone, -⟩ | ⟨h', hh', hl⟩
    · exact absurd hh.eligible (hnone h (hp.mem_iff.mpr hh.mem))
    · obtain rfl := (hh.perm hp).unique hh'
      exact selectHost_some hh' hl
  refine ⟨⟨?_, ?_⟩, ?_, ?_, ?_⟩
  · -- Where nothing is eligible both return nothing.
    intro hsel h hh he
    rcases hlocked with ⟨hnone, -⟩ | ⟨h', hh', -⟩
    · exact hnone h hh he
    · rw [hsome h' hh'] at hsel
      cases hsel
  · intro hnone
    rcases hrows with ⟨-, hl⟩ | ⟨h, hh, -⟩
    · exact selectHost_none hl
    · exact absurd hh.eligible (hnone h (hp.mem_iff.mp hh.mem))
  · intro hnone
    rcases hlocked with ⟨-, hl⟩ | ⟨h, hh, -⟩
    · rw [snd_dispatch, chooseHost_none hl]
      rfl
    · exact absurd hh.eligible (hnone h hh.mem)
  · -- Where something is, there is one placement, and both return it.
    rintro ⟨h, hh, he⟩
    rcases hlocked with ⟨hnone, -⟩ | ⟨h', hh', -⟩
    · exact absurd he (hnone h hh)
    · exact ⟨h', hh', fun h'' hh'' => hh''.unique hh'⟩
  · intro h hh
    rcases hlocked with ⟨hnone, -⟩ | ⟨h', hh', hl⟩
    · exact absurd hh.eligible (hnone h hh.mem)
    · obtain rfl := hh.unique hh'
      refine ⟨hsome h hh, ?_, ?_⟩
      · intro hb
        rw [snd_dispatch, chooseHost_some hl, queueNameFor_of_nonblank hb]
        rfl
      · intro hb
        rw [snd_dispatch, chooseHost_some hl, queueNameFor_of_blank hb]
        rfl

def twoHosts : World :=
  { (Sys.single idleHost).world with
    hosts := ⟨[idleHost,
      { idleHost with hostId := "g", activeContainers := 1, maxContainers := 2 }],
      by decide⟩ }

theorem twoHosts_agree :
    selectHost twoHosts.hosts.rows.reverse sampleBundle = .ok (some ⟨"h", 0⟩) ∧
      Prod.snd <$> dispatch 0 sampleBundle twoHosts = .ok (some "h") := by
  have hcounted : Counted twoHosts.hosts.rows := ⟨by decide +kernel, by decide +kernel⟩
  have hplace : Placement twoHosts.hosts.rows sampleBundle idleHost :=
    ⟨by decide +kernel, by decide +kernel, by decide +kernel⟩
  obtain ⟨-, -, -, h⟩ := placement_agrees (List.reverse_perm _) hcounted 0 sampleBundle
  obtain ⟨hsel, hdis, -⟩ := h idleHost hplace
  exact ⟨hsel.trans (by decide +kernel), hdis (by decide)⟩

/-- `select_host` returns a host with a blank name, and `dispatch` raises. -/
theorem blankHost_disagrees :
    ¬ ∀ (w : World) (p : ℕ) (bundle : TestBundleRequest), Counted w.hosts.rows →
      Prod.snd <$> dispatch p bundle w =
        (Option.map RankedHost.hostId) <$> selectHost w.hosts.rows bundle := by
  intro h
  have h := h (Sys.single { idleHost with hostId := "" }).world 0 sampleBundle
    ⟨by decide +kernel, by decide +kernel⟩
  revert h
  decide +kernel

end TestOrch
