import Mathlib.Algebra.BigOperators.Group.List.Basic
import Mathlib.Tactic.NormNum
import Mathlib.Tactic.Ring
import TestOrch.Core.Greedy
import TestOrch.System.Placement

/-!
# Calls of `dispatch` one after the other

The row locks make the calls of `dispatch` take turns, so a number of requests with the same needs
is a sequence of calls. Nothing else writes. Each call takes one free slot as long as there is one,
and the calls balance the load.
-/

namespace TestOrch

@[simp] lemma WorkerHost.increment_hostId (h : WorkerHost) : h.increment.hostId = h.hostId := rfl

/-- The inventory with one container more on a host. -/
def reserveOn (hosts : Inventory) (hostId : String) : Inventory :=
  hosts.modify [hostId] WorkerHost.increment WorkerHost.increment_hostId

@[simp] lemma get?_reserveOn (hosts : Inventory) (hostId k : String) :
    (reserveOn hosts hostId).get? k =
      if k = hostId then (hosts.get? k).map WorkerHost.increment else hosts.get? k := by
  simp [reserveOn]

/-- Two bundles ask the same of a host. -/
structure SameNeeds (a b : TestBundleRequest) : Prop where
  emulation : a.requiresEmulation = b.requiresEmulation
  tags : ∀ t, t ∈ a.requiredHwTags ↔ t ∈ b.requiredHwTags

/-- Calls of `dispatch`, one after the other, each with its bundle and what it returned. -/
inductive Calls : World → List (TestBundleRequest × Option String) → World → Prop
  | nil {w} : Calls w [] w
  | cons {w w₁ w' p bundle r rest} (h : dispatch p bundle w = .ok (w₁, r))
      (ht : Calls w₁ rest w') : Calls w ((bundle, r) :: rest) w'

/-- What one call does. It finds no host and changes nothing, or it takes a slot of the placement
and puts the message on its queue. -/
inductive CallEffect (bundle : TestBundleRequest) (w : World) : World → Option String → Prop
  | refused (h : ∀ row ∈ w.hosts.rows, ¬Eligible bundle row) : CallEffect bundle w w none
  | placed {row : WorkerHost} {w' : World} (hrow : Placement w.hosts.rows bundle row)
      (hhosts : w'.hosts = reserveOn w.hosts row.hostId)
      (hqueue : w'.queue = w.queue ++ [⟨"queue_" ++ row.hostId, bundle⟩])
      (hrest : w' = { w with hosts := w'.hosts, queue := w'.queue, locks := w'.locks }) :
      CallEffect bundle w w' (some row.hostId)

/-- The host meets the needs of the bundle, full or not. -/
def Suits (bundle : TestBundleRequest) (h : WorkerHost) : Prop :=
  h.isOnline = true ∧ (bundle.requiresEmulation = true → h.supportsEmulation = true) ∧
    ∀ t ∈ bundle.requiredHwTags, t ∈ h.tagSet

instance (bundle : TestBundleRequest) (h : WorkerHost) : Decidable (Suits bundle h) :=
  inferInstanceAs (Decidable (_ ∧ _ ∧ _))

/-- `max(0, max_containers - active_containers)` of a host that suits the bundle. -/
def freeOf (bundle : TestBundleRequest) (h : WorkerHost) : ℕ :=
  if Suits bundle h then (h.maxContainers - h.activeContainers).toNat else 0

/-- The free slots of the inventory for such a bundle. -/
def freeSlots (bundle : TestBundleRequest) (rows : List WorkerHost) : ℕ :=
  (rows.map (freeOf bundle)).sum

variable {p : ℕ} {bundle needs : TestBundleRequest} {w w₁ w' : World} {r : Option String}
  {calls pre post : List (TestBundleRequest × Option String)} {h : WorkerHost}

/-! ### One call -/

lemma eligible_iff : Eligible bundle h ↔ Suits bundle h ∧ h.activeContainers < h.maxContainers := by
  constructor
  · rintro ⟨hon, hroom, hem, htags⟩
    exact ⟨⟨hon, hem, htags⟩, hroom⟩
  · rintro ⟨⟨hon, hem, htags⟩, hroom⟩
    exact ⟨hon, hroom, hem, htags⟩

lemma SameNeeds.suits (hs : SameNeeds needs bundle) : Suits needs h ↔ Suits bundle h := by
  simp [Suits, hs.emulation, hs.tags]

lemma SameNeeds.eligible (hs : SameNeeds needs bundle) :
    Eligible needs h ↔ Eligible bundle h := by
  rw [eligible_iff, eligible_iff, hs.suits]

/-- The commit of the reservation stores the incremented row. -/
lemma hosts_reserve (p : ℕ) (hmem : h ∈ w.hosts.rows) :
    (w.reserve p h).hosts = reserveOn w.hosts h.hostId := by
  show w.hosts.modify [h.hostId] (h.flush h.increment) (h.flush_hostId h.increment) = _
  apply Table.modify_congr
  intro row hrow hkey
  obtain rfl : row = h :=
    List.inj_on_of_nodup_map w.hosts.nodup hrow hmem (List.mem_singleton.mp hkey)
  exact WorkerHost.flush_self _ _ rfl

/-- What a call that returned has done. -/
lemma CallEffect.of_dispatch (hd : dispatch p bundle w = .ok (w', r)) :
    CallEffect bundle w w' r := by
  obtain ⟨choice, hc, hd⟩ := Except.bind_eq_ok.mp hd
  cases choice with
  | none =>
    obtain ⟨rfl, rfl⟩ := Prod.mk.inj (Except.pure_eq_ok.mp hd)
    exact .refused (not_eligible_of_chooseHost hc)
  | some choice =>
    obtain ⟨row, queue⟩ := choice
    obtain ⟨rfl, rfl⟩ := Prod.mk.inj (Except.pure_eq_ok.mp hd)
    obtain ⟨hmem, -, hqueue, -⟩ := chooseHost_spec hc
    obtain rfl := queueNameFor_ok hqueue
    exact .placed (placement_of_chooseHost w.hosts.nodup hc) (hosts_reserve p hmem) rfl rfl

/-! ### Free slots -/

/-- Where one element of a list counts one less, so does the sum. -/
lemma sum_map_succ {α : Type*} {l : List α} {a : α} {f g : α → ℕ} (hn : l.Nodup) (ha : a ∈ l)
    (hne : ∀ b ∈ l, b ≠ a → g b = f b) (hlt : g a + 1 = f a) :
    (l.map g).sum + 1 = (l.map f).sum := by
  induction l with
  | nil => simp at ha
  | cons b l ih =>
    obtain ⟨hb, hn⟩ := List.nodup_cons.mp hn
    simp only [List.map_cons, List.sum_cons]
    rcases List.mem_cons.mp ha with rfl | ha
    · have hrest : l.map g = l.map f := by
        apply List.map_congr_left
        intro c hc
        exact hne c (List.mem_cons_of_mem _ hc) fun hca => hb (hca ▸ hc)
      rw [hrest]
      omega
    · have hba : b ≠ a := fun hba => hb (hba ▸ ha)
      have := ih hn ha fun c hc => hne c (List.mem_cons_of_mem _ hc)
      rw [hne b List.mem_cons_self hba]
      omega

/-- Without an eligible host there is no free slot. -/
lemma freeSlots_eq_zero {rows : List WorkerHost} (h : ∀ row ∈ rows, ¬Eligible bundle row) :
    freeSlots bundle rows = 0 := by
  rw [freeSlots, List.sum_eq_zero]
  intro n hn
  obtain ⟨row, hrow, rfl⟩ := List.mem_map.mp hn
  have hno := h row hrow
  rw [eligible_iff, not_and] at hno
  rw [freeOf]
  split_ifs with hs
  · have := hno hs
    omega
  · rfl

/-- A placement takes one free slot. -/
lemma freeSlots_placed (hmem : h ∈ w.hosts.rows) (he : Eligible bundle h)
    (hhosts : w'.hosts = reserveOn w.hosts h.hostId) :
    freeSlots bundle w'.hosts.rows + 1 = freeSlots bundle w.hosts.rows := by
  obtain ⟨hs, hroom⟩ := eligible_iff.mp he
  have hs' : Suits bundle h.increment := hs
  rw [hhosts, freeSlots, freeSlots]
  simp only [reserveOn, Table.modify, List.map_map]
  apply sum_map_succ w.hosts.nodup.of_map hmem
  · intro row hrow hne
    have hid : row.hostId ∉ [h.hostId] := fun hid =>
      hne (List.inj_on_of_nodup_map w.hosts.nodup hrow hmem (List.mem_singleton.mp hid))
    rw [Function.comp_apply, if_neg hid]
  · rw [Function.comp_apply, if_pos (by simp), freeOf, freeOf, if_pos hs, if_pos hs']
    show (h.maxContainers - (h.activeContainers + 1)).toNat + 1 = _
    omega

/-- As many calls succeed as there are slots for. -/
lemma Calls.countP_isSome (hcalls : Calls w calls w') (hneeds : ∀ c ∈ calls, SameNeeds needs c.1) :
    calls.countP (fun c => c.2.isSome) = min calls.length (freeSlots needs w.hosts.rows) := by
  induction hcalls with
  | nil => simp
  | @cons w w₁ w' p bundle r rest hd ht ih =>
    have hsame : SameNeeds needs bundle := hneeds (bundle, r) List.mem_cons_self
    have ih := ih fun c hc => hneeds c (List.mem_cons_of_mem _ hc)
    rw [List.countP_cons, List.length_cons, ih]
    cases CallEffect.of_dispatch hd with
    | refused h =>
      have hzero : freeSlots needs w.hosts.rows = 0 :=
        freeSlots_eq_zero fun row hrow he => h row hrow (hsame.eligible.mp he)
      simp [hzero]
    | placed hrow hhosts =>
      have hslots := freeSlots_placed hrow.mem (hsame.eligible.mpr hrow.eligible) hhosts
      simp only [Option.isSome_some, if_true]
      omega

/-! ### What a sequence of calls leaves -/

def messageOf (call : TestBundleRequest × Option String) : Option Message :=
  call.2.map fun hostId => ⟨"queue_" ++ hostId, call.1⟩

/-- The row of a host that was chosen `n` times. -/
def WorkerHost.raised (h : WorkerHost) (n : ℕ) : WorkerHost :=
  { h with activeContainers := h.activeContainers + n }

@[simp] lemma WorkerHost.raised_zero : h.raised 0 = h := by
  simp [WorkerHost.raised]

lemma WorkerHost.raised_increment (n : ℕ) : h.increment.raised n = h.raised (n + 1) := by
  simp only [WorkerHost.raised, WorkerHost.increment, WorkerHost.mk.injEq, true_and, and_true]
  omega

/-- Every host is raised once for each call that returned its name. -/
lemma Calls.get?_hosts (hcalls : Calls w calls w') (k : String) :
    w'.hosts.get? k = (w.hosts.get? k).map fun h =>
      h.raised ((calls.map Prod.snd).count (some k)) := by
  induction hcalls with
  | nil => simp
  | @cons w w₁ w' p bundle r rest hd ht ih =>
    rw [ih, List.map_cons, List.count_cons]
    cases CallEffect.of_dispatch hd with
    | refused h => simp
    | @placed row _ hrow hhosts =>
      rw [hhosts, get?_reserveOn]
      by_cases hk : k = row.hostId
      · subst hk
        rw [if_pos rfl, Option.map_map]
        simp [Function.comp_def, WorkerHost.raised_increment]
      · have hk' : row.hostId ≠ k := fun h => hk h.symm
        simp [hk, hk']

/-- The messages are queued in the order of the calls. -/
lemma Calls.queue_eq (hcalls : Calls w calls w') :
    w'.queue = w.queue ++ calls.filterMap messageOf := by
  induction hcalls with
  | nil => simp
  | cons hd ht ih =>
    rw [ih]
    cases CallEffect.of_dispatch hd with
    | refused h => simp [List.filterMap_cons, messageOf]
    | placed hrow hhosts hqueue => simp [hqueue, messageOf]

/-- Only the hosts, the queue and the locks change. -/
lemma Calls.rest_eq (hcalls : Calls w calls w') :
    w' = { w with hosts := w'.hosts, queue := w'.queue, locks := w'.locks } := by
  induction hcalls with
  | nil => rfl
  | cons hd ht ih =>
    cases CallEffect.of_dispatch hd with
    | refused h => exact ih
    | placed hrow hhosts hqueue hrest =>
      rw [ih, hrest]

/-- No call takes a host above its limit. -/
lemma Calls.within (hcalls : Calls w calls w') {k : String} {row row' : WorkerHost}
    (hrow : w.hosts.get? k = some row) (hrow' : w'.hosts.get? k = some row')
    (hle : row.activeContainers ≤ row.maxContainers) :
    row'.activeContainers ≤ row'.maxContainers := by
  induction hcalls generalizing row with
  | nil =>
    obtain rfl := Option.some.inj (hrow.symm.trans hrow')
    exact hle
  | cons hd ht ih =>
    cases CallEffect.of_dispatch hd with
    | refused h => exact ih hrow hrow' hle
    | @placed chosen _ hplace hhosts =>
      by_cases hk : k = chosen.hostId
      · subst hk
        obtain rfl := Option.some.inj (hrow.symm.trans (Table.get?_of_mem hplace.mem))
        refine @ih row.increment ?_ hrow' ?_
        · rw [hhosts, get?_reserveOn, if_pos rfl, hrow]
          rfl
        · exact hplace.eligible.room
      · refine @ih row ?_ hrow' hle
        rw [hhosts, get?_reserveOn, if_neg hk, hrow]

/-- A sequence of calls is cut at any of them. -/
lemma Calls.cut (hcalls : Calls w (pre ++ (bundle, r) :: post) w') :
    ∃ w₁ w₂, Calls w pre w₁ ∧ CallEffect bundle w₁ w₂ r ∧ Calls w₂ post w' := by
  induction pre generalizing w with
  | nil =>
    cases hcalls with
    | cons hd ht => exact ⟨w, _, .nil, .of_dispatch hd, ht⟩
  | cons c pre ih =>
    cases hcalls with
    | cons hd ht =>
      obtain ⟨w₁, w₂, hpre, heffect, hpost⟩ := ih ht
      exact ⟨w₁, w₂, .cons hd hpre, heffect, hpost⟩

/-- What a sequence of calls with the same needs does. -/
structure SlotsFilled (needs : TestBundleRequest) (w : World)
    (calls : List (TestBundleRequest × Option String)) (w' : World) : Prop where
  /-- Calls succeed as long as there are slots. -/
  successes : calls.countP (fun c => c.2.isSome) = min calls.length (freeSlots needs w.hosts.rows)
  /-- Each call has its effect on what the calls before it have left. -/
  effects : ∀ pre bundle r post, calls = pre ++ (bundle, r) :: post →
    ∃ w₁ w₂, Calls w pre w₁ ∧ CallEffect bundle w₁ w₂ r ∧ Calls w₂ post w'
  within : ∀ k row row', w.hosts.get? k = some row → w'.hosts.get? k = some row' →
    row.activeContainers ≤ row.maxContainers → row'.activeContainers ≤ row'.maxContainers
  /-- A host is raised once for each call that returned its name, and nothing else in it changes. -/
  hosts : ∀ k, w'.hosts.get? k = (w.hosts.get? k).map fun h =>
    h.raised ((calls.map Prod.snd).count (some k))
  queue : w'.queue = w.queue ++ calls.filterMap messageOf
  rest : w' = { w with hosts := w'.hosts, queue := w'.queue, locks := w'.locks }

/-- Calls of `dispatch` with the same needs, one by one, fill the free slots and no more. -/
theorem slots_filled (hcalls : Calls w calls w') (hneeds : ∀ c ∈ calls, SameNeeds needs c.1) :
    SlotsFilled needs w calls w' where
  successes := hcalls.countP_isSome hneeds
  effects := by
    rintro pre bundle r post rfl
    exact hcalls.cut
  within _ _ _ hrow hrow' hle := hcalls.within hrow hrow' hle
  hosts := hcalls.get?_hosts
  queue := hcalls.queue_eq
  rest := hcalls.rest_eq

lemma Counted.of_effect (hc : Counted w.hosts.rows) (heffect : CallEffect bundle w w' r) :
    Counted w'.hosts.rows := by
  cases heffect with
  | refused h => exact hc
  | placed hrow hhosts =>
    rw [hhosts]
    simp only [reserveOn, Table.modify]
    constructor
    · intro h hh
      obtain ⟨row, hmem, rfl⟩ := List.mem_map.mp hh
      have := hc.containers row hmem
      split_ifs
      · show 0 ≤ row.activeContainers + 1
        omega
      · exact this
    · intro h hh
      obtain ⟨row, hmem, rfl⟩ := List.mem_map.mp hh
      split_ifs
      · exact hc.cpu row hmem
      · exact hc.cpu row hmem

lemma hostId_of_effect (heffect : CallEffect bundle w w' r) :
    w'.hosts.rows.map WorkerHost.hostId = w.hosts.rows.map WorkerHost.hostId := by
  cases heffect with
  | refused h => rfl
  | placed hrow hhosts =>
    rw [hhosts]
    exact Table.map_key_modify ..

/-- `dispatch` raises exactly if a host that can take the bundle has a negative count or
utilization, or the name of the host that it chooses is blank. -/
theorem dispatch_returns_iff {p : ℕ} : (∃ r, dispatch p bundle w = .ok r) ↔
    (∀ h ∈ w.hosts.rows, Eligible bundle h → 0 ≤ h.activeContainers ∧ 0 ≤ h.cpuUtilization) ∧
      ∀ h, Placement w.hosts.rows bundle h → strip h.hostId ≠ "" := by
  -- `dispatch` returns when the choice does: the commit of a reservation goes through.
  have hchoose : (∃ r, dispatch p bundle w = .ok r) ↔
      ∃ c, chooseHost w.hosts.rows bundle = .ok c := by
    constructor
    · rintro ⟨⟨w', r⟩, hd⟩
      have hr : Prod.snd <$> dispatch p bundle w = .ok r := Except.map_eq_ok.mpr ⟨_, hd, rfl⟩
      rw [snd_dispatch] at hr
      obtain ⟨c, hc, -⟩ := Except.map_eq_ok.mp hr
      exact ⟨c, hc⟩
    · rintro ⟨c, hc⟩
      have hr : Prod.snd <$> dispatch p bundle w = .ok (c.map fun c => c.1.hostId) := by
        rw [snd_dispatch]
        exact Except.map_eq_ok.mpr ⟨c, hc, rfl⟩
      obtain ⟨r, hd, -⟩ := Except.map_eq_ok.mp hr
      exact ⟨r, hd⟩
  rw [hchoose]
  constructor
  · rintro ⟨c, hc⟩
    obtain ⟨best, hbest, -⟩ := Except.bind_eq_ok.mp hc
    have hcounted := counted_of_lightest hbest
    refine ⟨fun h hh he => ?_, fun h hp hblank => ?_⟩
    · have hmem := mem_survivors.mpr ⟨hh, he⟩
      exact ⟨hcounted.containers h hmem, hcounted.cpu h hmem⟩
    · -- the choice is the placement, and it has a queue
      cases c with
      | none => exact not_eligible_of_chooseHost hc h hp.mem hp.eligible
      | some chosen =>
        obtain ⟨row, queue⟩ := chosen
        obtain rfl := hp.unique (placement_of_chooseHost w.hosts.nodup hc)
        obtain ⟨-, -, hqueue, -⟩ := chooseHost_spec hc
        rw [queueNameFor_of_blank hblank] at hqueue
        cases hqueue
  · rintro ⟨hcounted, hnames⟩
    have hsurvivors : Counted (w.hosts.rows.filter fun h => passesFilter h bundle) :=
      ⟨fun h hh => (hcounted h (mem_survivors.mp hh).1 (mem_survivors.mp hh).2).1,
        fun h hh => (hcounted h (mem_survivors.mp hh).1 (mem_survivors.mp hh).2).2⟩
    rcases lightest_placement bundle w.hosts.nodup hsurvivors with ⟨-, hl⟩ | ⟨row, hrow, hl⟩
    · exact ⟨none, chooseHost_none hl⟩
    · exact ⟨some (row, "queue_" ++ row.hostId), by
        rw [chooseHost_some hl, queueNameFor_of_nonblank (hnames row hrow)]
        rfl⟩

/-- On an inventory whose rows are in order no call of `dispatch` raises. -/
theorem Calls.exists_of_counted (hc : Counted w.hosts.rows)
    (hnames : ∀ k ∈ w.hosts.rows.map WorkerHost.hostId, strip k ≠ "")
    (bundles : List TestBundleRequest) :
    ∃ calls w', Calls w calls w' ∧ calls.map Prod.fst = bundles := by
  induction bundles generalizing w with
  | nil => exact ⟨[], w, .nil, rfl⟩
  | cons bundle rest ih =>
    obtain ⟨⟨w₁, _⟩, hd⟩ := (dispatch_returns_iff (p := 0)).mpr
      ⟨fun h hh _ => ⟨hc.containers h hh, hc.cpu h hh⟩,
        fun h hp => hnames _ (List.mem_map_of_mem hp.mem)⟩
    have heffect := CallEffect.of_dispatch hd
    obtain ⟨calls, w', hcalls, hfst⟩ := ih (hc.of_effect heffect) (by
      rw [hostId_of_effect heffect]
      exact hnames)
    exact ⟨_ :: calls, w', .cons hd hcalls, by rw [List.map_cons, hfst]⟩

/-! ### Balance -/

def scores (bundle : TestBundleRequest) (rows : List WorkerHost) : List ℚ :=
  (rows.filter fun h => passesFilter h bundle).map workload

/-- The difference between the largest and the smallest score of the hosts that pass the filter. -/
def spread (bundle : TestBundleRequest) (rows : List WorkerHost) : ℚ :=
  match (scores bundle rows).argmax id, (scores bundle rows).argmin id with
  | some largest, some smallest => largest - smallest
  | _, _ => 0

lemma spread_le_iff {rows : List WorkerHost} {B : ℚ} (hB : 0 ≤ B) :
    spread bundle rows ≤ B ↔
      ∀ a ∈ scores bundle rows, ∀ b ∈ scores bundle rows, a - b ≤ B := by
  rw [spread]
  cases hmax : (scores bundle rows).argmax id with
  | none =>
    rw [List.argmax_eq_none] at hmax
    simp [hmax, hB]
  | some largest =>
    cases hmin : (scores bundle rows).argmin id with
    | none =>
      rw [List.argmin_eq_none] at hmin
      simp [hmin, hB]
    | some smallest =>
      constructor
      · intro hle a ha b hb
        have hla : a ≤ largest := List.le_of_mem_argmax ha hmax
        have hsb : smallest ≤ b := List.le_of_mem_argmin hb hmin
        exact (sub_le_sub hla hsb).trans hle
      · intro hall
        exact hall _ (List.argmax_mem hmax) _ (List.argmin_mem hmin)

/-- The hosts as places: each carries its workload and is open while it is eligible. -/
def greedyState (needs : TestBundleRequest) (w : World) : Greedy.State String ℚ where
  load k := (w.hosts.get? k).elim 0 workload
  isOpen := {k | ∃ row, w.hosts.get? k = some row ∧ Eligible needs row}

lemma balanced_iff {B : ℚ} (hB : 0 ≤ B) :
    Greedy.Balanced B (greedyState needs w) ↔ spread needs w.hosts.rows ≤ B := by
  rw [spread_le_iff hB]
  constructor
  · intro hbal a ha b hb
    obtain ⟨row, hrow, rfl⟩ := List.mem_map.mp ha
    obtain ⟨row', hrow', rfl⟩ := List.mem_map.mp hb
    obtain ⟨hmem, he⟩ := mem_survivors.mp hrow
    obtain ⟨hmem', he'⟩ := mem_survivors.mp hrow'
    have hget := Table.get?_of_mem hmem
    have hget' := Table.get?_of_mem hmem'
    have := hbal row.hostId ⟨row, hget, he⟩ row'.hostId ⟨row', hget', he'⟩
    simpa [greedyState, hget, hget'] using this
  · rintro hall k ⟨row, hget, he⟩ k' ⟨row', hget', he'⟩
    have hmem := mem_survivors.mpr ⟨Table.mem_of_get? hget, he⟩
    have hmem' := mem_survivors.mpr ⟨Table.mem_of_get? hget', he'⟩
    have := hall _ (List.mem_map_of_mem hmem) _ (List.mem_map_of_mem hmem')
    simpa [greedyState, hget, hget'] using this

lemma workload_le_of_rank {a b : WorkerHost} (h : rank a < rank b) : workload a ≤ workload b := by
  rcases (Prod.Lex.toLex_lt_toLex).mp h with hlt | ⟨heq, -⟩
  · exact hlt.le
  · exact heq.le

lemma workload_increment (h : WorkerHost) : workload h.increment = workload h + 20 := by
  simp only [workload, WorkerHost.increment]
  push_cast
  ring

/-- A placement is a greedy step; its piece is the weight of one container. -/
lemma greedyStep_of_effect (hsame : SameNeeds needs bundle) (heffect : CallEffect bundle w w' r) :
    Relation.ReflTransGen (Greedy.Step 20) (greedyState needs w) (greedyState needs w') := by
  cases heffect with
  | refused h => exact .refl
  | @placed row _ hrow hhosts =>
    apply Relation.ReflTransGen.single
    have hget := Table.get?_of_mem hrow.mem
    have hget' : w'.hosts.get? row.hostId = some row.increment := by
      rw [hhosts, get?_reserveOn, if_pos rfl, hget]
      rfl
    have hother : ∀ k ≠ row.hostId, w'.hosts.get? k = w.hosts.get? k := by
      intro k hk
      rw [hhosts, get?_reserveOn, if_neg hk]
    refine ⟨row.hostId, ⟨row, hget, hsame.eligible.mpr hrow.eligible⟩, ?_, ?_, ?_, ?_⟩
    · -- The placement has the least workload of the hosts that can take the bundle.
      rintro k ⟨row', hrow', he'⟩
      simp only [greedyState, hget, hrow', Option.elim_some]
      by_cases heq : row' = row
      · rw [heq]
      · exact workload_le_of_rank
          (hrow.least row' (Table.mem_of_get? hrow') (hsame.eligible.mp he') heq)
    · rintro k ⟨row', hrow', he'⟩
      by_cases hk : k = row.hostId
      · subst hk
        exact ⟨row, hget, hsame.eligible.mpr hrow.eligible⟩
      · exact ⟨row', (hother k hk).symm.trans hrow', he'⟩
    · simp only [greedyState, hget, hget', Option.elim_some]
      exact workload_increment row
    · intro k hk
      simp only [greedyState, hother k hk]

lemma Calls.greedy (hcalls : Calls w calls w') (hneeds : ∀ c ∈ calls, SameNeeds needs c.1) :
    Relation.ReflTransGen (Greedy.Step 20) (greedyState needs w) (greedyState needs w') := by
  induction hcalls with
  | nil => exact .refl
  | cons hd ht ih =>
    have hstep := greedyStep_of_effect (hneeds _ List.mem_cons_self) (.of_dispatch hd)
    exact hstep.trans (ih fun c hc => hneeds c (List.mem_cons_of_mem _ hc))

/-- Whatever the loads at the start, the scores of the hosts that still pass the filter differ by no
more than before, or than the weight of one container. -/
theorem spread_le (hcalls : Calls w calls w') (hneeds : ∀ c ∈ calls, SameNeeds needs c.1) :
    spread needs w'.hosts.rows ≤ max (spread needs w.hosts.rows) 20 := by
  have hpos : (0 : ℚ) ≤ max (spread needs w.hosts.rows) 20 := le_max_of_le_right (by norm_num)
  have hinit : Greedy.Balanced (max (spread needs w.hosts.rows) 20) (greedyState needs w) :=
    (balanced_iff hpos).mpr (le_max_left _ _)
  exact (balanced_iff hpos).mp (hinit.run (by norm_num) (le_max_right _ _) (hcalls.greedy hneeds))

lemma SameNeeds.refl (bundle : TestBundleRequest) : SameNeeds bundle bundle := ⟨rfl, fun _ => .rfl⟩

/-- Three calls on two hosts with a free slot each. -/
lemma twoHosts_calls : ∃ calls w', Calls twoHosts calls w' ∧
    calls.map Prod.fst = List.replicate 3 sampleBundle ∧
      ∀ c ∈ calls, SameNeeds sampleBundle c.1 := by
  obtain ⟨calls, w', hcalls, hfst⟩ := Calls.exists_of_counted (w := twoHosts)
    ⟨by decide +kernel, by decide +kernel⟩ (by decide +kernel) (List.replicate 3 sampleBundle)
  refine ⟨calls, w', hcalls, hfst, ?_⟩
  intro c hc
  have hmem : c.1 ∈ calls.map Prod.fst := List.mem_map_of_mem hc
  rw [hfst] at hmem
  rw [List.eq_of_mem_replicate hmem]
  exact .refl sampleBundle

theorem twoHosts_filled : ∃ calls w', calls.map Prod.fst = List.replicate 3 sampleBundle ∧
    SlotsFilled sampleBundle twoHosts calls w' := by
  obtain ⟨calls, w', hcalls, hfst, hneeds⟩ := twoHosts_calls
  exact ⟨calls, w', hfst, slots_filled hcalls hneeds⟩

theorem twoHosts_spread : ∃ calls w', Calls twoHosts calls w' ∧
    calls.map Prod.fst = List.replicate 3 sampleBundle ∧
      spread sampleBundle w'.hosts.rows ≤ max (spread sampleBundle twoHosts.hosts.rows) 20 := by
  obtain ⟨calls, w', hcalls, hfst, hneeds⟩ := twoHosts_calls
  exact ⟨calls, w', hcalls, hfst, spread_le hcalls hneeds⟩

end TestOrch
