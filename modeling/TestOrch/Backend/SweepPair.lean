import TestOrch.Core.Effect
import TestOrch.Backend.Maintenance
import TestOrch.Shared.Timedelta

/-!
# A sweep that runs alone

`sweep_stale_hosts` and, on its result, `fail_orphaned_runs`, with any of the calls of
`release_reservation` raising. The pair changes what it should and nothing else, and a second pair
for the same time finds nothing to do. If no datetime lies the maximum age before the time of the
sweep, the first of them raises before it reads a row.
-/

namespace TestOrch

/-- The tables, and the reservations whose release was attempted. -/
structure SweepStore where
  hosts : Inventory
  execs : Executions
  attempts : List String

/-- An exception of the sweep; those of Quali are not told apart. -/
inductive SweepError where
  | code (e : PyError)
  | quali

abbrev Sweep := Eff SweepStore SweepError

section Source

variable (raises : ℕ → Bool)

/-- `QualiClient().release_reservation`; `raises n` tells whether the `n`-th call raises. -/
def releaseReservation (reservation : String) : Sweep Unit := fun s =>
  (if raises s.attempts.length then .error .quali else .ok (),
    { s with attempts := s.attempts ++ [reservation] })

/-- The release for one failed run; an exception is logged. -/
def releaseFor (run : TestExecution) : Sweep Unit :=
  match run.qualiReservationId with
  | some reservation =>
    if reservation ≠ "" then
      Eff.tryExcept (releaseReservation raises reservation) fun _ => pure ()
    else pure ()
  | none => pure ()

/-- The loop over the orphaned runs. The statuses it assigns reach the table with the commit. -/
def releaseEach : List TestExecution → Sweep Unit
  | [] => pure ()
  | run :: rest => do
    releaseFor raises run
    releaseEach rest

def sweepStaleHosts (now : UtcTime) (maxAge : Seconds) : Sweep (List String) := do
  let cutoff ← Eff.lift ((now.before maxAge).mapError SweepError.code)
  let affected ← Eff.gets fun s => (staleHosts s.hosts cutoff).map WorkerHost.hostId
  if affected ≠ [] then
    Eff.modify fun s => { s with hosts := markOffline s.hosts affected }
  pure affected

/-- `fail_orphaned_runs`; its commit happens at the time `clock`. -/
def failOrphanedRuns (clock : ℤ) (hostIds : List String) : Sweep ℕ :=
  if hostIds = [] then pure 0
  else do
    let orphaned ← Eff.gets fun s => orphanedRuns s.execs hostIds
    releaseEach raises orphaned
    if orphaned ≠ [] then
      Eff.modify fun s =>
        { s with execs := failRuns s.execs (orphaned.map TestExecution.testId) clock }
    pure orphaned.length

/-- The sweep: both functions, one on the result of the other. -/
def sweepPair (now : UtcTime) (maxAge : Seconds) (clock : ℤ) : Sweep (List String × ℕ) := do
  let affected ← sweepStaleHosts now maxAge
  let failed ← failOrphanedRuns raises clock affected
  pure (affected, failed)

end Source

/-- The heartbeat was never recorded or is older than `cutoff`; a naive one is read as UTC. -/
def WorkerHost.Stale (h : WorkerHost) (cutoff : ℤ) : Prop :=
  h.lastHeartbeat = none ∨ ∃ hb, h.lastHeartbeat = some hb ∧ hb.instant < cutoff

/-- The run is in flight on one of the hosts. -/
def TestExecution.OrphanedOn (r : TestExecution) (hostIds : List String) : Prop :=
  (r.status = .DISPATCHED ∨ r.status = .RUNNING) ∧ ∃ h ∈ hostIds, r.targetHostId = some h

instance (r : TestExecution) (hostIds : List String) : Decidable (r.OrphanedOn hostIds) :=
  inferInstanceAs (Decidable (_ ∧ _))

/-- What a sweep for the cutoff does that returns `affected` and `failed`. -/
structure Swept (cutoff clock : ℤ) (s : SweepStore) (affected : List String) (failed : ℕ)
    (s' : SweepStore) : Prop where
  nodup : affected.Nodup
  mem_affected : ∀ k, k ∈ affected ↔
    ∃ h, s.hosts.get? k = some h ∧ h.isOnline = true ∧ h.Stale cutoff
  hosts : ∀ k, s'.hosts.get? k =
    (s.hosts.get? k).map fun h => if k ∈ affected then { h with isOnline := false } else h
  execs : ∀ k, s'.execs.get? k = (s.execs.get? k).map fun r =>
    if r.OrphanedOn affected then { r with status := .FAILED, updatedAt := clock } else r
  failed : failed = (s.execs.rows.filter fun r => r.OrphanedOn affected).length
  /-- One attempt for each failed run with a reservation, in the order of the rows. -/
  attempts : s'.attempts = s.attempts ++
    (s.execs.rows.filter fun r => r.OrphanedOn affected).filterMap fun r =>
      r.qualiReservationId.filter (· ≠ "")

variable {raises : ℕ → Bool} {now : UtcTime} {maxAge : Seconds} {clock cutoff : ℤ} {s : SweepStore}
  {hostIds : List String}

/-! ### What the two functions compute -/

lemma reservationsOf_singleton (run : TestExecution) :
    reservationsOf [run] = (run.qualiReservationId.filter (· ≠ "")).toList := by
  rw [reservationsOf, List.filterMap_cons, List.filterMap_nil]
  cases run.qualiReservationId.filter (· ≠ "") <;> rfl

lemma releaseFor_eq (run : TestExecution) : releaseFor raises run s =
    (.ok (), { s with attempts := s.attempts ++ reservationsOf [run] }) := by
  rw [reservationsOf_singleton]
  rcases hres : run.qualiReservationId with _ | reservation
  · simp [releaseFor, hres, pure]
  · by_cases hne : reservation = ""
    · simp [releaseFor, hres, hne, Option.filter_some, pure]
    · cases hr : raises s.attempts.length <;>
        simp [releaseFor, hres, hne, Eff.tryExcept, releaseReservation, hr, Option.filter_some,
          pure]

/-- The loop attempts every release, whichever raise. -/
lemma releaseEach_eq (runs : List TestExecution) : releaseEach raises runs s =
    (.ok (), { s with attempts := s.attempts ++ reservationsOf runs }) := by
  induction runs generalizing s with
  | nil => simp [releaseEach, reservationsOf, pure]
  | cons run rest ih =>
    have hcons : reservationsOf (run :: rest) = reservationsOf [run] ++ reservationsOf rest := by
      simp only [reservationsOf]
      rw [← List.filterMap_append, List.singleton_append]
    simp only [releaseEach, bind, releaseFor_eq, ih, hcons, List.append_assoc]

@[simp] lemma markOffline_nil (hosts : Inventory) : markOffline hosts [] = hosts :=
  Table.modify_eq_self (by simp)

@[simp] lemma failRuns_nil (execs : Executions) : failRuns execs [] clock = execs :=
  Table.modify_eq_self (by simp)

@[simp] lemma orphanedRuns_nil (execs : Executions) : orphanedRuns execs [] = [] := by
  rw [List.eq_nil_iff_forall_not_mem]
  intro r hr
  obtain ⟨-, ⟨h, hh, -⟩, -⟩ := mem_orphanedRuns.mp hr
  exact List.not_mem_nil hh

/-- The names of the hosts that are found stale. -/
def affectedHosts (s : SweepStore) (cutoff : ℤ) : List String :=
  (staleHosts s.hosts cutoff).map WorkerHost.hostId

lemma sweepStaleHosts_eq {cutoff : UtcTime} (h : now.before maxAge = .ok cutoff) :
    sweepStaleHosts now maxAge s =
      (.ok (affectedHosts s cutoff),
        { s with hosts := markOffline s.hosts (affectedHosts s cutoff) }) := by
  rw [sweepStaleHosts, h, Except.mapError, Eff.lift_ok_bind]
  by_cases hnil : staleHosts s.hosts cutoff = []
  · simp [affectedHosts, bind, Eff.gets, hnil, pure]
  · simp [affectedHosts, bind, Eff.gets, Eff.modify, hnil, pure]

lemma failOrphanedRuns_eq : failOrphanedRuns raises clock hostIds s =
    (.ok (orphanedRuns s.execs hostIds).length,
      { s with
        execs := failRuns s.execs ((orphanedRuns s.execs hostIds).map TestExecution.testId) clock
        attempts := s.attempts ++ reservationsOf (orphanedRuns s.execs hostIds) }) := by
  by_cases hhosts : hostIds = []
  · subst hhosts
    simp [failOrphanedRuns, pure, reservationsOf]
  · by_cases hnil : orphanedRuns s.execs hostIds = []
    · simp [failOrphanedRuns, hhosts, bind, Eff.gets, hnil, releaseEach, pure, reservationsOf]
    · simp [failOrphanedRuns, hhosts, bind, Eff.gets, Eff.modify, hnil, releaseEach_eq, pure]

def sweptStore (s : SweepStore) (cutoff clock : ℤ) : SweepStore where
  hosts := markOffline s.hosts (affectedHosts s cutoff)
  execs := failRuns s.execs
    ((orphanedRuns s.execs (affectedHosts s cutoff)).map TestExecution.testId) clock
  attempts := s.attempts ++ reservationsOf (orphanedRuns s.execs (affectedHosts s cutoff))

lemma sweepPair_eq {cutoff : UtcTime} (h : now.before maxAge = .ok cutoff) :
    sweepPair raises now maxAge clock s =
      (.ok (affectedHosts s cutoff, (orphanedRuns s.execs (affectedHosts s cutoff)).length),
        sweptStore s cutoff clock) := by
  simp only [sweepPair, bind, sweepStaleHosts_eq h, failOrphanedRuns_eq]
  rfl

/-- Without a cutoff nothing is read. -/
lemma sweepPair_error {e : PyError} (h : now.before maxAge = .error e) :
    sweepPair raises now maxAge clock s = (.error (.code e), s) := by
  simp only [sweepPair, sweepStaleHosts, bind, h, Except.mapError, Eff.lift]

/-! ### What a sweep changes -/

lemma isStale_iff {h : WorkerHost} : h.isStale cutoff = true ↔ h.Stale cutoff := by
  cases hb : h.lastHeartbeat <;> simp [WorkerHost.isStale, WorkerHost.Stale, hb]

lemma mem_affectedHosts {k : String} : k ∈ affectedHosts s cutoff ↔
    ∃ h, s.hosts.get? k = some h ∧ h.isOnline = true ∧ h.Stale cutoff := by
  simp only [affectedHosts, List.mem_map, mem_staleHosts, isStale_iff]
  constructor
  · rintro ⟨h, ⟨hmem, hon, hstale⟩, rfl⟩
    exact ⟨h, Table.get?_of_mem hmem, hon, hstale⟩
  · rintro ⟨h, hget, hon, hstale⟩
    exact ⟨h, ⟨Table.mem_of_get? hget, hon, hstale⟩, Table.key_of_get? hget⟩

lemma nodup_affectedHosts : (affectedHosts s cutoff).Nodup :=
  s.hosts.nodup.sublist (List.filter_sublist.map _)

lemma active_iff {status : TestStatus} :
    status.active = true ↔ status = .DISPATCHED ∨ status = .RUNNING := by
  cases status <;> simp [TestStatus.active]

lemma mem_orphanedRuns_iff {execs : Executions} {r : TestExecution} :
    r ∈ orphanedRuns execs hostIds ↔ r ∈ execs.rows ∧ r.OrphanedOn hostIds := by
  rw [mem_orphanedRuns, active_iff, TestExecution.OrphanedOn]
  tauto

lemma orphanedRuns_eq_filter (execs : Executions) :
    orphanedRuns execs hostIds = execs.rows.filter fun r => r.OrphanedOn hostIds := by
  apply List.filter_congr
  intro r hr
  rw [Bool.eq_iff_iff, decide_eq_true_iff]
  have hmem : r ∈ orphanedRuns execs hostIds ↔ r ∈ execs.rows ∧ r.OrphanedOn hostIds :=
    mem_orphanedRuns_iff
  rw [orphanedRuns, List.mem_filter, and_congr_right_iff] at hmem
  exact hmem hr

/-- The rows that are failed are the orphaned ones. -/
lemma mem_testIds_iff {execs : Executions} {k : String} {r : TestExecution}
    (hr : execs.get? k = some r) :
    k ∈ (orphanedRuns execs hostIds).map TestExecution.testId ↔ r.OrphanedOn hostIds := by
  rw [List.mem_map]
  constructor
  · rintro ⟨r', hr', rfl⟩
    obtain ⟨hmem, ho⟩ := mem_orphanedRuns_iff.mp hr'
    obtain rfl := Option.some.inj (hr.symm.trans (Table.get?_of_mem hmem))
    exact ho
  · intro ho
    exact ⟨r, mem_orphanedRuns_iff.mpr ⟨Table.mem_of_get? hr, ho⟩, Table.key_of_get? hr⟩

lemma swept (s : SweepStore) (cutoff clock : ℤ) :
    Swept cutoff clock s (affectedHosts s cutoff)
      (orphanedRuns s.execs (affectedHosts s cutoff)).length (sweptStore s cutoff clock) where
  nodup := nodup_affectedHosts
  mem_affected _ := mem_affectedHosts
  hosts k := by
    simp only [sweptStore, get?_markOffline]
    split_ifs <;> simp
  execs k := by
    simp only [sweptStore, get?_failRuns]
    cases hr : s.execs.get? k with
    | none => simp
    | some r =>
      simp only [mem_testIds_iff hr, Option.map_some]
      split_ifs <;> rfl
  failed := by rw [orphanedRuns_eq_filter]
  attempts := by
    rw [← orphanedRuns_eq_filter]
    rfl

/-- No online host is stale after a sweep. -/
lemma affectedHosts_sweptStore : affectedHosts (sweptStore s cutoff clock) cutoff = [] := by
  rw [List.eq_nil_iff_forall_not_mem]
  intro k hk
  obtain ⟨h, hget, hon, hstale⟩ := mem_affectedHosts.mp hk
  rw [(swept s cutoff clock).hosts] at hget
  obtain ⟨row, hrow, rfl⟩ := Option.map_eq_some_iff.mp hget
  by_cases haffected : k ∈ affectedHosts s cutoff
  · rw [if_pos haffected] at hon
    exact Bool.false_ne_true hon
  · rw [if_neg haffected] at hon hstale
    exact haffected (mem_affectedHosts.mpr ⟨row, hrow, hon, hstale⟩)

/-- Where no online host is stale, a sweep changes nothing. -/
lemma sweptStore_of_nil (h : affectedHosts s cutoff = []) : sweptStore s cutoff clock = s := by
  simp [sweptStore, h, reservationsOf]

/-- A store with one host, which never sent a heartbeat. -/
def silentStore : SweepStore where
  hosts := (Table.empty _).put ⟨"h1", true, 0, 1, 0, "", false, none⟩
  execs := .empty _
  attempts := []

end TestOrch
