import Mathlib.Logic.Function.Basic
import TestOrch.Backend.Maintenance
import TestOrch.Worker.DockerEngine

/-!
# The shared state of the deployment

The services share the database, the broker and, on each worker machine, a Docker daemon. A database
session reads rows and later commits them; only the `SELECT ... FOR UPDATE` of `dispatch` takes row
locks, and a commit that writes a row locked by another process waits.
-/

namespace TestOrch

/-- A `worker.run_test_bundle` message, with the bundle that its payload decodes to. -/
structure Message where
  queue : String
  bundle : TestBundleRequest

/-- The state that the processes share. -/
structure World where
  clock : ℤ
  hosts : Inventory
  /-- Locked rows of the inventory, each with the process that holds the lock. -/
  locks : List (String × ℕ)
  execs : Executions
  queue : List Message
  /-- Messages handed to a worker; any of them may be delivered again. -/
  delivered : List Message
  docker : String → Daemon
  /-- The reservations whose release was attempted. -/
  released : List String

namespace World

/-- A row lock of another process than `p` holds up a write to the host. -/
def blocked (w : World) (p : ℕ) (hostId : String) : Bool :=
  w.locks.any fun l => l.1 = hostId && l.2 ≠ p

/-- `SELECT ... FOR UPDATE` on the inventory. The database takes the locks one after the other; the
waits with some of them taken are not part of this model, and nothing but deadlocks depends on them
(`RowSys` has them). -/
def lockAll (w : World) (p : ℕ) : World :=
  { w with locks := w.locks ++ w.hosts.rows.map fun h => (h.hostId, p) }

def unlock (w : World) (p : ℕ) : World := { w with locks := w.locks.filter fun l => l.2 ≠ p }

/-- A commit by `p` of the row of a host, loaded as `loaded` and set to `new`. -/
def commitHost (w : World) (p : ℕ) (hostId : String) (loaded new : WorkerHost) : Option World :=
  if w.blocked p hostId then none
  else some (unlock { w with
    hosts := w.hosts.modify [hostId] (loaded.flush new) (loaded.flush_hostId new) } p)

/-- A commit by `p` that inserts a host row. -/
def insertHost (w : World) (p : ℕ) (row : WorkerHost) : Option World :=
  (w.hosts.insert? row).map fun t => unlock { w with hosts := t } p

/-- A commit by `p` of the row of a test, loaded as `loaded` and set to `new`. -/
def commitRun (w : World) (p : ℕ) (testId : String) (loaded new : TestExecution) : World :=
  unlock { w with
    execs := w.execs.modify [testId] (loaded.flush new w.clock)
      fun r => loaded.flush_testId new r w.clock } p

def setDaemon (w : World) (host : String) (d : Daemon) : World :=
  { w with docker := Function.update w.docker host d }

def tick (w : World) (dt : ℕ) : World := { w with clock := w.clock + dt }

/-- The `i`-th queued message, `m`, is handed out. -/
def handOut (w : World) (i : ℕ) (m : Message) : World :=
  { w with queue := w.queue.eraseIdx i, delivered := w.delivered ++ [m] }

def status (w : World) (testId : String) : Option TestStatus :=
  (w.execs.get? testId).map TestExecution.status

def Offline (w : World) (hostId : String) : Prop :=
  ∃ row, w.hosts.get? hostId = some row ∧ row.isOnline = false

instance (w : World) (hostId : String) : Decidable (w.Offline hostId) :=
  decidable_of_iff ((w.hosts.get? hostId).any fun row => !row.isOnline) <| by
    simp [Offline, Option.any_eq_true]

variable {w w' : World} {p : ℕ}

/-! ### What the commits change -/

@[simp] lemma lockAll_hosts : (w.lockAll p).hosts = w.hosts := rfl

@[simp] lemma lockAll_execs : (w.lockAll p).execs = w.execs := rfl

@[simp] lemma unlock_hosts : (w.unlock p).hosts = w.hosts := rfl

@[simp] lemma unlock_execs : (w.unlock p).execs = w.execs := rfl

@[simp] lemma docker_setDaemon (host : String) (d : Daemon) (host' : String) :
    (w.setDaemon host d).docker host' = if host' = host then d else w.docker host' :=
  Function.update_apply ..

@[simp] lemma commitRun_hosts {testId : String} {loaded new : TestExecution} :
    (w.commitRun p testId loaded new).hosts = w.hosts := rfl

@[simp] lemma get?_commitRun {testId : String} {loaded new : TestExecution} (k : String) :
    (w.commitRun p testId loaded new).execs.get? k =
      if k = testId then (w.execs.get? k).map (loaded.flush new w.clock) else w.execs.get? k := by
  simp [commitRun, unlock]

@[simp] lemma status_commitRun {testId : String} {loaded new : TestExecution} (k : String) :
    (w.commitRun p testId loaded new).status k =
      if k = testId then (w.status k).map (writeBack loaded.status new.status)
      else w.status k := by
  simp only [status, get?_commitRun]
  split_ifs
  · cases w.execs.get? k <;> rfl
  · rfl

lemma status_of_execs (h : w'.execs = w.execs) (k : String) : w'.status k = w.status k := by
  rw [status, h, status]

lemma status_insert? {t : Executions} {row : TestExecution} (h : w.execs.insert? row = some t)
    (k : String) : ({ w with execs := t } : World).status k =
      if k = row.testId then some row.status else w.status k := by
  obtain ⟨-, hget⟩ := Table.get?_insert? h
  simp only [status, hget]
  split_ifs <;> rfl

lemma commitHost_eq_some {hostId : String} {loaded new : WorkerHost}
    (h : w.commitHost p hostId loaded new = some w') :
    w.blocked p hostId = false ∧
      w' = unlock { w with
        hosts := w.hosts.modify [hostId] (loaded.flush new) (loaded.flush_hostId new) } p := by
  unfold commitHost at h
  split_ifs at h with hb
  exact ⟨by simpa using hb, (Option.some.inj h).symm⟩

/-- The host row after a commit, and nothing else changed in the tables. -/
lemma get?_of_commitHost {hostId : String} {loaded new : WorkerHost}
    (h : w.commitHost p hostId loaded new = some w') :
    w'.execs = w.execs ∧ ∀ k, w'.hosts.get? k =
      if k = hostId then (w.hosts.get? k).map (loaded.flush new) else w.hosts.get? k := by
  obtain ⟨-, rfl⟩ := commitHost_eq_some h
  exact ⟨rfl, fun k => by simp⟩

lemma get?_of_insertHost {row : WorkerHost} (h : w.insertHost p row = some w') :
    w'.execs = w.execs ∧ w.hosts.get? row.hostId = none ∧
      ∀ k, w'.hosts.get? k = if k = row.hostId then some row else w.hosts.get? k := by
  obtain ⟨t, ht, rfl⟩ := Option.map_eq_some_iff.mp h
  obtain ⟨hnone, hget⟩ := Table.get?_insert? ht
  exact ⟨rfl, hnone, hget⟩

end World

end TestOrch
