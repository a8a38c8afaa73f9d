import Mathlib.Data.Rat.Defs
import TestOrch.Core.Table
import TestOrch.Core.Pool
import TestOrch.Shared.Schemas

/-!
# The state database (`backend/models.py`)

The two tables that the services share, and what a session's commit stores in a row: SQLAlchemy
writes exactly the columns whose value differs from the one the session loaded, with the absolute
value the session holds.
-/

namespace TestOrch

/-- A `datetime`: microseconds of wall-clock time, with the UTC offset of an aware value. -/
structure DateTime where
  ticks : ℤ
  utcoffset : Option ℤ
  deriving DecidableEq, Repr

namespace DateTime

/-- `datetime.now(timezone.utc)` when the clock shows `t`. -/
def utc (t : ℤ) : DateTime := ⟨t, some 0⟩

/-- The instant of an aware value; a naive one is read as UTC. -/
def instant (d : DateTime) : ℤ := d.ticks - d.utcoffset.getD 0

@[simp] lemma instant_utc (t : ℤ) : (utc t).instant = t := by simp [utc, instant]

end DateTime

/-- Microseconds of `timedelta(seconds=n)`. -/
def seconds (n : ℤ) : ℤ := n * 1000000

/-- `WorkerHost`: inventory and live telemetry of one worker machine. -/
structure WorkerHost where
  hostId : String
  isOnline : Bool
  activeContainers : ℤ
  maxContainers : ℤ
  cpuUtilization : ℚ
  hardwareTags : String
  supportsEmulation : Bool
  lastHeartbeat : Option DateTime
  deriving DecidableEq

namespace WorkerHost

/-- `tag_set`, in the order of the string. -/
def tagSet (h : WorkerHost) : List String := commaPieces h.hardwareTags

/-- What a commit leaves in the row: `loaded` is what the session read, `new` what it holds, and
`stored` what the row contains at the commit. -/
def flush (loaded new stored : WorkerHost) : WorkerHost where
  hostId := stored.hostId
  isOnline := writeBack loaded.isOnline new.isOnline stored.isOnline
  activeContainers := writeBack loaded.activeContainers new.activeContainers stored.activeContainers
  maxContainers := writeBack loaded.maxContainers new.maxContainers stored.maxContainers
  cpuUtilization := writeBack loaded.cpuUtilization new.cpuUtilization stored.cpuUtilization
  hardwareTags := writeBack loaded.hardwareTags new.hardwareTags stored.hardwareTags
  supportsEmulation :=
    writeBack loaded.supportsEmulation new.supportsEmulation stored.supportsEmulation
  lastHeartbeat := writeBack loaded.lastHeartbeat new.lastHeartbeat stored.lastHeartbeat

@[simp] lemma flush_hostId (loaded new stored : WorkerHost) :
    (flush loaded new stored).hostId = stored.hostId := rfl

/-- The row after `active_containers -= 1`, which the undo of `dispatch` and
`_decrement_active_containers` do only above zero. -/
def decrement (h : WorkerHost) : WorkerHost := { h with activeContainers := h.activeContainers - 1 }

/-- A session that nobody interfered with stores the row it holds. -/
@[simp] lemma flush_self (loaded new : WorkerHost) (h : new.hostId = loaded.hostId) :
    flush loaded new loaded = new := by
  simp [flush, ← h]

end WorkerHost

/-- `TestExecution`: one test run, the audit record. -/
structure TestExecution where
  testId : String
  userId : ℤ
  targetHostId : Option String
  runnerType : String
  frameworkImage : String
  status : TestStatus
  qualiReservationId : Option String
  artifactUrl : Option String
  updatedAt : ℤ
  deriving DecidableEq

namespace TestExecution

/-- The assignments of `_set_status` to a loaded row; a field that is not given stays. -/
def assign (r : TestExecution) (status : TestStatus) (targetHostId artifactUrl : Option String) :
    TestExecution :=
  { r with
    status := status
    targetHostId := targetHostId <|> r.targetHostId
    artifactUrl := artifactUrl <|> r.artifactUrl }

/-- What a commit at time `now` leaves in the row. The session may have changed the status, the
target host and the artifact URL; `updated_at` is renewed whenever a column is written. -/
def flush (loaded new : TestExecution) (now : ℤ) (stored : TestExecution) : TestExecution :=
  { stored with
    status := writeBack loaded.status new.status stored.status
    targetHostId := writeBack loaded.targetHostId new.targetHostId stored.targetHostId
    artifactUrl := writeBack loaded.artifactUrl new.artifactUrl stored.artifactUrl
    updatedAt :=
      if new.status = loaded.status ∧ new.targetHostId = loaded.targetHostId ∧
        new.artifactUrl = loaded.artifactUrl then stored.updatedAt else now }

@[simp] lemma flush_testId (loaded new stored : TestExecution) (now : ℤ) :
    (flush loaded new now stored).testId = stored.testId := rfl

@[simp] lemma flush_status (loaded new stored : TestExecution) (now : ℤ) :
    (flush loaded new now stored).status = writeBack loaded.status new.status stored.status := rfl

@[simp] lemma flush_targetHostId (loaded new stored : TestExecution) (now : ℤ) :
    (flush loaded new now stored).targetHostId =
      writeBack loaded.targetHostId new.targetHostId stored.targetHostId := rfl

end TestExecution

/-- The `worker_hosts` table. -/
abbrev Inventory := Table WorkerHost.hostId

/-- The `test_executions` table. -/
abbrev Executions := Table TestExecution.testId

end TestOrch
