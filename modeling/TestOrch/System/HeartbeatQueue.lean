import Mathlib.Data.List.Chain
import TestOrch.Backend.Maintenance
import TestOrch.Core.Transition
import TestOrch.System.Inventory

/-!
# Heartbeats and tests in one queue (`worker/celery_app.py`, `worker/Dockerfile`)

Beat enqueues `publish_heartbeat` every 30 seconds on the queue of its own host, where the tests of
the host arrive too, and a pool of four processes takes tasks off the queue in order. A heartbeat
that is started runs at once; a test occupies its process for as long as it likes. So a heartbeat
waits until at most three of the tests enqueued before it are unfinished, and the sweep of the
backend, which knows only the heartbeat stored last, takes a busy host for a dead one when that
lasts too long.
-/

namespace TestOrch

open Transition

/-- `--concurrency` of the worker. -/
def concurrency : ℕ := 4

/-- The `schedule` of `publish-heartbeat`. -/
def beatPeriod : ℤ := seconds 30

/-- `heartbeat_timeout_seconds`. -/
def heartbeatTimeout : ℤ := seconds 90

/-- A message on the queue of the host; a heartbeat knows when it was enqueued. -/
inductive QueuedTask where
  | test
  | beat (sent : ℤ)
  deriving DecidableEq

/-- A worker that never crashes, and the inventory its heartbeats go to. -/
structure WorkerPool where
  now : ℤ
  /-- When beat enqueues the next heartbeat. -/
  nextBeat : ℤ
  queue : List QueuedTask
  /-- The processes of the pool that execute a test. -/
  running : ℕ
  /-- How long the heartbeat that ran last had waited in the queue. -/
  lastWait : Option ℤ
  hosts : Inventory

/-- What can happen next. -/
inductive PoolAct where
  /-- A test is dispatched to the host. -/
  | arrive
  | beat
  /-- The pool takes the next task; a heartbeat counts `live` containers and collects `cpu`. -/
  | start (live : ℤ) (cpu : ℚ)
  /-- Some running test ends. -/
  | finish
  /-- Time passes. -/
  | elapse (n : ℕ)
  /-- The sweep of the backend marks stale hosts offline. -/
  | sweep

lemma hostId_beat (live : ℤ) (cpu : ℚ) (now : ℤ) (h : WorkerHost) :
    (h.beat live cpu now).hostId = h.hostId := by
  rfl

/-- The inventory after `publish_heartbeat` of the host. -/
def publishHeartbeat (host : String) (live : ℤ) (cpu : ℚ) (now : ℤ) (hosts : Inventory) :
    Option Inventory :=
  match hosts.get? host with
  | some _ => some (hosts.modify [host] (·.beat live cpu now) (hostId_beat live cpu now))
  | none => hosts.insert? ((registeredHost host).beat live cpu now)

namespace WorkerPool

/-- The hosts that a sweep marks offline now. -/
def affected (s : WorkerPool) : List String :=
  (staleHosts s.hosts (s.now - heartbeatTimeout)).map WorkerHost.hostId

/-- The tests that are dispatched and not finished. -/
def outstanding (s : WorkerPool) : ℕ := s.queue.count .test + s.running

/-- One step. Tests never arrive beyond `maxContainers` outstanding ones, and time passes neither
beyond the next heartbeat nor while the pool can take a task. -/
def step (host : String) (maxContainers : ℕ) (s : WorkerPool) : PoolAct → Option WorkerPool
  | .arrive =>
    if s.outstanding < maxContainers then some { s with queue := s.queue ++ [.test] } else none
  | .beat =>
    if s.now = s.nextBeat then
      some { s with queue := s.queue ++ [.beat s.now], nextBeat := s.nextBeat + beatPeriod }
    else none
  | .start live cpu =>
    if s.running < concurrency then
      match s.queue with
      | [] => none
      | .test :: rest => some { s with queue := rest, running := s.running + 1 }
      | .beat sent :: rest => (publishHeartbeat host live cpu s.now s.hosts).map fun hosts =>
        { s with queue := rest, lastWait := some (s.now - sent), hosts := hosts }
    else none
  | .finish => if 0 < s.running then some { s with running := s.running - 1 } else none
  | .elapse n =>
    if s.now + n ≤ s.nextBeat ∧ (s.queue = [] ∨ s.running = concurrency) then
      some { s with now := s.now + n }
    else none
  | .sweep => some { s with hosts := markOffline s.hosts s.affected }

def started (hosts : Inventory) (now nextBeat : ℤ) : WorkerPool where
  now := now
  nextBeat := nextBeat
  queue := []
  running := 0
  lastWait := none
  hosts := hosts

/-- The oldest heartbeat in the queue, with the number of tests enqueued before it that are
unfinished; `unfinished` of them are ahead of the queue. -/
def oldestBeat (unfinished : ℕ) : List QueuedTask → Option (ℤ × ℕ)
  | [] => none
  | .beat sent :: _ => some (sent, unfinished)
  | .test :: rest => oldestBeat (unfinished + 1) rest

/-- While four tests enqueued before the oldest waiting heartbeat are unfinished, time does not pass
beyond 60 seconds more than the heartbeat before it had waited. With fewer of them it does not pass
at all, by `le_of_oldestBeat`. -/
def WaitsLittleLonger (s : WorkerPool) : PoolAct → Prop
  | .elapse n => ∀ oldest ∈ oldestBeat s.running s.queue, ∀ wait ∈ s.lastWait,
    s.now + n ≤ oldest.1 + wait + (heartbeatTimeout - beatPeriod) ∨ oldest.2 < concurrency
  | _ => True

instance (s : WorkerPool) : ∀ a, Decidable (WaitsLittleLonger s a)
  | .elapse n => inferInstanceAs (Decidable (∀ oldest ∈ oldestBeat s.running s.queue,
      ∀ wait ∈ s.lastWait,
        s.now + n ≤ oldest.1 + wait + (heartbeatTimeout - beatPeriod) ∨ oldest.2 < concurrency))
  | .arrive | .beat | .start .. | .finish | .sweep => inferInstanceAs (Decidable True)

/-- The stored heartbeat is recent enough, so that the sweep neither marks the host offline nor
fails a run on it. -/
def HostKept (host : String) (s : WorkerPool) : Prop :=
  (∀ row, s.hosts.get? host = some row → row.isStale (s.now - heartbeatTimeout) = false) ∧
  (markOffline s.hosts s.affected).get? host = s.hosts.get? host ∧
  ∀ execs, ∀ r ∈ orphanedRuns execs s.affected, r.targetHostId ≠ some host

variable {host : String} {maxContainers : ℕ} {s s' t : WorkerPool} {a : PoolAct}

/-- The steps of the worker and of those around it. -/
inductive Rule (host : String) (maxContainers : ℕ) (s : WorkerPool) : PoolAct → WorkerPool → Prop
  | arrive (hroom : s.outstanding < maxContainers) :
      Rule host maxContainers s .arrive { s with queue := s.queue ++ [.test] }
  | beat (hnow : s.now = s.nextBeat) : Rule host maxContainers s .beat
      { s with queue := s.queue ++ [.beat s.now], nextBeat := s.nextBeat + beatPeriod }
  | startTest {live cpu rest} (hfree : s.running < concurrency) (hq : s.queue = .test :: rest) :
      Rule host maxContainers s (.start live cpu)
        { s with queue := rest, running := s.running + 1 }
  | startBeat {live cpu sent rest hosts} (hfree : s.running < concurrency)
      (hq : s.queue = .beat sent :: rest)
      (hpublish : publishHeartbeat host live cpu s.now s.hosts = some hosts) :
      Rule host maxContainers s (.start live cpu)
        { s with queue := rest, lastWait := some (s.now - sent), hosts := hosts }
  | finish (hpos : 0 < s.running) :
      Rule host maxContainers s .finish { s with running := s.running - 1 }
  | elapse {n : ℕ} (hnext : s.now + n ≤ s.nextBeat)
      (hbusy : s.queue = [] ∨ s.running = concurrency) :
      Rule host maxContainers s (.elapse n) { s with now := s.now + n }
  | sweep : Rule host maxContainers s .sweep { s with hosts := markOffline s.hosts s.affected }

/-- The step function takes these steps and no others. -/
theorem Rule.of_step (hs : step host maxContainers s a = some s') :
    Rule host maxContainers s a s' := by
  cases a with
  | arrive =>
    obtain ⟨hroom, hs⟩ := Option.ite_none_right_eq_some.mp hs
    cases hs
    exact .arrive hroom
  | beat =>
    obtain ⟨hnow, hs⟩ := Option.ite_none_right_eq_some.mp hs
    cases hs
    exact .beat hnow
  | start live cpu =>
    obtain ⟨hfree, hs⟩ := Option.ite_none_right_eq_some.mp hs
    split at hs
    · cases hs
    · next rest hq =>
      cases hs
      exact .startTest hfree hq
    · next sent rest hq =>
      obtain ⟨hosts, hpublish, rfl⟩ := Option.map_eq_some_iff.mp hs
      exact .startBeat hfree hq hpublish
  | finish =>
    obtain ⟨hpos, hs⟩ := Option.ite_none_right_eq_some.mp hs
    cases hs
    exact .finish hpos
  | elapse n =>
    obtain ⟨⟨hnext, hbusy⟩, hs⟩ := Option.ite_none_right_eq_some.mp hs
    cases hs
    exact .elapse hnext hbusy
  | sweep =>
    cases hs
    exact .sweep

/-! ### The heartbeats that are waiting -/

/-- When the heartbeats in a queue were enqueued. -/
def beats (queue : List QueuedTask) : List ℤ :=
  queue.filterMap fun
    | .test => none
    | .beat sent => some sent

@[simp] lemma beats_nil : beats [] = [] := rfl

@[simp] lemma beats_test (rest : List QueuedTask) : beats (.test :: rest) = beats rest := rfl

@[simp] lemma beats_beat (sent : ℤ) (rest : List QueuedTask) :
    beats (.beat sent :: rest) = sent :: beats rest := rfl

@[simp] lemma beats_append (queue rest : List QueuedTask) :
    beats (queue ++ rest) = beats queue ++ beats rest :=
  List.filterMap_append

/-- The oldest heartbeat is the first one, and no test ahead of the queue is left out. -/
lemma oldestBeat_eq_some {unfinished k : ℕ} {queue : List QueuedTask} {sent : ℤ}
    (h : oldestBeat unfinished queue = some (sent, k)) :
    (beats queue).head? = some sent ∧ unfinished ≤ k := by
  induction queue generalizing unfinished with
  | nil => cases h
  | cons task rest ih =>
    cases task with
    | test =>
      obtain ⟨hsent, hk⟩ := ih h
      exact ⟨hsent, by omega⟩
    | beat sent' =>
      cases h
      exact ⟨rfl, le_rfl⟩

lemma oldestBeat_eq_none {unfinished : ℕ} {queue : List QueuedTask}
    (h : oldestBeat unfinished queue = none) : beats queue = [] := by
  induction queue generalizing unfinished with
  | nil => rfl
  | cons task rest ih =>
    cases task with
    | test => exact ih h
    | beat sent => cases h

/-- The times at which the heartbeats that have not run were or will be enqueued, up to the next
one. -/
def pending (s : WorkerPool) : List ℤ := beats s.queue ++ [s.nextBeat]

def firstPending (s : WorkerPool) : ℤ := (beats s.queue).head?.getD s.nextBeat

/-- The heartbeats are enqueued one period apart, and the stored one is that before the first that
has not run: it was stored when it had waited, and that was not longer ago than the timeout. -/
structure Punctual (host : String) (s : WorkerPool) : Prop where
  next : s.now ≤ s.nextBeat
  spaced : s.pending.IsChain fun a b => b = a + beatPeriod
  past : ∀ sent ∈ beats s.queue, sent ≤ s.now
  unregistered : s.lastWait = none → s.hosts.get? host = none
  stored : ∀ wait, s.lastWait = some wait → 0 ≤ wait ∧
    s.now ≤ s.firstPending - beatPeriod + wait + heartbeatTimeout ∧
    ∃ row, s.hosts.get? host = some row ∧
      row.lastHeartbeat = some (.utc (s.firstPending - beatPeriod + wait))

lemma punctual_started {hosts : Inventory} {now nextBeat : ℤ} (hnew : hosts.get? host = none)
    (hbeat : now ≤ nextBeat) : Punctual host (started hosts now nextBeat) where
  next := hbeat
  spaced := List.IsChain.singleton nextBeat
  past := by
    rintro sent hsent
    cases hsent
  unregistered := fun _ => hnew
  stored := by
    intro wait hwait
    cases hwait

/-- A heartbeat stores its own time in the row of its host. -/
lemma get?_publishHeartbeat {hosts hosts' : Inventory} {live now : ℤ} {cpu : ℚ}
    (h : publishHeartbeat host live cpu now hosts = some hosts') :
    ∃ row, hosts'.get? host = some row ∧ row.lastHeartbeat = some (.utc now) := by
  unfold publishHeartbeat at h
  cases hrow : hosts.get? host with
  | some row =>
    rw [hrow] at h
    cases h
    refine ⟨row.beat live cpu now, ?_, rfl⟩
    rw [Table.get?_modify, if_pos (List.mem_singleton_self host), hrow]
    rfl
  | none =>
    rw [hrow] at h
    refine ⟨(registeredHost host).beat live cpu now, ?_, rfl⟩
    exact ((Table.get?_insert? h).2 host).trans (if_pos rfl)

/-- After the first heartbeat has run, the next one is a period younger. -/
lemma firstPending_tail {sent : ℤ} {rest : List QueuedTask}
    (hspaced : s.pending.IsChain fun a b => b = a + beatPeriod)
    (hq : s.queue = .beat sent :: rest) :
    (beats rest).head?.getD s.nextBeat = sent + beatPeriod := by
  rw [pending, hq, beats_beat, List.cons_append] at hspaced
  cases hb : beats rest with
  | nil =>
    rw [hb, List.nil_append] at hspaced
    exact (List.isChain_cons_cons.mp hspaced).1
  | cons b bs =>
    rw [hb, List.cons_append] at hspaced
    exact (List.isChain_cons_cons.mp hspaced).1

/-- Where time passes, a heartbeat that waits has four unfinished tests ahead of it. -/
lemma le_of_oldestBeat {sent : ℤ} {k : ℕ} (hbusy : s.queue = [] ∨ s.running = concurrency)
    (hold : oldestBeat s.running s.queue = some (sent, k)) : concurrency ≤ k := by
  have hrunning : s.running = concurrency := by
    apply hbusy.resolve_left
    intro hq
    rw [hq] at hold
    cases hold
  exact hrunning ▸ (oldestBeat_eq_some hold).2

/-- Time passes only while no heartbeat waits, or while the oldest one has waited little longer than
the one before it. -/
lemma elapse_le_timeout {n : ℕ} {wait : ℤ} (hG : WaitsLittleLonger s (.elapse n))
    (hnext : s.now + n ≤ s.nextBeat) (hbusy : s.queue = [] ∨ s.running = concurrency)
    (hwait : s.lastWait = some wait) (hnonneg : 0 ≤ wait) :
    s.now + n ≤ s.firstPending - beatPeriod + wait + heartbeatTimeout := by
  have hslack : beatPeriod ≤ heartbeatTimeout := by decide
  cases hold : oldestBeat s.running s.queue with
  | none =>
    have hfirst : s.firstPending = s.nextBeat := by
      rw [firstPending, oldestBeat_eq_none hold]
      rfl
    omega
  | some oldest =>
    obtain ⟨sent, unfinished⟩ := oldest
    have hfirst : s.firstPending = sent := by
      rw [firstPending, (oldestBeat_eq_some hold).1]
      rfl
    have hfour := le_of_oldestBeat hbusy hold
    have hbound := hG (sent, unfinished) hold wait hwait
    dsimp only at hbound
    omega

/-- The next heartbeat is enqueued in its time and behind all others. -/
lemma Punctual.beat (hi : Punctual host s) (hnow : s.now = s.nextBeat) :
    Punctual host { s with
      queue := s.queue ++ [.beat s.now], nextBeat := s.nextBeat + beatPeriod } := by
  have hfirst : firstPending { s with
      queue := s.queue ++ [.beat s.now], nextBeat := s.nextBeat + beatPeriod } =
        s.firstPending := by
    unfold firstPending
    cases hb : beats s.queue <;> simp [hb, hnow]
  refine ⟨?_, ?_, ?_, hi.unregistered, ?_⟩
  · have hperiod : 0 ≤ beatPeriod := by decide
    show s.now ≤ s.nextBeat + beatPeriod
    omega
  · have hspaced := hi.spaced
    simp only [pending, beats_append, beats_beat, beats_nil, hnow] at hspaced ⊢
    apply List.isChain_append.mpr
    exact ⟨hspaced, List.IsChain.singleton _, by simp⟩
  · intro sent hsent
    rw [beats_append, List.mem_append] at hsent
    rcases hsent with hsent | hsent
    · exact hi.past sent hsent
    · exact (List.mem_singleton.mp hsent).le
  · rw [hfirst]
    exact hi.stored

/-- A heartbeat that runs is stored one period before the next one and its own wait later. -/
lemma Punctual.startBeat {live sent : ℤ} {cpu : ℚ} {rest : List QueuedTask} {hosts : Inventory}
    (hi : Punctual host s) (hq : s.queue = .beat sent :: rest)
    (hpublish : publishHeartbeat host live cpu s.now s.hosts = some hosts) :
    Punctual host { s with queue := rest, lastWait := some (s.now - sent), hosts := hosts } := by
  obtain ⟨row, hrow, hlast⟩ := get?_publishHeartbeat hpublish
  have hnonneg : sent ≤ s.now := hi.past sent (by simp [hq])
  have hfirst := firstPending_tail hi.spaced hq
  have htimeout : 0 ≤ heartbeatTimeout := by decide
  have hstored : (beats rest).head?.getD s.nextBeat - beatPeriod + (s.now - sent) = s.now := by
    omega
  refine ⟨hi.next, ?_, ?_, ?_, ?_⟩
  · have hspaced := hi.spaced
    rw [pending, hq, beats_beat, List.cons_append] at hspaced
    exact hspaced.tail
  · intro sent' hsent'
    exact hi.past sent' (by simp [hq, hsent'])
  · intro hwait
    cases hwait
  · intro wait hwait
    obtain rfl := Option.some.inj hwait
    refine ⟨Int.sub_nonneg.mpr hnonneg, ?_, row, hrow, ?_⟩
    · show s.now ≤ (beats rest).head?.getD s.nextBeat - beatPeriod + (s.now - sent) +
        heartbeatTimeout
      omega
    · show row.lastHeartbeat =
        some (.utc ((beats rest).head?.getD s.nextBeat - beatPeriod + (s.now - sent)))
      rw [hstored, hlast]

lemma punctual_step (hi : Punctual host s) (hG : WaitsLittleLonger s a)
    (hs : step host maxContainers s a = some s') : Punctual host s' := by
  cases Rule.of_step hs with
  | arrive hroom =>
    refine ⟨hi.next, ?_, ?_, hi.unregistered, ?_⟩
    · simpa [pending] using hi.spaced
    · simpa using hi.past
    · simpa [firstPending] using hi.stored
  | beat hnow => exact hi.beat hnow
  | startTest hfree hq =>
    obtain ⟨hnext, hspaced, hpast, hunregistered, hstored⟩ := hi
    simp only [pending, firstPending, hq, beats_test] at hspaced hpast hstored
    exact ⟨hnext, hspaced, hpast, hunregistered, hstored⟩
  | startBeat hfree hq hpublish => exact hi.startBeat hq hpublish
  | finish hpos => exact ⟨hi.next, hi.spaced, hi.past, hi.unregistered, hi.stored⟩
  | @elapse n hnext hbusy =>
    refine ⟨hnext, hi.spaced, ?_, hi.unregistered, ?_⟩
    · intro sent hsent
      have hle := hi.past sent hsent
      show sent ≤ s.now + n
      omega
    · intro wait hwait
      obtain ⟨hnonneg, -, hrow⟩ := hi.stored wait hwait
      exact ⟨hnonneg, elapse_le_timeout hG hnext hbusy hwait hnonneg, hrow⟩
  | sweep =>
    refine ⟨hi.next, hi.spaced, hi.past, ?_, ?_⟩
    · intro hwait
      show (markOffline s.hosts s.affected).get? host = none
      rw [get?_markOffline, hi.unregistered hwait]
      split_ifs <;> rfl
    · intro wait hwait
      obtain ⟨hnonneg, hlate, row, hrow, hlast⟩ := hi.stored wait hwait
      refine ⟨hnonneg, hlate, ?_⟩
      show ∃ row', (markOffline s.hosts s.affected).get? host = some row' ∧ _
      rw [get?_markOffline, hrow]
      split_ifs
      · exact ⟨_, rfl, hlast⟩
      · exact ⟨row, rfl, hlast⟩

/-- The run lemma: every heartbeat keeps to its time when none waits much longer than the one before
it. -/
lemma punctual_of_reaches (hi : Punctual host s)
    (h : Reaches (step host maxContainers) WaitsLittleLonger s t) : Punctual host t :=
  h.invariant hi fun _ _ _ hi hG hs => punctual_step hi hG hs

/-- A punctual host is not among the stale ones. -/
lemma Punctual.hostKept (hi : Punctual host s) : HostKept host s := by
  have hfresh : ∀ row, s.hosts.get? host = some row →
      row.isStale (s.now - heartbeatTimeout) = false := by
    intro row hrow
    cases hwait : s.lastWait with
    | none =>
      rw [hi.unregistered hwait] at hrow
      cases hrow
    | some wait =>
      obtain ⟨-, hlate, row', hrow', hlast⟩ := hi.stored wait hwait
      obtain rfl := Option.some.inj (hrow'.symm.trans hrow)
      simp only [WorkerHost.isStale, hlast, DateTime.instant_utc, decide_eq_false_iff_not, not_lt]
      omega
  have haffected : host ∉ s.affected := by
    intro hmem
    obtain ⟨row, hrow, hkey⟩ := List.mem_map.mp hmem
    obtain ⟨hmem, -, hstale⟩ := mem_staleHosts.mp hrow
    rw [hfresh row (hkey ▸ Table.get?_of_mem hmem)] at hstale
    cases hstale
  refine ⟨hfresh, ?_, ?_⟩
  · rw [get?_markOffline, if_neg haffected]
  · intro execs r hr htarget
    obtain ⟨-, ⟨h, hmem, hr⟩, -⟩ := mem_orphanedRuns.mp hr
    obtain rfl := Option.some.inj (htarget.symm.trans hr)
    exact haffected hmem

/-- A live host is never taken for a dead one in a run in which no heartbeat waits behind four
unfinished tests for 60 seconds more than the heartbeat before it. -/
theorem live_host_kept {hosts : Inventory} {now nextBeat : ℤ} (hnew : hosts.get? host = none)
    (hbeat : now ≤ nextBeat)
    (h : Reaches (step host maxContainers) WaitsLittleLonger (started hosts now nextBeat) s) :
    HostKept host s :=
  (punctual_of_reaches (punctual_started hnew hbeat) h).hostKept

/-- Two heartbeats wait behind four running tests until one of these ends. -/
def shortWaits : List PoolAct :=
  [.beat, .start 0 7, .arrive, .arrive, .arrive, .arrive, .start 0 7, .start 0 7, .start 0 7,
    .start 0 7, .elapse 30000000, .beat, .elapse 30000000, .beat, .elapse 20000000, .finish,
    .start 3 7, .start 3 7, .elapse 5000000]

theorem shortWaits_kept :
    ∃ s, Reaches (step "h" 10) WaitsLittleLonger (started (Table.empty _) 0 0) s ∧
      (s.running = 3 ∧ s.now = seconds 85) ∧ HostKept "h" s := by
  obtain ⟨s, hs, hp⟩ := exists_reaches_of_guardedRun (step "h" 10) WaitsLittleLonger
    (started (Table.empty _) 0 0) shortWaits (fun s => s.running = 3 ∧ s.now = seconds 85)
    (by decide +kernel)
  exact ⟨s, hs, of_decide_eq_true hp, live_host_kept rfl le_rfl hs⟩

/-- A heartbeat that has waited for 60 seconds has at most three unfinished tests ahead of it. -/
def TestsMakeRoom (s : WorkerPool) : PoolAct → Prop
  | .elapse n => ∀ oldest ∈ oldestBeat s.running s.queue,
    s.now + n ≤ oldest.1 + (heartbeatTimeout - beatPeriod) ∨ oldest.2 < concurrency
  | _ => True

/-- What the condition asks of the tests: it is enough that, of those ahead of a heartbeat, all but
three end within 60 seconds, however long the heartbeats before it had waited. -/
theorem live_host_kept_of_room {hosts : Inventory} {now nextBeat : ℤ}
    (hnew : hosts.get? host = none) (hbeat : now ≤ nextBeat)
    (h : Reaches (step host maxContainers) TestsMakeRoom (started hosts now nextBeat) s) :
    HostKept host s := by
  suffices Punctual host s from this.hostKept
  refine h.invariant (punctual_started hnew hbeat) fun s a s' hi hG hs => punctual_step hi ?_ hs
  cases a with
  | elapse n =>
    intro oldest hold wait hwait
    obtain ⟨hnonneg, -⟩ := hi.stored wait hwait
    exact (hG oldest hold).imp_left fun hle => by omega
  | _ => trivial

/-- The condition is exact: a step that breaks it leaves the host stale. -/
theorem stale_of_longer_wait {n : ℕ} (hi : Punctual host s)
    (hG : ¬ WaitsLittleLonger s (.elapse n))
    (hs : step host maxContainers s (.elapse n) = some t) : ¬ HostKept host t := by
  simp only [WaitsLittleLonger, not_forall, not_or, not_le, not_lt] at hG
  obtain ⟨⟨sent, unfinished⟩, hold, wait, hwait, hlong, -⟩ := hG
  obtain ⟨-, -, row, hrow, hlast⟩ := hi.stored wait hwait
  have hfirst : s.firstPending = sent := by
    rw [firstPending, (oldestBeat_eq_some hold).1]
    rfl
  cases Rule.of_step hs
  rintro ⟨hfresh, -, -⟩
  have hstale := hfresh row hrow
  simp only [WorkerHost.isStale, hlast, DateTime.instant_utc, decide_eq_false_iff_not, not_lt,
    hfirst] at hstale
  omega

/-! ### Hosts with fewer slots than processes -/

lemma oldestBeat_le {unfinished k : ℕ} {queue : List QueuedTask} {sent : ℤ}
    (h : oldestBeat unfinished queue = some (sent, k)) :
    k ≤ unfinished + queue.count .test := by
  induction queue generalizing unfinished with
  | nil => cases h
  | cons task rest ih =>
    cases task with
    | test =>
      have hk := ih h
      rw [List.count_cons_self]
      omega
    | beat sent' =>
      cases h
      exact Nat.le_add_right _ _

/-- Only the arrival of a test makes more of them outstanding, and it stops at the limit. -/
lemma outstanding_step (hi : s.outstanding ≤ maxContainers)
    (hs : step host maxContainers s a = some s') : s'.outstanding ≤ maxContainers := by
  cases Rule.of_step hs with
  | arrive hroom =>
    simp only [outstanding, List.count_append, List.count_singleton_self] at hroom ⊢
    omega
  | beat hnow => simpa [outstanding, List.count_append] using hi
  | startTest hfree hq =>
    simp only [outstanding, hq, List.count_cons_self] at hi ⊢
    omega
  | startBeat hfree hq hpublish => simpa [outstanding, hq] using hi
  | finish hpos =>
    simp only [outstanding] at hi ⊢
    omega
  | elapse hnext hbusy => exact hi
  | sweep => exact hi

/-- A process is always free for the heartbeats of a host that takes fewer tests than the pool has
processes. -/
theorem smallHost_kept {hosts : Inventory} {now nextBeat : ℤ}
    (hsmall : maxContainers < concurrency) (hnew : hosts.get? host = none) (hbeat : now ≤ nextBeat)
    (h : Reaches (step host maxContainers) (fun _ _ => True) (started hosts now nextBeat) s) :
    HostKept host s := by
  suffices s.outstanding ≤ maxContainers ∧ Punctual host s from this.2.hostKept
  refine h.invariant (I := fun s => s.outstanding ≤ maxContainers ∧ Punctual host s)
    ⟨Nat.zero_le _, punctual_started hnew hbeat⟩ ?_
  rintro s a s' ⟨hfew, hi⟩ - hs
  refine ⟨outstanding_step hfew hs, punctual_step hi ?_ hs⟩
  cases a with
  | elapse n =>
    intro oldest hold wait _
    have hcount := oldestBeat_le hold
    rw [outstanding] at hfew
    omega
  | _ => trivial

/-- Four tests that take longer than two minutes arrive after the first heartbeat. -/
def fourLongTests : List PoolAct :=
  [.beat, .start 0 7, .arrive, .arrive, .arrive, .arrive, .start 0 7, .start 0 7, .start 0 7,
    .start 0 7, .elapse 30000000, .beat, .elapse 30000000, .beat, .elapse 30000000, .beat,
    .elapse 1]

/-- With four tests running the heartbeats of a live worker stay in the queue, and the host is
swept. -/
theorem busyHost_swept :
    ∃ s, Reaches (step "h" 10) (fun _ _ => True) (started (Table.empty _) 0 0) s ∧
      ¬ HostKept "h" s := by
  obtain ⟨s, hs, hstale⟩ := exists_reaches_of_guardedRun (step "h" 10) (fun _ _ => True)
    (started (Table.empty _) 0 0) fourLongTests
    (fun s => (s.hosts.get? "h").any fun row => row.isStale (s.now - heartbeatTimeout))
    (by decide +kernel)
  refine ⟨s, hs, ?_⟩
  rintro ⟨hfresh, -, -⟩
  obtain ⟨row, hrow, hrowStale⟩ := (Option.any_eq_true _ _).mp hstale
  rw [hfresh row hrow] at hrowStale
  cases hrowStale

end WorkerPool

end TestOrch
