import TestOrch.System.SlotAccount
import TestOrch.System.Verdicts

/-!
# The capacity of a host

`dispatch` compares the stored count with the limit, and counts on three writers that share the
column. The limit holds as long as the count never falls below the reservations that are held: a
heartbeat, which knows the running containers only, must not report less than that, and an execution
that has given back its slot counts as executing until it ends.
-/

namespace TestOrch

open Transition

def Proc.executingOn (h : String) : Proc → Bool
  | .task t => t.host = h && t.pc.executing
  | _ => false

/-- The bundles dispatched to the host and not finished, queued or executing. -/
def Sys.unfinished (s : Sys) (h : String) : ℕ :=
  s.world.queue.countP (consumes h) + s.procs.countP (Proc.executingOn h)

def SubmitPc.reserving : SubmitPc → Option WorkerHost
  | .reserve chosen _ => some chosen
  | _ => none

/-- The next commit of the process leaves the count a bound: a heartbeat reports at least the
reservations that are held, and a reservation leaves room for the executions that have given back
their slots. -/
def Proc.CountsAll (s : Sys) : Proc → Prop
  | .heartbeat hostId _ pc => ∀ live ∈ pc.reporting, (s.held hostId : ℤ) ≤ live
  | .submit _ pc => ∀ chosen ∈ pc.reserving, chosen.activeContainers +
      s.procs.countP (Proc.returning chosen.hostId) < chosen.maxContainers
  | _ => True

instance (s : Sys) : ∀ proc : Proc, Decidable (proc.CountsAll s)
  | .heartbeat _ _ pc => inferInstanceAs (Decidable (∀ live ∈ pc.reporting, _))
  | .submit _ pc => inferInstanceAs (Decidable (∀ chosen ∈ pc.reserving, _))
  | .task _ | .update .. | .sweep .. | .reap .. | .dead _ => inferInstanceAs (Decidable True)

/-- The stored row has room for one more execution, which is counted already. -/
def Sys.CountsAgain (s : Sys) (h : String) : Prop :=
  ∃ row, s.world.hosts.get? h = some row ∧ (s.held h : ℤ) + 1 ≤ row.activeContainers ∧
    (s.held h : ℤ) + 1 + s.procs.countP (Proc.returning h) ≤ row.maxContainers

instance (s : Sys) (h : String) : Decidable (s.CountsAgain h) :=
  decidable_of_iff ((s.world.hosts.get? h).any fun row =>
    (s.held h : ℤ) + 1 ≤ row.activeContainers ∧
    (s.held h : ℤ) + 1 + s.procs.countP (Proc.returning h) ≤ row.maxContainers) <| by
    simp [Sys.CountsAgain, Option.any_eq_true]

def AllCounted (s : Sys) : Act → Prop
  | .advance p _ => ∀ proc ∈ s.procs[p]?, proc.CountsAll s
  | .redeliver _ host => s.CountsAgain host
  | _ => True

instance (s : Sys) : ∀ a, Decidable (AllCounted s a)
  | .advance p _ => inferInstanceAs (Decidable (∀ proc ∈ s.procs[p]?, _))
  | .redeliver _ host => inferInstanceAs (Decidable (s.CountsAgain host))
  | .launch _ | .deliver .. | .kill _ | .exit .. | .tick _ => inferInstanceAs (Decidable True)

/-! ### The room on a host -/

/-- The stored row bounds the reservations that are held, and with them the executions that have
given theirs back. -/
def Room (row : Option WorkerHost) (held returning : ℕ) : Prop :=
  match row with
  | none => held = 0 ∧ returning = 0
  | some r =>
    (held = 0 ∨ (held : ℤ) ≤ r.activeContainers) ∧ (held : ℤ) + returning ≤ r.maxContainers

namespace Room

variable {row : Option WorkerHost} {r : WorkerHost} {held returning : ℕ}

lemma reserve (h : Room (some r) held returning) (hpos : 0 ≤ r.activeContainers)
    (hroom : r.activeContainers + returning < r.maxContainers) :
    Room (some r.increment) (held + 1) returning := by
  obtain ⟨hheld, -⟩ := h
  simp only [Room, WorkerHost.increment]
  omega

lemma decrement (h : Room (some r) (held + 1) returning) :
    Room (some r.decrement) held (returning + 1) := by
  obtain ⟨hheld, hmax⟩ := h
  simp only [Room, WorkerHost.decrement]
  omega

/-- A decrement always finds a count to decrement. -/
lemma pos (h : Room row (held + 1) returning) : ∃ r, row = some r ∧ 0 < r.activeContainers := by
  cases row with
  | none => simp [Room] at h
  | some r =>
    refine ⟨r, rfl, ?_⟩
    have := h.1
    omega

lemma leave (h : Room row held (returning + 1)) : Room row held returning := by
  cases row with
  | none => simp [Room] at h
  | some r =>
    obtain ⟨hheld, hmax⟩ := h
    refine ⟨hheld, ?_⟩
    push_cast at hmax
    omega

lemma beat {live now : ℤ} {cpu : ℚ} (h : Room (some r) held returning) (hlive : (held : ℤ) ≤ live) :
    Room (some (r.beat live cpu now)) held returning := ⟨.inr hlive, h.2⟩

lemma register {hostId : String} {live now : ℤ} {cpu : ℚ} (h : Room none held returning) :
    Room (some ((registeredHost hostId).beat live cpu now)) held returning := by
  obtain ⟨rfl, rfl⟩ := h
  exact ⟨.inl rfl, by simp [WorkerHost.beat, registeredHost]⟩

end Room

variable {s : Sys} {h : String}

/-- What the condition says at a step keeps the room. -/
lemma AllCounted.keeps {a : Act} (hcount : AllCounted s a) : KeepsAccount Room h s a where
  reserve := by
    rintro p o bundle chosen queue returning rfl hp rfl hpos rfl hroom
    exact hroom.reserve hpos (hcount _ hp chosen rfl)
  decrement := by
    intro p o t loaded held returning _ _ _ hroom
    exact hroom.decrement
  skip := by
    intro row held returning hnone hroom
    obtain ⟨r, rfl, hpos⟩ := hroom.pos
    exact absurd hpos (not_lt.mpr (hnone r rfl))
  leave := by
    intro row held returning hroom
    exact hroom.leave
  beat := by
    rintro p o cpu live loaded now returning rfl hp hroom
    exact hroom.beat (hcount _ hp live rfl)
  register := by
    intro p o cpu live now returning _ _ hroom
    exact hroom.register
  redeliver := by
    rintro i rfl -
    obtain ⟨row, hrow, hactive, hmax⟩ := hcount
    rw [hrow]
    exact ⟨.inr (by exact_mod_cast hactive), by exact_mod_cast hmax⟩

/-- An execution holds its slot or has given it back. -/
lemma Sys.unfinished_le : s.unfinished h ≤ s.held h + s.procs.countP (Proc.returning h) := by
  have hcover : ∀ proc : Proc, proc.executingOn h = true →
      proc.holdsSlot h = true ∨ proc.returning h = true := by
    intro proc hproc
    cases proc with
    | task t =>
      obtain ⟨host, bundle, started, code, url, result, pc⟩ := t
      revert hproc
      cases pc <;> simp [Proc.executingOn, Proc.holdsSlot, Proc.returning, TaskPc.executing,
        TaskPc.released]
    | _ => cases hproc
  have hle : s.procs.countP (Proc.executingOn h) ≤
      s.procs.countP (Proc.holdsSlot h) + s.procs.countP (Proc.returning h) :=
    Pool.countP_le_add hcover
  simp only [Sys.unfinished, Sys.held]
  omega

/-- In every run without failures, with atomic sessions, that meets `AllCounted`: the bundles
dispatched to a host and not finished are at most what its row allows. -/
theorem within_capacity {s₀ : Sys} {row : WorkerHost} (h₀ : s₀.Idle) (hempty : s₀.world.queue = [])
    (hlimit : ∀ row, s₀.world.hosts.get? h = some row → 0 ≤ row.maxContainers)
    (hrun : Reaches step (fun s a => (Among [.submit, .task, .heartbeat] s a ∧ NothingFails a ∧
      SessionsAtomic s a) ∧ AllCounted s a) s₀ s)
    (hrow : s.world.hosts.get? h = some row) : (s.unfinished h : ℤ) ≤ row.maxContainers := by
  have hi : Accounted Room h s := by
    refine hrun.invariant ?_ fun _ _ _ hi hG hs =>
      accounted_step hi hG.1.1 hG.1.2.1 hG.1.2.2 hG.2.keeps hs
    refine ⟨by simp [Sys.Locked, h₀.1], by simp [h₀.1], ?_⟩
    simp only [Sys.held, hempty, h₀.1, List.countP_nil]
    cases hget : s₀.world.hosts.get? h with
    | none => exact ⟨rfl, rfl⟩
    | some row => exact ⟨.inl rfl, hlimit row hget⟩
  have hroom := hi.account
  rw [hrow] at hroom
  have hmax := hroom.2
  have := Sys.unfinished_le (s := s) (h := h)
  omega

lemma idleHost_limit {row : WorkerHost}
    (hrow : (Sys.single idleHost).world.hosts.get? "h" = some row) : 0 ≤ row.maxContainers := by
  obtain rfl : idleHost = row := Option.some.inj hrow
  decide

/-- One dispatch to a host that then beats while the container is running, up to the cleanup. -/
def dispatchAndBeat : List Act :=
  orderlyRun.take 13 ++ [.launch (.heartbeat "h" 7)] ++ List.replicate 4 (.advance 2 (.ok none))

/-- There the heartbeat reports the container, and the host is full. -/
theorem dispatchAndBeat_within : ∃ s : Sys, s.unfinished "h" = 1 ∧ ∃ row : WorkerHost,
    s.world.hosts.get? "h" = some row ∧ (s.unfinished "h" : ℤ) ≤ row.maxContainers := by
  obtain ⟨s, hs, hp⟩ := exists_reaches_of_guardedRun step
    (fun s a => (Among [.submit, .task, .heartbeat] s a ∧ NothingFails a ∧ SessionsAtomic s a) ∧
      AllCounted s a)
    (.single idleHost) dispatchAndBeat
    (fun s => s.unfinished "h" = 1 && (s.world.hosts.get? "h").isSome) (by decide +kernel)
  simp only [Bool.and_eq_true, decide_eq_true_eq, Option.isSome_iff_exists] at hp
  obtain ⟨hone, row, hrow⟩ := hp
  exact ⟨s, hone, row, hrow, within_capacity (.single _) rfl (fun _ => idleHost_limit) hs hrow⟩

def anotherBundle : TestBundleRequest := { sampleBundle with testId := ⟨"u", by decide⟩ }

/-- One dispatch after the other, with a heartbeat in between. -/
def beatBetween : List Act :=
  [.launch (.submit sampleBundle)] ++ List.replicate 5 (.advance 0 (.ok none)) ++
    [.launch (.heartbeat "h" 7)] ++ List.replicate 4 (.advance 1 (.ok none)) ++
    [.launch (.submit anotherBundle)] ++ List.replicate 5 (.advance 2 (.ok none))

/-- The heartbeat forgets the bundle that is queued, and the second dispatch takes the slot again.
-/
theorem beatBetween_exceeds :
    ¬ ∀ (s₀ s : Sys) (h : String) (row : WorkerHost), s₀.Idle → s₀.world.queue = [] →
      (∀ row, s₀.world.hosts.get? h = some row → 0 ≤ row.maxContainers) →
      Reaches step (fun s a => Among [.submit, .task, .heartbeat] s a ∧ NothingFails a ∧
        SessionsAtomic s a) s₀ s →
      s.world.hosts.get? h = some row → (s.unfinished h : ℤ) ≤ row.maxContainers := by
  intro hall
  obtain ⟨s, hs, hp⟩ := exists_reaches_of_guardedRun step
    (fun s a => Among [.submit, .task, .heartbeat] s a ∧ NothingFails a ∧ SessionsAtomic s a)
    (.single idleHost) beatBetween
    (fun s => s.unfinished "h" = 2 &&
      (s.world.hosts.get? "h").any fun row => row.maxContainers = 1) (by decide +kernel)
  simp only [Bool.and_eq_true, decide_eq_true_eq, Option.any_eq_true] at hp
  obtain ⟨htwo, row, hrow, hmax⟩ := hp
  have := hall _ s "h" row (.single _) rfl (fun _ => idleHost_limit) hs hrow
  rw [htwo, hmax] at this
  exact absurd this (by decide)

end TestOrch
