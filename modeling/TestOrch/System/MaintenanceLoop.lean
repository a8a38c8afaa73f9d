import TestOrch.Core.Transition
import TestOrch.System.Step

/-!
# The maintenance loop (`_maintenance_loop` and `lifespan` in `backend/main.py`)

The loop runs a sweep in a thread, waits until it is over, then until the interval has passed or
`stop` is set, and starts again, whether or not the sweep has raised. Shutting down sets `stop` and
cancels the task, which does not wait for a sweep that is under way. The times at which sweeps
start and are found to be over are kept for the proofs only.
-/

namespace TestOrch

open Transition

/-- Where the task of `_maintenance_loop` stands. -/
inductive LoopPc where
  /-- The task has not run yet. -/
  | created
  /-- It awaits the thread of the sweep that is process `p`. -/
  | sweeping (p : ℕ)
  /-- It waits for `stop`, at most for the interval. -/
  | waiting (since : ℤ)
  | ended
  deriving DecidableEq

/-- The backend's loop in front of the system. -/
structure Backend where
  sys : Sys
  /-- `stop` is set, and the task is cancelled. -/
  stop : Bool
  loop : LoopPc
  /-- When each sweep was started. -/
  begun : List ℤ
  /-- When each sweep was found to be over. -/
  noticed : List ℤ

def SweepPc.isOver : SweepPc → Bool
  | .done | .raised => true
  | .start | .read _ | .mark .. | .select _ | .fail _ => false

def Sys.Sweeping (s : Sys) (p : ℕ) : Prop :=
  ∃ maxAge pc, s.procs[p]? = some (.sweep maxAge pc) ∧ pc.isOver = false

def Sys.sweepOver (s : Sys) (p : ℕ) : Bool :=
  match (s.procs[p]?).bind Proc.sweep? with
  | some (_, pc) => pc.isOver
  | none => false

namespace Backend

inductive Act where
  /-- The task goes on. -/
  | loop
  /-- The `finally` of `lifespan`. -/
  | shutdown
  /-- A step of the system; a sweep is started only by the loop, and its thread does not die
  alone. -/
  | sys (a : TestOrch.Act)

def now (b : Backend) : ℤ := b.sys.world.clock

/-- `asyncio.to_thread(run_maintenance_sweep)`. -/
def startSweep (maxAge : ℤ) (b : Backend) : Backend where
  sys := { b.sys with procs := b.sys.procs ++ [(Launch.sweep maxAge).proc] }
  stop := b.stop
  loop := .sweeping b.sys.procs.length
  begun := b.begun ++ [b.now]
  noticed := b.noticed

/-- `asyncio.wait_for(stop.wait(), timeout=interval)`, after a sweep that is over. -/
def awaitStop (b : Backend) : Backend :=
  { b with loop := .waiting b.now, noticed := b.noticed ++ [b.now] }

/-- The task goes on where it stands, if what it awaits is there or it is cancelled. -/
def stepLoop (interval maxAge : ℤ) (b : Backend) : Option Backend :=
  if b.stop then
    if b.loop = .ended then none else some { b with loop := .ended }
  else match b.loop with
    | .created => some (b.startSweep maxAge)
    | .sweeping p =>
      if b.sys.sweepOver p then some b.awaitStop else none
    | .waiting since => if since + interval ≤ b.now then some (b.startSweep maxAge) else none
    | .ended => none

/-- What the rest of the system does not do. -/
def reserved (b : Backend) : TestOrch.Act → Bool
  | .launch (.sweep _) => true
  | .kill p => ((b.sys.procs[p]?).bind Proc.sweep?).isSome
  | _ => false

def step (interval maxAge : ℤ) (b : Backend) : Act → Option Backend
  | .loop => b.stepLoop interval maxAge
  | .shutdown => if b.stop then none else some { b with stop := true }
  | .sys a =>
    if b.reserved a then none else (TestOrch.step b.sys a).map fun sys => { b with sys := sys }

/-- A backend that has just been started in front of a system. -/
def launched (sys : Sys) : Backend := ⟨sys, false, .created, [], []⟩

/-- The steps of the backend, one rule for each kind of step. -/
inductive Rule (interval maxAge : ℤ) (b : Backend) : Act → Backend → Prop
  | start (hstop : b.stop = false)
      (hdue : b.loop = .created ∨ ∃ since, b.loop = .waiting since ∧ since + interval ≤ b.now) :
      Rule interval maxAge b .loop (b.startSweep maxAge)
  | noticed {p} (hstop : b.stop = false) (hloop : b.loop = .sweeping p)
      (hover : b.sys.sweepOver p = true) :
      Rule interval maxAge b .loop b.awaitStop
  | cancelled (hstop : b.stop = true) : Rule interval maxAge b .loop { b with loop := .ended }
  | shutdown (hstop : b.stop = false) : Rule interval maxAge b .shutdown { b with stop := true }
  | sys {a s'} (ha : b.reserved a = false) (hs : TestOrch.step b.sys a = some s') :
      Rule interval maxAge b (.sys a) { b with sys := s' }

variable {interval maxAge : ℤ} {b b' : Backend}

theorem Rule.of_step {a : Act} (h : step interval maxAge b a = some b') :
    Rule interval maxAge b a b' := by
  cases a with
  | loop =>
    simp only [step, stepLoop] at h
    split_ifs at h with hstop hended
    · obtain rfl := Option.some.inj h
      exact .cancelled hstop
    · have hgoes : b.stop = false := Bool.eq_false_iff.mpr hstop
      split at h
      · next hloop =>
        obtain rfl := Option.some.inj h
        exact .start hgoes (.inl hloop)
      · next p hloop =>
        split_ifs at h with hover
        obtain rfl := Option.some.inj h
        exact .noticed hgoes hloop hover
      · next since hloop =>
        split_ifs at h with hdue
        obtain rfl := Option.some.inj h
        exact .start hgoes (.inr ⟨since, hloop, hdue⟩)
      · cases h
  | shutdown =>
    simp only [step] at h
    split_ifs at h with hstop
    obtain rfl := Option.some.inj h
    exact .shutdown (Bool.eq_false_iff.mpr hstop)
  | sys a =>
    simp only [step] at h
    split_ifs at h with ha
    obtain ⟨s', hs, rfl⟩ := Option.map_eq_some_iff.mp h
    exact .sys (Bool.eq_false_iff.mpr ha) hs

end Backend

/-! ### Sweeps in the pool -/

variable {s s' : Sys} {p : ℕ} {maxAge : ℤ} {pc : SweepPc}

lemma Sys.sweepOver_of_get (hp : s.procs[p]? = some (.sweep maxAge pc)) :
    s.sweepOver p = pc.isOver := by
  simp [Sys.sweepOver, hp, Proc.sweep?]

/-- A sweep that has not been killed stands where it stood, or the step is its own. -/
lemma sweep_cases {a : Act} (h : step s a = some s')
    (hp : s.procs[p]? = some (.sweep maxAge pc)) (ha : a ≠ .kill p) :
    s'.procs[p]? = some (.sweep maxAge pc) ∨ ∃ o pc', a = .advance p o ∧
      SweepRule p maxAge s.world pc o s'.world pc' ∧
      s'.procs[p]? = some (.sweep maxAge pc') := by
  have hset : ∀ {q : ℕ} {proc proc' : Proc}, s.procs[q]? = some proc → q ≠ p →
      (s.procs.set q proc')[p]? = some (.sweep maxAge pc) := by
    intro q proc proc' hq hne
    rw [Pool.getElem?_set_of_get hq, if_neg hne.symm, hp]
  cases SysRule.of_step h with
  | launch | deliver | redeliver => exact .inl (Pool.getElem?_append_of_get hp)
  | submit hq | task hq | heartbeat hq | update hq | reap hq =>
    refine .inl (hset hq ?_)
    rintro rfl
    cases hq.symm.trans hp
  | @sweep q o maxAge' pc₀ w' pc' hq hr =>
    by_cases hpq : q = p
    · subst hpq
      cases hq.symm.trans hp
      exact .inr ⟨o, pc', rfl, hr, by rw [Pool.getElem?_set_of_get hq, if_pos rfl]⟩
    · exact .inl (hset hq hpq)
  | kill hq => exact .inl (hset hq fun heq => absurd (congrArg Act.kill heq) ha)
  | exit | tick => exact .inl hp

/-- A step starts no sweep but the one that it launches, and no sweep begins again. -/
lemma sweeping_of_step {a : Act} (h : step s a = some s') (hp : s'.Sweeping p)
    (ha : ∀ maxAge, a ≠ .launch (.sweep maxAge)) : s.Sweeping p := by
  obtain ⟨maxAge, pc, hp, hpc⟩ := hp
  -- Two ways to be there: as a new process, or as one that moved.
  have happend : ∀ {new : Proc}, (∀ maxAge pc, new ≠ .sweep maxAge pc) →
      (s.procs ++ [new])[p]? = some (.sweep maxAge pc) → s.Sweeping p := by
    intro new hnew hp
    rw [Pool.getElem?_append_singleton] at hp
    split_ifs at hp
    · exact absurd (Option.some.inj hp) (hnew maxAge pc)
    · exact ⟨maxAge, pc, hp, hpc⟩
  have hset : ∀ {q : ℕ} {proc proc' : Proc}, s.procs[q]? = some proc →
      (∀ maxAge pc, proc' ≠ .sweep maxAge pc) →
      (s.procs.set q proc')[p]? = some (.sweep maxAge pc) → s.Sweeping p := by
    intro q proc proc' hq hnew hp
    rw [Pool.getElem?_set_of_get hq] at hp
    split_ifs at hp
    · exact absurd (Option.some.inj hp) (hnew maxAge pc)
    · exact ⟨maxAge, pc, hp, hpc⟩
  cases SysRule.of_step h with
  | @launch l =>
    refine happend (fun maxAge' pc' => ?_) hp
    cases l with
    | sweep maxAge'' => exact absurd rfl (ha maxAge'')
    | _ => simp [Launch.proc]
  | deliver | redeliver => exact happend (by simp) hp
  | submit hq | task hq | heartbeat hq | update hq | reap hq => exact hset hq (by simp) hp
  | @sweep q o maxAge' pc₀ w' pc' hq hr =>
    dsimp only at hp
    rw [Pool.getElem?_set_of_get hq] at hp
    split_ifs at hp with hpq
    · refine ⟨maxAge', pc₀, by rw [hpq, hq], ?_⟩
      cases hr with
      | raises hdone hraised => cases pc₀ <;> trivial
      | _ => rfl
    · exact ⟨maxAge, pc, hp, hpc⟩
  | kill hq => exact hset hq (by simp) hp
  | exit | tick => exact ⟨maxAge, pc, hp, hpc⟩

/-! ### Taking turns -/

/-- How many sweeps have started and how many are over, by where the task stands. -/
def LoopPc.Counts (begun noticed : List ℤ) : LoopPc → Prop
  | .created => begun = [] ∧ noticed = []
  | .sweeping _ => begun.length = noticed.length + 1
  | .waiting since => begun.length = noticed.length ∧ noticed.getLast? = some since
  | .ended => noticed.length ≤ begun.length ∧ begun.length ≤ noticed.length + 1

namespace Backend

/-- The sweeps take turns, and the task ends with `stop` only. -/
structure InTurn (interval maxAge : ℤ) (b : Backend) : Prop where
  awaited : ∀ p, b.loop = .sweeping p → ∃ pc, b.sys.procs[p]? = some (.sweep maxAge pc)
  alone : ∀ p q, b.sys.Sweeping p → b.sys.Sweeping q → p = q
  current : b.loop ≠ .ended → ∀ p, b.sys.Sweeping p → b.loop = .sweeping p
  ended : b.loop = .ended → b.stop = true
  counts : b.loop.Counts b.begun b.noticed
  spaced : ∀ (i : ℕ) s f, b.begun[i + 1]? = some s → b.noticed[i]? = some f → f + interval ≤ s
  past : ∀ s, s ∈ b.begun ∨ s ∈ b.noticed → s ≤ b.now

variable {interval : ℤ} {b b' : Backend}

lemma ne_kill_of_reserved {a : TestOrch.Act} (ha : b.reserved a = false)
    (hp : b.sys.procs[p]? = some (.sweep maxAge pc)) : a ≠ .kill p := by
  rintro rfl
  simp [reserved, hp, Proc.sweep?] at ha

namespace InTurn

lemma start (hi : InTurn interval maxAge b)
    (hdue : b.loop = .created ∨ ∃ since, b.loop = .waiting since ∧ since + interval ≤ b.now) :
    InTurn interval maxAge (b.startSweep maxAge) := by
  -- The task waits, so no sweep is under way and the new one is alone.
  have hidle : ∀ p, ¬ b.sys.Sweeping p := by
    intro p hp
    rcases hdue with hloop | ⟨since, hloop, -⟩
    · have hcurrent := hi.current (by simp [hloop]) p hp
      simp [hloop] at hcurrent
    · have hcurrent := hi.current (by simp [hloop]) p hp
      simp [hloop] at hcurrent
  have honly : ∀ p, (b.startSweep maxAge).sys.Sweeping p → p = b.sys.procs.length := by
    rintro p ⟨maxAge', pc, hp, hpc⟩
    simp only [startSweep, Pool.getElem?_append_singleton] at hp
    split_ifs at hp with heq
    · exact heq
    · exact (hidle p ⟨maxAge', pc, hp, hpc⟩).elim
  -- All sweeps that have started are over.
  have hlength : b.begun.length = b.noticed.length := by
    have hcounts := hi.counts
    rcases hdue with hloop | ⟨since, hloop, -⟩
    · rw [hloop] at hcounts
      rw [hcounts.1, hcounts.2]
    · rw [hloop] at hcounts
      exact hcounts.1
  constructor
  · rintro p ⟨⟩
    exact ⟨.start, by simp [startSweep, Launch.proc]⟩
  · exact fun p q hp hq => (honly p hp).trans (honly q hq).symm
  · rintro - p hp
    rw [honly p hp]
    rfl
  · rintro ⟨⟩
  · simp [startSweep, LoopPc.Counts, hlength]
  · intro i s f hs hf
    -- The last one ended an interval ago.
    simp only [startSweep, Pool.getElem?_append_singleton] at hs hf
    split_ifs at hs with hlast
    · obtain rfl := Option.some.inj hs
      rcases hdue with hloop | ⟨since, hloop, hdue⟩
      · have hcounts := hi.counts
        rw [hloop] at hcounts
        simp [hcounts.1] at hlast
      · have hcounts := hi.counts
        rw [hloop] at hcounts
        have hpos : b.noticed.length - 1 = i := by omega
        have hf' := hcounts.2
        rw [List.getLast?_eq_getElem?, hpos, hf] at hf'
        rw [Option.some.inj hf']
        exact hdue
    · exact hi.spaced i s f hs hf
  · rintro s (hs | hs)
    · rcases List.mem_append.mp hs with hs | hs
      · exact hi.past s (.inl hs)
      · exact (List.mem_singleton.mp hs).le
    · exact hi.past s (.inr hs)

lemma finish {p : ℕ} (hi : InTurn interval maxAge b) (hloop : b.loop = .sweeping p)
    (hover : b.sys.sweepOver p = true) :
    InTurn interval maxAge b.awaitStop := by
  have hcounts := hi.counts
  rw [hloop] at hcounts
  constructor
  · rintro q ⟨⟩
  · exact hi.alone
  · rintro - q ⟨maxAge', pc, hq, hpc⟩
    have hqp : b.loop = .sweeping q := hi.current (by simp [hloop]) q ⟨maxAge', pc, hq, hpc⟩
    obtain rfl : p = q := LoopPc.sweeping.inj (hloop.symm.trans hqp)
    have hp : b.sys.procs[p]? = some (.sweep maxAge' pc) := hq
    rw [Sys.sweepOver_of_get hp, hpc] at hover
    cases hover
  · rintro ⟨⟩
  · simpa [awaitStop, LoopPc.Counts] using hcounts
  · intro i s f hs hf
    simp only [awaitStop] at hs hf
    rw [Pool.getElem?_append_singleton] at hf
    split_ifs at hf with hlast
    · have hlt := (List.getElem?_eq_some_iff.mp hs).1
      simp only [LoopPc.Counts] at hcounts
      omega
    · exact hi.spaced i s f hs hf
  · rintro s (hs | hs)
    · exact hi.past s (.inl hs)
    · rcases List.mem_append.mp hs with hs | hs
      · exact hi.past s (.inr hs)
      · exact (List.mem_singleton.mp hs).le

lemma cancel (hi : InTurn interval maxAge b) (hstop : b.stop = true) :
    InTurn interval maxAge { b with loop := .ended } where
  awaited := by rintro p ⟨⟩
  alone := hi.alone
  current h := absurd rfl h
  ended _ := hstop
  counts := by
    have hcounts := hi.counts
    cases hloop : b.loop <;> rw [hloop] at hcounts <;> simp only [LoopPc.Counts] at hcounts ⊢
    · simp [hcounts]
    · omega
    · omega
    · exact hcounts
  spaced := hi.spaced
  past := hi.past

lemma sys {a : TestOrch.Act} {s' : Sys} (hi : InTurn interval maxAge b)
    (ha : b.reserved a = false) (hs : TestOrch.step b.sys a = some s') :
    InTurn interval maxAge { b with sys := s' } := by
  have hkept : ∀ p, Sys.Sweeping s' p → b.sys.Sweeping p := fun p hp =>
    sweeping_of_step hs hp (by rintro maxAge rfl; cases ha)
  constructor
  · intro p hloop
    obtain ⟨pc, hp⟩ := hi.awaited p hloop
    rcases sweep_cases hs hp (ne_kill_of_reserved ha hp) with hp' | ⟨o, pc', -, -, hp'⟩
    · exact ⟨pc, hp'⟩
    · exact ⟨pc', hp'⟩
  · exact fun p q hp hq => hi.alone p q (hkept p hp) (hkept q hq)
  · exact fun hloop p hp => hi.current hloop p (hkept p hp)
  · exact hi.ended
  · exact hi.counts
  · exact hi.spaced
  · exact fun s h => (hi.past s h).trans (clock_le_of_step hs)

end InTurn

theorem inTurn_step {a : Act} (hi : InTurn interval maxAge b)
    (h : step interval maxAge b a = some b') : InTurn interval maxAge b' := by
  cases Rule.of_step h with
  | start _ hdue => exact hi.start hdue
  | noticed _ hloop hover => exact hi.finish hloop hover
  | cancelled hstop => exact hi.cancel hstop
  | shutdown hstop =>
    exact ⟨hi.awaited, hi.alone, hi.current, fun _ => rfl, hi.counts, hi.spaced, hi.past⟩
  | sys ha hs => exact hi.sys ha hs

lemma InTurn.launched {sys : Sys} (h : ∀ p, ¬ sys.Sweeping p) :
    InTurn interval maxAge (launched sys) where
  awaited := by rintro p ⟨⟩
  alone p q hp := (h p hp).elim
  current _ p hp := (h p hp).elim
  ended := by rintro ⟨⟩
  counts := ⟨rfl, rfl⟩
  spaced i s f hs := by cases hs
  past s hs := by simp [Backend.launched] at hs

/-- Once `stop` is set no sweep is started. -/
lemma begun_of_step {a : Act} (h : step interval maxAge b a = some b') (hstop : b.stop = true) :
    b'.stop = true ∧ b'.begun = b.begun := by
  cases Rule.of_step h with
  | start hgoes => simp [hstop] at hgoes
  | noticed hgoes => simp [hstop] at hgoes
  | cancelled => exact ⟨hstop, rfl⟩
  | shutdown hgoes => simp [hstop] at hgoes
  | sys => exact ⟨hstop, rfl⟩

lemma inTurn {sys : Sys} (h₀ : ∀ p, ¬ sys.Sweeping p)
    (h : Reaches (step interval maxAge) (fun _ _ => True) (launched sys) b) :
    InTurn interval maxAge b :=
  h.invariant (.launched h₀) fun _ _ _ hi _ hs => inTurn_step hi hs

/-- The sweeps of a backend take turns. In every run, whatever the sweeps meet, at most one of them
is not over; each starts the interval after the one before it was found to be over, or later; until
`stop` is set the loop goes on and awaits the sweep that is under way; after that none is started.
-/
theorem sweeps_in_turn {sys : Sys} (h₀ : ∀ p, ¬ sys.Sweeping p)
    (h : Reaches (step interval maxAge) (fun _ _ => True) (launched sys) b) :
    (∀ p q, b.sys.Sweeping p → b.sys.Sweeping q → p = q) ∧
    (∀ (i : ℕ) s, b.begun[i + 1]? = some s → ∃ f, b.noticed[i]? = some f ∧ f + interval ≤ s) ∧
    (b.stop = false → b.loop ≠ .ended ∧ ∀ p, b.sys.Sweeping p → b.loop = .sweeping p) ∧
    (b.stop = true → ∀ b', Reaches (step interval maxAge) (fun _ _ => True) b b' →
      b'.begun = b.begun) := by
  have hi : InTurn interval maxAge b := inTurn h₀ h
  refine ⟨hi.alone, fun i s hs => ?_, fun hgoes => ?_, fun hstop b' hb' => ?_⟩
  · have hlt : i < b.noticed.length := by
      have hcounts := hi.counts
      have hi' := (List.getElem?_eq_some_iff.mp hs).1
      cases hloop : b.loop <;> rw [hloop] at hcounts <;> simp only [LoopPc.Counts] at hcounts
      · simp [hcounts.1] at hi'
      · omega
      · omega
      · omega
    exact ⟨_, List.getElem?_eq_getElem hlt, hi.spaced i s _ hs (List.getElem?_eq_getElem hlt)⟩
  · have halive : b.loop ≠ .ended := fun hended => by simp [hi.ended hended] at hgoes
    exact ⟨halive, hi.current halive⟩
  · refine (hb'.invariant (I := fun t => t.stop = true ∧ t.begun = b.begun) ⟨hstop, rfl⟩ ?_).2
    rintro t a t' ⟨hstop, hbegun⟩ - hs
    obtain ⟨hstop', hbegun'⟩ := begun_of_step hs hstop
    exact ⟨hstop', hbegun'.trans hbegun⟩

/-- The first sweep raises, the second one is under way. -/
def raisingSweep : List Act :=
  [.loop, .sys (.advance 0 .raises), .loop, .sys (.tick 30000000), .loop]

/-- The second one started the interval after the first. -/
theorem raisingSweep_in_turn : ∃ b : Backend, b.loop = .sweeping 1 ∧
    ∃ f, b.noticed[0]? = some f ∧ f + seconds 30 ≤ seconds 30 := by
  obtain ⟨b, hb, hp⟩ := exists_reaches_of_guardedRun (step (seconds 30) (seconds 90))
    (fun _ _ => True) (launched (.single idleHost)) raisingSweep
    (fun b => b.loop = .sweeping 1 && b.begun[1]? = some (seconds 30)) (by decide +kernel)
  simp only [Bool.and_eq_true, decide_eq_true_eq] at hp
  have hidle : ∀ p, ¬ (Sys.single idleHost).Sweeping p := by
    rintro p ⟨maxAge, pc, hp, -⟩
    cases hp
  exact ⟨b, hp.1, (sweeps_in_turn hidle hb).2.1 0 _ hp.2⟩

end Backend

end TestOrch
