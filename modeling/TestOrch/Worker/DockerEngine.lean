import TestOrch.Core.Except
import TestOrch.Core.Table
import TestOrch.Shared.Validation

/-!
# Container control (`worker/docker_engine.py`)

The Docker daemon of one host is a table of containers with distinct names. Each container
remembers the call of `start_test_container` that made it, if one did; the daemon does not know
this, and neither does the code, which recognises its containers by their names alone. The ids of
tests are such that the daemon takes them in names: letters, digits, `_`, `.` and `-`.
-/

namespace TestOrch

def containerPrefix : String := "test_"

def containerName (testId : String) : Except PyError String := do
  let id ← requireNonEmptyStr (.str testId) "test_id"
  pure (containerPrefix ++ id.val)

inductive ContainerStatus where
  | created
  | running
  | paused
  | restarting
  | exited (code : ℤ)
  | dead
  deriving DecidableEq, Repr

/-- A call of `start_test_container`: the test it was made for and the execution that made it. -/
structure StartCall where
  testId : NonEmptyStr
  caller : ℕ
  deriving DecidableEq

structure Container where
  name : String
  status : ContainerStatus
  labels : List (String × String)
  startedBy : Option StartCall
  deriving DecidableEq

/-- The daemon of one host: names are unique, and what `start_test_container` started carries the
name that it gave. -/
structure Daemon where
  containers : Table Container.name
  owned : ∀ c ∈ containers.rows, ∀ s, c.startedBy = some s →
    c.name = containerPrefix ++ s.testId.val

/-- What `start_test_container` raises. -/
inductive EngineError where
  | invalid (e : PyError)
  | apiError
  deriving DecidableEq

namespace Daemon

variable {d d' : Daemon} {testId : NonEmptyStr} {caller : ℕ}

def empty : Daemon := ⟨.empty _, by simp [Table.empty]⟩

/-- The container that `containers.run` starts for a test. -/
def testContainer (testId : NonEmptyStr) (caller : ℕ) : Container where
  name := containerPrefix ++ testId.val
  status := .running
  labels := [("managed-by", "test_orch"), ("test-id", testId)]
  startedBy := some ⟨testId, caller⟩

/-- `containers.run(name=...)` for a test; the daemon refuses a name that is in use. -/
def run (d : Daemon) (testId : NonEmptyStr) (caller : ℕ) : Option Daemon :=
  match h : d.containers.insert? (testContainer testId caller) with
  | none => none
  | some t => some ⟨t, fun c hc s hs => by
      rcases (Table.mem_insert? h).mp hc with hc | rfl
      · exact d.owned c hc s hs
      · obtain rfl := Option.some.inj hs
        rfl⟩

/-- `containers.get(name).remove(force=True)`; a missing container is ignored. -/
def remove (d : Daemon) (name : String) : Daemon where
  containers := d.containers.erase name
  owned c hc := d.owned c (Table.mem_erase.mp hc).1

def setStatus (d : Daemon) (name : String) (status : ContainerStatus) : Daemon where
  containers := d.containers.modify [name] (fun c => { c with status := status }) fun _ => rfl
  owned c hc := by
    obtain ⟨c', hc', rfl⟩ := List.mem_map.mp hc
    split_ifs
    · exact d.owned c' hc'
    · exact d.owned c' hc'

/-- The status of the container that a call started for a test, while it is there. -/
def statusOf (d : Daemon) (testId : NonEmptyStr) (caller : ℕ) : Option ContainerStatus :=
  ((d.containers.get? (containerPrefix ++ testId.val)).filter fun c =>
    c.startedBy = some ⟨testId, caller⟩).map Container.status

lemma run_containers :
    (d.run testId caller).map containers = d.containers.insert? (testContainer testId caller) := by
  unfold run
  split <;> simp_all

/-- The name was free, and the new container is the only change. -/
lemma run_eq_some (h : d.run testId caller = some d') :
    d.containers.get? (containerPrefix ++ testId.val) = none ∧
      (∀ c, c ∈ d'.containers.rows ↔ c ∈ d.containers.rows ∨ c = testContainer testId caller) ∧
      ∀ name, d'.containers.get? name =
        if name = containerPrefix ++ testId.val then some (testContainer testId caller)
        else d.containers.get? name := by
  have hi : d.containers.insert? (testContainer testId caller) = some d'.containers := by
    rw [← run_containers, h]
    rfl
  obtain ⟨hfree, hget⟩ := Table.get?_insert? hi
  exact ⟨hfree, fun c => Table.mem_insert? hi, hget⟩

/-- Docker refuses exactly the names in use. -/
lemma run_eq_none :
    d.run testId caller = none ↔
      ∃ c, d.containers.get? (containerPrefix ++ testId.val) = some c := by
  rw [← Option.map_eq_none_iff (f := containers), run_containers]
  exact Table.insert?_eq_none_iff

@[simp] lemma get?_remove (name name' : String) :
    (d.remove name).containers.get? name' =
      if name' = name then none else d.containers.get? name' :=
  Table.get?_erase _ _ _

/-- A test that could be started had no container. -/
lemma statusOf_of_run (h : d.run testId caller = some d') (caller' : ℕ) :
    d.statusOf testId caller' = none := by
  simp [statusOf, (run_eq_some h).1]

lemma statusOf_run (h : d.run testId caller = some d') (testId' : NonEmptyStr) (caller' : ℕ) :
    d'.statusOf testId' caller' =
      if testId' = testId ∧ caller' = caller then some .running
      else d.statusOf testId' caller' := by
  by_cases hid : testId' = testId
  · subst hid
    rw [statusOf_of_run h]
    simp only [statusOf, (run_eq_some h).2.2, if_true, testContainer, true_and]
    by_cases hcaller : caller' = caller
    · simp [hcaller, Option.filter]
    · simp [Option.filter, hcaller, Ne.symm hcaller]
  · have hval : testId'.val ≠ testId.val := fun heq => hid (Subtype.ext heq)
    simp [statusOf, (run_eq_some h).2.2, hid, hval]

@[simp] lemma statusOf_remove (testId' : NonEmptyStr) (caller' : ℕ) :
    (d.remove (containerPrefix ++ testId.val)).statusOf testId' caller' =
      if testId' = testId then none else d.statusOf testId' caller' := by
  by_cases hid : testId' = testId
  · simp [statusOf, hid]
  · have hval : testId'.val ≠ testId.val := fun heq => hid (Subtype.ext heq)
    simp [statusOf, hid, hval]

/-- A change of status makes no container appear or disappear. -/
lemma statusOf_setStatus {name : String} {status : ContainerStatus} (testId' : NonEmptyStr)
    (caller' : ℕ) : (d.setStatus name status).statusOf testId' caller' = none ↔
      d.statusOf testId' caller' = none := by
  simp only [statusOf, setStatus, Table.get?_modify]
  split_ifs
  · cases d.containers.get? (containerPrefix ++ testId'.val) with
    | none => rfl
    | some c => by_cases hc : c.startedBy = some ⟨testId', caller'⟩ <;> simp [Option.filter, hc]
  · rfl

def activeTestContainerCount (d : Daemon) : ℕ :=
  (d.containers.rows.filter fun c => c.status = .running).countP
    fun c => containerPrefix.toList.isPrefixOf c.name.toList

/-- The checks of `start_test_container`, up to the container name; `isdir` is `os.path.isdir`. -/
def checkArguments (isdir : String → Bool) (image configDir testId : String)
    (outputDir : Option String) : Except PyError NonEmptyStr := do
  let _ ← requireNonEmptyStr (.str image) "image"
  let _ ← requireNonEmptyStr (.str configDir) "config_dir"
  if !isdir configDir then
    throw (.valueError s!"config_dir is not a readable directory: {configDir}")
  let dir := outputDir.getD ""
  if dir != "" && !isdir dir then
    throw (.valueError s!"output_dir is not a readable directory: {dir}")
  requireNonEmptyStr (.str testId) "test_id"

def startTestContainer (isdir : String → Bool) (d : Daemon) (caller : ℕ)
    (image configDir testId : String) (outputDir : Option String) : Except EngineError Daemon := do
  let id ← (checkArguments isdir image configDir testId outputDir).mapError .invalid
  match d.run id caller with
  | some d' => pure d'
  | none => throw .apiError

def cleanup (d : Daemon) (testId : String) : Except PyError Daemon := do
  pure (d.remove (← containerName testId))

/-! ### Ownership by name -/

/-- A container that `start_test_container` did not start. -/
def Foreign (c : Container) : Prop := c.startedBy = none

instance (c : Container) : Decidable (Foreign c) := inferInstanceAs (Decidable (_ = _))

/-- The number of running containers that `start_test_container` started. -/
def startedCount (d : Daemon) : ℕ :=
  (d.containers.rows.filter fun c => c.status = .running).countP fun c => c.startedBy.isSome

/-- A daemon without a container of any test. -/
lemma startedCount_eq_zero
    (h : ∀ (testId : NonEmptyStr) (caller : ℕ), d.statusOf testId caller = none) :
    d.startedCount = 0 := by
  rw [startedCount, List.countP_eq_zero]
  intro c hc hstarted
  obtain ⟨call, hcall⟩ := Option.isSome_iff_exists.mp hstarted
  have hmem : c ∈ d.containers.rows := (List.mem_filter.mp hc).1
  have hname : c.name = containerPrefix ++ call.testId.val := d.owned c hmem call hcall
  have hget : d.containers.get? (containerPrefix ++ call.testId.val) = some c :=
    hname ▸ Table.get?_of_mem hmem
  have hnone := h call.testId call.caller
  simp [statusOf, hget, Option.filter, hcall] at hnone

/-- The daemon after `start_test_container`, whether it returned or raised. -/
def afterStart (isdir : String → Bool) (d : Daemon) (caller : ℕ) (image configDir testId : String)
    (outputDir : Option String) : Daemon :=
  (d.startTestContainer isdir caller image configDir testId outputDir).toOption.getD d

/-- The daemon after `cleanup`, whether it returned or raised. -/
def afterCleanup (d : Daemon) (testId : String) : Daemon := (d.cleanup testId).toOption.getD d

lemma containerName_ok {testId name : String} (h : containerName testId = .ok name) :
    name = containerPrefix ++ testId := by
  obtain ⟨id, hid, h⟩ := Except.bind_eq_ok.mp h
  have hval : testId = id.val := by simpa using requireNonEmptyStr_ok hid
  rw [hval]
  exact (Except.pure_eq_ok.mp h).symm

/-- The container is named after the test that was asked for. -/
lemma checkArguments_ok {isdir : String → Bool} {image configDir testId : String}
    {outputDir : Option String} {id : NonEmptyStr}
    (h : checkArguments isdir image configDir testId outputDir = .ok id) : id.val = testId := by
  obtain ⟨-, -, h⟩ := Except.bind_eq_ok.mp h
  obtain ⟨-, -, h⟩ := Except.bind_eq_ok.mp h
  split_ifs at h with hconfig
  · simp [Except.bind_eq_ok] at h
  · dsimp only at h
    split_ifs at h with houtput
    · simp [Except.bind_eq_ok] at h
    · simpa using (requireNonEmptyStr_ok h).symm

/-- A call of `start_test_container` that returns has run the container of the test. -/
lemma startTestContainer_ok {isdir : String → Bool} {image configDir testId : String}
    {outputDir : Option String}
    (h : d.startTestContainer isdir caller image configDir testId outputDir = .ok d') :
    ∃ id : NonEmptyStr, id.val = testId ∧ d.run id caller = some d' := by
  obtain ⟨id, hid, h⟩ := Except.bind_eq_ok.mp h
  refine ⟨id, checkArguments_ok (Except.mapError_eq_ok.mp hid), ?_⟩
  cases hrun : d.run id caller with
  | none => simp [hrun] at h
  | some d'' => simpa [hrun] using h

/-- Every container present between the two calls was there before or was started for the test. -/
lemma mem_afterStart {isdir : String → Bool} {image configDir testId : String}
    {outputDir : Option String} {c : Container}
    (hc : c ∈ (d.afterStart isdir caller image configDir testId outputDir).containers.rows) :
    c ∈ d.containers.rows ∨ ∃ s, c.startedBy = some s ∧ s.testId.val = testId := by
  unfold afterStart at hc
  cases h : d.startTestContainer isdir caller image configDir testId outputDir with
  | error e => exact .inl (by simpa [h, Except.toOption] using hc)
  | ok d' =>
    obtain ⟨id, hid, hrun⟩ := startTestContainer_ok h
    have hc' : c ∈ d'.containers.rows := by simpa [h, Except.toOption] using hc
    rcases ((run_eq_some hrun).2.1 c).mp hc' with hc' | rfl
    · exact .inl hc'
    · exact .inr ⟨⟨id, caller⟩, rfl, hid⟩

/-- Starting a container removes none. -/
lemma mem_afterStart_of_mem {isdir : String → Bool} {image configDir testId : String}
    {outputDir : Option String} {c : Container} (hc : c ∈ d.containers.rows) :
    c ∈ (d.afterStart isdir caller image configDir testId outputDir).containers.rows := by
  unfold afterStart
  cases h : d.startTestContainer isdir caller image configDir testId outputDir with
  | error e => simpa [Except.toOption] using hc
  | ok d' =>
    obtain ⟨id, -, hrun⟩ := startTestContainer_ok h
    exact ((run_eq_some hrun).2.1 c).mpr (.inl hc)

/-- `cleanup` removes exactly the container with the name of the test. -/
lemma mem_afterCleanup {testId : String} {c : Container} :
    c ∈ (d.afterCleanup testId).containers.rows ↔
      c ∈ d.containers.rows ∧ ∀ name, containerName testId = .ok name → c.name ≠ name := by
  unfold afterCleanup cleanup
  cases h : containerName testId with
  | error e => simp [bind, Except.bind, Except.toOption]
  | ok name => simp [bind, Except.bind, pure, Except.pure, Except.toOption, remove, Table.mem_erase]

/-- Counting by a condition that is weaker on all elements gives the same number only if the two
conditions agree. -/
lemma countP_eq_of_imp {α : Type*} {p q : α → Bool} {l : List α}
    (hpq : ∀ x ∈ l, p x = true → q x = true) :
    l.countP q = l.countP p ↔ ∀ x ∈ l, q x = true → p x = true := by
  induction l with
  | nil => simp
  | cons x l ih =>
    have ih := ih fun y hy => hpq y (List.mem_cons_of_mem x hy)
    have hle : l.countP p ≤ l.countP q :=
      List.countP_mono_left fun y hy => hpq y (List.mem_cons_of_mem x hy)
    have hx := hpq x List.mem_cons_self
    rw [List.forall_mem_cons, ← ih, List.countP_cons, List.countP_cons]
    cases hp : p x <;> cases hq : q x <;> simp_all
    omega

/-- What `start_test_container` started carries the prefix. -/
lemma isPrefixOf_of_startedBy {c : Container} (hc : c ∈ d.containers.rows)
    (hs : c.startedBy.isSome = true) : containerPrefix.toList.isPrefixOf c.name.toList = true := by
  obtain ⟨s, hs⟩ := Option.isSome_iff_exists.mp hs
  rw [d.owned c hc s hs, String.toList_append]
  exact List.isPrefixOf_iff_prefix.mpr (List.prefix_append _ _)

/-- The count by name is the number of running containers that were started here exactly when no
foreign running container has the prefix. -/
lemma activeTestContainerCount_eq_startedCount (d : Daemon) :
    d.activeTestContainerCount = d.startedCount ↔
      ∀ c ∈ d.containers.rows, c.status = .running →
        containerPrefix.toList.isPrefixOf c.name.toList = true → ¬ Foreign c := by
  have himp : ∀ c ∈ d.containers.rows.filter fun c => c.status = .running,
      c.startedBy.isSome = true → containerPrefix.toList.isPrefixOf c.name.toList = true :=
    fun c hc hs => isPrefixOf_of_startedBy (List.mem_filter.mp hc).1 hs
  rw [activeTestContainerCount, startedCount, countP_eq_of_imp himp]
  simp only [List.mem_filter, decide_eq_true_eq, and_imp, Foreign, Option.isSome_iff_ne_none, ne_eq]

/-- The pair of calls removes nothing foreign exactly when no foreign container has the name of the
test. -/
lemma removed_iff (isdir : String → Bool) (d : Daemon) (caller : ℕ)
    (image configDir testId : String) (outputDir : Option String) :
    (∀ c ∈ (d.afterStart isdir caller image configDir testId outputDir).containers.rows,
        c ∉ ((d.afterStart isdir caller image configDir testId outputDir).afterCleanup
          testId).containers.rows →
        ∃ s, c.startedBy = some s ∧ s.testId.val = testId) ↔
      ∀ name, containerName testId = .ok name →
        ∀ c ∈ d.containers.rows, c.name = name → ¬ Foreign c := by
  constructor
  · intro h name hname c hc hcn hforeign
    have hgone : c ∉ ((d.afterStart isdir caller image configDir testId outputDir).afterCleanup
        testId).containers.rows := fun hmem => (mem_afterCleanup.mp hmem).2 name hname hcn
    obtain ⟨s, hs, -⟩ := h c (mem_afterStart_of_mem hc) hgone
    exact absurd (hforeign.symm.trans hs) (by simp)
  · intro h c hc hgone
    rw [mem_afterCleanup, not_and] at hgone
    obtain ⟨name, hname, hcn⟩ : ∃ name, containerName testId = .ok name ∧ c.name = name := by
      simpa using hgone hc
    rcases mem_afterStart hc with hold | hnew
    · obtain ⟨s, hs⟩ := Option.ne_none_iff_exists'.mp (h name hname c hold hcn)
      have hval := containerName_ok hname
      have heq : containerPrefix ++ s.testId.val = containerPrefix ++ testId := by
        rw [← d.owned c hold s hs, hcn, hval]
      exact ⟨s, hs, by simpa using heq⟩
    · exact hnew

/-- Ownership by name is sound exactly when no foreign container uses the names of this system: the
count then is the number of containers started here, and the pair of calls for a test removes only
what was started for it. -/
theorem ownership_iff (isdir : String → Bool) (d : Daemon) (caller : ℕ)
    (image configDir testId : String) (outputDir : Option String) :
    (d.activeTestContainerCount = d.startedCount ∧
      ∀ c ∈ (d.afterStart isdir caller image configDir testId outputDir).containers.rows,
        c ∉ ((d.afterStart isdir caller image configDir testId outputDir).afterCleanup
          testId).containers.rows →
        ∃ s, c.startedBy = some s ∧ s.testId.val = testId) ↔
      (∀ c ∈ d.containers.rows, c.status = .running →
        containerPrefix.toList.isPrefixOf c.name.toList = true → ¬ Foreign c) ∧
      ∀ name, containerName testId = .ok name →
        ∀ c ∈ d.containers.rows, c.name = name → ¬ Foreign c :=
  and_congr (activeTestContainerCount_eq_startedCount d) (removed_iff ..)

/-- A daemon on which another user runs a container named `test_db`. -/
def sharedDaemon : Daemon where
  containers := ⟨[⟨"test_db", .running, [], none⟩], by simp⟩
  owned := by simp

/-- The foreign container is counted, and a test named `db` removes it. -/
theorem sharedDaemon_not_owned :
    ¬ ∀ (isdir : String → Bool) (d : Daemon) (caller : ℕ) (image configDir testId : String)
      (outputDir : Option String),
      d.activeTestContainerCount = d.startedCount ∧
      ∀ c ∈ (d.afterStart isdir caller image configDir testId outputDir).containers.rows,
        c ∉ ((d.afterStart isdir caller image configDir testId outputDir).afterCleanup
          testId).containers.rows →
        ∃ s, c.startedBy = some s ∧ s.testId.val = testId := by
  intro h
  have hcount := (h (fun _ => true) sharedDaemon 0 "image" "dir" "db" none).1
  exact absurd hcount (by decide +kernel)

end Daemon

end TestOrch
