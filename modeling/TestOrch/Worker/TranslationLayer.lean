import TestOrch.Core.PosixPath
import TestOrch.Shared.Schemas

/-!
# The directories of a run (`worker/translation_layer.py`, `worker/tasks.py`)

The config directory and the output directory of a test are joined from `test_runs_dir` and the
test's id, and both are mounted into its container. The guard on the id only asks that it is not
blank, so whether the directories of two tests are separate depends on where the ids lead as paths
(`volumes_separate_iff`). The ids that the backend makes up itself are plain names and always
separate (`volumesSeparate_of_plain`).
-/

namespace TestOrch

/-- `os.path.join(a, b)`. -/
def osPathJoin (a b : String) : String := String.ofList (Posix.join a.toList b.toList)

def configDir (testRunsDir testId : String) : String := osPathJoin testRunsDir testId

/-- The `output_dir` of `run_test_bundle`. -/
def outputDir (testRunsDir testId : String) : String :=
  osPathJoin (osPathJoin testRunsDir testId) "artifacts"

inductive MountMode where
  | ro
  | rw
  deriving DecidableEq, Repr

structure Volume where
  source : String
  bind : String
  mode : MountMode
  deriving DecidableEq, Repr

/-- The volumes that `start_test_container` mounts for a run. -/
def runVolumes (testRunsDir testId : String) : List Volume :=
  [⟨configDir testRunsDir testId, "/config", .ro⟩,
    ⟨outputDir testRunsDir testId, "/artifacts", .rw⟩]

/-- The normalised directory of a path, for a worker started in `cwd`. -/
def dirOf (cwd path : String) : Posix.Dir := Posix.absDir cwd.toList path.toList

/-- The directories mounted for two bundles are strictly inside `test_runs_dir`, and none of one
bundle equals, contains or is contained in one of the other. -/
def VolumesSeparate (cwd testRunsDir : String) (a b : TestBundleRequest) : Prop :=
  (∀ v ∈ runVolumes testRunsDir a.testId ++ runVolumes testRunsDir b.testId,
    Posix.StrictlyInside (dirOf cwd testRunsDir) (dirOf cwd v.source)) ∧
  ∀ v ∈ runVolumes testRunsDir a.testId, ∀ w ∈ runVolumes testRunsDir b.testId,
    Posix.Apart (dirOf cwd v.source) (dirOf cwd w.source)

/-- What a test id, read as a path from the directory `runs`, leaves over below it: `none` when it
leads elsewhere. -/
def idBelow (runs : Posix.Dir) (testId : String) : Option (List Posix.Name) :=
  (Posix.reachAt runs.length testId.toList).below runs

/-- Both ids name every level of `runs` again that they climb out of, and what is left over of
neither begins with what is left over of the other. -/
def IdsApart (runs : Posix.Dir) (a b : String) : Prop :=
  ∃ ra rb, idBelow runs a = some ra ∧ idBelow runs b = some rb ∧ Posix.Apart ra rb

/-- A name without a separator that is neither the directory itself nor its parent. -/
def PlainName (s : String) : Prop := '/' ∉ s.toList ∧ s ≠ "." ∧ s ≠ ".."

lemma dirOf_osPathJoin (cwd a b : String) :
    dirOf cwd (osPathJoin a b) = Posix.walk (dirOf cwd a) b.toList := by
  rw [dirOf, osPathJoin, String.toList_ofList, Posix.absDir_join]
  rfl

/-- The output directory is the `artifacts` entry of the config directory. -/
lemma dirOf_outputDir (cwd testRunsDir testId : String) :
    dirOf cwd (outputDir testRunsDir testId) =
      dirOf cwd (configDir testRunsDir testId) ++ ["artifacts".toList] := by
  rw [outputDir, dirOf_osPathJoin]
  rfl

/-- Only the two config directories matter: everything mounted lies at or below them. -/
lemma volumesSeparate_iff_configDir {cwd testRunsDir : String} {a b : TestBundleRequest} :
    VolumesSeparate cwd testRunsDir a b ↔
      Posix.StrictlyInside (dirOf cwd testRunsDir) (dirOf cwd (configDir testRunsDir a.testId)) ∧
      Posix.StrictlyInside (dirOf cwd testRunsDir) (dirOf cwd (configDir testRunsDir b.testId)) ∧
      Posix.Apart (dirOf cwd (configDir testRunsDir a.testId))
        (dirOf cwd (configDir testRunsDir b.testId)) := by
  simp only [VolumesSeparate, runVolumes, List.cons_append, List.nil_append, List.forall_mem_cons,
    List.not_mem_nil, false_imp_iff, implies_true, and_true, dirOf_outputDir]
  constructor
  · rintro ⟨⟨ha, -, hb, -⟩, ⟨hab, -⟩, -⟩
    exact ⟨ha, hb, hab⟩
  · rintro ⟨ha, hb, hab⟩
    refine ⟨⟨ha, ha.append _, hb, hb.append _⟩, ⟨hab, ?_⟩, hab.append_left _, ?_⟩
    · exact (hab.symm.append_left _).symm
    · exact ((hab.append_left _).symm.append_left _).symm

/-- The config directory lies at or below `test_runs_dir` exactly by what the id leaves over. -/
lemma configDir_eq_append_iff {cwd testRunsDir testId : String} {rest : List Posix.Name} :
    dirOf cwd (configDir testRunsDir testId) = dirOf cwd testRunsDir ++ rest ↔
      idBelow (dirOf cwd testRunsDir) testId = some rest := by
  rw [configDir, dirOf_osPathJoin, Posix.walk_eq_reach, Posix.Reach.dest_eq_append_iff]
  rfl

/-- A plain name as an id leaves itself over. -/
lemma idBelow_of_plain (runs : Posix.Dir) {testId : String} (hblank : strip testId ≠ "")
    (hplain : PlainName testId) : idBelow runs testId = some [testId.toList] := by
  obtain ⟨hslash, hdot, hdots⟩ := hplain
  have hne : testId.toList ≠ [] := by
    intro h
    obtain rfl : testId = "" := String.toList_inj.mp h
    exact hblank rfl
  rw [idBelow, Posix.reachAt, Posix.isAbs_of_not_mem hslash, if_neg Bool.false_ne_true,
    Posix.reach_of_plain hslash hne (fun h => hdot (String.toList_inj.mp h))
      (fun h => hdots (String.toList_inj.mp h))]
  simp [Posix.Reach.below]

lemma idsApart_of_plain (runs : Posix.Dir) {a b : NonEmptyStr} (ha : PlainName a)
    (hb : PlainName b) (hne : a ≠ b) : IdsApart runs a b := by
  refine ⟨_, _, idBelow_of_plain runs a.property ha, idBelow_of_plain runs b.property hb, ?_⟩
  have hab : a.val.toList ≠ b.val.toList := fun h => hne (Subtype.ext (String.toList_inj.mp h))
  simp [Posix.Apart, hab, hab.symm]

lemma separate_of_idsApart {cwd testRunsDir : String} {a b : TestBundleRequest}
    (h : IdsApart (dirOf cwd testRunsDir) a.testId b.testId) :
    VolumesSeparate cwd testRunsDir a b := by
  obtain ⟨ra, rb, hra, hrb, hab⟩ := h
  rw [volumesSeparate_iff_configDir, configDir_eq_append_iff.mpr hra,
    configDir_eq_append_iff.mpr hrb]
  refine ⟨?_, ?_, Posix.apart_append_left_iff.mpr hab⟩
  · exact Posix.strictlyInside_iff.mpr ⟨ra, rfl, hab.ne_nil⟩
  · exact Posix.strictlyInside_iff.mpr ⟨rb, rfl, hab.symm.ne_nil⟩

/-- The directories of two bundles are separate exactly when their ids are apart as paths. -/
theorem volumes_separate_iff (cwd testRunsDir : String) (a b : TestBundleRequest) :
    VolumesSeparate cwd testRunsDir a b ↔
      IdsApart (dirOf cwd testRunsDir) a.testId b.testId := by
  constructor
  · rw [volumesSeparate_iff_configDir]
    rintro ⟨ha, hb, hab⟩
    obtain ⟨ra, hra, -⟩ := Posix.strictlyInside_iff.mp ha
    obtain ⟨rb, hrb, -⟩ := Posix.strictlyInside_iff.mp hb
    refine ⟨ra, rb, configDir_eq_append_iff.mp hra, configDir_eq_append_iff.mp hrb, ?_⟩
    rw [hra, hrb] at hab
    exact Posix.apart_append_left_iff.mp hab
  · exact separate_of_idsApart

/-- The payload of a run whose id is given. -/
def idPayload (testId : String) : PyValue :=
  .dict [(.str "test_id", .str testId), (.str "user_id", .int 1),
    (.str "runner_type", .str "pytest"), (.str "framework_image", .str "img")]

/-- The broker accepts the id `..`, whose config directory is the parent of `test_runs_dir` and so
contains the directories of every other run. -/
theorem parentId_not_separate :
    ∃ a b, TestBundleRequest.fromDict (idPayload "..") = .ok a ∧
      TestBundleRequest.fromDict (idPayload "run") = .ok b ∧ a.testId ≠ b.testId ∧
      ¬ VolumesSeparate "/" "/tmp/test_runs" a b := by
  refine ⟨{ sampleBundle with testId := ⟨"..", by decide⟩ },
    { sampleBundle with testId := ⟨"run", by decide⟩ }, rfl, rfl, by decide, ?_⟩
  rw [volumesSeparate_iff_configDir]
  rintro ⟨hinside, -⟩
  revert hinside
  unfold Posix.StrictlyInside
  decide

/-- Distinct plain names, such as the hexadecimal ids the backend makes up, keep the directories of
their runs separate. -/
theorem volumesSeparate_of_plain (cwd testRunsDir : String) {a b : TestBundleRequest}
    (ha : PlainName a.testId) (hb : PlainName b.testId) (hne : a.testId ≠ b.testId) :
    VolumesSeparate cwd testRunsDir a b :=
  separate_of_idsApart (idsApart_of_plain _ ha hb hne)

end TestOrch
