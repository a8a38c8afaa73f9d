import TestOrch.Core.Lines
import TestOrch.Shared.PyFormat
import TestOrch.Worker.ConfigFiles

/-!
# The argument file of a Robot run (`RobotRunner` in `worker/translation_layer.py`)

`write_config` joins one argument for the target and one for each tag with newlines and escapes
nothing. The file reads back as these arguments if and only if none of the values has a character
that ends a line for the reader (`robotArgs_iff`). Values are Unicode texts, without the unpaired
surrogates that `write` refuses to encode.
-/

namespace TestOrch

namespace Runner

variable (runner : Runner)

/-- `lines`. -/
def robotLines (printable : Char → Bool) : Except PyError (List String) := do
  let target := (runner.get "target_dut" (.str "")).text printable
  let tags ← (runner.get "include_tags" (.list [])).toList
  pure (("--variable DUT:" ++ target) :: tags.map fun tag => "--include " ++ tag.text printable)

/-- `RobotRunner.write_config`. -/
def writeRobotArgs (printable : Char → Bool) (disk : Disk) : ConfigEff String := do
  let lines ← Eff.lift ((runner.robotLines printable).mapError .code)
  runner.writeInto disk "robot.args" (.ok (.args ("\n".intercalate lines)))

end Runner

/-- A Robot runner whose `target_dut` is a string and whose `include_tags` are strings. -/
structure RobotRun where
  runner : Runner
  targetDut : String
  includeTags : List String
  target_eq : runner.get "target_dut" (.str "") = .str targetDut
  tags_eq : runner.get "include_tags" (.list []) = .list (includeTags.map .str)

/-- The arguments in an argument file, one for each line. -/
def readArgs (b : Lines.Breaks) (s : RunsDir) (path : String) : Option (List String) :=
  match s.get? path with
  | some (.args text) => some ((Lines.lines b text.toList).map String.ofList)
  | _ => none

namespace RobotRun

variable (b : Lines.Breaks) (printable : Char → Bool) (r r' : RobotRun)

/-- The arguments that are asked for. -/
def args : List String :=
  ("--variable DUT:" ++ r.targetDut) :: r.includeTags.map ("--include " ++ ·)

/-- What is read from the argument file after it was written. -/
def read (disk : Disk) (s : RunsDir) : Option (List String) :=
  readArgs b (r.runner.writeRobotArgs printable disk s).2 (r.runner.file "robot.args")

/-- The file is written and decodes to what was asked for. -/
def Decodes : Prop :=
  ∀ disk s, r.runner.Accepts disk "robot.args" →
    (r.runner.writeRobotArgs printable disk s).1 = .ok r.runner.dir ∧
      r.read b printable disk s = some r.args

/-- Both files decode to what was asked for, and different values are read as different lists. -/
structure Kept : Prop where
  left : r.Decodes b printable
  right : r'.Decodes b printable
  differ : (r.targetDut, r.includeTags) ≠ (r'.targetDut, r'.includeTags) →
    ∀ disk s disk' s', r.runner.Accepts disk "robot.args" → r'.runner.Accepts disk' "robot.args" →
      r.read b printable disk s ≠ r'.read b printable disk' s'

/-- No value has a character that ends a line. -/
def OneLine : Prop := ∀ text ∈ r.targetDut :: r.includeTags, Lines.Unbroken b text.toList

/-! ### What the file holds -/

variable {b printable r r'}

lemma robotLines_eq (printable : Char → Bool) (r : RobotRun) :
    r.runner.robotLines printable = .ok r.args := by
  have htags : ∀ tags : List String, (tags.map PyValue.str).map
      (fun tag => "--include " ++ tag.text printable) = tags.map ("--include " ++ ·) := by
    intro tags
    rw [List.map_map]
    rfl
  rw [Runner.robotLines, r.target_eq, r.tags_eq, args, ← htags]
  rfl

/-- The file is written, and what is read are its lines. -/
lemma run_eq (b : Lines.Breaks) (printable : Char → Bool) {disk : Disk}
    (h : r.runner.Accepts disk "robot.args") (s : RunsDir) :
    (r.runner.writeRobotArgs printable disk s).1 = .ok r.runner.dir ∧
      r.read b printable disk s = some
        ((Lines.lines b (['\n'].intercalate (r.args.map String.toList))).map String.ofList) := by
  have hrun : r.runner.writeRobotArgs printable disk s = (.ok r.runner.dir,
      (s.makeDir r.runner.dir).put (r.runner.file "robot.args")
        (.args ("\n".intercalate r.args))) := by
    rw [← Runner.writeInto_eq h, Runner.writeRobotArgs, robotLines_eq]
    rfl
  rw [read, hrun, readArgs, RunsDir.get?_put]
  dsimp only
  rw [String.toList_intercalate]
  exact ⟨rfl, rfl⟩

/-- The fixed beginnings of the arguments are no breaks. -/
lemma unbroken_of_forall {text : List Char} (h : ∀ c ∈ text, c ∉ Lines.boundaries) :
    Lines.Unbroken b text := by
  intro c hc
  rw [← Bool.not_eq_true]
  exact fun hbreak => h c hc (b.mem_boundaries c hbreak)

lemma unbroken_append_iff {pre : String} (hpre : ∀ c ∈ pre.toList, c ∉ Lines.boundaries)
    (text : String) :
    Lines.Unbroken b (pre ++ text).toList ↔ Lines.Unbroken b text.toList := by
  rw [String.toList_append]
  constructor
  · exact fun h c hc => h c (List.mem_append_right _ hc)
  · exact fun h => (unbroken_of_forall hpre).append h

/-- The arguments are unbroken exactly if the values are. -/
lemma oneLine_iff :
    r.OneLine b ↔ ∀ line ∈ r.args.map String.toList, Lines.Unbroken b line := by
  simp only [OneLine, args, List.map_cons, List.map_map, List.forall_mem_cons, List.forall_mem_map,
    Function.comp_apply]
  apply and_congr
  · rw [unbroken_append_iff (by simp [Lines.boundaries])]
  · apply forall₂_congr
    intro text _
    rw [unbroken_append_iff (by simp [Lines.boundaries])]

/-- No argument is empty. -/
lemma ne_nil_of_mem_args {line : List Char} (h : line ∈ r.args.map String.toList) : line ≠ [] := by
  have hne : ∀ pre text : String, pre ≠ "" → (pre ++ text).toList ≠ [] := by
    intro pre text hpre
    simp [hpre]
  simp only [args, List.map_cons, List.map_map, List.mem_cons, List.mem_map,
    Function.comp_apply] at h
  rcases h with rfl | ⟨text, -, rfl⟩
  · exact hne _ _ (by decide)
  · exact hne _ _ (by decide)

/-- An argument file is read as it was meant exactly if no value has a break. -/
lemma decodes_iff : r.Decodes b printable ↔ r.OneLine b := by
  have hround : (r.args.map String.toList).map String.ofList = r.args := by
    simp [List.map_map, Function.comp_def]
  constructor
  · intro h
    have hhealthy := r.runner.accepts_healthy "robot.args"
    have hlines := (run_eq b printable hhealthy ⟨[], []⟩).2.symm.trans (h _ ⟨[], []⟩ hhealthy).2
    rw [oneLine_iff, ← Option.some.inj hlines]
    intro line hline
    rw [List.map_map] at hline
    obtain ⟨line, hmem, rfl⟩ := List.mem_map.mp hline
    rw [Function.comp_apply, String.toList_ofList]
    exact Lines.unbroken_of_mem_lines hmem
  · intro h disk s hdisk
    obtain ⟨hrun, hread⟩ := run_eq b printable hdisk s
    have hlines := Lines.lines_intercalate fun line hline =>
      ⟨ne_nil_of_mem_args hline, oneLine_iff.mp h line hline⟩
    rw [hlines, hround] at hread
    exact ⟨hrun, hread⟩

/-- The arguments determine the values. -/
lemma args_inj (h : r.args = r'.args) :
    (r.targetDut, r.includeTags) = (r'.targetDut, r'.includeTags) := by
  have happend : ∀ pre : String, Function.Injective (pre ++ ·) := by
    intro pre s t heq
    simpa using heq
  rw [args, args, List.cons.injEq] at h
  rw [Prod.mk.injEq]
  exact ⟨happend _ h.1, List.map_injective_iff.mpr (happend _) h.2⟩

end RobotRun

/-- Two mappings are read as they were meant, and told apart, exactly if none of their values has a
character that ends a line for the reader. -/
theorem robotArgs_iff (b : Lines.Breaks) (printable : Char → Bool) (r r' : RobotRun) :
    RobotRun.Kept b printable r r' ↔ r.OneLine b ∧ r'.OneLine b := by
  constructor
  · intro h
    exact ⟨RobotRun.decodes_iff.mp h.left, RobotRun.decodes_iff.mp h.right⟩
  · rintro ⟨hr, hr'⟩
    have hleft : r.Decodes b printable := RobotRun.decodes_iff.mpr hr
    have hright : r'.Decodes b printable := RobotRun.decodes_iff.mpr hr'
    refine ⟨hleft, hright, ?_⟩
    intro hne disk s disk' s' hdisk hdisk' hread
    rw [(hleft disk s hdisk).2, (hright disk' s' hdisk').2] at hread
    exact hne (RobotRun.args_inj (Option.some.inj hread))

def sampleRobotRun (targetDut : String) (includeTags : List String) : RobotRun where
  runner := ⟨"/runs", ⟨"robot-run", by decide⟩, [(.str "target_dut", .str targetDut),
    (.str "include_tags", .list (includeTags.map .str))]⟩
  targetDut := targetDut
  includeTags := includeTags
  target_eq := rfl
  tags_eq := rfl

/-- A target with a newline gives the arguments of another target and a tag. -/
theorem brokenTarget_not_kept :
    ¬ ∀ (b : Lines.Breaks) (printable : Char → Bool) (r r' : RobotRun),
      RobotRun.Kept b printable r r' := by
  intro h
  have hkept := h .newlineOnly (fun _ => false) (sampleRobotRun "a\n--include x" [])
    (sampleRobotRun "a" ["x"])
  have hread := (RobotRun.run_eq .newlineOnly (fun _ => false)
    (Runner.accepts_healthy (sampleRobotRun "a\n--include x" []).runner "robot.args") ⟨[], []⟩).2
  have hread' := (RobotRun.run_eq .newlineOnly (fun _ => false)
    (Runner.accepts_healthy (sampleRobotRun "a" ["x"]).runner "robot.args") ⟨[], []⟩).2
  refine hkept.differ (by decide) _ _ _ _ (Runner.accepts_healthy _ _) (Runner.accepts_healthy _ _)
    (hread.trans (Eq.trans ?_ hread'.symm))
  decide +kernel

end TestOrch
