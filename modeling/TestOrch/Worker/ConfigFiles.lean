import TestOrch.Core.Effect
import TestOrch.Shared.Json
import TestOrch.Worker.TranslationLayer

/-!
# Writing a config file (`Runner` in `worker/translation_layer.py`)

What the two runners share: the config directory, which is made when it is asked for, and the file
that is written into it. Any of the calls may fail with an `OSError`; that of a call on the file is
raised again as a `RuntimeError`.
-/

namespace TestOrch

inductive ConfigFile where
  /-- The file was opened for writing, and not everything is written. -/
  | incomplete
  | json (text : Json)
  | args (text : String)

/-- The directories that were made, and the files with what was written last. -/
structure RunsDir where
  dirs : List String
  files : List (String × ConfigFile)

inductive ConfigError where
  | code (e : PyError)
  | osError (message : String)
  | runtimeError (message : String)
  deriving DecidableEq

abbrev ConfigEff := Eff RunsDir ConfigError

/-- The errors of the calls on a path, if they fail. -/
structure Disk where
  makedirsError : String → Option String
  openError : String → Option String
  writeError : String → Option String

/-- A runner; `vars` are the `variables` of the user interface. -/
structure Runner where
  testRunsDir : String
  testId : NonEmptyStr
  vars : List (PyValue × PyValue)

namespace RunsDir

def makeDir (s : RunsDir) (path : String) : RunsDir :=
  if path ∈ s.dirs then s else { s with dirs := s.dirs ++ [path] }

def put (s : RunsDir) (path : String) (file : ConfigFile) : RunsDir :=
  { s with files := (path, file) :: s.files.filter fun f => f.1 ≠ path }

def get? (s : RunsDir) (path : String) : Option ConfigFile :=
  (s.files.find? fun f => f.1 = path).map Prod.snd

@[simp] lemma get?_put (s : RunsDir) (path : String) (file : ConfigFile) :
    (s.put path file).get? path = some file := by
  simp [put, get?]

lemma makeDir_makeDir (s : RunsDir) (path : String) :
    (s.makeDir path).makeDir path = s.makeDir path := by
  unfold makeDir
  by_cases h : path ∈ s.dirs
  · rw [if_pos h, if_pos h]
  · rw [if_neg h]
    exact if_pos (List.mem_append_right _ List.mem_cons_self)

lemma put_put (s : RunsDir) (path : String) (file file' : ConfigFile) :
    (s.put path file).put path file' = s.put path file' := by
  simp [put]

lemma makeDir_put (s : RunsDir) (dir path : String) (file : ConfigFile) :
    (s.put path file).makeDir dir = (s.makeDir dir).put path file := by
  unfold makeDir put
  dsimp only
  split_ifs <;> rfl

end RunsDir

namespace Disk

/-- A disk on which every call succeeds. -/
def healthy : Disk := ⟨fun _ => none, fun _ => none, fun _ => none⟩

variable (disk : Disk)

/-- `os.makedirs(path, exist_ok=True)`. -/
def makedirs (path : String) : ConfigEff Unit :=
  match disk.makedirsError path with
  | some message => Eff.raise (.osError message)
  | none => Eff.modify fun s => s.makeDir path

/-- The `try` statement that opens the file and writes into it. -/
def writeFile (out : String) (content : Except PyError ConfigFile) : ConfigEff Unit := do
  match disk.openError out with
  | some e => Eff.raise (.runtimeError s!"Failed to write config to {out}: {e}")
  | none =>
    Eff.modify fun s => s.put out .incomplete
    let file ← Eff.lift (content.mapError .code)
    match disk.writeError out with
    | some e => Eff.raise (.runtimeError s!"Failed to write config to {out}: {e}")
    | none => Eff.modify fun s => s.put out file

end Disk

namespace Runner

variable (runner : Runner)

/-- `self.variables.get(key, default)`. -/
def get (key : String) (default : PyValue) : PyValue :=
  (PyValue.item? runner.vars key).getD default

def dir : String := configDir runner.testRunsDir runner.testId

/-- `self.config_dir`. -/
def makeConfigDir (disk : Disk) : ConfigEff String := do
  disk.makedirs runner.dir
  pure runner.dir

/-- The file of the config directory with the given name. -/
def file (name : String) : String := osPathJoin runner.dir name

/-- The end of `write_config`, from the first use of `config_dir` on. -/
def writeInto (disk : Disk) (name : String) (content : Except PyError ConfigFile) :
    ConfigEff String := do
  let dir ← runner.makeConfigDir disk
  disk.writeFile (osPathJoin dir name) content
  runner.makeConfigDir disk

/-- None of the calls fails. -/
def Accepts (disk : Disk) (name : String) : Prop :=
  disk.makedirsError runner.dir = none ∧ disk.openError (runner.file name) = none ∧
    disk.writeError (runner.file name) = none

lemma accepts_healthy (runner : Runner) (name : String) : runner.Accepts .healthy name :=
  ⟨rfl, rfl, rfl⟩

/-- With a disk that accepts the file, it is there in the end. -/
lemma writeInto_eq {runner : Runner} {disk : Disk} {name : String}
    (h : runner.Accepts disk name) (file : ConfigFile) (s : RunsDir) :
    runner.writeInto disk name (.ok file) s =
      (.ok runner.dir, (s.makeDir runner.dir).put (runner.file name) file) := by
  obtain ⟨hdir, hopen, hwrite⟩ := h
  have hmake : ∀ s, runner.makeConfigDir disk s = (.ok runner.dir, s.makeDir runner.dir) := by
    intro s
    simp only [makeConfigDir, Disk.makedirs, hdir]
    rfl
  have hfile : ∀ s : RunsDir, disk.writeFile (runner.file name) (.ok file) s =
      (.ok (), s.put (runner.file name) file) := by
    intro s
    rw [← RunsDir.put_put s (runner.file name) .incomplete]
    simp only [Disk.writeFile, hopen, hwrite]
    rfl
  simp only [writeInto, Bind.bind, hmake]
  rw [show osPathJoin runner.dir name = runner.file name from rfl, hfile]
  simp only [RunsDir.makeDir_put, RunsDir.makeDir_makeDir]

end Runner

end TestOrch
