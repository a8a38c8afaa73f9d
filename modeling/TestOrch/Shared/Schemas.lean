import TestOrch.Shared.Validation

/-!
# Cross-service contracts (`shared/schemas.py`)

`TestBundleRequest` is the job contract that crosses the broker. Its validated fields are of the
types the guards return, so a value of the structure is one that `__post_init__` accepted.
-/

namespace TestOrch

/-- `TestStatus`: the lifecycle states of a test execution. -/
inductive TestStatus where
  | PENDING
  | DISPATCHED
  | RUNNING
  | PASSED
  | FAILED
  | CANCELLED
  deriving DecidableEq, Repr

def TestStatus.value : TestStatus → String
  | PENDING => "PENDING"
  | DISPATCHED => "DISPATCHED"
  | RUNNING => "RUNNING"
  | PASSED => "PASSED"
  | FAILED => "FAILED"
  | CANCELLED => "CANCELLED"

def TestStatus.terminal : TestStatus → Bool
  | PASSED | FAILED | CANCELLED => true
  | PENDING | DISPATCHED | RUNNING => false

/-- `TestBundleRequest`, validated. -/
structure TestBundleRequest where
  testId : NonEmptyStr
  userId : PositiveInt
  runnerType : NonEmptyStr
  frameworkImage : NonEmptyStr
  requiredHwTags : List String
  requiresEmulation : Bool
  qualiReservationId : Option NonEmptyStr
  /-- The mapping as it was passed; `isMapping` holds of it. -/
  runnerVariables : { v : PyValue // v.isMapping = true }

namespace TestBundleRequest

/-- The `isinstance(t, str)` test of `required_hw_tags`, on every element. -/
def strElements : List PyValue → Option (List String)
  | [] => some []
  | .str s :: rest => (strElements rest).map (s :: ·)
  | _ :: _ => none

/-- The dataclass constructor with the checks of `__post_init__`, in their order. -/
def new (testId userId runnerType frameworkImage requiredHwTags requiresEmulation
    qualiReservationId runnerVariables : PyValue) : Except PyError TestBundleRequest := do
  let testId ← requireNonEmptyStr testId "test_id"
  let userId ← requirePositiveInt userId "user_id"
  let runnerType ← requireNonEmptyStr runnerType "runner_type"
  let frameworkImage ← requireNonEmptyStr frameworkImage "framework_image"
  let tags ← match requiredHwTags with
    | .list xs => match strElements xs with
      | some tags => pure tags
      | none => throw (.typeError "required_hw_tags must be a list[str]")
    | _ => throw (.typeError "required_hw_tags must be a list[str]")
  let emulation ← match requiresEmulation with
    | .bool b => pure b
    | _ => throw (.typeError "requires_emulation must be a bool")
  let reservation ← match qualiReservationId with
    | .none => pure none
    | v => some <$> requireNonEmptyStr v "quali_reservation_id"
  if h : runnerVariables.isMapping = true then
    pure ⟨testId, userId, runnerType, frameworkImage, tags, emulation, reservation,
      ⟨runnerVariables, h⟩⟩
  else
    throw (.typeError s!"runner_variables must be a mapping, got {runnerVariables.typeName}")

def toDict (b : TestBundleRequest) : PyValue :=
  .dict [(.str "test_id", .str b.testId), (.str "user_id", .int b.userId),
    (.str "runner_type", .str b.runnerType), (.str "framework_image", .str b.frameworkImage),
    (.str "required_hw_tags", .list (b.requiredHwTags.map .str)),
    (.str "requires_emulation", .bool b.requiresEmulation),
    (.str "quali_reservation_id", (b.qualiReservationId.map fun r => .str r.val).getD .none),
    (.str "runner_variables", b.runnerVariables)]

/-- The required keys of a payload, as `from_dict` lists them. -/
def requiredKeys : List String := ["test_id", "user_id", "runner_type", "framework_image"]

/-- `require_keys(data, [...], "bundle")`; the missing keys are named in sorted order. -/
def requireKeys (items : List (PyValue × PyValue)) : Except PyError Unit :=
  let missing := requiredKeys.filter fun k => (PyValue.item? items k).isNone
  let names := ", ".intercalate missing.mergeSort
  if missing = [] then .ok () else .error (.valueError s!"bundle missing required keys: {names}")

/-- `from_dict`: rebuild and validate a bundle from a broker payload. -/
def fromDict (data : PyValue) : Except PyError TestBundleRequest := do
  match ← requireMapping data "bundle" with
  | .dict items =>
    requireKeys items
    let field (k : String) := (PyValue.item? items k).getD .none
    let tags ← ((PyValue.item? items "required_hw_tags").getD (.list [])).toList
    let emulation := ((PyValue.item? items "requires_emulation").getD (.bool false)).truthy
    let vars ← ((PyValue.item? items "runner_variables").getD (.dict [])).toDict
    new (field "test_id") (field "user_id") (field "runner_type") (field "framework_image")
      (.list tags) (.bool emulation) (field "quali_reservation_id") (.dict vars)
  -- a mapping that is not a dict: no payload decodes to one, and its items are not modelled
  | v => .error (.typeError s!"bundle must be a mapping, got {v.typeName}")

end TestBundleRequest

def samplePayload : PyValue :=
  .dict [(.str "test_id", .str "t"), (.str "user_id", .int 1), (.str "runner_type", .str "pytest"),
    (.str "framework_image", .str "img")]

def sampleBundle : TestBundleRequest where
  testId := ⟨"t", by decide⟩
  userId := ⟨1, by decide⟩
  runnerType := ⟨"pytest", by decide⟩
  frameworkImage := ⟨"img", by decide⟩
  requiredHwTags := []
  requiresEmulation := false
  qualiReservationId := none
  runnerVariables := ⟨.dict [], rfl⟩

lemma fromDict_samplePayload : TestBundleRequest.fromDict samplePayload = .ok sampleBundle := by
  rfl

end TestOrch
