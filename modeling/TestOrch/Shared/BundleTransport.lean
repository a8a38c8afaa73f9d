import TestOrch.Shared.Json
import TestOrch.Shared.Schemas

/-!
# A bundle on its way through the broker

`dispatch` puts `to_dict` of a bundle on the broker as JSON and the worker rebuilds the bundle with
`from_dict`. The constructor accepts every mapping as `runner_variables`, whatever its keys and
values, so a bundle arrives as it was sent exactly when these variables are plain
(`survivesBroker_iff`).
-/

namespace TestOrch

namespace TestBundleRequest

structure SameFields (a b : TestBundleRequest) : Prop where
  testId : a.testId = b.testId
  userId : a.userId = b.userId
  runnerType : a.runnerType = b.runnerType
  frameworkImage : a.frameworkImage = b.frameworkImage
  requiredHwTags : a.requiredHwTags = b.requiredHwTags
  requiresEmulation : a.requiresEmulation = b.requiresEmulation
  qualiReservationId : a.qualiReservationId = b.qualiReservationId
  runnerVariables : PyValue.eq a.runnerVariables b.runnerVariables = true

/-- The payload can be encoded, and the worker rebuilds an equal bundle from the text. -/
def SurvivesBroker (floatRepr : PyFloat → String) (b : TestBundleRequest) : Prop :=
  ∃ text b', PyValue.encode floatRepr b.toDict = .ok text ∧ fromDict text.decode = .ok b' ∧
    SameFields b' b

/-- The user id can be written and the runner variables are a plain dict. -/
def transportable (b : TestBundleRequest) : Bool :=
  printable b.userId && b.runnerVariables.val.plain

@[simp] lemma strElements_map_str (tags : List String) :
    strElements (tags.map .str) = some tags := by
  induction tags with
  | nil => rfl
  | cons t tags ih => rw [List.map_cons, strElements, ih, Option.map_some]

lemma requirePositiveInt_int (i : PositiveInt) (name : String) :
    requirePositiveInt (.int i) name = .ok i := by
  simp [requirePositiveInt, i.property]

def reservationValue (b : TestBundleRequest) : PyValue :=
  (b.qualiReservationId.map fun r => .str r.val).getD .none

/-- The checks of the constructor accept the fields of a bundle as they are. -/
lemma new_fields (b : TestBundleRequest) :
    new (.str b.testId) (.int b.userId) (.str b.runnerType) (.str b.frameworkImage)
      (.list (b.requiredHwTags.map .str)) (.bool b.requiresEmulation) b.reservationValue
      b.runnerVariables = .ok b := by
  unfold new
  simp only [requireNonEmptyStr_str, requirePositiveInt_int, strElements_map_str,
    dif_pos b.runnerVariables.property]
  cases hr : b.qualiReservationId with
  | none =>
    simp only [reservationValue, hr]
    obtain ⟨_, _, _, _, _, _, r, _⟩ := b
    obtain rfl : r = none := hr
    rfl
  | some r =>
    simp only [reservationValue, hr, Option.map_some, Option.getD_some, requireNonEmptyStr_str]
    obtain ⟨_, _, _, _, _, _, r', _⟩ := b
    obtain rfl : r' = some r := hr
    rfl

/-- With all required keys present, a payload is rebuilt from the values found. -/
lemma fromDict_dict {items : List (PyValue × PyValue)} (tags : List PyValue)
    (vars : List (PyValue × PyValue)) (hkeys : requireKeys items = .ok ())
    (htags : ((PyValue.item? items "required_hw_tags").getD (.list [])).toList = .ok tags)
    (hvars : ((PyValue.item? items "runner_variables").getD (.dict [])).toDict = .ok vars) :
    fromDict (.dict items) = new ((PyValue.item? items "test_id").getD .none)
      ((PyValue.item? items "user_id").getD .none) ((PyValue.item? items "runner_type").getD .none)
      ((PyValue.item? items "framework_image").getD .none) (.list tags)
      (.bool ((PyValue.item? items "requires_emulation").getD (.bool false)).truthy)
      ((PyValue.item? items "quali_reservation_id").getD .none) (.dict vars) := by
  unfold fromDict
  show (requireKeys items >>= fun _ => _ >>= fun tags => _ >>= fun vars => _) = _
  rw [hkeys, htags, hvars]
  rfl

/-- Without the broker in between, a bundle with a dict of variables is rebuilt as it was. -/
lemma fromDict_toDict {b : TestBundleRequest} {items : List (PyValue × PyValue)}
    (h : b.runnerVariables.val = .dict items) : fromDict b.toDict = .ok b := by
  have hfields := new_fields b
  rw [h] at hfields
  rw [toDict, h, fromDict_dict (b.requiredHwTags.map .str) items]
  · simpa [PyValue.item?_cons_str, PyValue.truthy, reservationValue] using hfields
  · simp [requireKeys, requiredKeys, PyValue.item?_cons_str]
  · simp [PyValue.item?_cons_str, PyValue.toList]
  · simp [PyValue.item?_cons_str, PyValue.toDict]

/-- The constructor keeps the variables it was given. -/
lemma runnerVariables_of_new {testId userId runnerType frameworkImage reservation vars : PyValue}
    {tags : List PyValue} {emulation : Bool} {b : TestBundleRequest}
    (h : new testId userId runnerType frameworkImage (.list tags) (.bool emulation) reservation
      vars = .ok b) : b.runnerVariables.val = vars := by
  unfold new at h
  obtain ⟨testId', -, h⟩ := Except.bind_eq_ok.mp h
  obtain ⟨userId', -, h⟩ := Except.bind_eq_ok.mp h
  obtain ⟨runnerType', -, h⟩ := Except.bind_eq_ok.mp h
  obtain ⟨frameworkImage', -, h⟩ := Except.bind_eq_ok.mp h
  cases htags : strElements tags with
  | none =>
    simp only [htags] at h
    cases h
  | some tags' =>
    simp only [htags, pure_bind] at h
    split at h
    · split_ifs at h
      obtain rfl := Except.pure_eq_ok.mp h
      rfl
    · obtain ⟨reservation', -, h⟩ := Except.bind_eq_ok.mp h
      split_ifs at h
      obtain rfl := Except.pure_eq_ok.mp h
      rfl

/-- The variables of a rebuilt bundle are those of the payload. -/
lemma runnerVariables_of_fromDict {items vars : List (PyValue × PyValue)} {b : TestBundleRequest}
    (h : fromDict (.dict items) = .ok b)
    (hvars : PyValue.item? items "runner_variables" = some (.dict vars)) :
    b.runnerVariables.val = .dict vars := by
  unfold fromDict at h
  obtain ⟨data, hdata, h⟩ := Except.bind_eq_ok.mp h
  obtain rfl := Except.ok.inj hdata
  dsimp only at h
  obtain ⟨-, -, h⟩ := Except.bind_eq_ok.mp h
  obtain ⟨tags, -, h⟩ := Except.bind_eq_ok.mp h
  obtain ⟨vars', hvars', h⟩ := Except.bind_eq_ok.mp h
  rw [hvars] at hvars'
  obtain rfl := Except.ok.inj hvars'
  exact runnerVariables_of_new h

/-- What a mapping is written as decodes to a dict. -/
lemma decode_mapping {floatRepr : PyFloat → String} {v : PyValue} {text : Json}
    (hv : v.isMapping = true) (h : PyValue.encode floatRepr v = .ok text) :
    ∃ items, text.decode = .dict items := by
  cases v with
  | dict items =>
    rw [PyValue.encode] at h
    obtain ⟨members, -, rfl⟩ := Except.map_eq_ok.mp h
    exact ⟨_, rfl⟩
  | object name mapping => cases h
  | _ => cases hv

lemma plainList_map_str (tags : List String) : PyValue.plainList (tags.map .str) = true := by
  induction tags with
  | nil => rfl
  | cons t tags ih => rwa [List.map_cons, PyValue.plainList, PyValue.plain, Bool.true_and]

/-- A payload is plain exactly when its two open fields are. -/
lemma plain_toDict (b : TestBundleRequest) : b.toDict.plain = b.transportable := by
  cases hr : b.qualiReservationId <;>
    simp [toDict, hr, PyValue.plain, PyValue.strKeys, PyValue.plainItems, plainList_map_str,
      transportable]

lemma transportable_of_survives {floatRepr : PyFloat → String} {b : TestBundleRequest}
    (h : SurvivesBroker floatRepr b) : b.transportable = true := by
  obtain ⟨text, b', hencode, hdecode, hsame⟩ := h
  obtain ⟨decoded, hdecoded, hfield⟩ := PyValue.decode_dict hencode (by simp)
    (by simp [PyValue.strKeys])
  rw [hdecoded] at hdecode
  obtain ⟨juser, huser, -⟩ := hfield "user_id" (.int b.userId) (by simp)
  obtain ⟨jvars, hvars, hitem⟩ := hfield "runner_variables" b.runnerVariables (by simp)
  obtain ⟨items, hitems⟩ := decode_mapping b.runnerVariables.property hvars
  rw [hitems] at hitem
  have heq := hsame.runnerVariables
  rw [runnerVariables_of_fromDict hdecode hitem, ← hitems] at heq
  rw [transportable, Bool.and_eq_true_iff]
  refine ⟨?_, (PyValue.plain_iff_survives floatRepr _).mpr ⟨jvars, hvars, heq⟩⟩
  rw [PyValue.encode] at huser
  split_ifs at huser with hprint
  exact hprint

lemma survives_of_transportable (floatRepr : PyFloat → String) {b : TestBundleRequest}
    (h : b.transportable = true) : SurvivesBroker floatRepr b := by
  have hplain : b.toDict.plain = true := by rwa [plain_toDict]
  obtain ⟨huser, hvars⟩ := Bool.and_eq_true_iff.mp h
  obtain ⟨items, hitems⟩ : ∃ items, b.runnerVariables.val = .dict items := by
    have hmapping := b.runnerVariables.property
    cases hv : b.runnerVariables.val with
    | dict items => exact ⟨items, rfl⟩
    | object name mapping =>
      rw [hv] at hvars
      cases hvars
    | _ =>
      rw [hv] at hmapping
      cases hmapping
  obtain ⟨text, htext, hdecode⟩ := PyValue.encode_of_plain floatRepr _ hplain
  refine ⟨text, b, htext, ?_, rfl, rfl, rfl, rfl, rfl, rfl, rfl, ?_⟩
  · rw [hdecode]
    exact fromDict_toDict hitems
  · exact PyValue.eq_self_of_plain _ hvars

/-- A bundle arrives as it was sent exactly when it is transportable. -/
theorem survivesBroker_iff (floatRepr : PyFloat → String) (b : TestBundleRequest) :
    SurvivesBroker floatRepr b ↔ b.transportable = true :=
  ⟨transportable_of_survives, survives_of_transportable floatRepr⟩

/-- Arguments that the constructor accepts although `to_dict` of the bundle is not serializable: a
runner variable is a set. -/
theorem setVariable_not_sent :
    ∃ b, new (.str "t") (.int 1) (.str "pytest") (.str "img") (.list []) (.bool false) .none
        (.dict [(.str "markers", .object "set" false)]) = .ok b ∧
      ∀ floatRepr, ¬ SurvivesBroker floatRepr b := by
  refine ⟨{ sampleBundle with
    runnerVariables := ⟨.dict [(.str "markers", .object "set" false)], rfl⟩ }, rfl, ?_⟩
  intro floatRepr h
  have hplain := (Bool.and_eq_true_iff.mp (transportable_of_survives h)).2
  cases hplain

end TestBundleRequest

end TestOrch
