import TestOrch.Shared.BundleTransport

/-!
# The payloads that `from_dict` accepts

`from_dict` converts three fields before the constructor sees them: `list(...)` of the tags,
`bool(...)` of the emulation flag and `dict(...)` of the runner variables. The checks of the
constructor then hold of the converted values. A payload is accepted as it stands exactly if these
conversions have nothing to change.
-/

namespace TestOrch

namespace TestBundleRequest

/-- The fields of a payload as they stand, with the defaults of `from_dict` for the absent ones. -/
structure Fields where
  testId : PyValue
  userId : PyValue
  runnerType : PyValue
  frameworkImage : PyValue
  requiredHwTags : PyValue
  requiresEmulation : PyValue
  qualiReservationId : PyValue
  runnerVariables : PyValue

def fieldsOf (items : List (PyValue × PyValue)) : Fields where
  testId := (PyValue.item? items "test_id").getD .none
  userId := (PyValue.item? items "user_id").getD .none
  runnerType := (PyValue.item? items "runner_type").getD .none
  frameworkImage := (PyValue.item? items "framework_image").getD .none
  requiredHwTags := (PyValue.item? items "required_hw_tags").getD (.list [])
  requiresEmulation := (PyValue.item? items "requires_emulation").getD (.bool false)
  qualiReservationId := (PyValue.item? items "quali_reservation_id").getD .none
  runnerVariables := (PyValue.item? items "runner_variables").getD (.dict [])

/-- The constructor on the fields as they stand. -/
def construct (f : Fields) : Except PyError TestBundleRequest :=
  new f.testId f.userId f.runnerType f.frameworkImage f.requiredHwTags f.requiresEmulation
    f.qualiReservationId f.runnerVariables

/-- The payload is a mapping with the required keys whose fields, as they stand, pass the checks of
the constructor; `b` has these fields. -/
def WellFormed (data : PyValue) (b : TestBundleRequest) : Prop :=
  ∃ items, data = .dict items ∧ requireKeys items = .ok () ∧ construct (fieldsOf items) = .ok b

/-- The two exceptions that a malformed payload may raise. -/
def InputError (e : PyError) : Prop :=
  (∃ message, e = .typeError message) ∨ ∃ message, e = .valueError message

/-- `from_dict` gives a bundle exactly for the well-formed payloads, with their own fields, and
raises `TypeError` or `ValueError` on the others. -/
def DecodesExactly (data : PyValue) : Prop :=
  (∀ b, fromDict data = .ok b ↔ WellFormed data b) ∧
    ∀ e, fromDict data = .error e → InputError e

/-- The payload passes every check once its fields are converted. -/
structure Acceptable (f : Fields) : Prop where
  testId : ∃ s : NonEmptyStr, f.testId = .str s
  userId : ∃ i : PositiveInt, f.userId = .int i
  runnerType : ∃ s : NonEmptyStr, f.runnerType = .str s
  frameworkImage : ∃ s : NonEmptyStr, f.frameworkImage = .str s
  tags : ∃ tags : List String, f.requiredHwTags.toList = .ok (tags.map .str)
  reservation : f.qualiReservationId = .none ∨ ∃ s : NonEmptyStr, f.qualiReservationId = .str s
  vars : ∃ vars, f.runnerVariables.toDict = .ok vars

/-- The fields that `from_dict` converts are of the types it converts them to. -/
structure Typed (f : Fields) : Prop where
  tags : ∃ xs, f.requiredHwTags = .list xs
  emulation : ∃ b, f.requiresEmulation = .bool b
  vars : ∃ vars, f.runnerVariables = .dict vars

variable {f : Fields} {items vars : List (PyValue × PyValue)} {b : TestBundleRequest}
  {tags : List PyValue}

/-! ### The constructor -/

lemma requirePositiveInt_ok {v : PyValue} {name : String} {i : PositiveInt}
    (h : requirePositiveInt v name = .ok i) : v = .int i := by
  unfold requirePositiveInt at h
  split at h
  · split_ifs at h with hi
    obtain rfl := Except.ok.inj h
    rfl
  · cases h

lemma strElements_eq_some {xs : List PyValue} {tags : List String}
    (h : strElements xs = some tags) : xs = tags.map .str := by
  induction xs generalizing tags with
  | nil =>
    obtain rfl := Option.some.inj h
    rfl
  | cons x xs ih =>
    cases x with
    | str s =>
      obtain ⟨rest, hrest, rfl⟩ := Option.map_eq_some_iff.mp h
      rw [List.map_cons, ← ih hrest]
    | _ => cases h

/-- The constructor returns `b` exactly for the values of the fields of `b`. -/
lemma construct_eq_ok : construct f = .ok b ↔ f =
    ⟨.str b.testId, .int b.userId, .str b.runnerType, .str b.frameworkImage,
      .list (b.requiredHwTags.map .str), .bool b.requiresEmulation, b.reservationValue,
      b.runnerVariables⟩ := by
  constructor
  · intro h
    unfold construct new at h
    obtain ⟨testId, htestId, h⟩ := Except.bind_eq_ok.mp h
    obtain ⟨userId, huserId, h⟩ := Except.bind_eq_ok.mp h
    obtain ⟨runnerType, hrunner, h⟩ := Except.bind_eq_ok.mp h
    obtain ⟨image, himage, h⟩ := Except.bind_eq_ok.mp h
    cases htags : f.requiredHwTags with
    | list xs =>
      cases hxs : strElements xs with
      | none =>
        simp only [htags, hxs] at h
        cases h
      | some tags =>
        cases hemulation : f.requiresEmulation with
        | bool emulation =>
          simp only [htags, hxs, hemulation, pure_bind] at h
          -- Every check passed, so the fields are the values that it let through.
          have hvalues : f = ⟨.str testId, .int userId, .str runnerType, .str image,
              .list (tags.map .str), .bool emulation, f.qualiReservationId, f.runnerVariables⟩ := by
            cases f
            simp only at *
            rw [requireNonEmptyStr_ok htestId, requirePositiveInt_ok huserId,
              requireNonEmptyStr_ok hrunner, requireNonEmptyStr_ok himage, htags, hemulation,
              strElements_eq_some hxs]
          rw [hvalues]
          split at h
          · next hnone =>
            split_ifs at h
            obtain rfl := Except.pure_eq_ok.mp h
            simp [hnone, reservationValue]
          · obtain ⟨reservation, hreservation, h⟩ := Except.bind_eq_ok.mp h
            obtain ⟨r, hr, rfl⟩ := Except.map_eq_ok.mp hreservation
            split_ifs at h
            obtain rfl := Except.pure_eq_ok.mp h
            simp [requireNonEmptyStr_ok hr, reservationValue]
        | _ =>
          simp only [htags, hxs, hemulation, pure_bind] at h
          cases h
    | _ =>
      simp only [htags] at h
      cases h
  · rintro rfl
    exact new_fields b

/-! ### What `from_dict` raises -/

lemma InputError.type (message : String) : InputError (.typeError message) := .inl ⟨message, rfl⟩

lemma InputError.value (message : String) : InputError (.valueError message) := .inr ⟨message, rfl⟩

open Except

lemma raises_requireNonEmptyStr (v : PyValue) (name : String) :
    RaisesOnly InputError (requireNonEmptyStr v name) := by
  cases v with
  | str s =>
    simp only [requireNonEmptyStr]
    split_ifs
    · exact .error (.value _)
    · exact .ok _
  | _ => exact .error (.type _)

lemma raises_requirePositiveInt (v : PyValue) (name : String) :
    RaisesOnly InputError (requirePositiveInt v name) := by
  cases v with
  | int i =>
    simp only [requirePositiveInt]
    split_ifs
    · exact .ok _
    · exact .error (.value _)
  | _ => exact .error (.type _)

lemma raises_toList (v : PyValue) : RaisesOnly InputError v.toList := by
  cases v with
  | str s => exact .ok _
  | list xs => exact .ok _
  | tuple xs => exact .ok _
  | dict items => exact .ok _
  | _ => exact .error (.type _)

lemma raises_updatePair (index : ℕ) (items : List (PyValue × PyValue)) (element : PyValue) :
    RaisesOnly InputError (PyValue.updatePair index items element) := by
  unfold PyValue.updatePair
  split
  · exact .error (.type _)
  · split_ifs
    · exact .ok _
    · exact .error (.type _)
  · exact .error (.value _)

lemma raises_toDict (v : PyValue) : RaisesOnly InputError v.toDict := by
  unfold PyValue.toDict
  split
  · exact .ok _
  · apply (raises_toList _).bind
    intro elements
    apply RaisesOnly.foldlM
    intro items element
    exact raises_updatePair _ _ _

lemma raises_construct (f : Fields) : RaisesOnly InputError (construct f) := by
  unfold construct new
  apply (raises_requireNonEmptyStr _ _).bind
  intro _
  apply (raises_requirePositiveInt _ _).bind
  intro _
  apply (raises_requireNonEmptyStr _ _).bind
  intro _
  apply (raises_requireNonEmptyStr _ _).bind
  intro _
  cases f.requiredHwTags with
  | list xs =>
    cases hxs : strElements xs with
    | none =>
      simp only [hxs]
      exact .error (.type _)
    | some tags =>
      cases f.requiresEmulation with
      | bool b =>
        simp only [hxs, pure_bind]
        split
        · split_ifs
          · exact .ok _
          · exact .error (.type _)
        · apply ((raises_requireNonEmptyStr _ _).map _).bind
          intro _
          split_ifs
          · exact .ok _
          · exact .error (.type _)
      | _ =>
        simp only [hxs, pure_bind]
        exact .error (.type _)
  | _ => exact .error (.type _)

/-- A payload that is not accepted is refused with `TypeError` or `ValueError`. -/
lemma raises_fromDict (data : PyValue) : RaisesOnly InputError (fromDict data) := by
  unfold fromDict requireMapping
  split_ifs
  · cases data with
    | dict items =>
      refine RaisesOnly.bind (x := requireKeys items) ?_ fun _ => (raises_toList _).bind fun tags =>
        (raises_toDict _).bind fun vars => raises_construct ⟨_, _, _, _, _, _, _, _⟩
      unfold requireKeys
      dsimp only
      split_ifs
      · exact .ok _
      · exact .error (.value _)
    | none | bool | int | float | str | list | tuple | object => exact .error (.type _)
  · exact .error (.type _)

/-! ### What `from_dict` returns -/

/-- The fields as the constructor gets them from `from_dict`. -/
def Fields.converted (f : Fields) (tags : List PyValue) (vars : List (PyValue × PyValue)) :
    Fields :=
  { f with
    requiredHwTags := .list tags
    requiresEmulation := .bool f.requiresEmulation.truthy
    runnerVariables := .dict vars }

lemma fromDict_eq_ok : fromDict (.dict items) = .ok b ↔ requireKeys items = .ok () ∧
    ∃ tags vars, (fieldsOf items).requiredHwTags.toList = .ok tags ∧
      (fieldsOf items).runnerVariables.toDict = .ok vars ∧
      construct ((fieldsOf items).converted tags vars) = .ok b := by
  constructor
  · intro h
    unfold fromDict at h
    obtain ⟨data, hdata, h⟩ := Except.bind_eq_ok.mp h
    obtain rfl := Except.ok.inj hdata
    dsimp only at h
    obtain ⟨_, hkeys, h⟩ := Except.bind_eq_ok.mp h
    obtain ⟨tags, htags, h⟩ := Except.bind_eq_ok.mp h
    obtain ⟨vars, hvars, h⟩ := Except.bind_eq_ok.mp h
    exact ⟨hkeys, tags, vars, htags, hvars, h⟩
  · rintro ⟨hkeys, tags, vars, htags, hvars, h⟩
    rw [fromDict_dict tags vars hkeys htags hvars]
    exact h

/-- The required keys are present where the fields are not `None`. -/
lemma requireKeys_of_acceptable (h : Acceptable (fieldsOf items)) : requireKeys items = .ok () := by
  have hsome {key : String} {v : PyValue} (hv : (PyValue.item? items key).getD .none = v)
      (hne : v ≠ .none) : (PyValue.item? items key).isNone = false := by
    cases hitem : PyValue.item? items key with
    | none =>
      rw [hitem] at hv
      exact absurd hv.symm hne
    | some _ => rfl
  obtain ⟨_, htestId⟩ := h.testId
  obtain ⟨_, huserId⟩ := h.userId
  obtain ⟨_, hrunner⟩ := h.runnerType
  obtain ⟨_, himage⟩ := h.frameworkImage
  simp [requireKeys, requiredKeys, hsome htestId (by simp), hsome huserId (by simp),
    hsome hrunner (by simp), hsome himage (by simp)]

/-- `from_dict` accepts a payload exactly if every check holds after the conversions. -/
lemma acceptable_iff : (∃ b, fromDict (.dict items) = .ok b) ↔ Acceptable (fieldsOf items) := by
  constructor
  · rintro ⟨b, h⟩
    obtain ⟨-, tags, vars, htags, hvars, h⟩ := fromDict_eq_ok.mp h
    have hf := construct_eq_ok.mp h
    simp only [Fields.converted, Fields.mk.injEq, PyValue.list.injEq] at hf
    obtain ⟨htestId, huserId, hrunner, himage, rfl, -, hreservation, -⟩ := hf
    refine ⟨⟨_, htestId⟩, ⟨_, huserId⟩, ⟨_, hrunner⟩, ⟨_, himage⟩, ⟨_, htags⟩, ?_, ⟨_, hvars⟩⟩
    rw [hreservation, reservationValue]
    cases b.qualiReservationId with
    | none => exact .inl rfl
    | some r => exact .inr ⟨r, rfl⟩
  · intro h
    have hkeys := requireKeys_of_acceptable h
    obtain ⟨⟨s, htestId⟩, ⟨i, huserId⟩, ⟨r, hrunner⟩, ⟨m, himage⟩, ⟨tags, htags⟩, hres,
      ⟨vars, hvars⟩⟩ := h
    have hreservation : ∃ q : Option NonEmptyStr, (fieldsOf items).qualiReservationId =
        (q.map fun r => PyValue.str r.val).getD .none := by
      rcases hres with hnone | ⟨q, hq⟩
      · exact ⟨none, hnone⟩
      · exact ⟨some q, hq⟩
    obtain ⟨q, hq⟩ := hreservation
    refine ⟨⟨s, i, r, m, tags, (fieldsOf items).requiresEmulation.truthy, q, ⟨.dict vars, rfl⟩⟩,
      fromDict_eq_ok.mpr ⟨hkeys, _, _, htags, hvars, construct_eq_ok.mpr ?_⟩⟩
    simp only [Fields.converted, htestId, huserId, hrunner, himage, hq, reservationValue]

/-- Fields of the right types are not changed. -/
lemma converted_of_typed (ht : Typed f) (htags : f.requiredHwTags.toList = .ok tags)
    (hvars : f.runnerVariables.toDict = .ok vars) : f.converted tags vars = f := by
  obtain ⟨⟨xs, hxs⟩, ⟨e, he⟩, ⟨vs, hvs⟩⟩ := ht
  rw [hxs] at htags
  rw [hvs] at hvars
  obtain rfl := Except.ok.inj htags
  obtain rfl := Except.ok.inj hvars
  cases f
  simp only at hxs he hvs
  simp only [Fields.converted, hxs, he, hvs, PyValue.truthy]

/-! ### Payloads that were decoded from JSON -/

lemma mem_values_update {pairs : List (PyValue × PyValue)} {kv : PyValue × PyValue}
    (h : kv ∈ PyValue.update items pairs) : ∃ kv' ∈ items ++ pairs, kv.2 = kv'.2 := by
  induction pairs generalizing items with
  | nil =>
    rw [List.append_nil]
    exact ⟨kv, h, rfl⟩
  | cons p pairs ih =>
    rw [PyValue.update, List.foldl_cons, ← PyValue.update] at h
    obtain ⟨kv', hmem, hval⟩ := ih h
    rcases List.mem_append.mp hmem with hmem | hmem
    · rw [PyValue.insertItem] at hmem
      split_ifs at hmem
      · obtain ⟨old, hold, rfl⟩ := List.mem_map.mp hmem
        split_ifs at hval
        · exact ⟨p, by simp, hval⟩
        · exact ⟨old, by simp [hold], hval⟩
      · rcases List.mem_append.mp hmem with hold | hnew
        · exact ⟨kv', by simp [hold], hval⟩
        · obtain rfl := List.mem_singleton.mp hnew
          exact ⟨p, by simp, hval⟩
    · exact ⟨kv', by simp [hmem], hval⟩

lemma exists_of_mem_decodeMembers {members : List (String × Json)} {kv : PyValue × PyValue}
    (h : kv ∈ Json.decodeMembers members) : ∃ j : Json, kv.2 = j.decode := by
  induction members with
  | nil => simp [Json.decodeMembers] at h
  | cons m members ih =>
    obtain ⟨name, j⟩ := m
    rw [Json.decodeMembers] at h
    rcases List.mem_cons.mp h with rfl | h
    · exact ⟨j, rfl⟩
    · exact ih h

/-- The values in a decoded object are decoded values. -/
lemma item?_decode {j : Json} (hj : j.decode = .dict items) {key : String} {v : PyValue}
    (hv : PyValue.item? items key = some v) : ∃ j' : Json, v = j'.decode := by
  cases j with
  | object members =>
    rw [Json.decode] at hj
    obtain rfl := PyValue.dict.inj hj
    obtain ⟨kv, hfind, rfl⟩ := Option.map_eq_some_iff.mp hv
    obtain ⟨kv', hmem, hval⟩ := mem_values_update (List.mem_of_find?_eq_some hfind)
    rw [hval]
    exact exists_of_mem_decodeMembers (by simpa using hmem)
  | _ => rw [Json.decode] at hj; cases hj

/-- A mapping that was decoded is a dict. -/
lemma dict_of_isMapping {j : Json} (h : j.decode.isMapping = true) :
    ∃ vars, j.decode = .dict vars := by
  cases j with
  | object members => exact ⟨_, by rw [Json.decode]⟩
  | _ => rw [Json.decode] at h; cases h

lemma dict_of_fromDict {j : Json} (h : fromDict j.decode = .ok b) :
    ∃ items, j.decode = .dict items := by
  apply dict_of_isMapping
  unfold fromDict requireMapping at h
  by_contra hno
  rw [if_neg hno] at h
  cases h

/-- The constructor accepts decoded fields only if they are of the right types. -/
lemma typed_of_construct {j : Json} (hj : j.decode = .dict items)
    (h : construct (fieldsOf items) = .ok b) : Typed (fieldsOf items) := by
  have hf := construct_eq_ok.mp h
  have htags := congrArg Fields.requiredHwTags hf
  have hemulation := congrArg Fields.requiresEmulation hf
  have hvars := congrArg Fields.runnerVariables hf
  refine ⟨⟨_, htags⟩, ⟨_, hemulation⟩, ?_⟩
  cases hitem : PyValue.item? items "runner_variables" with
  | none => exact ⟨[], by simp [fieldsOf, hitem]⟩
  | some v =>
    obtain ⟨j', rfl⟩ := item?_decode hj hitem
    simp only [fieldsOf, hitem, Option.getD_some] at hvars ⊢
    exact dict_of_isMapping (hvars ▸ b.runnerVariables.property)

/-- `from_dict` treats a decoded payload as it stands if and only if no field that it converts is of
another type, in a payload that passes the other checks. -/
theorem decodesExactly_iff (j : Json) : DecodesExactly j.decode ↔
    ∀ items, j.decode = .dict items → Acceptable (fieldsOf items) → Typed (fieldsOf items) := by
  constructor
  · rintro ⟨hexact, -⟩ items hj hacc
    rw [hj] at hexact
    obtain ⟨b, hb⟩ := acceptable_iff.mpr hacc
    obtain ⟨items', heq, -, hconstruct⟩ := (hexact b).mp hb
    obtain rfl := PyValue.dict.inj heq
    exact typed_of_construct hj hconstruct
  · intro htyped
    refine ⟨?_, raises_fromDict _⟩
    intro b
    constructor
    · intro hb
      -- Conversions change nothing in fields of the right types.
      obtain ⟨items, hj⟩ := dict_of_fromDict hb
      rw [hj] at hb
      have ht := htyped items hj (acceptable_iff.mp ⟨b, hb⟩)
      obtain ⟨hkeys, tags, vars, htags, hvars, hconstruct⟩ := fromDict_eq_ok.mp hb
      rw [converted_of_typed ht htags hvars] at hconstruct
      exact ⟨items, hj, hkeys, hconstruct⟩
    · rintro ⟨items, hj, hkeys, hconstruct⟩
      have ht := typed_of_construct hj hconstruct
      obtain ⟨xs, hxs⟩ := ht.tags
      obtain ⟨vs, hvs⟩ := ht.vars
      have htags : (fieldsOf items).requiredHwTags.toList = .ok xs := by rw [hxs, PyValue.toList]
      have hvars : (fieldsOf items).runnerVariables.toDict = .ok vs := by rw [hvs, PyValue.toDict]
      rw [hj, fromDict_eq_ok]
      refine ⟨hkeys, xs, vs, htags, hvars, ?_⟩
      rw [converted_of_typed ht htags hvars]
      exact hconstruct

def stringTags : Json :=
  .object [("test_id", .str "t"), ("user_id", .int 1), ("runner_type", .str "pytest"),
    ("framework_image", .str "img"), ("required_hw_tags", .str "gpu")]

def stringTagsItems : List (PyValue × PyValue) :=
  [(.str "test_id", .str "t"), (.str "user_id", .int 1), (.str "runner_type", .str "pytest"),
    (.str "framework_image", .str "img"), (.str "required_hw_tags", .str "gpu")]

/-- A string of tags is accepted as the list of its characters. -/
theorem stringTags_not_exact : ¬ ∀ j : Json, DecodesExactly j.decode := by
  intro h
  have hj : stringTags.decode = .dict stringTagsItems := by
    rw [stringTags, Json.decode, PyValue.update_of_nodup]
    · simp [Json.decodeMembers, Json.decode, stringTagsItems]
    · simp [Json.decodeMembers]
  have hacc : Acceptable (fieldsOf stringTagsItems) := by
    simp only [fieldsOf, stringTagsItems, PyValue.item?_cons_str]
    refine ⟨⟨⟨"t", by decide⟩, rfl⟩, ⟨⟨1, by decide⟩, rfl⟩, ⟨⟨"pytest", by decide⟩, rfl⟩,
      ⟨⟨"img", by decide⟩, rfl⟩, ⟨["g", "p", "u"], rfl⟩, .inl rfl, ⟨[], rfl⟩⟩
  obtain ⟨b, hb⟩ := acceptable_iff.mpr hacc
  rw [← hj] at hb
  obtain ⟨items, hitems, -, hconstruct⟩ := ((h stringTags).1 b).mp hb
  obtain ⟨xs, hxs⟩ := (typed_of_construct hitems hconstruct).tags
  obtain rfl := PyValue.dict.inj (hj.symm.trans hitems)
  simp [fieldsOf, stringTagsItems, PyValue.item?_cons_str] at hxs

end TestBundleRequest

end TestOrch
