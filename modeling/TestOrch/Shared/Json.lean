import Mathlib.Data.List.Perm.Subperm
import TestOrch.Core.Except
import TestOrch.Shared.PyValue

/-!
# JSON texts of Python values

`json.dumps` and `json.loads` at the level of syntax trees, and `==` between a value and what its
text decodes to. The values that come back equal are the plain ones (`plain_iff_survives`): `None`,
booleans, numbers, strings, lists and dicts with string keys of these. A tuple comes back as a list,
and a key that is not a string comes back as its text.

Values are of the built-in types themselves, not of their subclasses, and are nested no deeper than
the interpreter can follow.
-/

namespace TestOrch

/-- The syntax tree of a JSON text. An object keeps all its members in the order of the text. -/
inductive Json where
  | null
  | bool (b : Bool)
  | int (i : ℤ)
  | float (x : PyFloat)
  | str (s : String)
  | array (xs : List Json)
  | object (members : List (String × Json))

/-- `sys.int_info.default_max_str_digits`: the longest integer that is converted to a text. -/
def maxStrDigits : ℕ := 4300

/-- Whether `int.__repr__` gives a text. -/
@[irreducible] def printable (i : ℤ) : Bool := decide (i.natAbs < Nat.pow 10 maxStrDigits)

/-- A number of at most nineteen digits is short enough. -/
lemma printable_of_natAbs_lt {i : ℤ} (h : i.natAbs < Nat.pow 10 19) : printable i = true := by
  have hpow : ∀ n, 19 ≤ n → Nat.pow 10 19 ≤ Nat.pow 10 n := fun n hn =>
    Nat.pow_le_pow_right (by decide) hn
  have hdigits : 19 ≤ maxStrDigits := by decide
  unfold printable
  exact decide_eq_true (h.trans_le (hpow maxStrDigits hdigits))

/-- The error of `int.__repr__`. -/
def tooManyDigits : PyError :=
  .valueError (s!"Exceeds the limit ({maxStrDigits} digits) for integer string conversion; " ++
    "use sys.set_int_max_str_digits() to increase the limit")

namespace PyValue

/-- The member name that `json.dumps` writes for a key; `floatRepr` is its text of a `float`. -/
def keyText (floatRepr : PyFloat → String) : PyValue → Except PyError String
  | .none => .ok "null"
  | .bool b => .ok (if b then "true" else "false")
  | .int i => if printable i then .ok (toString i) else .error tooManyDigits
  | .float x => .ok (floatRepr x)
  | .str s => .ok s
  | v => .error (.typeError
      s!"keys must be str, int, float, bool or None, not {v.typeName}")

mutual

/-- `json.dumps`. -/
def encode (floatRepr : PyFloat → String) : PyValue → Except PyError Json
  | .none => .ok .null
  | .bool b => .ok (.bool b)
  | .int i => if printable i then .ok (.int i) else .error tooManyDigits
  | .float x => .ok (.float x)
  | .str s => .ok (.str s)
  | .list xs => .array <$> encodeList floatRepr xs
  | .tuple xs => .array <$> encodeList floatRepr xs
  | .dict items => .object <$> encodeItems floatRepr items
  | .object name _ => .error (.typeError s!"Object of type {name} is not JSON serializable")

/-- The elements of an array, in order. -/
def encodeList (floatRepr : PyFloat → String) : List PyValue → Except PyError (List Json)
  | [] => .ok []
  | x :: xs => do
    let j ← encode floatRepr x
    let js ← encodeList floatRepr xs
    pure (j :: js)

/-- The members of an object, in order. -/
def encodeItems (floatRepr : PyFloat → String) :
    List (PyValue × PyValue) → Except PyError (List (String × Json))
  | [] => .ok []
  | (key, value) :: rest => do
    let name ← keyText floatRepr key
    let j ← encode floatRepr value
    let members ← encodeItems floatRepr rest
    pure ((name, j) :: members)

end

/-- `items.update(pairs)`: of several values for a key the last one stays. -/
def update (items pairs : List (PyValue × PyValue)) : List (PyValue × PyValue) :=
  pairs.foldl (fun items kv => insertItem items kv.1 kv.2) items

end PyValue

mutual

/-- `json.loads`. -/
def Json.decode : Json → PyValue
  | .null => .none
  | .bool b => .bool b
  | .int i => .int i
  | .float x => .float x
  | .str s => .str s
  | .array xs => .list (Json.decodeList xs)
  | .object members => .dict (PyValue.update [] (Json.decodeMembers members))

def Json.decodeList : List Json → List PyValue
  | [] => []
  | j :: js => j.decode :: Json.decodeList js

def Json.decodeMembers : List (String × Json) → List (PyValue × PyValue)
  | [] => []
  | (name, j) :: rest => (.str name, j.decode) :: Json.decodeMembers rest

end

namespace PyValue

mutual

/-- `a == b` for two values that are not the same object. -/
def eq : PyValue → PyValue → Bool
  | .none, .none => true
  | .str s, .str t => s == t
  | .float (.infinity m), .float (.infinity n) => m == n
  | .list xs, .list ys => eqList xs ys
  | .tuple xs, .tuple ys => eqList xs ys
  | .dict items, .dict others => items.length == others.length && eqItems items others
  | a, b =>
    match a.numeric, b.numeric with
    | some p, some q => p == q
    | _, _ => false

def eqList : List PyValue → List PyValue → Bool
  | [], [] => true
  | x :: xs, y :: ys => eq x y && eqList xs ys
  | _, _ => false

/-- Every item has its key among the others, with an equal value. -/
def eqItems : List (PyValue × PyValue) → List (PyValue × PyValue) → Bool
  | [], _ => true
  | (key, value) :: rest, others =>
    (match others.find? fun kv => kv.1.keyEq key with
    | some kv => eq value kv.2
    | Option.none => false) && eqItems rest others

end

def strKeys (items : List (PyValue × PyValue)) : List String :=
  items.filterMap fun kv => match kv.1 with
    | .str s => some s
    | _ => Option.none

mutual

/-- A value whose text decodes to an equal value. The keys of a dict are distinct, as in every
dict, and all of them strings. -/
def plain : PyValue → Bool
  | .none => true
  | .bool _ => true
  | .int i => printable i
  | .float x => x != .nan
  | .str _ => true
  | .list xs => plainList xs
  | .tuple _ => false
  | .dict items => decide (strKeys items).Nodup && plainItems items
  | .object _ _ => false

def plainList : List PyValue → Bool
  | [] => true
  | x :: xs => plain x && plainList xs

def plainItems : List (PyValue × PyValue) → Bool
  | [] => true
  | (.str _, value) :: rest => plain value && plainItems rest
  | _ :: _ => false

end

mutual

/-- A value that a JSON text decodes to. -/
def isJson : PyValue → Bool
  | .none => true
  | .bool _ => true
  | .int i => printable i
  | .float _ => true
  | .str _ => true
  | .list xs => isJsonList xs
  | .tuple _ => false
  | .dict items => decide (strKeys items).Nodup && isJsonItems items
  | .object _ _ => false

def isJsonList : List PyValue → Bool
  | [] => true
  | x :: xs => isJson x && isJsonList xs

def isJsonItems : List (PyValue × PyValue) → Bool
  | [] => true
  | (.str _, value) :: rest => isJson value && isJsonItems rest
  | _ :: _ => false

end

/-! ### Dicts with string keys -/

@[simp] lemma keyEq_str (s t : String) : keyEq (.str s) (.str t) = (s == t) := by
  rfl

lemma item?_cons_str (s : String) (v : PyValue) (rest : List (PyValue × PyValue))
    (key : String) :
    item? ((.str s, v) :: rest) key = if s = key then some v else item? rest key := by
  rw [item?, List.find?_cons, keyEq_str]
  by_cases h : s = key
  · simp [h]
  · simp [beq_eq_false_iff_ne.mpr h, h, item?]

/-- Only the same string equals a string key. -/
lemma keyEq_str_iff {key : PyValue} {s : String} : key.keyEq (.str s) = true ↔ key = .str s := by
  cases key with
  | str t => simp
  | float x => cases x <;> simp [keyEq, numeric]
  | _ => simp [keyEq, numeric]

@[simp] lemma strKeys_nil : strKeys [] = [] := by
  rfl

@[simp] lemma strKeys_str (s : String) (v : PyValue) (rest : List (PyValue × PyValue)) :
    strKeys ((.str s, v) :: rest) = s :: strKeys rest := by
  rfl

lemma mem_strKeys {items : List (PyValue × PyValue)} {s : String} :
    s ∈ strKeys items ↔ ∃ v, (.str s, v) ∈ items := by
  unfold strKeys
  rw [List.mem_filterMap]
  constructor
  · rintro ⟨⟨key, v⟩, hmem, hkey⟩
    cases key <;> simp at hkey
    subst hkey
    exact ⟨v, hmem⟩
  · rintro ⟨v, hmem⟩
    exact ⟨_, hmem, rfl⟩

lemma length_strKeys_le (items : List (PyValue × PyValue)) :
    (strKeys items).length ≤ items.length :=
  List.length_filterMap_le _ _

/-- If there are as many string keys as items, every key is a string. -/
lemma key_of_length_strKeys {items : List (PyValue × PyValue)}
    (h : (strKeys items).length = items.length) : ∀ kv ∈ items, ∃ s, kv.1 = .str s := by
  intro kv hkv
  obtain ⟨key, v⟩ := kv
  by_contra hkey
  have hlt : (strKeys items).length < items.length := by
    refine List.length_filterMap_lt_length_iff_exists.mpr ⟨_, hkv, ?_⟩
    cases key with
    | str s => exact absurd ⟨s, rfl⟩ hkey
    | _ => rfl
  omega

/-- A string key of a dict finds its own item. -/
lemma find?_str {items : List (PyValue × PyValue)} (hnodup : (strKeys items).Nodup) {s : String}
    {v : PyValue} (hmem : (.str s, v) ∈ items) :
    items.find? (fun kv => kv.1.keyEq (.str s)) = some (.str s, v) := by
  induction items with
  | nil => cases hmem
  | cons kv rest ih =>
    obtain ⟨key, w⟩ := kv
    rw [List.find?_cons]
    rcases List.mem_cons.mp hmem with heq | hrest
    · cases heq
      simp
    · cases hkey : key.keyEq (.str s) with
      | false =>
        refine ih ?_ hrest
        cases key with
        | str t => exact (List.nodup_cons.mp hnodup).2
        | _ => exact hnodup
      | true =>
        obtain rfl := keyEq_str_iff.mp hkey
        exact absurd (mem_strKeys.mpr ⟨v, hrest⟩) (List.nodup_cons.mp hnodup).1

/-- Items found by the string keys of a dict have their keys among its string keys. -/
lemma mem_strKeys_of_find? {items : List (PyValue × PyValue)} {s : String}
    {kv : PyValue × PyValue} (h : items.find? (fun kv => kv.1.keyEq (.str s)) = some kv) :
    s ∈ strKeys items := by
  have hkey := List.find?_some h
  have hmem := List.mem_of_find?_eq_some h
  obtain ⟨key, v⟩ := kv
  obtain rfl := keyEq_str_iff.mp hkey
  exact mem_strKeys.mpr ⟨v, hmem⟩

/-! ### Reading the members of an object -/

lemma length_insertItem_le (items : List (PyValue × PyValue)) (key value : PyValue) :
    (insertItem items key value).length ≤ items.length + 1 := by
  unfold insertItem
  split_ifs <;> simp

lemma length_update_le (pairs items : List (PyValue × PyValue)) :
    (update items pairs).length ≤ items.length + pairs.length := by
  induction pairs generalizing items with
  | nil => exact le_rfl
  | cons kv pairs ih =>
    have hstep := length_insertItem_le items kv.1 kv.2
    have hrun := ih (insertItem items kv.1 kv.2)
    rw [update, List.foldl_cons, ← update, List.length_cons]
    omega

/-- An insertion that makes the dict longer found the key nowhere. -/
lemma insertItem_of_length {items : List (PyValue × PyValue)} {s : String} {v : PyValue}
    (h : (insertItem items (.str s) v).length = items.length + 1) :
    insertItem items (.str s) v = items ++ [(.str s, v)] ∧ s ∉ strKeys items := by
  unfold insertItem at h ⊢
  split_ifs at h ⊢ with hany
  · rw [List.length_map] at h
    omega
  · refine ⟨rfl, fun hs => hany ?_⟩
    obtain ⟨w, hmem⟩ := mem_strKeys.mp hs
    exact List.any_eq_true.mpr ⟨_, hmem, by simp⟩

@[simp] lemma strKeys_append (items others : List (PyValue × PyValue)) :
    strKeys (items ++ others) = strKeys items ++ strKeys others :=
  List.filterMap_append

/-- A dict that became longer with every member holds just these members after what it had. -/
lemma update_of_length (members : List (String × Json)) (items : List (PyValue × PyValue))
    (hnodup : (strKeys items).Nodup)
    (h : (update items (Json.decodeMembers members)).length =
      items.length + (Json.decodeMembers members).length) :
    update items (Json.decodeMembers members) = items ++ Json.decodeMembers members ∧
      (strKeys (items ++ Json.decodeMembers members)).Nodup := by
  induction members generalizing items with
  | nil =>
    rw [Json.decodeMembers, List.append_nil]
    exact ⟨rfl, hnodup⟩
  | cons member members ih =>
    obtain ⟨s, j⟩ := member
    rw [Json.decodeMembers, update, List.foldl_cons, ← update] at h ⊢
    have hstep := length_insertItem_le items (.str s) j.decode
    have hrun := length_update_le (Json.decodeMembers members) (insertItem items (.str s) j.decode)
    rw [List.length_cons] at h
    dsimp only at h ⊢
    have hlength : (insertItem items (.str s) j.decode).length = items.length + 1 := by omega
    obtain ⟨hnew, hs⟩ := insertItem_of_length hlength
    rw [hnew] at h ⊢
    have hnodup' : (strKeys (items ++ [(.str s, j.decode)])).Nodup := by
      rw [strKeys_append, List.nodup_append]
      refine ⟨hnodup, List.pairwise_singleton _ s, ?_⟩
      rintro a ha b hb rfl
      obtain rfl := List.mem_singleton.mp hb
      exact hs ha
    have hrest := ih _ hnodup' (by rw [h, List.length_append, List.length_singleton]; omega)
    rwa [List.append_assoc, List.singleton_append] at hrest

/-- Members with distinct names are read into a dict as they are. -/
lemma update_of_nodup (members : List (String × Json)) (items : List (PyValue × PyValue))
    (hnodup : (strKeys (items ++ Json.decodeMembers members)).Nodup) :
    update items (Json.decodeMembers members) = items ++ Json.decodeMembers members := by
  induction members generalizing items with
  | nil =>
    rw [Json.decodeMembers, List.append_nil]
    rfl
  | cons member members ih =>
    obtain ⟨s, j⟩ := member
    rw [Json.decodeMembers] at hnodup ⊢
    have hs : s ∉ strKeys items := by
      rw [strKeys_append, List.nodup_append] at hnodup
      intro hs
      exact hnodup.2.2 s hs s List.mem_cons_self rfl
    have hnew : insertItem items (.str s) j.decode = items ++ [(.str s, j.decode)] := by
      apply if_neg
      intro hany
      obtain ⟨⟨key, w⟩, hmem, hkey⟩ := List.any_eq_true.mp hany
      obtain rfl := keyEq_str_iff.mp hkey
      exact hs (mem_strKeys.mpr ⟨w, hmem⟩)
    rw [update, List.foldl_cons, ← update, hnew, ih _, List.append_assoc, List.singleton_append]
    rwa [List.append_assoc, List.singleton_append]

/-! ### JSON values come back as they were -/

@[simp] lemma keyText_str (floatRepr : PyFloat → String) (s : String) :
    keyText floatRepr (.str s) = .ok s := by
  rfl

mutual

lemma encode_of_isJson (floatRepr : PyFloat → String) :
    ∀ v : PyValue, v.isJson = true → ∃ j, encode floatRepr v = .ok j ∧ j.decode = v
  | .none, _ => ⟨.null, rfl, rfl⟩
  | .bool b, _ => ⟨.bool b, rfl, rfl⟩
  | .int i, h => ⟨.int i, if_pos h, rfl⟩
  | .float x, _ => ⟨.float x, rfl, rfl⟩
  | .str s, _ => ⟨.str s, rfl, rfl⟩
  | .list xs, h => by
    obtain ⟨js, hjs, hxs⟩ := encodeList_of_isJson floatRepr xs h
    refine ⟨.array js, ?_, ?_⟩
    · rw [encode, hjs]
      rfl
    · rw [Json.decode, hxs]
  | .tuple _, h => by cases h
  | .dict items, h => by
    obtain ⟨hnodup, hjson⟩ := Bool.and_eq_true_iff.mp h
    obtain ⟨members, hmembers, hitems⟩ := encodeItems_of_isJson floatRepr items hjson
    refine ⟨.object members, ?_, ?_⟩
    · rw [encode, hmembers]
      rfl
    · have hread := update_of_nodup members [] (by
        rw [hitems]
        exact of_decide_eq_true hnodup)
      rw [Json.decode, hread, hitems]
      rfl
  | .object _ _, h => by cases h

lemma encodeList_of_isJson (floatRepr : PyFloat → String) :
    ∀ xs : List PyValue, isJsonList xs = true →
      ∃ js, encodeList floatRepr xs = .ok js ∧ Json.decodeList js = xs
  | [], _ => ⟨[], rfl, rfl⟩
  | x :: xs, h => by
    obtain ⟨hx, hxs⟩ := Bool.and_eq_true_iff.mp h
    obtain ⟨j, hj, hjx⟩ := encode_of_isJson floatRepr x hx
    obtain ⟨js, hjs, hjsx⟩ := encodeList_of_isJson floatRepr xs hxs
    refine ⟨j :: js, ?_, ?_⟩
    · rw [encodeList, hj, hjs]
      rfl
    · rw [Json.decodeList, hjx, hjsx]

lemma encodeItems_of_isJson (floatRepr : PyFloat → String) :
    ∀ items : List (PyValue × PyValue), isJsonItems items = true →
      ∃ members, encodeItems floatRepr items = .ok members ∧ Json.decodeMembers members = items
  | [], _ => ⟨[], rfl, rfl⟩
  | (key, value) :: rest, h => by
    cases key with
    | str s =>
      obtain ⟨hv, hrest⟩ := Bool.and_eq_true_iff.mp h
      obtain ⟨j, hj, hjv⟩ := encode_of_isJson floatRepr value hv
      obtain ⟨members, hmembers, hitems⟩ := encodeItems_of_isJson floatRepr rest hrest
      refine ⟨(s, j) :: members, ?_, ?_⟩
      · rw [encodeItems, keyText_str, hj, hmembers]
        rfl
      · rw [Json.decodeMembers, hjv, hitems]
    | _ => cases h

end

mutual

/-- The JSON values are the plain ones and those that hold `nan`. -/
lemma isJson_of_plain : ∀ v : PyValue, v.plain = true → v.isJson = true
  | .none, _ => rfl
  | .bool _, _ => rfl
  | .int _, h => h
  | .float _, _ => rfl
  | .str _, _ => rfl
  | .list xs, h => isJsonList_of_plain xs h
  | .tuple _, h => by cases h
  | .dict items, h => by
    obtain ⟨hnodup, hplain⟩ := Bool.and_eq_true_iff.mp h
    exact Bool.and_eq_true_iff.mpr ⟨hnodup, isJsonItems_of_plain items hplain⟩
  | .object _ _, h => by cases h

lemma isJsonList_of_plain : ∀ xs : List PyValue, plainList xs = true → isJsonList xs = true
  | [], _ => rfl
  | x :: xs, h => by
    obtain ⟨hx, hxs⟩ := Bool.and_eq_true_iff.mp h
    exact Bool.and_eq_true_iff.mpr ⟨isJson_of_plain x hx, isJsonList_of_plain xs hxs⟩

lemma isJsonItems_of_plain :
    ∀ items : List (PyValue × PyValue), plainItems items = true → isJsonItems items = true
  | [], _ => rfl
  | (key, value) :: rest, h => by
    cases key with
    | str s =>
      obtain ⟨hv, hrest⟩ := Bool.and_eq_true_iff.mp h
      exact Bool.and_eq_true_iff.mpr ⟨isJson_of_plain value hv, isJsonItems_of_plain rest hrest⟩
    | _ => cases h

end

lemma encode_of_plain (floatRepr : PyFloat → String) (v : PyValue) (h : v.plain = true) :
    ∃ j, encode floatRepr v = .ok j ∧ j.decode = v :=
  encode_of_isJson floatRepr v (isJson_of_plain v h)

/-- What is found in a JSON dict is a JSON value. -/
lemma isJson_of_item? {items : List (PyValue × PyValue)} {key : String} {v : PyValue}
    (hitems : isJsonItems items = true) (h : item? items key = some v) : v.isJson = true := by
  induction items with
  | nil => cases h
  | cons kv rest ih =>
    obtain ⟨name, w⟩ := kv
    cases name with
    | str s =>
      obtain ⟨hw, hrest⟩ := Bool.and_eq_true_iff.mp hitems
      rw [item?_cons_str] at h
      split_ifs at h with hs
      · rwa [← Option.some.inj h]
      · exact ih hrest h
    | _ => cases hitems

mutual

/-- Of all values only `nan`, on its own or in a list or dict, is not equal to a copy of itself
here; plain values hold none. -/
lemma eq_self_of_plain : ∀ v : PyValue, v.plain = true → eq v v = true
  | .none, _ => rfl
  | .bool b, _ => by simp [eq, numeric]
  | .int i, _ => by simp [eq, numeric]
  | .float x, h => by cases x <;> simp_all [eq, numeric, plain]
  | .str s, _ => by simp [eq]
  | .list xs, h => eqList_self_of_plain xs h
  | .tuple _, h => by cases h
  | .dict items, h => by
    obtain ⟨hnodup, hplain⟩ := Bool.and_eq_true_iff.mp h
    rw [eq, Bool.and_eq_true_iff]
    exact ⟨beq_self_eq_true _, eqItems_self_of_plain items items hplain
      (of_decide_eq_true hnodup) (List.Subset.refl items)⟩
  | .object _ _, h => by cases h

lemma eqList_self_of_plain : ∀ xs : List PyValue, plainList xs = true → eqList xs xs = true
  | [], _ => rfl
  | x :: xs, h => by
    obtain ⟨hx, hxs⟩ := Bool.and_eq_true_iff.mp h
    rw [eqList, eq_self_of_plain x hx, eqList_self_of_plain xs hxs]
    rfl

lemma eqItems_self_of_plain : ∀ items others : List (PyValue × PyValue),
    plainItems items = true → (strKeys others).Nodup → items ⊆ others →
      eqItems items others = true
  | [], _, _, _, _ => rfl
  | (key, value) :: rest, others, h, hnodup, hsub => by
    cases key with
    | str s =>
      obtain ⟨hv, hrest⟩ := Bool.and_eq_true_iff.mp h
      obtain ⟨hmem, hsub⟩ := List.cons_subset.mp hsub
      rw [eqItems, find?_str hnodup hmem, Bool.and_eq_true_iff]
      exact ⟨eq_self_of_plain value hv, eqItems_self_of_plain rest others hrest hnodup hsub⟩
    | _ => cases h

end

/-! ### Only plain values do -/

lemma length_decodeMembers (members : List (String × Json)) :
    (Json.decodeMembers members).length = members.length := by
  induction members with
  | nil => rfl
  | cons member members ih =>
    rw [Json.decodeMembers, List.length_cons, List.length_cons, ih]

/-- The first item is written first. -/
lemma encodeItems_cons {floatRepr : PyFloat → String} {key value : PyValue}
    {rest : List (PyValue × PyValue)} {members : List (String × Json)}
    (h : encodeItems floatRepr ((key, value) :: rest) = .ok members) :
    ∃ name j members', keyText floatRepr key = .ok name ∧ encode floatRepr value = .ok j ∧
      encodeItems floatRepr rest = .ok members' ∧ members = (name, j) :: members' := by
  rw [encodeItems] at h
  obtain ⟨name, hname, h⟩ := Except.bind_eq_ok.mp h
  obtain ⟨j, hj, h⟩ := Except.bind_eq_ok.mp h
  obtain ⟨members', hmembers, h⟩ := Except.bind_eq_ok.mp h
  exact ⟨name, j, members', hname, hj, hmembers, (Except.pure_eq_ok.mp h).symm⟩

lemma length_of_encodeItems {floatRepr : PyFloat → String} {items : List (PyValue × PyValue)}
    {members : List (String × Json)} (h : encodeItems floatRepr items = .ok members) :
    members.length = items.length := by
  induction items generalizing members with
  | nil =>
    cases h
    rfl
  | cons kv rest ih =>
    obtain ⟨key, v⟩ := kv
    obtain ⟨name, j, members', -, -, hmembers, rfl⟩ := encodeItems_cons h
    rw [List.length_cons, List.length_cons, ih hmembers]

lemma mem_decodeMembers {members : List (String × Json)} {s : String} {j : Json}
    (h : (s, j) ∈ members) : (.str s, j.decode) ∈ Json.decodeMembers members := by
  induction members with
  | nil => cases h
  | cons member members ih =>
    obtain ⟨s', j'⟩ := member
    rw [Json.decodeMembers]
    rcases List.mem_cons.mp h with heq | hmem
    · cases heq
      exact List.mem_cons_self
    · exact List.mem_cons_of_mem _ (ih hmem)

/-- Every item with a string key is written under that name. -/
lemma exists_mem_of_encodeItems {floatRepr : PyFloat → String} {items : List (PyValue × PyValue)}
    {members : List (String × Json)} (h : encodeItems floatRepr items = .ok members) {s : String}
    {v : PyValue} (hmem : (.str s, v) ∈ items) :
    ∃ j, (s, j) ∈ members ∧ encode floatRepr v = .ok j := by
  induction items generalizing members with
  | nil => cases hmem
  | cons kv rest ih =>
    obtain ⟨key, w⟩ := kv
    obtain ⟨name, j, members', hname, hj, hmembers, rfl⟩ := encodeItems_cons h
    rcases List.mem_cons.mp hmem with heq | hrest
    · cases heq
      obtain rfl := Except.ok.inj hname
      exact ⟨j, List.mem_cons_self, hj⟩
    · obtain ⟨j', hj', henc⟩ := ih hmembers hrest
      exact ⟨j', List.mem_cons_of_mem _ hj', henc⟩

/-- With string keys only, the names are the keys. -/
lemma strKeys_decodeMembers {floatRepr : PyFloat → String} {items : List (PyValue × PyValue)}
    {members : List (String × Json)} (h : encodeItems floatRepr items = .ok members)
    (hkeys : ∀ kv ∈ items, ∃ s, kv.1 = .str s) :
    strKeys (Json.decodeMembers members) = strKeys items := by
  induction items generalizing members with
  | nil =>
    cases h
    rfl
  | cons kv rest ih =>
    obtain ⟨key, v⟩ := kv
    obtain ⟨s, rfl⟩ : ∃ s, key = .str s := hkeys _ List.mem_cons_self
    obtain ⟨name, j, members', hname, -, hmembers, rfl⟩ := encodeItems_cons h
    obtain rfl := Except.ok.inj hname
    rw [Json.decodeMembers, strKeys_str, strKeys_str,
      ih hmembers fun kv hkv => hkeys kv (List.mem_cons_of_mem _ hkv)]

/-- A dict with distinct string keys is read back with every value read from its own text. -/
lemma decode_dict {floatRepr : PyFloat → String} {items : List (PyValue × PyValue)} {text : Json}
    (h : encode floatRepr (.dict items) = .ok text) (hkeys : ∀ kv ∈ items, ∃ s, kv.1 = .str s)
    (hnodup : (strKeys items).Nodup) :
    ∃ decoded, text.decode = .dict decoded ∧ ∀ s v, (.str s, v) ∈ items →
      ∃ j, encode floatRepr v = .ok j ∧ item? decoded s = some j.decode := by
  rw [encode] at h
  obtain ⟨members, hmembers, rfl⟩ := Except.map_eq_ok.mp h
  rw [← strKeys_decodeMembers hmembers hkeys] at hnodup
  have hread := update_of_nodup members [] hnodup
  rw [List.nil_append] at hread
  refine ⟨Json.decodeMembers members, by rw [Json.decode, hread], ?_⟩
  intro s v hmem
  obtain ⟨j, hj, henc⟩ := exists_mem_of_encodeItems hmembers hmem
  refine ⟨j, henc, ?_⟩
  rw [item?, find?_str hnodup (mem_decodeMembers hj)]
  rfl

/-- The names read from an object are found among the string keys of a dict it equals. -/
lemma strKeys_decodeMembers_subset {members : List (String × Json)}
    {others : List (PyValue × PyValue)} (h : eqItems (Json.decodeMembers members) others = true) :
    strKeys (Json.decodeMembers members) ⊆ strKeys others := by
  induction members with
  | nil => exact List.nil_subset _
  | cons member members ih =>
    obtain ⟨s, j⟩ := member
    rw [Json.decodeMembers, eqItems, Bool.and_eq_true_iff] at h
    rw [Json.decodeMembers, strKeys_str]
    refine List.cons_subset.mpr ⟨?_, ih h.2⟩
    have hfound := h.1
    split at hfound
    · next kv hkv => exact mem_strKeys_of_find? hkv
    · cases hfound

lemma length_strKeys_decodeMembers (members : List (String × Json)) :
    (strKeys (Json.decodeMembers members)).length = members.length := by
  induction members with
  | nil => rfl
  | cons member members ih =>
    rw [Json.decodeMembers, strKeys_str, List.length_cons, List.length_cons, ih]

/-- A dict that equals what its text decodes to has only string keys, and its text names them all:
with as many distinct names as items, each found among the string keys, no other key is left. -/
lemma keys_of_eq_decode {floatRepr : PyFloat → String} {items : List (PyValue × PyValue)}
    {members : List (String × Json)} (hencode : encodeItems floatRepr items = .ok members)
    (heq : eq (Json.object members).decode (.dict items) = true) :
    (strKeys items).Nodup ∧ (∀ kv ∈ items, ∃ s, kv.1 = .str s) ∧
      eqItems (Json.decodeMembers members) items = true := by
  rw [Json.decode, eq, Bool.and_eq_true_iff, beq_iff_eq] at heq
  obtain ⟨hlength, hitems⟩ := heq
  have hmembers := length_of_encodeItems hencode
  obtain ⟨hread, hnodup⟩ := update_of_length members [] List.nodup_nil (by
    rw [hlength, length_decodeMembers, hmembers, List.length_nil, Nat.zero_add])
  rw [List.nil_append] at hread hnodup
  rw [hread] at hitems
  have hsub := hnodup.subperm (strKeys_decodeMembers_subset hitems)
  have hcount := length_strKeys_decodeMembers members
  have hle := length_strKeys_le items
  have hperm := hsub.perm_of_length_le (by omega)
  refine ⟨hperm.nodup_iff.mp hnodup, key_of_length_strKeys ?_, hitems⟩
  rw [← hperm.length_eq, hcount, hmembers]

mutual

lemma plain_of_eq_decode (floatRepr : PyFloat → String) :
    ∀ (v : PyValue) (j : Json), encode floatRepr v = .ok j → eq j.decode v = true →
      v.plain = true
  | .none, _, _, _ => rfl
  | .bool _, _, _, _ => rfl
  | .int i, j, hj, _ => by
    rw [encode] at hj
    split_ifs at hj with hi
    exact hi
  | .float x, j, hj, heq => by
    cases hj
    cases x with
    | nan => cases heq
    | _ => rfl
  | .str _, _, _, _ => rfl
  | .list xs, j, hj, heq => by
    rw [encode] at hj
    obtain ⟨js, hjs, rfl⟩ := Except.map_eq_ok.mp hj
    exact plainList_of_eq_decode floatRepr xs js hjs heq
  | .tuple xs, j, hj, heq => by
    -- the array decodes to a list
    rw [encode] at hj
    obtain ⟨js, -, rfl⟩ := Except.map_eq_ok.mp hj
    cases heq
  | .dict items, j, hj, heq => by
    rw [encode] at hj
    obtain ⟨members, hmembers, rfl⟩ := Except.map_eq_ok.mp hj
    obtain ⟨hnodup, hkeys, hitems⟩ := keys_of_eq_decode hmembers heq
    rw [plain, Bool.and_eq_true_iff]
    exact ⟨decide_eq_true hnodup, plainItems_of_eq_decode floatRepr items members items hmembers
      hitems hnodup hkeys (List.Subset.refl items)⟩
  | .object _ _, j, hj, _ => by cases hj

lemma plainList_of_eq_decode (floatRepr : PyFloat → String) :
    ∀ (xs : List PyValue) (js : List Json), encodeList floatRepr xs = .ok js →
      eqList (Json.decodeList js) xs = true → plainList xs = true
  | [], _, _, _ => rfl
  | x :: xs, js, hjs, heq => by
    rw [encodeList] at hjs
    obtain ⟨j, hj, hjs⟩ := Except.bind_eq_ok.mp hjs
    obtain ⟨js', hjs', hjs⟩ := Except.bind_eq_ok.mp hjs
    obtain rfl := Except.pure_eq_ok.mp hjs
    rw [Json.decodeList, eqList, Bool.and_eq_true_iff] at heq
    rw [plainList, plain_of_eq_decode floatRepr x j hj heq.1,
      plainList_of_eq_decode floatRepr xs js' hjs' heq.2]
    rfl

lemma plainItems_of_eq_decode (floatRepr : PyFloat → String) :
    ∀ (items : List (PyValue × PyValue)) (members : List (String × Json))
      (others : List (PyValue × PyValue)), encodeItems floatRepr items = .ok members →
      eqItems (Json.decodeMembers members) others = true → (strKeys others).Nodup →
      (∀ kv ∈ items, ∃ s, kv.1 = .str s) → items ⊆ others → plainItems items = true
  | [], _, _, _, _, _, _, _ => rfl
  | (key, value) :: rest, members, others, hmembers, heq, hnodup, hkeys, hsub => by
    obtain ⟨s, rfl⟩ : ∃ s, key = .str s := hkeys _ List.mem_cons_self
    obtain ⟨hmem, hsub⟩ := List.cons_subset.mp hsub
    obtain ⟨name, j, members', hname, hj, hrest, rfl⟩ := encodeItems_cons hmembers
    obtain rfl := Except.ok.inj hname
    rw [Json.decodeMembers, eqItems, find?_str hnodup hmem, Bool.and_eq_true_iff] at heq
    rw [plainItems, plain_of_eq_decode floatRepr value j hj heq.1,
      plainItems_of_eq_decode floatRepr rest members' others hrest heq.2 hnodup
        (fun kv hkv => hkeys kv (List.mem_cons_of_mem _ hkv)) hsub]
    rfl

end

/-- A value equals what its text decodes to exactly when it is plain. -/
lemma plain_iff_survives (floatRepr : PyFloat → String) (v : PyValue) :
    v.plain = true ↔ ∃ j, encode floatRepr v = .ok j ∧ eq j.decode v = true := by
  constructor
  · intro h
    obtain ⟨j, hj, hdecode⟩ := encode_of_plain floatRepr v h
    refine ⟨j, hj, ?_⟩
    rw [hdecode]
    exact eq_self_of_plain v h
  · rintro ⟨j, hj, heq⟩
    exact plain_of_eq_decode floatRepr v j hj heq

end PyValue

end TestOrch
