import TestOrch.Core.Markup
import TestOrch.Shared.PyFormat
import TestOrch.Backend.StatusRender

/-!
# The markup of a row

The cells of a row are filled in three ways: the host is escaped, the numbers are formatted, and
the number of active users is written as its `str` text. The first two never contribute an angle
bracket. The third contributes those of every string in the value, because `repr` does not escape
them either; so the markup of a row is that of its template exactly if there are none.
-/

namespace TestOrch

open Markup

/-! ### Numbers -/

lemma angles_paddedDigits (width n : ℕ) : angles (paddedDigits width n) = [] := by
  rw [paddedDigits, angles_leftpad _ rfl, angles_toDigits (by decide)]

lemma angles_fixedText (negative : Bool) (q : ℚ) (n : ℕ) :
    angles (fixedText negative q n) = [] := by
  have hsign : angles (if negative then ['-'] else []) = [] := by
    cases negative <;> rfl
  rw [fixedText, angles_append, angles_append, hsign, angles_toDigits (by decide)]
  split_ifs
  · rfl
  · rw [angles_cons_of_ne (by decide) (by decide), angles_paddedDigits]
    rfl

lemma angles_fixed (x : PyFloat) (n : ℕ) : angles (x.fixed n) = [] := by
  cases x with
  | finite q => apply angles_fixedText
  | negZero => apply angles_fixedText
  | infinity negative => cases negative <;> rfl
  | nan => rfl

/-- A number is formatted without brackets. -/
lemma PyValue.angles_fixed {v : PyValue} {n : ℕ} {text : String} (h : v.fixed n = .ok text) :
    angles text.toList = [] := by
  cases v with
  | bool b =>
    obtain rfl := Except.ok.inj h
    rw [String.toList_ofList, TestOrch.angles_fixed]
  | int i =>
    obtain ⟨q, -, h⟩ := Except.bind_eq_ok.mp h
    obtain rfl := Except.pure_eq_ok.mp h
    rw [String.toList_ofList, TestOrch.angles_fixed]
  | float x =>
    obtain rfl := Except.ok.inj h
    rw [String.toList_ofList, TestOrch.angles_fixed]
  | none | str | list | tuple | dict | object => cases h

lemma angles_shortestDigits (q : ℚ) : angles (shortestDigits q).1 = [] := by
  unfold shortestDigits
  split
  · next m x _ =>
    have hsub : (Nat.toDigits 10 m).rdropWhile (· = '0') ⊆ Nat.toDigits 10 m :=
      (List.rdropWhile_prefix _ _).subset
    exact angles_eq_nil_of_subset hsub (angles_toDigits (by decide) m)
  · rfl

lemma angles_pointText {digits : List Char} (h : angles digits = []) (point : ℤ) :
    angles (pointText digits point) = [] := by
  -- All parts are digits, a point, an `e` and signs.
  have htake : ∀ k, angles (digits.take k) = [] := fun k =>
    angles_eq_nil_of_subset (List.take_subset k digits) h
  have hdrop : ∀ k, angles (digits.drop k) = [] := fun k =>
    angles_eq_nil_of_subset (List.drop_subset k digits) h
  have hzeros : ∀ k, angles (List.replicate k '0') = [] := fun k => angles_replicate k rfl
  have hpoint : ∀ l, angles ('.' :: l) = angles l := fun l =>
    angles_cons_of_ne (by decide) (by decide)
  have hfrac : angles (if digits.length ≤ 1 then [] else '.' :: digits.drop 1) = [] := by
    split_ifs
    · rfl
    · rw [hpoint, hdrop]
  have hexp : angles (if point < 1 then ['e', '-'] else ['e', '+']) = [] := by
    split_ifs <;> rfl
  unfold pointText
  by_cases hnear : -4 < point ∧ point ≤ 16
  · rw [if_pos hnear]
    split_ifs
    · rw [angles_append, angles_append, hzeros, h]
      rfl
    · rw [angles_append, angles_append, hzeros, h]
      rfl
    · rw [angles_append, htake, hpoint, hdrop]
      rfl
  · rw [if_neg hnear, angles_append, angles_append, angles_append, htake, hfrac, hexp,
      angles_paddedDigits]
    rfl

lemma angles_reprFloat (x : PyFloat) : angles x.repr = [] := by
  cases x with
  | finite q =>
    rw [PyFloat.repr]
    by_cases hzero : q = 0
    · rw [if_pos hzero]
      rfl
    · rw [if_neg hzero]
      have hsign : angles (if q < 0 then ['-'] else []) = [] := by
        split_ifs <;> rfl
      have hdigits := angles_shortestDigits |q|
      generalize shortestDigits |q| = d at hdigits ⊢
      show angles (_ ++ pointText d.1 d.2) = []
      rw [angles_append, hsign, angles_pointText hdigits]
      rfl
  | negZero => rfl
  | infinity negative => cases negative <;> rfl
  | nan => rfl

lemma angles_toString (i : ℤ) : angles (toString i).toList = [] := by
  cases i with
  | ofNat n =>
    show angles (toString n).toList = []
    rw [toList_toString, angles_toDigits (by decide)]
  | negSucc n =>
    show angles ("-" ++ toString (n + 1)).toList = []
    rw [String.toList_append, angles_append, toList_toString, angles_toDigits (by decide)]
    rfl

/-! ### Strings -/

namespace PyValue

variable {printable : Char → Bool}

lemma angles_hexEscape {letter : Char} (h : angles [letter] = []) (width : ℕ) (c : Char) :
    angles (hexEscape letter width c) = [] := by
  rw [hexEscape, angles_cons_of_ne (by decide) (by decide), angles_cons, h,
    angles_leftpad _ rfl, angles_toDigits (by decide)]
  rfl

/-- The angle brackets are printed as they are. -/
lemma angles_reprChar (quote c : Char) : angles (reprChar printable quote c) = angles [c] := by
  have hplain : c.toNat < 32 ∨ 127 ≤ c.toNat → angles [c] = [] := by
    intro hc
    apply angles_singleton
    · rintro rfl
      exact absurd hc (by decide)
    · rintro rfl
      exact absurd hc (by decide)
  unfold reprChar
  split_ifs with hquote htab hnewline hreturn hcontrol hprintable hlatin hbasic
  · exact angles_cons_of_ne (by decide) (by decide)
  · rw [htab]
    rfl
  · rw [hnewline]
    rfl
  · rw [hreturn]
    rfl
  · rw [angles_hexEscape rfl, hplain (by omega)]
  · rfl
  · rw [angles_hexEscape rfl, hplain (by omega)]
  · rw [angles_hexEscape rfl, hplain (by omega)]
  · rw [angles_hexEscape rfl, hplain (by omega)]

lemma angles_quoteOf (s : String) : angles [quoteOf s] = [] := by
  unfold quoteOf
  split_ifs <;> rfl

/-- `repr` keeps the brackets of a string. -/
lemma angles_reprStr (s : String) : angles (reprStr printable s).toList = angles s.toList := by
  rw [reprStr, String.toList_ofList, angles_append, angles_cons, angles_quoteOf,
    angles_flatMap_eq (angles_reprChar _), List.nil_append, List.append_nil]

/-! ### Other values -/

mutual

/-- No string in the value has an angle bracket. The text of a value that no JSON text decodes to
has brackets of its own. -/
def angleFree : PyValue → Bool
  | .none => true
  | .bool _ => true
  | .int _ => true
  | .float _ => true
  | .str s => angles s.toList = []
  | .list xs => angleFreeList xs
  | .tuple xs => angleFreeList xs
  | .dict items => angleFreeItems items
  | .object _ _ => false

def angleFreeList : List PyValue → Bool
  | [] => true
  | x :: xs => angleFree x && angleFreeList xs

def angleFreeItems : List (PyValue × PyValue) → Bool
  | [] => true
  | (key, value) :: rest => angleFree key && angleFree value && angleFreeItems rest

end

/-- The brackets of texts with separators between them. -/
lemma angles_joined {before sep after : String} (hbefore : angles before.toList = [])
    (hsep : angles sep.toList = []) (hafter : angles after.toList = []) (texts : List String) :
    angles (before ++ sep.intercalate texts ++ after).toList =
      texts.flatMap fun t => angles t.toList := by
  rw [String.toList_append, String.toList_append, angles_append, angles_append, hbefore, hafter,
    String.toList_intercalate, angles_intercalate hsep, List.flatMap_map]
  simp

lemma angles_tupleText (texts : List String) :
    angles (tupleText texts).toList = texts.flatMap fun t => angles t.toList := by
  unfold tupleText
  split
  · next x =>
    rw [String.toList_append, String.toList_append, angles_append, angles_append]
    simp [angles]
  · apply angles_joined <;> rfl

mutual

/-- The text of a value has no brackets exactly if none of its strings has. -/
theorem angles_repr : (v : PyValue) → angles (repr printable v).toList = [] ↔ v.angleFree
  | .none => by
    rw [repr]
    exact iff_of_true rfl (by rw [angleFree])
  | .bool b => by
    rw [repr]
    exact iff_of_true (by cases b <;> rfl) (by rw [angleFree])
  | .int i => by
    rw [repr]
    exact iff_of_true (angles_toString i) (by rw [angleFree])
  | .float x => by
    rw [repr, String.toList_ofList]
    exact iff_of_true (angles_reprFloat x) (by rw [angleFree])
  | .str s => by
    rw [repr, angles_reprStr, angleFree, decide_eq_true_eq]
  | .list xs => by
    rw [repr, angles_joined rfl rfl rfl, angles_reprList xs, angleFree]
  | .tuple xs => by
    rw [repr, angles_tupleText, angles_reprList xs, angleFree]
  | .dict items => by
    rw [repr, angles_joined rfl rfl rfl, angles_reprItems items, angleFree]
  | .object name mapping => by
    rw [repr, String.toList_append, String.toList_append, angles_append, angles_append]
    simp [angles, angleFree]

theorem angles_reprList : (xs : List PyValue) →
    ((reprList printable xs).flatMap fun t => angles t.toList) = [] ↔ angleFreeList xs
  | [] => iff_of_true rfl rfl
  | x :: xs => by
    rw [reprList, List.flatMap_cons, List.append_eq_nil_iff, angles_repr x, angles_reprList xs,
      angleFreeList, Bool.and_eq_true]

theorem angles_reprItems : (items : List (PyValue × PyValue)) →
    ((reprItems printable items).flatMap fun t => angles t.toList) = [] ↔ angleFreeItems items
  | [] => iff_of_true rfl rfl
  | (key, value) :: rest => by
    rw [reprItems, List.flatMap_cons, List.append_eq_nil_iff, String.toList_append,
      String.toList_append, angles_append, angles_append, List.append_eq_nil_iff,
      List.append_eq_nil_iff, angles_repr key, angles_repr value, angles_reprItems rest,
      angleFreeItems, Bool.and_eq_true, Bool.and_eq_true]
    exact and_congr_left' (and_congr_left' (and_iff_left rfl))

end

lemma angles_text (v : PyValue) : angles (text printable v).toList = [] ↔ v.angleFree := by
  cases v with
  | str s => rw [text, angleFree, decide_eq_true_eq]
  | none | bool | int | float | list | tuple | dict | object => exact angles_repr _

end PyValue

/-! ### Rows -/

/-- The conversions of the language. What stays open is `json.loads`, and which characters beyond
ASCII are printable. -/
def PyText.builtin (loads : String → Loaded) (printable : Char → Bool) : PyText :=
  ⟨loads, PyValue.text printable, PyValue.fixed⟩

def rowTemplate : String := rowText "" "" "" "" "" "" ""

def Loaded.activeUsers (l : Loaded) : PyValue :=
  (PyValue.item? (l.items?.getD []) "active_users").getD (.int 0)

/-- An escaped text has no brackets. -/
lemma angles_escape (text : String) : angles (escape text).toList = [] := by
  have hchar : ∀ c : Char, angles (if c = '&' then "&amp;" else if c = '<' then "&lt;" else
      if c = '>' then "&gt;" else String.singleton c).toList = [] := by
    intro c
    split_ifs with hamp hlt hgt
    · rfl
    · rfl
    · rfl
    · rw [String.toList_singleton]
      exact angles_singleton hlt hgt
  rw [escape, String.toList_intercalate, angles_intercalate rfl, List.map_map, List.flatMap_map,
    List.flatMap_eq_nil_iff]
  intro c _
  exact hchar c

/-- The brackets of a row are those of its template and those of its cells. -/
lemma angles_rowText {a b c d e f : String} (ha : angles a.toList = []) (hb : angles b.toList = [])
    (hc : angles c.toList = []) (hd : angles d.toList = []) (he : angles e.toList = [])
    (hf : angles f.toList = []) (g : String) :
    angles (rowText a b c d e f g).toList = angles rowTemplate.toList ↔ angles g.toList = [] := by
  have hrow : ∀ a b c d e f g, rowText a b c d e f g =
      "<tbody id=\"host-status-results\" hx-swap-oob=\"beforeend\"><tr>" ++
        ("<td>" ++ a ++ "</td>") ++ ("<td>" ++ b ++ "</td>") ++
        ("<td>" ++ c ++ " / " ++ d ++ "</td>") ++ ("<td>" ++ e ++ " / " ++ f ++ "</td>") ++
        ("<td>" ++ g ++ "</td>") ++ "</tr></tbody>" := fun _ _ _ _ _ _ _ => rfl
  rw [rowTemplate, hrow, hrow]
  simp only [String.toList_append, angles_append, ha, hb, hc, hd, he, hf, String.toList_empty,
    List.nil_append, List.append_assoc, List.append_cancel_left_eq]
  exact List.append_left_eq_self

/-- The markup of a row is that of its template exactly if no string in `active_users` has an
angle bracket. -/
theorem row_markup_iff {loads : String → Loaded} {printable : Char → Bool} {body fragment : String}
    (h : renderStatusRow (.builtin loads printable) body = .ok fragment) (hrow : fragment ≠ "") :
    angles fragment.toList = angles rowTemplate.toList ↔ (loads body).activeUsers.angleFree := by
  rcases renderStatusRow_eq_ok.mp h with ⟨-, rfl⟩ | ⟨items, hitems, hfields⟩
  · exact absurd rfl hrow
  · obtain ⟨cpu, ramAvailable, ramTotal, diskAvailable, diskTotal, hcpu, hramAvailable, hramTotal,
      hdiskAvailable, hdiskTotal, rfl⟩ := statusRow_eq_ok.mp hfields
    have hitems : (loads body).items? = some items := hitems
    rw [angles_rowText (angles_escape _) (PyValue.angles_fixed hcpu)
      (PyValue.angles_fixed hramAvailable) (PyValue.angles_fixed hramTotal)
      (PyValue.angles_fixed hdiskAvailable) (PyValue.angles_fixed hdiskTotal),
      Loaded.activeUsers, hitems]
    exact PyValue.angles_text _

/-- `json.loads`, on replies with nothing but `active_users`. -/
def loadsUsers (body : String) : Loaded :=
  if body = "\x7b\"active_users\": 3\x7d" then .value (.object [("active_users", .int 3)])
  else if body = "\x7b\"active_users\": \"<script>\"\x7d" then
    .value (.object [("active_users", .str "<script>")])
  else .decodeError

theorem numberOfUsers_plain :
    angles (rowText "?" "0.0" "0.0" "0" "0.00" "0" "3").toList = angles rowTemplate.toList := by
  have h : renderStatusRow (.builtin loadsUsers fun _ => false) "\x7b\"active_users\": 3\x7d" =
      .ok (rowText "?" "0.0" "0.0" "0" "0.00" "0" "3") := by decide +kernel
  exact (row_markup_iff h (by apply rowText_ne_empty)).mpr (by decide +kernel)

/-- A string in the place of the number of users reaches the table with its brackets. -/
theorem script_injected :
    ¬ ∀ (loads : String → Loaded) (printable : Char → Bool) (body fragment : String),
      renderStatusRow (.builtin loads printable) body = .ok fragment → fragment ≠ "" →
        angles fragment.toList = angles rowTemplate.toList := by
  intro h
  have hbrackets := h loadsUsers (fun _ => false) "\x7b\"active_users\": \"<script>\"\x7d"
    (rowText "?" "0.0" "0.0" "0" "0.00" "0" "<script>") (by decide +kernel)
    (by apply rowText_ne_empty)
  rw [angles_rowText rfl rfl rfl rfl rfl rfl] at hbrackets
  exact absurd hbrackets (by decide)

end TestOrch
