import TestOrch.Core.Except
import TestOrch.Shared.Json

/-!
# Fragments of the host-status poll (`backend/services/status_render.py`)

A row for each reply, and the sentinel that closes the poll.
-/

namespace TestOrch

/-- What `json.loads` makes of a text. -/
inductive Loaded where
  /-- The value of a syntax tree; its integers are short enough to be converted. -/
  | value (j : Json)
  | decodeError
  /-- An exception that is no `JSONDecodeError`: too many digits, or too deep nesting. -/
  | raises (e : PyError)

/-- The items of a text that decodes to a dict. -/
def Loaded.items? : Loaded → Option (List (PyValue × PyValue))
  | .value j =>
    match j.decode with
    | .dict items => some items
    | _ => none
  | _ => none

/-- The built-in conversions between texts and values that a row needs. -/
structure PyText where
  /-- `json.loads`. -/
  loads : String → Loaded
  /-- `str(value)`. -/
  str : PyValue → String
  /-- `format(value, ".<n>f")`. -/
  fixed : PyValue → ℕ → Except PyError String

/-- `_escape`, in one pass. -/
def escape (text : String) : String :=
  "".intercalate (text.toList.map fun c =>
    if c = '&' then "&amp;" else if c = '<' then "&lt;" else if c = '>' then "&gt;"
    else String.singleton c)

/-- The fragment of a row with the given texts in its cells. -/
def rowText (hostId cpu ramAvailable ramTotal diskAvailable diskTotal activeUsers : String) :
    String :=
  "<tbody id=\"host-status-results\" hx-swap-oob=\"beforeend\"><tr>" ++
    s!"<td>{hostId}</td>" ++
    s!"<td>{cpu}</td>" ++
    s!"<td>{ramAvailable} / {ramTotal}</td>" ++
    s!"<td>{diskAvailable} / {diskTotal}</td>" ++
    s!"<td>{activeUsers}</td>" ++
    "</tr></tbody>"

/-- The row that `render_status_row` formats from a decoded reply. -/
def statusRow (py : PyText) (items : List (PyValue × PyValue)) : Except PyError String := do
  let get (key : String) (default : PyValue) := (PyValue.item? items key).getD default
  let cpu ← py.fixed (get "cpu_percent" (.int 0)) 1
  let ramAvailable ← py.fixed (get "ram_available_mb" (.int 0)) 1
  let ramTotal ← py.fixed (get "ram_total_mb" (.int 0)) 0
  let diskAvailable ← py.fixed (get "disk_available_gb" (.int 0)) 2
  let diskTotal ← py.fixed (get "disk_total_gb" (.int 0)) 0
  let hostId := escape (py.str (get "host_id" (.str "?")))
  let activeUsers := py.str (get "active_users" (.int 0))
  pure (rowText hostId cpu ramAvailable ramTotal diskAvailable diskTotal activeUsers)

def renderStatusRow (py : PyText) (body : String) : Except PyError String :=
  match py.loads body with
  | .decodeError => pure ""
  | .raises e => .error e
  | .value j =>
    match j.decode with
    | .dict items => statusRow py items
    | v => .error (.attributeError s!"'{v.typeName}' object has no attribute 'get'")

/-- The host that the row of a reply names; a body that is not JSON gives no row. -/
def rowHost (py : PyText) (body : String) : Option String :=
  (py.loads body).items?.map fun items =>
    py.str ((PyValue.item? items "host_id").getD (.str "?"))

def sentinelText (received total : ℕ) : String × String :=
  if total = 0 then ("No worker hosts registered to poll.", "sentinel-empty")
  else if received ≥ total then (s!"All {total} runner(s) responded.", "sentinel-ok")
  else
    let missing := total - received
    (s!"Polling complete - {received} of {total} runner(s) responded " ++
      s!"({missing} did not respond in time).", "sentinel-warn")

def renderSentinel (received total : ℕ) : String :=
  let (msg, css) := sentinelText received total
  "<div id=\"poll-sentinel\" hx-swap-oob=\"innerHTML\">" ++
    s!"<span class=\"{css}\">{msg}</span></div>"

/-- The fragment announces that all runners responded. -/
def saysAll (text : String) : Prop := "All".toList <:+: text.toList

instance (text : String) : Decidable (saysAll text) :=
  inferInstanceAs (Decidable ("All".toList <:+: text.toList))

/-! ### When a row is rendered -/

lemma rowText_ne_empty (a b c d e f g : String) : rowText a b c d e f g ≠ "" := by
  intro h
  have hend := (String.append_eq_empty_iff.mp h).2
  exact absurd hend (by decide)

/-- A row is formatted exactly if its five numbers are. -/
lemma statusRow_eq_ok {py : PyText} {items : List (PyValue × PyValue)} {fragment : String} :
    statusRow py items = .ok fragment ↔
      ∃ cpu ramAvailable ramTotal diskAvailable diskTotal,
        py.fixed ((PyValue.item? items "cpu_percent").getD (.int 0)) 1 = .ok cpu ∧
        py.fixed ((PyValue.item? items "ram_available_mb").getD (.int 0)) 1 = .ok ramAvailable ∧
        py.fixed ((PyValue.item? items "ram_total_mb").getD (.int 0)) 0 = .ok ramTotal ∧
        py.fixed ((PyValue.item? items "disk_available_gb").getD (.int 0)) 2 = .ok diskAvailable ∧
        py.fixed ((PyValue.item? items "disk_total_gb").getD (.int 0)) 0 = .ok diskTotal ∧
        rowText (escape (py.str ((PyValue.item? items "host_id").getD (.str "?")))) cpu
          ramAvailable ramTotal diskAvailable diskTotal
          (py.str ((PyValue.item? items "active_users").getD (.int 0))) = fragment := by
  unfold statusRow
  constructor
  · intro h
    obtain ⟨cpu, hcpu, h⟩ := Except.bind_eq_ok.mp h
    obtain ⟨ramAvailable, hramAvailable, h⟩ := Except.bind_eq_ok.mp h
    obtain ⟨ramTotal, hramTotal, h⟩ := Except.bind_eq_ok.mp h
    obtain ⟨diskAvailable, hdiskAvailable, h⟩ := Except.bind_eq_ok.mp h
    obtain ⟨diskTotal, hdiskTotal, h⟩ := Except.bind_eq_ok.mp h
    exact ⟨cpu, ramAvailable, ramTotal, diskAvailable, diskTotal, hcpu, hramAvailable, hramTotal,
      hdiskAvailable, hdiskTotal, Except.pure_eq_ok.mp h⟩
  · rintro ⟨cpu, ramAvailable, ramTotal, diskAvailable, diskTotal, hcpu, hramAvailable, hramTotal,
      hdiskAvailable, hdiskTotal, rfl⟩
    simp only [hcpu, hramAvailable, hramTotal, hdiskAvailable, hdiskTotal]
    rfl

lemma statusRow_ne_empty {py : PyText} {items : List (PyValue × PyValue)} {fragment : String}
    (h : statusRow py items = .ok fragment) : fragment ≠ "" := by
  obtain ⟨cpu, ramAvailable, ramTotal, diskAvailable, diskTotal, -, -, -, -, -, rfl⟩ :=
    statusRow_eq_ok.mp h
  apply rowText_ne_empty

/-- Rendering returns on a text that is not JSON, and on a dict whose row can be formatted. -/
lemma renderStatusRow_eq_ok {py : PyText} {body fragment : String} :
    renderStatusRow py body = .ok fragment ↔
      (py.loads body = .decodeError ∧ fragment = "") ∨
      ∃ items, (py.loads body).items? = some items ∧ statusRow py items = .ok fragment := by
  unfold renderStatusRow
  cases hbody : py.loads body with
  | value j => cases hj : j.decode <;> simp [Loaded.items?, hj]
  | decodeError =>
    rw [Except.pure_eq_ok, eq_comm]
    simp [Loaded.items?]
  | raises e => simp [Loaded.items?]

/-- A body for which rendering does not raise gives a row exactly if it names a host. -/
lemma renderStatusRow_ok {py : PyText} {body fragment : String}
    (h : renderStatusRow py body = .ok fragment) : fragment = "" ↔ rowHost py body = none := by
  unfold rowHost
  rcases renderStatusRow_eq_ok.mp h with ⟨hbody, rfl⟩ | ⟨items, hitems, hrow⟩
  · rw [hbody]
    exact iff_of_true rfl rfl
  · rw [hitems]
    exact iff_of_false (statusRow_ne_empty hrow) (Option.some_ne_none _)

/-! ### What the sentinel says -/

lemma saysAll.append {s : String} (h : saysAll s) (t : String) : saysAll (s ++ t) := by
  rw [saysAll, String.toList_append]
  exact h.trans (List.prefix_append _ _).isInfix

lemma saysAll.prepend {s : String} (h : saysAll s) (t : String) : saysAll (t ++ s) := by
  rw [saysAll, String.toList_append]
  exact h.trans (List.suffix_append _ _).isInfix

lemma toList_toString (n : ℕ) : (toString n).toList = Nat.toDigits 10 n := by
  simp

lemma renderSentinel_eq (received total : ℕ) :
    renderSentinel received total = "<div id=\"poll-sentinel\" hx-swap-oob=\"innerHTML\">" ++
      ("<span class=\"" ++ (sentinelText received total).2 ++ "\">" ++
        (sentinelText received total).1 ++ "</span></div>") := rfl

lemma sentinelText_all {received total : ℕ} (h₀ : 0 < total) (h : total ≤ received) :
    sentinelText received total =
      ("All " ++ toString total ++ " runner(s) responded.", "sentinel-ok") := by
  rw [sentinelText, if_neg (by omega), if_pos h]
  rfl

lemma sentinelText_missing {received total : ℕ} (h : received < total) :
    sentinelText received total =
      ("Polling complete - " ++ toString received ++ " of " ++ toString total ++
        " runner(s) responded " ++
        ("(" ++ toString (total - received) ++ " did not respond in time)."), "sentinel-warn") := by
  rw [sentinelText, if_neg (by omega), if_neg (by omega)]
  rfl

lemma A_not_mem_toString (n : ℕ) : 'A' ∉ (toString n).toList := by
  rw [toList_toString]
  intro h
  have hdigit := Nat.isDigit_of_mem_toDigits (by decide) (by decide) h
  revert hdigit
  decide

/-- The sentinel says "All" exactly when there are hosts and as many replies. -/
lemma saysAll_renderSentinel {received total : ℕ} :
    saysAll (renderSentinel received total) ↔ 0 < total ∧ total ≤ received := by
  constructor
  · intro h
    have hA : 'A' ∈ (renderSentinel received total).toList := h.subset (by decide)
    by_contra hno
    rw [renderSentinel_eq] at hA
    -- without "All" the text has no capital A
    rcases Nat.eq_zero_or_pos total with rfl | h₀
    · rw [sentinelText, if_pos rfl] at hA
      simp only [String.toList_append, List.mem_append] at hA
      revert hA
      decide
    · have hlt : received < total := by omega
      rw [sentinelText_missing hlt] at hA
      simp only [String.toList_append, List.mem_append, A_not_mem_toString] at hA
      revert hA
      decide
  · rintro ⟨h₀, h⟩
    rw [renderSentinel_eq, sentinelText_all h₀ h]
    have hall : saysAll "All " := by decide
    have hmsg : saysAll ("All " ++ toString total ++ " runner(s) responded.") :=
      (hall.append _).append _
    exact ((hmsg.prepend _).append _).prepend _

/-- A number that is written before a space is determined by the text. -/
lemma toString_append_space_inj {n m : ℕ} {s t : List Char}
    (h : (toString n).toList ++ ' ' :: s = (toString m).toList ++ ' ' :: t) : n = m := by
  have hdigits : ∀ (k : ℕ) (u : List Char),
      ((toString k).toList ++ ' ' :: u).takeWhile Char.isDigit = Nat.toDigits 10 k := by
    intro k u
    rw [toList_toString, List.takeWhile_append_of_pos]
    · simp
    · intro c hc
      exact Nat.isDigit_of_mem_toDigits (by decide) (by decide) hc
  have hd : Nat.toDigits 10 n = Nat.toDigits 10 m := by
    rw [← hdigits n s, ← hdigits m t, h]
  have hval := congrArg (fun l => Nat.ofDigitChars 10 l 0) hd
  simpa [Nat.ofDigitChars_toDigits] using hval

lemma renderSentinel_partial_inj {n m total : ℕ} (hn : n < total) (hm : m < total)
    (h : renderSentinel n total = renderSentinel m total) : n = m := by
  rw [renderSentinel_eq, renderSentinel_eq, sentinelText_missing hn, sentinelText_missing hm] at h
  have h := congrArg String.toList h
  simp only [String.toList_append, List.append_assoc, List.append_cancel_left_eq] at h
  exact toString_append_space_inj h

/-- Of two sentinels with one text, both name the same number of replies, if less than all. -/
lemma min_eq_of_renderSentinel {n m total : ℕ}
    (h : renderSentinel n total = renderSentinel m total) : min n total = min m total := by
  have hall : (0 < total ∧ total ≤ n) ↔ (0 < total ∧ total ≤ m) := by
    rw [← saysAll_renderSentinel, ← saysAll_renderSentinel, h]
  by_cases hn : n < total
  · have hm : m < total := by omega
    rw [renderSentinel_partial_inj hn hm h]
  · omega

end TestOrch
