import Mathlib.Data.Int.Interval
import Mathlib.Data.List.Sort
import TestOrch.Core.Except
import TestOrch.Core.Table
import TestOrch.Shared.Json
import TestOrch.Shared.PyFormat
import TestOrch.Shared.Validation

/-!
# Log lines in InfluxDB (`backend/services/influx_client.py`)

A line is written as a point with its test as a tag and a timestamp from the server. InfluxDB knows
a point by its measurement, its tags and its timestamp, so of two lines of one test that get the
same timestamp only the later one is kept. The lines of a test are read by a query into which its
id is pasted; what a query answers is open, except for the one that is meant. The client neither
stores every id as it is, nor gives every content back as it was.
-/

namespace TestOrch

def measurement : String := "test_log"

/-- A point of the measurement, with the tag `test_id` as it is stored and a timestamp in
nanoseconds. -/
structure LogPoint where
  testId : String
  lineNo : ℤ
  content : String
  time : ℤ
  deriving DecidableEq, Repr

/-- What a point of the measurement is known by. -/
def LogPoint.key (p : LogPoint) : String × ℤ := (p.testId, p.time)

abbrev LogBucket := Table LogPoint.key

/-- What the client makes of a row of an answer. -/
structure FluxRecord where
  lineNo : ℤ
  content : Option String
  deriving DecidableEq, Repr

/-- The client reads an empty text as `None`. -/
def LogPoint.record (p : LogPoint) : FluxRecord :=
  ⟨p.lineNo, if p.content = "" then none else some p.content⟩

/-- A query at the time `now`; the answer is a list of tables. -/
abbrev Flux := (now : ℤ) → (text : String) → LogBucket → Except PyError (List (List FluxRecord))

/-- What is stored for a character of a tag. Spaces, commas and equals signs are escaped on the way
and arrive as they are; what the client writes for these three is no escape to the server. -/
def tagChar (c : Char) : List Char :=
  if c = '\t' then ['\\', 't']
  else if c = '\n' then ['\\', 'n']
  else if c = '\r' then ['\\', 'r']
  else [c]

/-- What is stored for a tag, `Point.tag`. After a backslash at the end the client writes a space,
and the two arrive as an escaped space. -/
def tagValue (value : String) : String :=
  let chars := value.toList
  if chars.getLast? = some '\\' then String.ofList (chars.dropLast.flatMap tagChar ++ [' '])
  else String.ofList (chars.flatMap tagChar)

section Source

def requireLineNo (printable : Char → Bool) (lineNo : PyValue) : Except PyError ℤ :=
  match lineNo with
  | .int i =>
    if 0 ≤ i then .ok i else .error (.valueError s!"line_no must be an int >= 0, got {i}")
  | v =>
    let text := PyValue.repr printable v
    .error (.valueError s!"line_no must be an int >= 0, got {text}")

/-- `write_line`; the server assigns the timestamp. -/
def writeLine (printable : Char → Bool) (testId lineNo content : PyValue) (time : ℤ)
    (b : LogBucket) : Except PyError LogBucket := do
  let testId ← requireNonEmptyStr testId "test_id"
  let lineNo ← requireLineNo printable lineNo
  match content with
  | .str s => pure (b.put ⟨tagValue testId, lineNo, s, time⟩)
  | v => .error (.typeError s!"content must be a str, got {v.typeName}")

/-- The query up to the id of the test. -/
def fluxBefore (bucket : String) : String :=
  "\n        from(bucket: \"" ++ bucket ++ "\")\n" ++
    "          |> range(start: -30d)\n" ++
    "          |> filter(fn: (r) => r._measurement == \"" ++ measurement ++ "\")\n" ++
    "          |> filter(fn: (r) => r.test_id == \""

/-- The query between the id and the limit. -/
def fluxMiddle : String :=
  "\")\n" ++
    "          |> pivot(rowKey: [\"_time\"], columnKey: [\"_field\"], valueColumn: \"_value\")\n" ++
    "          |> sort(columns: [\"line_no\"])\n" ++
    "          |> limit(n: "

def fluxText (bucket testId : String) (limit : ℤ) : String :=
  fluxBefore bucket ++ testId ++ fluxMiddle ++ toString limit ++ ")\n        "

/-- The f-string of `read_lines`; it raises if the limit has too many digits. -/
def fluxQuery (bucket testId : String) (limit : ℤ) : Except PyError String :=
  if printable limit then .ok (fluxText bucket testId limit) else .error tooManyDigits

/-- `read_lines`, at the time `now`. -/
def readLines (flux : Flux) (bucket : String) (now : ℤ) (b : LogBucket)
    (testId limit : PyValue) : Except PyError (List (Option String)) := do
  let testId ← requireNonEmptyStr testId "test_id"
  let limit ← requirePositiveInt limit "limit"
  let text ← fluxQuery bucket testId limit
  let tables ← flux now text b
  pure (tables.flatten.map FluxRecord.content)

end Source

/-! ### What is documented of the database -/

/-- Thirty days in nanoseconds. -/
def thirtyDays : ℤ := 30 * 24 * 60 * 60 * 1000000000

def InRange (now time : ℤ) : Prop := now - thirtyDays ≤ time ∧ time < now

instance (now time : ℤ) : Decidable (InRange now time) := inferInstanceAs (Decidable (_ ∧ _))

/-- Between double quotes the text is a string literal that stands for itself: it does not end
early, and has no escapes and no interpolation. -/
def PlainLiteral (text : String) : Prop :=
  '"' ∉ text.toList ∧ '\\' ∉ text.toList ∧ ¬ ['$', '{'] <:+: text.toList

instance (text : String) : Decidable (PlainLiteral text) := inferInstanceAs (Decidable (_ ∧ _))

/-- The largest integer of a query is less. -/
def fluxIntBound : ℤ := 9223372036854775808

/-- The points that a query for the tag `testId` selects. -/
def LogBucket.select (b : LogBucket) (now : ℤ) (testId : String) : List LogPoint :=
  b.rows.filter fun p => p.testId = testId ∧ InRange now p.time

/-- The query that is meant gives the records of the selected points in the order of their line
numbers, up to the limit. -/
def FluxReads (bucket : String) (flux : Flux) : Prop :=
  ∀ (now : ℤ) (b : LogBucket) (testId : String) (limit : ℤ),
    PlainLiteral testId → 0 < limit → limit < fluxIntBound →
    ∃ (tables : List (List FluxRecord)) (rows : List LogPoint),
      flux now (fluxText bucket testId limit) b = .ok tables ∧
      tables.flatten = (rows.take limit.toNat).map LogPoint.record ∧
      rows.Perm (b.select now testId) ∧
      rows.Pairwise fun p q => p.lineNo ≤ q.lineNo

/-! ### Histories -/

/-- A call of `write_line` that is accepted, and the timestamp it gets. -/
structure LogWrite where
  testId : NonEmptyStr
  lineNo : ℕ
  content : String
  time : ℤ

def LogWrite.point (w : LogWrite) : LogPoint := ⟨tagValue w.testId, w.lineNo, w.content, w.time⟩

/-- The calls, one after the other, on an empty bucket. -/
def writeAll (printable : Char → Bool) (writes : List LogWrite) : Except PyError LogBucket :=
  writes.foldlM (fun b w =>
    writeLine printable (.str w.testId) (.int w.lineNo) (.str w.content) w.time b) (.empty _)

def linesOf (writes : List LogWrite) (testId : NonEmptyStr) : List LogWrite :=
  writes.filter fun w => w.testId = testId

/-- The calls for one test in the order of the line numbers. -/
def sortedLinesOf (writes : List LogWrite) (testId : NonEmptyStr) : List LogWrite :=
  (linesOf writes testId).mergeSort fun v w => v.lineNo ≤ w.lineNo

def history (writes : List LogWrite) (testId : NonEmptyStr) : List String :=
  (sortedLinesOf writes testId).map LogWrite.content

/-- Under every limit that a query can state, reading the lines of the test gives the history up to
the limit. -/
def HistoryRead (flux : Flux) (bucket : String) (printable : Char → Bool) (now : ℤ)
    (writes : List LogWrite) (testId : NonEmptyStr) : Prop :=
  ∀ limit : ℤ, 0 < limit → limit < fluxIntBound →
    (writeAll printable writes >>= fun b =>
      readLines flux bucket now b (.str testId) (.int limit)) =
        .ok (((history writes testId).take limit.toNat).map some)

/-- The text has none of the characters that are stored as two. -/
def PlainTag (text : String) : Prop :=
  '\t' ∉ text.toList ∧ '\n' ∉ text.toList ∧ '\r' ∉ text.toList

instance (text : String) : Decidable (PlainTag text) := inferInstanceAs (Decidable (_ ∧ _))

/-- No line of another test is stored under the id. -/
def OwnTag (writes : List LogWrite) (testId : NonEmptyStr) : Prop :=
  ∀ w ∈ writes, tagValue w.testId = testId → w.testId = testId

instance (writes : List LogWrite) (testId : NonEmptyStr) : Decidable (OwnTag writes testId) :=
  inferInstanceAs (Decidable (∀ _ ∈ _, _))

/-- Sorting by a key. -/
lemma pairwise_mergeSort_key {α κ : Type*} [LinearOrder κ] (key : α → κ) (l : List α) :
    (l.mergeSort fun a b => key a ≤ key b).Pairwise fun a b => key a ≤ key b := by
  have hle : ∀ a b, decide (key a ≤ key b) = true ↔ key a ≤ key b := fun _ _ => decide_eq_true_iff
  refine (List.pairwise_mergeSort ?_ ?_ l).imp (fun h => (hle _ _).mp h)
  · intro a b c hab hbc
    rw [hle] at hab hbc ⊢
    exact hab.trans hbc
  · intro a b
    rw [Bool.or_eq_true, hle, hle]
    exact le_total _ _

/-- The history of the test is read, whatever the database answers to the queries that are not
meant. -/
def HistoryKept (bucket : String) (printable : Char → Bool) (now : ℤ) (writes : List LogWrite)
    (testId : NonEmptyStr) : Prop :=
  ∀ flux, FluxReads bucket flux → HistoryRead flux bucket printable now writes testId

/-- Of the points that are written under the id, those that no later one overwrites. -/
def pointsLeft (writes : List LogWrite) (testId : NonEmptyStr) : List LogPoint :=
  ((writes.map LogWrite.point).filter fun p => p.testId = testId.val).pwFilter
    fun p q => p.key ≠ q.key

/-- The points that are left under the id have the contents of the history, whichever comes first of
those with one line number. -/
def Unmixed (writes : List LogWrite) (testId : NonEmptyStr) : Prop :=
  ∀ rows : List LogPoint, rows.Perm (pointsLeft writes testId) →
    (rows.Pairwise fun p q => p.lineNo ≤ q.lineNo) →
    rows.map LogPoint.content = history writes testId

/-! ### Tags -/

lemma tagChar_of_ne {c : Char} (htab : c ≠ '\t') (hfeed : c ≠ '\n') (hreturn : c ≠ '\r') :
    tagChar c = [c] := by
  simp [tagChar, htab, hfeed, hreturn]

/-- A character is stored as it is or with a backslash. -/
lemma tagChar_cases (c : Char) : tagChar c = [c] ∨ '\\' ∈ tagChar c := by
  unfold tagChar
  split_ifs
  · exact .inr List.mem_cons_self
  · exact .inr List.mem_cons_self
  · exact .inr List.mem_cons_self
  · exact .inl rfl

/-- Nothing that is stored for a character is a tab, a line feed or a carriage return. -/
lemma ne_of_mem_tagChar {c d : Char} (h : d ∈ tagChar c) : d ≠ '\t' ∧ d ≠ '\n' ∧ d ≠ '\r' := by
  unfold tagChar at h
  split_ifs at h with htab hfeed hreturn
  all_goals
    simp only [List.mem_cons, List.not_mem_nil, or_false] at h
  · rcases h with rfl | rfl <;> decide
  · rcases h with rfl | rfl <;> decide
  · rcases h with rfl | rfl <;> decide
  · rw [h]
    exact ⟨htab, hfeed, hreturn⟩

lemma plainTag_tagValue (value : String) : PlainTag (tagValue value) := by
  have hmem : ∀ c ∈ (tagValue value).toList, c ≠ '\t' ∧ c ≠ '\n' ∧ c ≠ '\r' := by
    intro c hc
    unfold tagValue at hc
    dsimp only at hc
    split_ifs at hc
    · rw [String.toList_ofList, List.mem_append, List.mem_singleton] at hc
      rcases hc with hc | rfl
      · obtain ⟨_, -, hc⟩ := List.mem_flatMap.mp hc
        exact ne_of_mem_tagChar hc
      · decide
    · rw [String.toList_ofList] at hc
      obtain ⟨_, -, hc⟩ := List.mem_flatMap.mp hc
      exact ne_of_mem_tagChar hc
  exact ⟨fun h => (hmem _ h).1 rfl, fun h => (hmem _ h).2.1 rfl, fun h => (hmem _ h).2.2 rfl⟩

/-- An id without these characters and without a backslash is stored as it is. -/
lemma tagValue_eq_self {value : String} (h : PlainTag value) (hslash : '\\' ∉ value.toList) :
    tagValue value = value := by
  have hlast : value.toList.getLast? ≠ some '\\' :=
    fun hlast => hslash (List.mem_of_getLast? hlast)
  have hchars : value.toList.flatMap tagChar = value.toList := by
    calc value.toList.flatMap tagChar = value.toList.flatMap fun c => [c] := by
          apply List.flatMap_congr
          intro c hc
          exact tagChar_of_ne (fun heq => h.1 (heq ▸ hc)) (fun heq => h.2.1 (heq ▸ hc))
            fun heq => h.2.2 (heq ▸ hc)
      _ = value.toList := List.flatMap_singleton' _
  unfold tagValue
  dsimp only
  rw [if_neg hlast, hchars, String.ofList_toList]

/-- A tag without a backslash is that of an id which is stored as it is, or of one that ends in a
backslash. -/
lemma eq_or_getLast?_of_tagValue {value tag : String} (h : tagValue value = tag)
    (hslash : '\\' ∉ tag.toList) : value = tag ∨ tag.toList.getLast? = some ' ' := by
  unfold tagValue at h
  dsimp only at h
  split_ifs at h
  · right
    rw [← h, String.toList_ofList, List.getLast?_append]
    rfl
  · left
    have hplain : ∀ c ∈ value.toList, tagChar c = [c] := by
      intro c hc
      refine (tagChar_cases c).resolve_right fun hmem => hslash ?_
      rw [← h, String.toList_ofList]
      exact List.mem_flatMap.mpr ⟨c, hc, hmem⟩
    rw [← h, List.flatMap_congr hplain, List.flatMap_singleton', String.ofList_toList]

/-- An id with a backslash at its end is stored like the one with a space in its place. -/
lemma tagValue_slash (x : String) : tagValue (x ++ "\\") = tagValue (x ++ " ") := by
  have hslash : (x ++ "\\").toList = x.toList ++ ['\\'] := String.toList_append
  have hspace : (x ++ " ").toList = x.toList ++ [' '] := String.toList_append
  have hchar : tagChar ' ' = [' '] := by decide
  unfold tagValue
  dsimp only
  rw [hslash, hspace, if_pos List.getLast?_concat, if_neg (by simp), List.dropLast_concat,
    List.flatMap_append, List.flatMap_singleton, hchar]

/-- Only the id that has a backslash in the place of a space at the end is stored under the same
tag. -/
lemma ownTag_of_getLast? {writes : List LogWrite} {testId : NonEmptyStr}
    (hplain : PlainLiteral testId) (hspace : testId.val.toList.getLast? ≠ some ' ') :
    OwnTag writes testId := by
  intro w _ htag
  exact Subtype.ext ((eq_or_getLast?_of_tagValue htag hplain.2.1).resolve_right hspace)

section Reading

variable {flux : Flux} {bucket : String} {printable : Char → Bool} {now : ℤ}
  {writes : List LogWrite} {testId : NonEmptyStr}

lemma writeLine_accepted (w : LogWrite) (b : LogBucket) :
    writeLine printable (.str w.testId) (.int w.lineNo) (.str w.content) w.time b =
      .ok (b.put w.point) := by
  rw [writeLine, requireNonEmptyStr_str, requireLineNo, if_pos (Int.natCast_nonneg _)]
  rfl

/-- The calls store what they write, each in the place of a point that is known by the same. -/
lemma writeAll_eq :
    writeAll printable writes = .ok ((Table.empty _).putAll (writes.map LogWrite.point)) := by
  have hrun : ∀ b : LogBucket, writes.foldlM (fun b w =>
      writeLine printable (.str w.testId) (.int w.lineNo) (.str w.content) w.time b) b =
        .ok (b.putAll (writes.map LogWrite.point)) := by
    induction writes with
    | nil => exact fun _ => rfl
    | cons w writes ih =>
      intro b
      rw [List.foldlM_cons, writeLine_accepted, List.map_cons, Table.putAll_cons]
      exact ih _
  exact hrun _

/-- The limit of a query is short enough to be pasted. -/
lemma printable_of_lt {i : ℤ} (h₀ : 0 < i) (h : i < fluxIntBound) :
    TestOrch.printable i = true := by
  have hless : i.natAbs < fluxIntBound.natAbs := by
    unfold fluxIntBound at h ⊢
    omega
  have hbound : fluxIntBound.natAbs ≤ Nat.pow 10 19 := by decide
  exact printable_of_natAbs_lt (hless.trans_le hbound)

lemma readLines_eq (b : LogBucket) {limit : ℤ} (h₀ : 0 < limit) (h : limit < fluxIntBound) :
    readLines flux bucket now b (.str testId) (.int limit) =
      (flux now (fluxText bucket testId limit) b >>= fun tables =>
        pure (tables.flatten.map FluxRecord.content)) := by
  have hlimit : requirePositiveInt (.int limit) "limit" = .ok ⟨limit, h₀⟩ := by
    rw [requirePositiveInt, dif_pos h₀]
  have hquery : fluxQuery bucket testId limit = .ok (fluxText bucket testId limit) := by
    rw [fluxQuery, if_pos (printable_of_lt h₀ h)]
  rw [readLines, requireNonEmptyStr_str, hlimit, Except.ok_bind, Except.ok_bind, hquery,
    Except.ok_bind]

/-- What a query for the id selects after the calls. -/
lemma select_putAll (hrange : ∀ w ∈ writes, InRange now w.time) :
    LogBucket.select ((Table.empty _).putAll (writes.map LogWrite.point)) now testId =
      pointsLeft writes testId := by
  have hkey : ∀ p q : LogPoint, p.key = q.key →
      decide (p.testId = testId.val) = decide (q.testId = testId.val) := by
    intro p q h
    rw [show p.testId = q.testId from congrArg Prod.fst h]
  rw [pointsLeft, ← Table.rows_putAll_empty,
    ← Table.filter_rows_putAll hkey (t := Table.empty _) _ rfl, LogBucket.select]
  apply List.filter_congr
  intro p hp
  have hin : InRange now p.time := by
    rcases Table.mem_putAll hp with h | h
    · cases h
    · obtain ⟨w, hw, rfl⟩ := List.mem_map.mp h
      exact hrange w hw
  simp [hin]

/-- The query that is meant, for the bucket that the calls leave. -/
lemma readLines_putAll {limit : ℤ} (h₀ : 0 < limit) (h : limit < fluxIntBound) :
    (writeAll printable writes >>= fun b =>
      readLines flux bucket now b (.str testId) (.int limit)) =
        (flux now (fluxText bucket testId limit)
          ((Table.empty _).putAll (writes.map LogWrite.point)) >>= fun tables =>
            pure (tables.flatten.map FluxRecord.content)) := by
  rw [writeAll_eq, Except.ok_bind, readLines_eq _ h₀ h]

/-! ### The points that are left -/

lemma mem_pointsLeft {p : LogPoint} (h : p ∈ pointsLeft writes testId) :
    ∃ w ∈ writes, w.point = p ∧ tagValue w.testId = testId := by
  obtain ⟨hp, htag⟩ := List.mem_filter.mp (List.pwFilter_subset _ h)
  obtain ⟨w, hw, rfl⟩ := List.mem_map.mp hp
  exact ⟨w, hw, rfl, of_decide_eq_true htag⟩

lemma testId_of_mem_pointsLeft {p : LogPoint} (h : p ∈ pointsLeft writes testId) :
    p.testId = testId := by
  obtain ⟨w, -, rfl, htag⟩ := mem_pointsLeft h
  exact htag

/-- Points under one tag are known by their timestamps. -/
lemma nodup_keys_iff {points : List LogPoint} {tag : String} (h : ∀ p ∈ points, p.testId = tag) :
    (points.map LogPoint.key).Nodup ↔ (points.map LogPoint.time).Nodup := by
  have hkeys : points.map LogPoint.key =
      (points.map LogPoint.time).map fun time => (tag, time) := by
    rw [List.map_map]
    apply List.map_congr_left
    intro p hp
    exact congrArg (·, p.time) (h p hp)
  rw [hkeys, List.nodup_map_iff]
  intro a b hab
  exact congrArg Prod.snd hab

/-- In thirty days there are not more timestamps than a limit can count. -/
lemma length_lt_of_inRange (now : ℤ) {points : List LogPoint}
    (hnodup : (points.map LogPoint.time).Nodup) (hrange : ∀ p ∈ points, InRange now p.time) :
    points.length < (fluxIntBound - 1).toNat := by
  have hsub : (points.map LogPoint.time).toFinset ⊆ Finset.Ico (now - thirtyDays) now := by
    intro time htime
    rw [List.mem_toFinset, List.mem_map] at htime
    obtain ⟨p, hp, rfl⟩ := htime
    exact Finset.mem_Ico.mpr (hrange p hp)
  have hcard := Finset.card_le_card hsub
  rw [List.toFinset_card_of_nodup hnodup, List.length_map, Int.card_Ico] at hcard
  unfold thirtyDays at hcard
  unfold fluxIntBound
  omega

lemma length_pointsLeft_lt (testId : NonEmptyStr) (hrange : ∀ w ∈ writes, InRange now w.time) :
    (pointsLeft writes testId).length < (fluxIntBound - 1).toNat := by
  apply length_lt_of_inRange now
  · rw [← nodup_keys_iff fun _ => testId_of_mem_pointsLeft, List.Nodup, List.pairwise_map]
    exact List.pairwise_pwFilter _
  · intro p hp
    obtain ⟨w, hw, rfl, -⟩ := mem_pointsLeft hp
    exact hrange w hw

/-- Nothing is stored under an id with a tab, a line feed or a carriage return. -/
lemma pointsLeft_eq_nil (htag : ¬ PlainTag testId) : pointsLeft writes testId = [] := by
  rw [List.eq_nil_iff_forall_not_mem]
  intro p hp
  obtain ⟨w, -, -, hstored⟩ := mem_pointsLeft hp
  exact htag (hstored ▸ plainTag_tagValue w.testId)

def pointsOf (writes : List LogWrite) (testId : NonEmptyStr) : List LogPoint :=
  (linesOf writes testId).map LogWrite.point

lemma nodup_keys_pointsOf : ((pointsOf writes testId).map LogPoint.key).Nodup ↔
    ((linesOf writes testId).map LogWrite.time).Nodup := by
  have htimes : (pointsOf writes testId).map LogPoint.time =
      (linesOf writes testId).map LogWrite.time := by
    rw [pointsOf, List.map_map]
    rfl
  rw [← htimes]
  apply nodup_keys_iff
  intro p hp
  obtain ⟨w, hw, rfl⟩ := List.mem_map.mp hp
  exact congrArg tagValue (congrArg Subtype.val (of_decide_eq_true (List.mem_filter.mp hw).2))

/-- If only lines of the test are stored under its id, its points overwrite each other alone. -/
lemma pointsLeft_of_ownTag (hown : OwnTag writes testId) (hplain : PlainLiteral testId)
    (htag : linesOf writes testId = [] ∨ PlainTag testId) :
    pointsLeft writes testId = (pointsOf writes testId).pwFilter fun p q => p.key ≠ q.key := by
  have hfilter : ((writes.map LogWrite.point).filter fun p => p.testId = testId.val) =
      pointsOf writes testId := by
    rw [pointsOf, linesOf, List.filter_map]
    congr 1
    apply List.filter_congr
    intro w hw
    rw [Function.comp_apply, decide_eq_decide]
    constructor
    · exact hown w hw
    · rintro rfl
      rcases htag with hnone | htag
      · have hmem : w ∈ linesOf writes w.testId := List.mem_filter.mpr ⟨hw, decide_eq_true rfl⟩
        rw [hnone] at hmem
        cases hmem
      · exact tagValue_eq_self htag hplain.2.1
  rw [pointsLeft, hfilter]

lemma pairwise_sortedLinesOf :
    (sortedLinesOf writes testId).Pairwise fun v w => v.lineNo ≤ w.lineNo :=
  pairwise_mergeSort_key LogWrite.lineNo _

/-- There is only one order of the points of a test by their line numbers. -/
lemma content_of_sorted (hnumbers : ((linesOf writes testId).map LogWrite.lineNo).Nodup)
    {rows : List LogPoint} (hperm : rows.Perm (pointsOf writes testId))
    (hsorted : rows.Pairwise fun p q => p.lineNo ≤ q.lineNo) :
    rows.map LogPoint.content = history writes testId := by
  have hother : ((sortedLinesOf writes testId).map LogWrite.point).Pairwise
      fun p q => p.lineNo ≤ q.lineNo := by
    rw [List.pairwise_map]
    exact pairwise_sortedLinesOf.imp fun h => Int.ofNat_le.mpr h
  have hsame : rows.Perm ((sortedLinesOf writes testId).map LogWrite.point) :=
    hperm.trans ((List.mergeSort_perm _ _).map _).symm
  have hpoints : rows = (sortedLinesOf writes testId).map LogWrite.point := by
    refine hsame.eq_of_pairwise ?_ hsorted hother
    intro p q hp hq hpq hqp
    obtain ⟨v, hv, rfl⟩ := List.mem_map.mp (hperm.subset hp)
    obtain ⟨w, hw, rfl⟩ := List.mem_map.mp (hperm.subset (hsame.symm.subset hq))
    have hnumber : v.lineNo = w.lineNo := Int.ofNat_inj.mp (le_antisymm hpq hqp)
    rw [List.inj_on_of_nodup_map hnumbers hv hw hnumber]
  rw [hpoints, List.map_map]
  rfl

lemma length_history : (history writes testId).length = (linesOf writes testId).length := by
  rw [history, List.length_map, sortedLinesOf, List.length_mergeSort]

lemma mem_history {content : String} :
    content ∈ history writes testId ↔ ∃ w ∈ linesOf writes testId, w.content = content := by
  rw [history, List.mem_map]
  simp only [sortedLinesOf, List.mem_mergeSort]

/-- As many points are left as the test has lines. -/
lemma Unmixed.length (h : Unmixed writes testId) :
    (pointsLeft writes testId).length = (linesOf writes testId).length := by
  have hsorted := h ((pointsLeft writes testId).mergeSort fun p q => p.lineNo ≤ q.lineNo)
    (List.mergeSort_perm _ _) (pairwise_mergeSort_key LogPoint.lineNo _)
  have hlength := congrArg List.length hsorted
  rwa [List.length_map, List.length_mergeSort, length_history] at hlength

/-- Where only lines of the test are stored under its id, that is its history if they are stored
there and have different timestamps. -/
lemma unmixed_iff (hnumbers : ((linesOf writes testId).map LogWrite.lineNo).Nodup)
    (hown : OwnTag writes testId) (hplain : PlainLiteral testId) :
    Unmixed writes testId ↔ (linesOf writes testId = [] ∨ PlainTag testId) ∧
      ((linesOf writes testId).map LogWrite.time).Nodup := by
  constructor
  · intro h
    have htag : linesOf writes testId = [] ∨ PlainTag testId := by
      by_cases htag : PlainTag testId
      · exact .inr htag
      · have hlength := h.length
        rw [pointsLeft_eq_nil htag] at hlength
        exact .inl (List.length_eq_zero_iff.mp hlength.symm)
    refine ⟨htag, ?_⟩
    rw [← nodup_keys_pointsOf, ← Table.pwFilter_eq_self_iff]
    apply (List.pwFilter_sublist _).eq_of_length
    rw [← pointsLeft_of_ownTag hown hplain htag, h.length, pointsOf, List.length_map]
  · rintro ⟨htag, htimes⟩ rows hperm hsorted
    rw [pointsLeft_of_ownTag hown hplain htag,
      Table.pwFilter_eq_self_iff.mpr (nodup_keys_pointsOf.mpr htimes)] at hperm
    exact content_of_sorted hnumbers hperm hsorted

lemma content_record_eq_some {p : LogPoint} {content : String} :
    p.record.content = some content ↔ p.content = content ∧ content ≠ "" := by
  rw [LogPoint.record, Option.ite_none_left_eq_some, Option.some.injEq]
  constructor
  · rintro ⟨hne, rfl⟩
    exact ⟨rfl, hne⟩
  · rintro ⟨rfl, hne⟩
    exact ⟨hne, rfl⟩

/-- Texts come back as they were exactly if none of them is empty. -/
lemma map_content_record {rows : List LogPoint} {contents : List String} :
    (rows.map fun p => p.record.content) = contents.map some ↔
      rows.map LogPoint.content = contents ∧ ∀ content ∈ contents, content ≠ "" := by
  induction rows generalizing contents with
  | nil => cases contents <;> simp
  | cons p rows ih =>
    cases contents with
    | nil => simp
    | cons content contents =>
      simp only [List.map_cons, List.cons.injEq, ih, List.forall_mem_cons, content_record_eq_some]
      exact and_and_and_comm

/-- A history that is not mixed up is read. -/
lemma Unmixed.historyRead (h : Unmixed writes testId) (hflux : FluxReads bucket flux)
    (hrange : ∀ w ∈ writes, InRange now w.time) (hplain : PlainLiteral testId)
    (hcontent : ∀ w ∈ linesOf writes testId, w.content ≠ "") :
    HistoryRead flux bucket printable now writes testId := by
  intro limit h₀ hlimit
  obtain ⟨tables, rows, htables, hrows, hperm, hsorted⟩ :=
    hflux now ((Table.empty _).putAll (writes.map LogWrite.point)) testId limit hplain h₀ hlimit
  rw [select_putAll hrange] at hperm
  have hrecords : (rows.map fun p => p.record.content) = (history writes testId).map some := by
    refine map_content_record.mpr ⟨h rows hperm hsorted, fun content hmem => ?_⟩
    obtain ⟨w, hw, rfl⟩ := mem_history.mp hmem
    exact hcontent w hw
  have htake : ((rows.take limit.toNat).map LogPoint.record).map FluxRecord.content =
      ((history writes testId).take limit.toNat).map some := by
    rw [List.map_map, List.map_take, List.map_take, ← hrecords]
    rfl
  rw [readLines_putAll h₀ hlimit, htables, Except.ok_bind, hrows, htake]
  rfl

end Reading

/-- Two lines of a test with one timestamp leave the same bucket as the second of them alone. -/
lemma writeAll_sharedTime (printable : Char → Bool) (v w : LogWrite)
    (h : v.point.key = w.point.key) : writeAll printable [v, w] = writeAll printable [w] := by
  rw [writeAll_eq, writeAll_eq]
  simp [Table.putAll, Table.put, Table.erase, Table.append, Table.empty, h]

/-- Whatever the database answers, and for whichever test, some history is not read: of two
histories that leave the same bucket only one can be. -/
theorem exists_not_historyRead (flux : Flux) (bucket : String) (printable : Char → Bool) (now : ℤ)
    (testId : NonEmptyStr) : ∃ writes : List LogWrite, (∀ w ∈ writes, InRange now w.time) ∧
      ((linesOf writes testId).map LogWrite.lineNo).Nodup ∧
      ¬ HistoryRead flux bucket printable now writes testId := by
  have hin : InRange now (now - 1) := by
    unfold InRange thirtyDays
    omega
  by_contra hno
  push Not at hno
  have hboth := hno [⟨testId, 0, "a", now - 1⟩, ⟨testId, 1, "b", now - 1⟩] (by simpa using hin)
    (by simp [linesOf]) 1 (by decide) (by decide)
  have hlast := hno [⟨testId, 1, "b", now - 1⟩] (by simpa using hin) (by simp [linesOf]) 1
    (by decide) (by decide)
  have hsame := writeAll_sharedTime printable ⟨testId, 0, "a", now - 1⟩
    ⟨testId, 1, "b", now - 1⟩ rfl
  have hsorted : sortedLinesOf [⟨testId, 0, "a", now - 1⟩, ⟨testId, 1, "b", now - 1⟩] testId =
      [⟨testId, 0, "a", now - 1⟩, ⟨testId, 1, "b", now - 1⟩] := by
    rw [sortedLinesOf, List.mergeSort_of_pairwise]
    · simp [linesOf]
    · simp [linesOf]
  rw [hsame, hlast, history, history, hsorted] at hboth
  simp [sortedLinesOf, linesOf] at hboth

/-- Nor is the history separate from that of every other test: what is written for an id with a
backslash at its end is read for the one with a space there, or not read for itself. -/
theorem exists_not_separate (flux : Flux) (bucket : String) (printable : Char → Bool) (now : ℤ)
    {x : String} {slash space : NonEmptyStr} (hslash : slash.val = x ++ "\\")
    (hspace : space.val = x ++ " ") : ∃ w : LogWrite, InRange now w.time ∧
      ¬ HistoryRead flux bucket printable now [w] space := by
  have hin : InRange now (now - 1) := by
    unfold InRange thirtyDays
    omega
  have hne : slash ≠ space := by
    intro h
    rw [Subtype.ext_iff, hslash, hspace] at h
    have hlist := congrArg String.toList h
    simp [String.toList_append] at hlist
  by_contra hno
  push Not at hno
  have hother := hno ⟨slash, 0, "a", now - 1⟩ hin 1 (by decide) (by decide)
  have hown := hno ⟨space, 0, "a", now - 1⟩ hin 1 (by decide) (by decide)
  have hpoint : (⟨slash, 0, "a", now - 1⟩ : LogWrite).point =
      (⟨space, 0, "a", now - 1⟩ : LogWrite).point := by
    simp only [LogWrite.point, hslash, hspace, tagValue_slash]
  rw [writeAll_eq, List.map_singleton, hpoint] at hother
  rw [writeAll_eq, List.map_singleton, hother] at hown
  simp [history, sortedLinesOf, linesOf, hne] at hown

/-! ### A database that answers only the query that is meant -/

/-- The id and the limit of a query, read from its text. -/
def fluxParts (bucket text : String) : String × ℤ :=
  let fromId := text.toList.drop (fluxBefore bucket).toList.length
  let testId := fromId.takeWhile (· ≠ '"')
  let fromLimit := fromId.drop (testId.length + fluxMiddle.toList.length)
  (String.ofList testId, Nat.ofDigitChars 10 (fromLimit.takeWhile Char.isDigit) 0)

/-- A way to arrange the points that a query selects. -/
abbrev FluxOrder := (now : ℤ) → (b : LogBucket) → (testId : String) → List LogPoint

def FluxOrder.Valid (order : FluxOrder) : Prop :=
  ∀ now b testId, (order now b testId).Perm (b.select now testId) ∧
    (order now b testId).Pairwise fun p q => p.lineNo ≤ q.lineNo

/-- Every query but those that are meant is an error. -/
def strictFlux (order : FluxOrder) (bucket : String) : Flux := fun now text b =>
  let (testId, limit) := fluxParts bucket text
  if PlainLiteral testId ∧ text = fluxText bucket testId limit then
    .ok [((order now b testId).take limit.toNat).map LogPoint.record]
  else .error (.valueError "compilation failed")

def byLineNo : FluxOrder := fun now b testId =>
  (b.select now testId).mergeSort fun p q => p.lineNo ≤ q.lineNo

lemma byLineNo_valid : byLineNo.Valid := fun _ _ _ =>
  ⟨List.mergeSort_perm _ _, pairwise_mergeSort_key LogPoint.lineNo _⟩

/-- Every arrangement of an answer is one that the database may choose. -/
lemma exists_order {now : ℤ} {b : LogBucket} {testId : String} {rows : List LogPoint}
    (hperm : rows.Perm (b.select now testId))
    (hsorted : rows.Pairwise fun p q => p.lineNo ≤ q.lineNo) :
    ∃ order : FluxOrder, order.Valid ∧ order now b testId = rows := by
  classical
  refine ⟨fun now' b' testId' =>
    if (now', b', testId') = (now, b, testId) then rows else byLineNo now' b' testId', ?_, ?_⟩
  · intro now' b' testId'
    dsimp only
    split_ifs with heq
    · cases heq
      exact ⟨hperm, hsorted⟩
    · exact byLineNo_valid now' b' testId'
  · exact if_pos rfl

/-- The characters of a query after the id. -/
def fluxRest (n : ℕ) : List Char :=
  fluxMiddle.toList ++ (Nat.toDigits 10 n ++ ")\n        ".toList)

lemma toList_fluxText (bucket testId : String) (n : ℕ) : (fluxText bucket testId n).toList =
    (fluxBefore bucket).toList ++ (testId.toList ++ fluxRest n) := by
  have hdigits : (toString (n : ℤ)).toList = Nat.toDigits 10 n := by
    rw [show toString (n : ℤ) = toString n from rfl]
    simp
  simp only [fluxText, fluxRest, String.toList_append, hdigits, List.append_assoc]

/-- An id without quotes ends where the literal ends. -/
lemma takeWhile_fluxRest {testId : String} (h : '"' ∉ testId.toList) (n : ℕ) :
    (testId.toList ++ fluxRest n).takeWhile (· ≠ '"') = testId.toList := by
  obtain ⟨rest, hquote⟩ : ∃ rest, fluxMiddle.toList = '"' :: rest := by
    simp only [fluxMiddle, String.toList_append]
    exact ⟨_, rfl⟩
  rw [fluxRest, List.takeWhile_append_of_pos, hquote, List.cons_append,
    List.takeWhile_cons_of_neg, List.append_nil]
  · simp
  · intro c hc
    exact decide_eq_true fun heq => h (heq ▸ hc)

lemma fluxParts_fluxText (bucket : String) {testId : String} (hplain : PlainLiteral testId)
    (n : ℕ) : fluxParts bucket (fluxText bucket testId n) = (testId, (n : ℤ)) := by
  have hlimit : (Nat.toDigits 10 n ++ ")\n        ".toList).takeWhile Char.isDigit =
      Nat.toDigits 10 n := by
    rw [List.takeWhile_append_of_pos]
    · exact List.append_nil _
    · intro c hc
      exact Nat.isDigit_of_mem_toDigits (by decide) (by decide) hc
  unfold fluxParts
  rw [toList_fluxText, List.drop_left]
  simp only [takeWhile_fluxRest hplain.1]
  rw [← List.drop_drop, List.drop_left, fluxRest, List.drop_left, hlimit,
    Nat.ofDigitChars_toDigits (by decide) (by decide), String.ofList_toList]

/-- The query for an id is that for a plain one only if it is the same id. -/
lemma eq_of_fluxText_eq {bucket testId other : String} {m n : ℕ} (hplain : PlainLiteral other)
    (h : fluxText bucket testId m = fluxText bucket other n) : testId = other := by
  have hdigits : ∀ k, (Nat.toDigits 10 k).count '"' = 0 := by
    intro k
    apply List.count_eq_zero_of_not_mem
    intro hmem
    exact absurd (Nat.isDigit_of_mem_toDigits (by decide) (by decide) hmem) (by decide)
  have hrest : ∀ k, (fluxRest k).count '"' = (fluxRest 0).count '"' := by
    intro k
    simp only [fluxRest, List.count_append, hdigits]
  have hlist := congrArg String.toList h
  rw [toList_fluxText, toList_fluxText, List.append_cancel_left_eq] at hlist
  have hcount := congrArg (List.count '"') hlist
  rw [List.count_append, List.count_append, hrest m, hrest n,
    List.count_eq_zero_of_not_mem hplain.1] at hcount
  have hquote : '"' ∉ testId.toList := List.count_eq_zero.mp (by omega)
  have hid := takeWhile_fluxRest hquote m
  rw [hlist, takeWhile_fluxRest hplain.1] at hid
  exact (String.toList_inj.mp hid).symm

lemma strictFlux_ok {bucket testId : String} (order : FluxOrder) (hplain : PlainLiteral testId)
    (now : ℤ) (n : ℕ) (b : LogBucket) : strictFlux order bucket now (fluxText bucket testId n) b =
      .ok [((order now b testId).take n).map LogPoint.record] := by
  rw [strictFlux, fluxParts_fluxText bucket hplain]
  exact if_pos ⟨hplain, rfl⟩

lemma strictFlux_reads {order : FluxOrder} (horder : order.Valid) (bucket : String) :
    FluxReads bucket (strictFlux order bucket) := by
  intro now b testId limit hplain h₀ _
  obtain ⟨n, rfl⟩ := Int.eq_ofNat_of_zero_le h₀.le
  obtain ⟨hperm, hsorted⟩ := horder now b testId
  exact ⟨_, order now b testId, strictFlux_ok order hplain now n b, List.append_nil _, hperm,
    hsorted⟩

/-- An id that does not stand for itself makes the query an error. -/
lemma strictFlux_error {bucket testId : String} (order : FluxOrder)
    (hplain : ¬ PlainLiteral testId) (now : ℤ) (n : ℕ) (b : LogBucket) :
    strictFlux order bucket now (fluxText bucket testId n) b =
      .error (.valueError "compilation failed") := by
  unfold strictFlux
  refine if_neg ?_
  rintro ⟨hother, htext⟩
  have hid := eq_of_fluxText_eq hother htext
  exact hplain (hid ▸ hother)

section Kept

variable {bucket : String} {printable : Char → Bool} {now : ℤ} {writes : List LogWrite}
  {testId : NonEmptyStr}

lemma HistoryKept.plainLiteral (h : HistoryKept bucket printable now writes testId) :
    PlainLiteral testId := by
  by_contra hno
  have hone := h _ (strictFlux_reads byLineNo_valid bucket) (1 : ℕ) (by decide) (by decide)
  rw [readLines_putAll (by decide) (by decide), strictFlux_error _ hno] at hone
  cases hone

/-- Under the largest limit everything that is left is returned, in the order the database
chooses. -/
lemma HistoryKept.records (h : HistoryKept bucket printable now writes testId)
    (hrange : ∀ w ∈ writes, InRange now w.time) {rows : List LogPoint}
    (hperm : rows.Perm (pointsLeft writes testId))
    (hsorted : rows.Pairwise fun p q => p.lineNo ≤ q.lineNo) :
    (rows.map fun p => p.record.content) = (history writes testId).map some := by
  obtain ⟨order, horder, rfl⟩ := exists_order ((select_putAll hrange).symm ▸ hperm) hsorted
  obtain ⟨n, hn⟩ : ∃ n : ℕ, fluxIntBound - 1 = n := Int.eq_ofNat_of_zero_le (by decide)
  have hpos : 0 < (n : ℤ) := by
    rw [← hn]
    decide
  have hmax : (n : ℤ) < fluxIntBound := by omega
  have hread := h _ (strictFlux_reads horder bucket) n hpos hmax
  rw [readLines_putAll hpos hmax, strictFlux_ok order h.plainLiteral, Except.ok_bind] at hread
  have hrecords := Except.ok.inj hread
  have hleft := hperm.length_eq
  have hshort := length_pointsLeft_lt testId hrange
  rw [hn, Int.toNat_natCast] at hshort
  have hall : (order now ((Table.empty _).putAll (writes.map LogWrite.point)) testId).take n =
      order now ((Table.empty _).putAll (writes.map LogWrite.point)) testId :=
    List.take_of_length_le (by omega)
  rw [List.flatten_singleton, List.map_map, hall] at hrecords
  have hlength := congrArg List.length hrecords
  rw [List.length_map, List.length_map, List.length_take] at hlength
  rwa [Int.toNat_natCast, List.take_of_length_le (by omega)] at hrecords

/-- A history is kept exactly if its id stands for itself between quotes, none of its lines is
empty, and what is left under the id is the history. -/
lemma historyKept_iff_unmixed (hrange : ∀ w ∈ writes, InRange now w.time) :
    HistoryKept bucket printable now writes testId ↔
      PlainLiteral testId ∧ (∀ w ∈ linesOf writes testId, w.content ≠ "") ∧
        Unmixed writes testId := by
  constructor
  · intro h
    refine ⟨h.plainLiteral, fun w hw => ?_, fun rows hperm hsorted => ?_⟩
    · have hrecords := h.records hrange (List.mergeSort_perm _ _)
        (pairwise_mergeSort_key LogPoint.lineNo _)
      exact (map_content_record.mp hrecords).2 w.content (mem_history.mpr ⟨w, hw, rfl⟩)
    · exact (map_content_record.mp (h.records hrange hperm hsorted)).1
  · rintro ⟨hplain, hcontent, hunmixed⟩ flux hflux
    exact hunmixed.historyRead hflux hrange hplain hcontent

end Kept

def sampleTest : NonEmptyStr := ⟨"run", by decide⟩

/-- Two lines of a test, written out of order with different timestamps. -/
def apartLines : List LogWrite := [⟨sampleTest, 1, "b", 1⟩, ⟨sampleTest, 0, "a", 2⟩]

/-- Two lines of a test that get the same timestamp. -/
def sharedTimeLines : List LogWrite := [⟨sampleTest, 0, "a", 1⟩, ⟨sampleTest, 1, "b", 1⟩]

end TestOrch
