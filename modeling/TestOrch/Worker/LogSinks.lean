import TestOrch.Backend.InfluxLog
import TestOrch.Worker.Tasks

/-!
# The three log sinks (`run_test_bundle` in `worker/tasks.py`)

Each streamed line is written to InfluxDB, published on the live exchange and, if it is due,
committed as a row of the relational index. Any of the three may raise, which ends the loop. The
sinks agree with each other at every iteration and at the end if and only if InfluxDB loses none of
the lines that it accepts, which is so as long as no two of them get the same timestamp
(`sinks_consistent_iff`).
-/

namespace TestOrch

/-- The calls of an iteration that may raise, with the number of the line. -/
inductive SinkCall where
  | write (n : ℕ)
  | publish (n : ℕ)
  | commit (n : ℕ)
  deriving DecidableEq

/-- The exceptions that end the loop. -/
inductive SinkError where
  | code (e : PyError)
  | external (c : SinkCall)

/-- The points in InfluxDB, what was published for the test, and its rows in the index. -/
structure LogSinks where
  bucket : LogBucket
  published : List String
  logLines : List (ℕ × String)

/-- A run of the loop: which calls raise, and the timestamp that the server gives to each line. -/
structure SinkRun where
  testId : NonEmptyStr
  raises : SinkCall → Bool
  time : ℕ → ℤ
  printable : Char → Bool

abbrev SinkEff := Eff LogSinks SinkError

namespace SinkRun

variable (run : SinkRun)

/-- A call that stores nothing if it raises. -/
def call (c : SinkCall) : SinkEff Unit :=
  if run.raises c then Eff.raise (.external c) else pure ()

/-- `influx.write_line(test_id, line_no, line)`. -/
def influxWrite (n : ℕ) (line : String) : SinkEff Unit := do
  run.call (.write n)
  let bucket ← Eff.gets LogSinks.bucket
  let stored ← Eff.lift ((writeLine run.printable (.str run.testId) (.int n) (.str line)
    (run.time n) bucket).mapError .code)
  Eff.modify fun s => { s with bucket := stored }

def publishLogLine (n : ℕ) (line : String) : SinkEff Unit := do
  run.call (.publish n)
  Eff.modify fun s => { s with published := s.published ++ [line] }

def checkpoint (n : ℕ) (line : String) : SinkEff Unit :=
  if n % Environment.logCheckpointEvery = 0 then do
    run.call (.commit n)
    Eff.modify fun s => { s with logLines := s.logLines ++ [(n, line)] }
  else pure ()

def iteration (n : ℕ) (line : String) : SinkEff Unit := do
  run.influxWrite n line
  run.publishLogLine n line
  run.checkpoint n line

/-- The loop over the lines, from line number `n` on. -/
def streamLines (n : ℕ) : List String → SinkEff Unit
  | [] => pure ()
  | line :: rest => do
    run.iteration n line
    streamLines (n + 1) rest

/-- The sinks before every iteration and when the loop ends or is left, each with the number of
lines that are fully processed. -/
def visited (n : ℕ) : List String → LogSinks → List (ℕ × LogSinks)
  | [], s => [(n, s)]
  | line :: rest, s => (n, s) :: match run.iteration n line s with
    | (.ok _, s') => visited (n + 1) rest s'
    | (.error _, s') => [(n, s')]

def point (n : ℕ) (line : String) : LogPoint := ⟨tagValue run.testId, n, line, run.time n⟩

/-- The points of lines that are written from index zero on. -/
def points (lines : List String) : List LogPoint :=
  lines.zipIdx.map fun (line, n) => run.point n line

def Completes (n : ℕ) : Prop :=
  run.raises (.write n) = false ∧ run.raises (.publish n) = false ∧
    (n % Environment.logCheckpointEvery = 0 → run.raises (.commit n) = false)

/-- Line `n` gets as far as InfluxDB. -/
def Written (lines : List String) (n : ℕ) : Prop :=
  n < lines.length ∧ run.raises (.write n) = false ∧ ∀ k < n, run.Completes k

end SinkRun

def numbered (lines : List String) : List (ℤ × String) :=
  lines.zipIdx.map fun (line, n) => ((n : ℤ), line)

/-- The rows of the index for the lines. -/
def checkpoints (lines : List String) : List (ℕ × String) :=
  (lines.zipIdx.map Prod.swap).filter fun (n, _) => n % Environment.logCheckpointEvery = 0

/-- The lines under the tag of a test in InfluxDB, with their numbers. -/
def LogSinks.stored (s : LogSinks) (testId : NonEmptyStr) : List (ℤ × String) :=
  (s.bucket.rows.filter fun p => p.testId = tagValue testId).map fun p => (p.lineNo, p.content)

/-- The sinks agree, with `processed` of the lines fully processed. -/
structure SinksAgree (testId : NonEmptyStr) (lines : List String) (processed : ℕ) (s : LogSinks) :
    Prop where
  /-- In InfluxDB are the first lines under their indexes; what is published begins them, with at
  most one line fewer. -/
  stored : ∃ w ≤ lines.length, (s.stored testId).Perm (numbered (lines.take w)) ∧
    s.published <+: lines.take w ∧ w ≤ s.published.length + 1
  logLines : s.logLines = checkpoints (lines.take processed)
  /-- Every row points to a line in InfluxDB. -/
  pointed : ∀ row ∈ s.logLines, ((row.1 : ℤ), row.2) ∈ s.stored testId

/-- The sinks when the loop starts: other tests may have lines in InfluxDB. -/
def LogSinks.start (bucket : LogBucket) : LogSinks := ⟨bucket, [], []⟩

/-- The sinks agree at every iteration and at the end; if nothing raises, every line is in InfluxDB
and published. -/
structure SinksConsistent (run : SinkRun) (lines : List String) (bucket : LogBucket) : Prop where
  agree : ∀ v ∈ run.visited 0 lines (.start bucket), SinksAgree run.testId lines v.1 v.2
  complete : (∀ c, run.raises c = false) →
    ∃ s, run.streamLines 0 lines (.start bucket) = (.ok (), s) ∧
      (s.stored run.testId).Perm (numbered lines) ∧ s.published = lines

/-! ### What is reached -/

/-- The lines `w` were written to InfluxDB, `q` were published and `p` fully processed. -/
structure SinkRun.Reached (run : SinkRun) (bucket : LogBucket) (w q p : List String)
    (s : LogSinks) : Prop where
  bucket : s.bucket = bucket.putAll (run.points w)
  published : s.published = q
  logLines : s.logLines = checkpoints p

lemma checkpoints_concat (lines : List String) (line : String) :
    checkpoints (lines ++ [line]) = checkpoints lines ++
      if lines.length % Environment.logCheckpointEvery = 0 then [(lines.length, line)] else [] := by
  rw [checkpoints, List.zipIdx_append, List.map_append, List.filter_append, ← checkpoints]
  congr 1
  by_cases h : lines.length % Environment.logCheckpointEvery = 0 <;> simp [h]

namespace SinkRun

variable {run : SinkRun} {bucket : LogBucket} {lines done : List String} {line : String}
  {s : LogSinks}

lemma points_concat (run : SinkRun) (lines : List String) (line : String) :
    run.points (lines ++ [line]) = run.points lines ++ [run.point lines.length line] := by
  simp [points, List.zipIdx_append]

lemma reached_start (run : SinkRun) (bucket : LogBucket) :
    run.Reached bucket [] [] [] (.start bucket) := ⟨rfl, rfl, rfl⟩

/-- What an iteration does. -/
lemma iteration_eq (run : SinkRun) (n : ℕ) (line : String) (s : LogSinks) :
    run.iteration n line s =
      if run.raises (.write n) then (.error (.external (.write n)), s)
      else if run.raises (.publish n) then
        (.error (.external (.publish n)), { s with bucket := s.bucket.put (run.point n line) })
      else if n % Environment.logCheckpointEvery = 0 then
        if run.raises (.commit n) then
          (.error (.external (.commit n)),
            { s with
              bucket := s.bucket.put (run.point n line)
              published := s.published ++ [line] })
        else
          (.ok (),
            { bucket := s.bucket.put (run.point n line)
              published := s.published ++ [line]
              logLines := s.logLines ++ [(n, line)] })
      else
        (.ok (),
          { s with
            bucket := s.bucket.put (run.point n line)
            published := s.published ++ [line] }) := by
  have hline : ∀ b : LogBucket, writeLine run.printable (.str run.testId) (.int n) (.str line)
      (run.time n) b = .ok (b.put (run.point n line)) :=
    fun b => writeLine_accepted ⟨run.testId, n, line, run.time n⟩ b
  simp only [iteration, influxWrite, publishLogLine, checkpoint, call, hline]
  split_ifs <;> rfl

/-- An iteration completes, or it leaves the loop with its line written or not. -/
lemma Reached.iteration (h : run.Reached bucket done done done s) (line : String) :
    (∃ s', run.iteration done.length line s = (.ok (), s') ∧ run.Completes done.length ∧
      run.Reached bucket (done ++ [line]) (done ++ [line]) (done ++ [line]) s') ∨
    ∃ e s' w q, run.iteration done.length line s = (.error e, s') ∧
      ¬ run.Completes done.length ∧ run.Reached bucket w q done s' ∧
      ((run.raises (.write done.length) = true ∧ w = done ∧ q = done) ∨
        run.raises (.write done.length) = false ∧ w = done ++ [line] ∧
          (q = done ∨ q = done ++ [line])) := by
  have hbucket : s.bucket.put (run.point done.length line) =
      bucket.putAll (run.points (done ++ [line])) := by
    rw [points_concat, Table.putAll_concat, h.bucket]
  have hpublished : s.published ++ [line] = done ++ [line] := by rw [h.published]
  have hlines := checkpoints_concat done line
  rw [iteration_eq, hbucket, hpublished]
  cases hwrite : run.raises (.write done.length) with
  | true =>
    -- Nothing is written, and the line is in none of the sinks.
    refine .inr ⟨_, s, done, done, rfl, ?_, h, .inl ⟨rfl, rfl, rfl⟩⟩
    rintro ⟨hno, -, -⟩
    simp [hwrite] at hno
  | false =>
    cases hpublish : run.raises (.publish done.length) with
    | true =>
      -- The line is in InfluxDB, but is not published.
      refine .inr ⟨_, _, _, done, rfl, ?_, ⟨rfl, h.published, h.logLines⟩,
        .inr ⟨rfl, rfl, .inl rfl⟩⟩
      rintro ⟨-, hno, -⟩
      simp [hpublish] at hno
    | false =>
      by_cases hdue : done.length % Environment.logCheckpointEvery = 0
      · -- On every tenth line the counter is committed; there the last call can raise.
        rw [if_pos hdue] at hlines
        rw [if_pos hdue]
        cases hcommit : run.raises (.commit done.length) with
        | true =>
          refine .inr ⟨_, _, _, _, rfl, ?_, ⟨rfl, rfl, h.logLines⟩, .inr ⟨rfl, rfl, .inr rfl⟩⟩
          rintro ⟨-, -, hno⟩
          simp [hcommit] at hno
          exact hno hdue
        | false =>
          refine .inl ⟨_, rfl, ⟨hwrite, hpublish, fun _ => hcommit⟩, rfl, rfl, ?_⟩
          rw [hlines, h.logLines]
      · rw [if_neg hdue, List.append_nil] at hlines
        rw [if_neg hdue]
        refine .inl ⟨_, rfl, ⟨hwrite, hpublish, fun hno => absurd hno hdue⟩, rfl, rfl, ?_⟩
        rw [hlines, h.logLines]

/-- Without an exception every line is processed. -/
lemma Reached.streamLines (hraises : ∀ c, run.raises c = false)
    (h : run.Reached bucket done done done s) (rest : List String) :
    ∃ s', run.streamLines done.length rest s = (.ok (), s') ∧
      run.Reached bucket (done ++ rest) (done ++ rest) (done ++ rest) s' := by
  induction rest generalizing done s with
  | nil => exact ⟨s, rfl, by rwa [List.append_nil]⟩
  | cons line rest ih =>
    rcases h.iteration line with ⟨s₁, hrun, -, h₁⟩ | ⟨e, s₁, w, q, -, hno, -⟩
    · obtain ⟨s', hrest, h'⟩ := ih h₁
      rw [List.append_assoc] at h'
      rw [List.length_append] at hrest
      refine ⟨s', ?_, h'⟩
      simp only [SinkRun.streamLines, Bind.bind, hrun]
      exact hrest
    · exact absurd ⟨hraises _, hraises _, fun _ => hraises _⟩ hno

/-- The lines `p` are fully processed; in InfluxDB is at most one more, and so is what is published.
-/
structure Stage (run : SinkRun) (bucket : LogBucket) (lines w q p : List String) (s : LogSinks) :
    Prop extends run.Reached bucket w q p s where
  prefix_lines : w <+: lines
  prefix_written : q <+: w
  prefix_published : p <+: q
  length_le : w.length ≤ q.length + 1
  written : ∀ n < w.length, run.Written lines n

/-- Between two iterations. -/
lemma Reached.stage (h : run.Reached bucket done done done s) (hlines : done <+: lines)
    (hdone : ∀ n < done.length, run.Completes n) : run.Stage bucket lines done done done s where
  toReached := h
  prefix_lines := hlines
  prefix_written := List.prefix_rfl
  prefix_published := List.prefix_rfl
  length_le := Nat.le_succ _
  written n hn := ⟨hn.trans_le hlines.length_le, (hdone n hn).1, fun k hk => hdone k (hk.trans hn)⟩

/-- After an exception. -/
lemma Reached.stage_error {w q : List String} (h : run.Reached bucket w q done s)
    (hlines : done ++ [line] <+: lines) (hdone : ∀ n < done.length, run.Completes n)
    (hwrite : run.raises (.write done.length) = false) (hw : w = done ++ [line])
    (hq : q = done ∨ q = done ++ [line]) : run.Stage bucket lines w q done s where
  toReached := h
  prefix_lines := hw ▸ hlines
  prefix_written := by
    rcases hq with rfl | rfl
    · exact hw ▸ List.prefix_append _ _
    · exact hw ▸ List.prefix_rfl
  prefix_published := by
    rcases hq with rfl | rfl
    · exact List.prefix_rfl
    · exact List.prefix_append _ _
  length_le := by rcases hq with rfl | rfl <;> simp [hw]
  written n hn := by
    have hless : n < done.length + 1 := by simpa [hw] using hn
    refine ⟨hn.trans_le (hw ▸ hlines.length_le), ?_, fun k hk => hdone k (by omega)⟩
    rcases Nat.lt_succ_iff_lt_or_eq.mp hless with hn | rfl
    · exact (hdone n hn).1
    · exact hwrite

/-- What is visited is a stage of the loop, and in one of the stages every line that ever gets as
far as InfluxDB is written. -/
lemma Reached.visited (h : run.Reached bucket done done done s) (rest : List String)
    (hlines : lines = done ++ rest) (hdone : ∀ n < done.length, run.Completes n) :
    (∀ v ∈ run.visited done.length rest s, ∃ w q p, v.1 = p.length ∧
      run.Stage bucket lines w q p v.2) ∧
    ∃ v ∈ run.visited done.length rest s, ∃ w q p, v.1 = p.length ∧
      run.Stage bucket lines w q p v.2 ∧ ∀ n, run.Written lines n → n < w.length := by
  have hstage := h.stage ⟨rest, hlines.symm⟩ hdone
  induction rest generalizing done s with
  | nil =>
    rw [List.append_nil] at hlines
    simp only [SinkRun.visited, List.mem_singleton, forall_eq, exists_eq_left]
    exact ⟨⟨_, _, _, rfl, hstage⟩, _, _, _, rfl, hstage, fun n hn => hlines ▸ hn.1⟩
  | cons line rest ih =>
    have hnext : done ++ [line] <+: lines := ⟨rest, by rw [hlines, List.append_assoc]; rfl⟩
    rcases h.iteration line with ⟨s₁, hrun, hcompletes, h₁⟩ | ⟨e, s₁, w, q, hrun, hno, h₁, hwrite⟩
    · -- The iteration completes, and the loop goes on from the stage after it.
      have hdone₁ : ∀ n < (done ++ [line]).length, run.Completes n := by
        intro n hn
        rw [List.length_append, List.length_singleton, Nat.lt_succ_iff_lt_or_eq] at hn
        rcases hn with hn | rfl
        · exact hdone n hn
        · exact hcompletes
      have hrest := ih h₁ (by rw [hlines, List.append_assoc]; rfl) hdone₁ (h₁.stage hnext hdone₁)
      rw [List.length_append, List.length_singleton] at hrest
      obtain ⟨hall, v, hv, hlast⟩ := hrest
      simp only [SinkRun.visited, hrun, List.mem_cons]
      refine ⟨?_, v, .inr hv, hlast⟩
      rintro v (rfl | hv)
      · exact ⟨_, _, _, rfl, hstage⟩
      · exact hall v hv
    · simp only [SinkRun.visited, hrun, List.mem_cons, List.not_mem_nil, or_false]
      -- The exception ends the loop, so no later line gets as far as InfluxDB.
      have hlimit : ∀ n, run.Written lines n → n ≤ done.length := by
        intro n hn
        by_contra hgt
        exact hno (hn.2.2 _ (by omega))
      rcases hwrite with ⟨hraise, rfl, rfl⟩ | ⟨hwrite, hw, hq⟩
      · refine ⟨?_, _, .inl rfl, _, _, _, rfl, hstage, fun n hn => ?_⟩
        · rintro v (rfl | rfl)
          · exact ⟨_, _, _, rfl, hstage⟩
          · exact ⟨_, _, _, rfl, h₁.stage ⟨_, hlines.symm⟩ hdone⟩
        · refine (hlimit n hn).lt_of_ne ?_
          rintro rfl
          simp [hn.2.1] at hraise
      · have hstage₁ := h₁.stage_error hnext hdone hwrite hw hq
        refine ⟨?_, _, .inr rfl, _, _, _, rfl, hstage₁, fun n hn => ?_⟩
        · rintro v (rfl | rfl)
          · exact ⟨_, _, _, rfl, hstage⟩
          · exact ⟨_, _, _, rfl, hstage₁⟩
        · rw [hw, List.length_append]
          exact Nat.lt_succ_of_le (hlimit n hn)

/-! ### What InfluxDB keeps -/

lemma testId_of_mem_points {p : LogPoint} (h : p ∈ run.points lines) :
    p.testId = tagValue run.testId := by
  obtain ⟨_, _, rfl⟩ := List.mem_map.mp h
  rfl

lemma length_points (run : SinkRun) (lines : List String) :
    (run.points lines).length = lines.length := by
  rw [points, List.length_map, List.length_zipIdx]

lemma map_points :
    (run.points lines).map (fun p => (p.lineNo, p.content)) = numbered lines := by
  rw [points, List.map_map]
  rfl

lemma times_points :
    (run.points lines).map LogPoint.time = (List.range lines.length).map run.time := by
  have htime : LogPoint.time ∘ (fun x : String × ℕ => run.point x.2 x.1) =
      run.time ∘ Prod.snd := rfl
  rw [points, List.map_map, htime, ← List.map_map, List.zipIdx_map_snd, List.range_eq_range']

/-- The lines have different timestamps. -/
lemma nodup_keys_points :
    ((run.points lines).map LogPoint.key).Nodup ↔
      Set.InjOn run.time {n | n < lines.length} := by
  rw [nodup_keys_iff fun _ => testId_of_mem_points, times_points,
    List.nodup_map_iff_inj_on List.nodup_range]
  simp only [List.mem_range]
  exact ⟨fun h m hm n hn => h m hm n hn, fun h m hm n hn => h hm hn⟩

/-- What is stored for the test does not depend on the lines of other tests. -/
lemma Reached.stored {w q p : List String} (h : run.Reached bucket w q p s)
    (hfresh : ∀ r ∈ bucket.rows, r.testId ≠ tagValue run.testId) :
    s.stored run.testId = ((Table.empty LogPoint.key).putAll (run.points w)).rows.map
      fun p => (p.lineNo, p.content) := by
  have hkey : ∀ p q : LogPoint, p.key = q.key →
      decide (p.testId = tagValue run.testId) = decide (q.testId = tagValue run.testId) := by
    intro p q h
    rw [show p.testId = q.testId from congrArg Prod.fst h]
  have hnone : (Table.empty LogPoint.key).rows =
      bucket.rows.filter fun p => p.testId = tagValue run.testId :=
    (List.filter_eq_nil_iff.mpr fun r hr => by simpa using hfresh r hr).symm
  have hall : ((run.points w).filter fun p => p.testId = tagValue run.testId) = run.points w :=
    List.filter_eq_self.mpr fun p hp => decide_eq_true (testId_of_mem_points hp)
  rw [LogSinks.stored, h.bucket, Table.filter_rows_putAll hkey _ hnone, hall]

/-- As long as no two lines have the same timestamp all of them are kept. -/
lemma stored_eq_numbered {w : List String} (h : Set.InjOn run.time {n | n < w.length}) :
    ((Table.empty LogPoint.key).putAll (run.points w)).rows.map
      (fun p => (p.lineNo, p.content)) = numbered w := by
  have hrows : ((Table.empty LogPoint.key).putAll (run.points w)).rows = run.points w :=
    Table.rows_putAll_of_nodup (nodup_keys_points.mpr h)
  rw [hrows, map_points]

/-- The last line is always kept. -/
lemma last_mem_stored (w : List String) (line : String) :
    ((w.length : ℤ), line) ∈ ((Table.empty LogPoint.key).putAll (run.points (w ++ [line]))).rows.map
      fun p => (p.lineNo, p.content) := by
  rw [points_concat, Table.putAll_concat, Table.rows_put, List.map_append]
  exact List.mem_append_right _ (List.mem_singleton.mpr rfl)

end SinkRun

/-- Rows of the index are among the lines. -/
lemma mem_numbered_of_mem_checkpoints {lines : List String} {row : ℕ × String}
    (h : row ∈ checkpoints lines) : ((row.1 : ℤ), row.2) ∈ numbered lines := by
  obtain ⟨h, -⟩ := List.mem_filter.mp h
  obtain ⟨x, hx, rfl⟩ := List.mem_map.mp h
  exact List.mem_map.mpr ⟨x, hx, rfl⟩

lemma numbered_append (a b : List String) : numbered a <+: numbered (a ++ b) := by
  rw [numbered, numbered, List.zipIdx_append, List.map_append]
  exact List.prefix_append _ _

lemma length_numbered (lines : List String) : (numbered lines).length = lines.length := by
  rw [numbered, List.length_map, List.length_zipIdx]

lemma fst_lt_of_mem_numbered {lines : List String} {x : ℤ × String} (h : x ∈ numbered lines) :
    x.1 < lines.length := by
  obtain ⟨y, hy, rfl⟩ := List.mem_map.mp h
  exact Int.ofNat_lt.mpr (by simpa using (List.mem_zipIdx hy).2.1)

section Consistency

variable {run : SinkRun} {bucket : LogBucket} {lines w q p : List String} {s : LogSinks}

/-- A stage in which InfluxDB has lost no line. -/
lemma SinkRun.Stage.agree (h : run.Stage bucket lines w q p s)
    (hfresh : ∀ r ∈ bucket.rows, r.testId ≠ tagValue run.testId)
    (htimes : Set.InjOn run.time {n | run.Written lines n}) :
    SinksAgree run.testId lines p.length s := by
  have hstored : s.stored run.testId = numbered w := by
    rw [h.stored hfresh]
    exact SinkRun.stored_eq_numbered (htimes.mono h.written)
  have hw : lines.take w.length = w := (List.prefix_iff_eq_take.mp h.prefix_lines).symm
  have hpw := h.prefix_published.trans h.prefix_written
  have hp : lines.take p.length = p :=
    (List.prefix_iff_eq_take.mp (hpw.trans h.prefix_lines)).symm
  constructor
  · refine ⟨w.length, h.prefix_lines.length_le, ?_⟩
    rw [hw, hstored, h.published]
    exact ⟨List.Perm.refl _, h.prefix_written, h.length_le⟩
  · rw [hp, h.logLines]
  · intro row hrow
    rw [h.logLines] at hrow
    obtain ⟨rest, rfl⟩ := hpw
    rw [hstored]
    exact (numbered_append p rest).subset (mem_numbered_of_mem_checkpoints hrow)

/-- If the sinks agree with each other, InfluxDB has lost no line. -/
lemma SinkRun.Stage.injOn (h : run.Stage bucket lines w q p s)
    (hfresh : ∀ r ∈ bucket.rows, r.testId ≠ tagValue run.testId) {n : ℕ}
    (hagree : SinksAgree run.testId lines n s) : Set.InjOn run.time {n | n < w.length} := by
  obtain ⟨k, hk, hperm, hprefix, hlength⟩ := hagree.stored
  rw [h.stored hfresh] at hperm
  rw [h.published] at hprefix hlength
  have hkept := hperm.length_eq
  rw [List.length_map, length_numbered, List.length_take, min_eq_left hk] at hkept
  have hle := hprefix.length_le
  rw [List.length_take, min_eq_left hk] at hle
  rw [← SinkRun.nodup_keys_points, ← Table.length_putAll_empty_iff, hkept, run.length_points]
  have hkw : k ≤ w.length := by
    rw [← hkept, ← run.length_points w]
    exact (Table.length_putAll_le _ _).trans_eq (Nat.zero_add _)
  rcases hkw.eq_or_lt with heq | hless
  · exact heq
  · -- Only the last line could be lost, but that one is always there.
    obtain rfl | ⟨w', line, rfl⟩ := w.eq_nil_or_concat
    · simp at hless
    · have hshort := h.length_le
      rw [List.concat_eq_append] at hperm hless hshort
      rw [List.length_append, List.length_singleton] at hless hshort
      have hlast := hperm.subset (SinkRun.last_mem_stored w' line)
      have hnumber := fst_lt_of_mem_numbered hlast
      rw [List.length_take, min_eq_left hk] at hnumber
      omega

/-- The three sinks are consistent, wherever a call raises, if and only if no two lines that get as
far as InfluxDB have the same timestamp. -/
theorem sinks_consistent_iff (run : SinkRun) (lines : List String) (bucket : LogBucket)
    (hfresh : ∀ r ∈ bucket.rows, r.testId ≠ tagValue run.testId) :
    SinksConsistent run lines bucket ↔ Set.InjOn run.time {n | run.Written lines n} := by
  have hstart := run.reached_start bucket
  obtain ⟨hall, v, hv, w, q, p, hcount, hstage, hlast⟩ :=
    hstart.visited lines rfl fun n hn => absurd hn (Nat.not_lt_zero n)
  constructor
  · intro h
    exact (hstage.injOn hfresh (h.agree v hv)).mono hlast
  · intro htimes
    constructor
    · intro v hv
      obtain ⟨w, q, p, hcount, hstage⟩ := hall v hv
      rw [hcount]
      exact hstage.agree hfresh htimes
    · intro hraises
      obtain ⟨s, hrun, h⟩ := hstart.streamLines hraises lines
      have hwritten : ∀ n < lines.length, run.Written lines n := fun n hn =>
        ⟨hn, hraises _, fun _ _ => ⟨hraises _, hraises _, fun _ => hraises _⟩⟩
      refine ⟨s, hrun, ?_, h.published⟩
      rw [h.stored hfresh]
      exact List.Perm.of_eq (SinkRun.stored_eq_numbered (htimes.mono hwritten))

end Consistency

/-- A run in which nothing raises and the server gives the lines increasing timestamps. -/
def steadyRun : SinkRun := ⟨sampleTest, fun _ => false, fun n => n, fun _ => false⟩

theorem steadyRun_consistent : SinksConsistent steadyRun ["a", "b"] (Table.empty _) :=
  (sinks_consistent_iff steadyRun ["a", "b"] (Table.empty _) fun _ h => absurd h
    List.not_mem_nil).mpr fun _ _ _ _ h => Int.ofNat_inj.mp h

/-- A run in which the server gives both lines the same timestamp. -/
def sharedTimeRun : SinkRun := ⟨sampleTest, fun _ => false, fun _ => 0, fun _ => false⟩

/-- Both lines are published, but the second has replaced the first in InfluxDB. -/
theorem sharedTimeRun_not_consistent :
    ¬ ∀ (run : SinkRun) (lines : List String) (bucket : LogBucket),
      (∀ r ∈ bucket.rows, r.testId ≠ tagValue run.testId) → SinksConsistent run lines bucket := by
  intro h
  obtain ⟨s, hrun, hperm, -⟩ := (h sharedTimeRun ["a", "b"] (Table.empty _)
    fun _ h => absurd h List.not_mem_nil).complete fun _ => rfl
  have hone : ((sharedTimeRun.streamLines 0 ["a", "b"] (.start (Table.empty _))).2.stored
      sharedTimeRun.testId).length = 1 := by decide
  rw [hrun] at hone
  have htwo := hperm.length_eq
  exact absurd (htwo.symm.trans hone) (by decide)

end TestOrch
