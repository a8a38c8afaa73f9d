import TestOrch.Core.Fanout
import TestOrch.Core.Pool
import TestOrch.System.LogStreams
import TestOrch.Worker.LogSinks

/-!
# What a log socket shows

A state of the log streams does not tell what was published before. Here a run carries its history:
the lines published so far and, for each socket, how many they were when its queue was bound and
what was sent on it. A socket shows a block of the lines of its test, in their order: nothing that
came before its queue was bound, and nothing is left out in between, repeated or of another test.
The connections of the sockets to the broker do not drop, so a queue stays bound.
-/

namespace TestOrch

open Transition Fanout

namespace LogStreams

structure Record where
  /-- The number of lines that had been published when the queue was bound. -/
  since : Option ℕ
  shown : List Shown

/-- A state with the history that led to it; `records i` belongs to socket `i`. -/
structure Trace where
  state : State
  /-- The lines that were published, each with its test. -/
  journal : List (String × String)
  records : ℕ → Record

def LogSocket.show (c : LogSocket) (line : String) : Shown := ⟨c.user, c.testId, renderLine line⟩

namespace Trace

/-- The journal after an action. -/
def publishing (t : Trace) : Act → List (String × String)
  | .publish testId line => t.journal ++ [(testId, line)]
  | _ => t.journal

/-- The records after an action that leads to `s`. -/
def recording (t : Trace) (s : State) : Act → ℕ → Record
  | .bind i => Function.update t.records i
      { t.records i with since := (t.records i).since.or (some t.journal.length) }
  | .send i _ => Function.update t.records i
      { t.records i with shown := (t.records i).shown ++ s.sent.drop t.state.sent.length }
  | _ => t.records

def step (t : Trace) (a : Act) : Option Trace :=
  (LogStreams.step t.state a).map fun s => ⟨s, t.publishing a, t.recording s a⟩

def Fresh (t : Trace) : Prop := t.state.sockets = [] ∧ t.records = fun _ => ⟨none, []⟩

end Trace

def Agrees (journal : List (String × String)) (c : LogSocket) (r : Record) : Prop :=
  match r.since with
  | none => c.bound = false ∧ c.queue = [] ∧ r.shown = []
  | some n => c.bound = true ∧ (∀ m ∈ c.queue, m.1 = c.testId) ∧
      ∃ lines, r.shown = lines.map c.show ∧ Taken c.testId journal n lines ∧
        (c.live = true → Delivered c.testId journal n lines (c.queue.map Prod.snd))

/-- All records agree with their sockets. -/
structure Faithful (t : Trace) : Prop where
  agrees : Pool.All t.state.sockets fun i c => Agrees t.journal c (t.records i)
  unused : ∀ i, t.state.sockets.length ≤ i → t.records i = ⟨none, []⟩

variable {t t' : Trace} {c c' : LogSocket} {r : Record} {journal : List (String × String)}
  {testId line : String} {i : ℕ}

lemma Agrees.publish (h : Agrees journal c r) :
    Agrees (journal ++ [(testId, line)]) (c.receive testId line) r := by
  obtain ⟨since, shown⟩ := r
  cases since with
  | none =>
    obtain ⟨hbound, hqueue, hshown⟩ := h
    rw [LogSocket.receive, if_neg (by simp [hbound])]
    exact ⟨hbound, hqueue, hshown⟩
  | some n =>
    obtain ⟨hbound, htest, lines, hshown, htaken, hlive⟩ := h
    have hexchange : (logExchangeFor c.testId = logExchangeFor testId) ↔ testId = c.testId :=
      ⟨fun h => (logExchangeFor_inj h).symm, fun h => by rw [h]⟩
    by_cases hrecv : c.live = true ∧ testId = c.testId
    · obtain ⟨hl, rfl⟩ := hrecv
      -- The line is of the test and the socket lives, so it waits in the queue.
      have hc : c.receive c.testId line = { c with queue := c.queue ++ [(c.testId, line)] } := by
        simp [LogSocket.receive, hl, hbound]
      rw [hc]
      refine ⟨hbound, ?_, lines, hshown, htaken.publish _, fun _ => ?_⟩
      · intro m hm
        rcases List.mem_append.mp hm with hm | hm
        · exact htest m hm
        · rw [List.mem_singleton.mp hm]
      · simpa using (hlive hl).publish c.testId line
    · -- The line passes the socket by.
      have hc : c.receive testId line = c := by
        rw [LogSocket.receive, if_neg]
        simpa [hbound, hexchange] using hrecv
      rw [hc]
      refine ⟨hbound, htest, lines, hshown, htaken.publish _, fun hl => ?_⟩
      have hne : testId ≠ c.testId := fun heq => hrecv ⟨hl, heq⟩
      simpa [hne] using (hlive hl).publish testId line

/-- A queue that is bound twice keeps its binding. -/
lemma Agrees.bind (h : Agrees journal c r) :
    Agrees journal { c with bound := true }
      { r with since := r.since.or (some journal.length) } := by
  obtain ⟨since, shown⟩ := r
  cases since with
  | none =>
    obtain ⟨hbound, hqueue, hshown⟩ := h
    have hdelivered := Delivered.bind c.testId journal
    refine ⟨rfl, by simp [hqueue], [], hshown, hdelivered.taken_of, fun _ => ?_⟩
    simpa [hqueue] using hdelivered
  | some n =>
    obtain ⟨-, hrest⟩ := h
    exact ⟨rfl, hrest⟩

/-- The consumer sends its next line, or ends. -/
lemma Agrees.send {run : String} {rest : List (String × String)} (h : Agrees journal c r)
    (hlive : c.live = true) (hqueue : c.queue = (run, line) :: rest) (delivered : Bool) :
    Agrees journal { c with queue := rest, live := delivered }
      { r with shown := r.shown ++
        if delivered then [⟨c.user, run, renderLine line⟩] else [] } := by
  obtain ⟨since, shown⟩ := r
  cases since with
  | none => simp [Agrees, hqueue] at h
  | some n =>
    obtain ⟨hbound, htest, lines, (rfl : shown = _), htaken, hall⟩ := h
    have hrest : ∀ m ∈ rest, m.1 = c.testId := fun m hm => htest m (hqueue ▸ .tail _ hm)
    have hrun : run = c.testId := htest (run, line) (hqueue ▸ List.mem_cons_self)
    have hnext := hall hlive
    rw [hqueue, List.map_cons] at hnext
    cases delivered with
    | false => exact ⟨hbound, hrest, lines, List.append_nil _, htaken, fun h => (by cases h)⟩
    | true =>
      refine ⟨hbound, hrest, lines ++ [line], ?_, hnext.take.taken_of, fun _ => hnext.take⟩
      rw [hrun, List.map_append]
      rfl

lemma Agrees.disconnect (h : Agrees journal c r) : Agrees journal { c with live := false } r := by
  obtain ⟨since, shown⟩ := r
  cases since with
  | none => exact h
  | some n =>
    obtain ⟨hbound, htest, lines, hshown, htaken, -⟩ := h
    exact ⟨hbound, htest, lines, hshown, htaken, fun h => (by cases h)⟩

/-- One socket changed together with its record. -/
lemma Faithful.set (h : Faithful t) (hc : t.state.sockets[i]? = some c)
    (hagrees : Agrees t.journal c' r) (sent : List Shown) :
    Faithful ⟨{ t.state with sockets := t.state.sockets.set i c', sent := sent }, t.journal,
      Function.update t.records i r⟩ where
  agrees := by
    refine (Pool.all_set hc).mpr ⟨by simpa using hagrees, fun j d hj hd => ?_⟩
    simpa [Function.update_of_ne hj] using h.agrees j d hd
  unused j hj := by
    have hi : i < t.state.sockets.length := (List.getElem?_eq_some_iff.mp hc).1
    rw [List.length_set] at hj
    have hne : j ≠ i := by omega
    simpa [Function.update_of_ne hne] using h.unused j hj

/-- The step lemma: every action keeps the records. -/
lemma faithful_step {a : Act} (h : Faithful t) (hs : t.step a = some t') : Faithful t' := by
  obtain ⟨s, hstep, rfl⟩ := Option.map_eq_some_iff.mp hs
  clear hs
  cases a with
  | submit bundle now =>
    obtain ⟨execs, -, rfl⟩ := Option.map_eq_some_iff.mp hstep
    exact ⟨h.agrees, h.unused⟩
  | connect user? testId =>
    simp only [LogStreams.step] at hstep
    cases hws : wsLogs t.state.execs user? testId with
    | error code =>
      rw [hws] at hstep
      obtain rfl := Option.some.inj hstep
      exact h
    | ok user =>
      rw [hws] at hstep
      obtain rfl := Option.some.inj hstep
      -- The record of a new socket is still empty.
      refine ⟨Pool.all_append_singleton.mpr ⟨h.agrees, ?_⟩, fun j hj => h.unused j ?_⟩
      · change Agrees t.journal _ (t.records t.state.sockets.length)
        rw [h.unused _ le_rfl]
        exact ⟨rfl, rfl, rfl⟩
      · rw [List.length_append] at hj
        exact (Nat.le_add_right _ _).trans hj
  | bind i =>
    obtain ⟨c, hc, hstep⟩ := Option.bind_eq_some_iff.mp hstep
    split_ifs at hstep
    obtain rfl := Option.some.inj hstep
    exact h.set hc (h.agrees i c hc).bind t.state.sent
  | publish testId line =>
    simp only [LogStreams.step] at hstep
    split_ifs at hstep
    obtain rfl := Option.some.inj hstep
    refine ⟨fun i d hd => ?_, fun j hj => h.unused j (by simpa using hj)⟩
    obtain ⟨c, hc, rfl⟩ := Option.map_eq_some_iff.mp ((List.getElem?_map).symm.trans hd)
    exact (h.agrees i c hc).publish
  | send i delivered =>
    obtain ⟨c, hc, hstep⟩ := Option.bind_eq_some_iff.mp hstep
    split at hstep
    · next run line rest hlive hqueue =>
      obtain rfl := Option.some.inj hstep
      -- What the step appends to `sent` is what it appends to the record.
      have hsend := (h.agrees i c hc).send hlive hqueue delivered
      have hsent : List.drop t.state.sent.length (if delivered = true then
            t.state.sent ++ [⟨c.user, run, renderLine line⟩] else t.state.sent) =
          if delivered = true then [⟨c.user, run, renderLine line⟩] else [] := by
        cases delivered <;> simp
      rw [← hsent] at hsend
      exact h.set hc hsend _
    · cases hstep
  | disconnect i =>
    obtain ⟨c, hc, hstep⟩ := Option.bind_eq_some_iff.mp hstep
    obtain rfl := Option.some.inj hstep
    have hset := h.set hc (h.agrees i c hc).disconnect t.state.sent
    rwa [Function.update_eq_self] at hset

lemma Faithful.of_fresh (h : t.Fresh) : Faithful t where
  agrees := by
    rw [h.1]
    exact Pool.all_nil
  unused i _ := congrFun h.2 i

lemma faithful_of_reaches {t₀ : Trace} (h₀ : t₀.Fresh)
    (h : Reaches Trace.step (fun _ _ => True) t₀ t) : Faithful t :=
  h.invariant (.of_fresh h₀) fun _ _ _ hi _ hs => faithful_step hi hs

/-- What is on a socket and in its queue, by its record. -/
lemma Agrees.shows (h : Agrees journal c r) :
    (r.since = none → c.bound = false ∧ r.shown = []) ∧
    ∀ n, r.since = some n → c.bound = true ∧ ∃ k,
      r.shown = ((messagesOn c.testId (journal.drop n)).take k).map c.show ∧
      (c.live = true → c.queue.map Prod.snd = (messagesOn c.testId (journal.drop n)).drop k) := by
  obtain ⟨since, shown⟩ := r
  cases since with
  | none =>
    obtain ⟨hbound, -, hshown⟩ := h
    refine ⟨fun _ => ⟨hbound, hshown⟩, ?_⟩
    rintro n ⟨⟩
  | some n =>
    obtain ⟨hbound, -, lines, hshown, htaken, hlive⟩ := h
    refine ⟨by rintro ⟨⟩, ?_⟩
    rintro _ ⟨⟩
    have hlines := List.prefix_iff_eq_take.mp htaken.taken_prefix
    refine ⟨hbound, lines.length, by rw [← hlines, hshown], fun hl => ?_⟩
    rw [← (hlive hl).taken_append_queue, List.drop_left]

/-- In every run, whatever the sockets, the users and the order of the steps: a socket shows the
first lines of its test since its queue was bound, in their order, and as long as its consumer runs
the queue has the other ones. -/
theorem socket_shows_block {t₀ t : Trace} (h₀ : t₀.Fresh)
    (h : Reaches Trace.step (fun _ _ => True) t₀ t) {i : ℕ} {c : LogSocket}
    (hc : t.state.sockets[i]? = some c) :
    ((t.records i).since = none → c.bound = false ∧ (t.records i).shown = []) ∧
    ∀ n, (t.records i).since = some n → c.bound = true ∧ ∃ k,
      (t.records i).shown = ((messagesOn c.testId (t.journal.drop n)).take k).map c.show ∧
      (c.live = true → c.queue.map Prod.snd = (messagesOn c.testId (t.journal.drop n)).drop k) :=
  ((faithful_of_reaches h₀ h).agrees i c hc).shows

/-- No runs, no sockets and no history. -/
def Trace.empty : Trace := ⟨.empty, [], fun _ => ⟨none, []⟩⟩

/-- A socket whose queue is bound between two lines shows the second one. -/
theorem lateSocket_shows : ∃ t : Trace, ∃ c : LogSocket, t.state.sockets[0]? = some c ∧
    t.journal.length = 2 ∧ ∃ k,
      (t.records 0).shown = ((messagesOn c.testId (t.journal.drop 1)).take k).map c.show := by
  obtain ⟨t, ht, hp⟩ := exists_reaches_of_guardedRun Trace.step (fun _ _ => True) .empty
    [.submit sampleBundle 0, .connect (some 1) "t", .publish "t" "a", .bind 0, .publish "t" "b",
      .send 0 true]
    (fun t => t.state.sockets.length = 1 && t.journal.length = 2 && (t.records 0).since = some 1)
    (by decide +kernel)
  simp only [Bool.and_eq_true, decide_eq_true_eq] at hp
  obtain ⟨⟨hone, htwo⟩, hsince⟩ := hp
  obtain ⟨c, hc⟩ := List.length_eq_one_iff.mp hone
  have hget : t.state.sockets[0]? = some c := by rw [hc]; rfl
  obtain ⟨k, hshown, -⟩ := ((socket_shows_block ⟨rfl, rfl⟩ ht hget).2 1 hsince).2
  exact ⟨t, c, hget, htwo, k, hshown⟩

/-! ### From the container to the browser -/

section Output

variable {run : SinkRun} {bucket : LogBucket} {lines done : List String} {s : LogSinks}

/-- Whatever raises, the loop publishes the first lines of the container. -/
lemma published_streamLines (h : run.Reached bucket done done done s) (rest : List String) :
    ∃ p, p <+: rest ∧ (run.streamLines done.length rest s).2.published = done ++ p := by
  induction rest generalizing done s with
  | nil => exact ⟨[], List.prefix_rfl, by rw [List.append_nil]; exact h.published⟩
  | cons line rest ih =>
    simp only [SinkRun.streamLines, Bind.bind]
    rcases h.iteration line with ⟨s', hrun, -, h'⟩ | ⟨e, s', w, q, hrun, -, h', hq⟩
    · obtain ⟨p, hp, hpublished⟩ := ih h'
      rw [List.length_append, List.length_singleton, List.append_assoc] at hpublished
      rw [hrun]
      exact ⟨line :: p, (List.cons_prefix_cons.mpr ⟨rfl, hp⟩), hpublished⟩
    · rw [hrun]
      have hq : q = done ∨ q = done ++ [line] := by tauto
      rcases hq with rfl | rfl
      · exact ⟨[], List.nil_prefix, by rw [List.append_nil]; exact h'.published⟩
      · exact ⟨[line], List.cons_prefix_cons.mpr ⟨rfl, List.nil_prefix⟩, h'.published⟩

/-- Where one execution has published the lines of a test, its sockets show a block of the output of
the container. A socket that was bound before the first line, runs and has an empty queue shows all
of it, if nothing raised in the loop of the execution. -/
theorem socket_shows_output {t₀ t : Trace} (h₀ : t₀.Fresh)
    (h : Reaches Trace.step (fun _ _ => True) t₀ t) {run : SinkRun} {bucket : LogBucket}
    {lines : List String}
    (hpublished : messagesOn run.testId.val t.journal =
      (run.streamLines 0 lines (.start bucket)).2.published)
    {i : ℕ} {c : LogSocket} (hc : t.state.sockets[i]? = some c) (htest : c.testId = run.testId) :
    (∃ block, block <:+: lines ∧ (t.records i).shown = block.map c.show) ∧
    ∀ n, (t.records i).since = some n → messagesOn run.testId.val (t.journal.take n) = [] →
      c.live = true → c.queue = [] → (∀ call, run.raises call = false) →
      (t.records i).shown = lines.map c.show := by
  have hstart := run.reached_start bucket
  obtain ⟨hunbound, hbound⟩ := ((faithful_of_reaches h₀ h).agrees i c hc).shows
  rw [htest] at hbound
  obtain ⟨p, hp, hp'⟩ := published_streamLines hstart lines
  have hjournal : messagesOn run.testId.val t.journal <+: lines := by
    rw [hpublished]
    exact hp' ▸ hp
  constructor
  · cases hsince : (t.records i).since with
    | none => exact ⟨[], List.nil_infix, (hunbound hsince).2⟩
    | some n =>
      obtain ⟨-, k, hshown, -⟩ := hbound n hsince
      have htake := (List.take_prefix k (messagesOn run.testId.val (t.journal.drop n))).isInfix
      exact ⟨_, htake.trans ((messagesOn_drop_suffix n _).isInfix.trans hjournal.isInfix), hshown⟩
  · intro n hsince hfirst hlive hqueue hraises
    obtain ⟨-, k, hshown, hrest⟩ := hbound n hsince
    obtain ⟨s, hok, hreached⟩ := hstart.streamLines hraises lines
    -- Nothing was published before the binding, so the queue got all lines.
    have hall : messagesOn run.testId.val (t.journal.drop n) = lines := by
      have hsplit := messagesOn_take_append_drop run.testId.val n t.journal
      rw [hfirst, List.nil_append] at hsplit
      rw [hsplit, hpublished]
      exact (congrArg (fun r => r.2.published) hok).trans hreached.published
    have hwaiting := hrest hlive
    rw [hqueue, hall] at hwaiting
    rw [hshown, hall, List.take_of_length_le (List.drop_eq_nil_iff.mp hwaiting.symm)]

def sampleRun : SinkRun := { steadyRun with testId := sampleBundle.testId }

/-- A browser that is there before the first line is shown all of them. -/
theorem earlySocket_shows_all : ∃ t : Trace, ∃ c : LogSocket, t.state.sockets[0]? = some c ∧
    (t.records 0).shown = ["a", "b"].map c.show := by
  obtain ⟨t, ht, hp⟩ := exists_reaches_of_guardedRun Trace.step (fun _ _ => True) .empty
    [.submit sampleBundle 0, .connect (some 1) "t", .bind 0, .publish "t" "a", .publish "t" "b",
      .send 0 true, .send 0 true]
    (fun t => t.state.sockets = [⟨1, "t", true, true, []⟩] &&
      messagesOn "t" t.journal = ["a", "b"] && (t.records 0).since = some 0)
    (by decide +kernel)
  simp only [Bool.and_eq_true, decide_eq_true_eq] at hp
  obtain ⟨⟨hsockets, hjournal⟩, hsince⟩ := hp
  have hget : t.state.sockets[0]? = some ⟨1, "t", true, true, []⟩ := by rw [hsockets]; rfl
  obtain ⟨s, hok, hreached⟩ :=
    (sampleRun.reached_start (Table.empty _)).streamLines (fun _ => rfl) ["a", "b"]
  have hpublished : messagesOn sampleRun.testId.val t.journal =
      (sampleRun.streamLines 0 ["a", "b"] (.start (Table.empty _))).2.published :=
    hjournal.trans ((congrArg (fun r => r.2.published) hok).trans hreached.published).symm
  exact ⟨t, _, hget, (socket_shows_output ⟨rfl, rfl⟩ ht hpublished hget rfl).2 0 hsince rfl rfl rfl
    fun _ => rfl⟩

end Output

end LogStreams

end TestOrch
