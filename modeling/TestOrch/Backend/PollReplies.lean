import TestOrch.Backend.PollRun

/-!
# The replies of one poll

The consumer of a poll (`_consume_fanout` with the callbacks of `ws_admin`, while no newer poll is
started) takes one message after another: it renders it, sends the row if there is one, and calls
`on_reply`. The grace timer runs beside it. The counter counts messages; which hosts they come from
and whether they gave a row does not matter to it.
-/

namespace TestOrch

open Transition

inductive Sent where
  | row (host : String) (fragment : String)
  | sentinel (text : String)
  deriving DecidableEq, Repr

inductive Consumer where
  | receiving
  | sending (body fragment : String)
  /-- It awaits call `i` on the poll state. -/
  | replying (i : ℕ)
  | ended
  deriving DecidableEq, Repr

/-- The message that the consumer has taken and not counted yet. -/
def Consumer.inHand : Consumer → List String
  | .sending body _ => [body]
  | _ => []

/-- A poll, its consumer, the messages still to be taken, and what was sent. -/
structure Replies where
  run : PollRun
  inbox : List String
  consumer : Consumer
  sent : List Sent
  deriving DecidableEq, Repr

inductive ReplyAct where
  /-- The consumer takes the next message. -/
  | take
  /-- The send of a row ends. -/
  | rowSent (delivered : Bool)
  /-- The grace timer fires. -/
  | timer
  /-- Call `i` on the poll state gets the lock. -/
  | acquire (i : ℕ)
  /-- The send of call `i` ends. -/
  | settle (i : ℕ) (delivered : Bool)
  /-- The call that the consumer awaits has returned. -/
  | resume

namespace Replies

/-- A poll of `total` hosts on whose exchange `inbox` arrives. -/
def init (total : ℕ) (inbox : List String) : Replies := ⟨.init total, inbox, .receiving, []⟩

/-- `on_message`: the consumer calls `on_reply`. -/
def onMessage (s : Replies) : Option Replies := do
  let run ← s.run.step .reply
  some { s with run := run, consumer := .replying s.run.calls.length }

def text? (s : Replies) (i : ℕ) : Option String :=
  match s.run.calls[i]? with
  | some ⟨_, .sending text, _⟩ => some text
  | _ => none

def step (py : PyText) (s : Replies) : ReplyAct → Option Replies
  | .take =>
    match s.consumer, s.inbox with
    | .receiving, body :: rest =>
      match renderStatusRow py body with
      | .ok "" => onMessage { s with inbox := rest }
      | .ok fragment => some { s with inbox := rest, consumer := .sending body fragment }
      | .error _ => some { s with inbox := rest, consumer := .ended }
    | _, _ => none
  | .rowSent delivered =>
    match s.consumer with
    | .sending body fragment =>
      if delivered then
        onMessage { s with sent := s.sent ++ [.row ((rowHost py body).getD "") fragment] }
      else some { s with consumer := .ended }
    | _ => none
  | .timer => do
    let run ← s.run.step .timer
    some { s with run := run }
  | .acquire i => do
    let run ← s.run.step (.acquire i)
    some { s with run := run }
  | .settle i delivered => do
    let text ← s.text? i
    let run ← s.run.step (.settle i delivered)
    some { s with
      run := run
      -- an exception of the send leaves the consumer that awaits the call
      consumer := if s.consumer = .replying i && !delivered then .ended else s.consumer
      sent := if delivered then s.sent ++ [.sentinel text] else s.sent }
  | .resume =>
    match s.consumer with
    | .replying i => do
      let c ← s.run.calls[i]?
      if c.emission = .finished then some { s with consumer := .receiving } else none
    | _ => none

/-- The steps, one rule for each thing the consumer or a call can do. -/
inductive Rule (py : PyText) (s : Replies) : ReplyAct → Replies → Prop
  | skip {body rest run} (hc : s.consumer = .receiving) (hi : s.inbox = body :: rest)
      (hbody : renderStatusRow py body = .ok "") (hrun : s.run.step .reply = some run) :
      Rule py s .take
        { s with run := run, inbox := rest, consumer := .replying s.run.calls.length }
  | take {body fragment rest} (hc : s.consumer = .receiving) (hi : s.inbox = body :: rest)
      (hbody : renderStatusRow py body = .ok fragment) (hrow : fragment ≠ "") :
      Rule py s .take { s with inbox := rest, consumer := .sending body fragment }
  | raise {body rest e} (hc : s.consumer = .receiving) (hi : s.inbox = body :: rest)
      (hbody : renderStatusRow py body = .error e) :
      Rule py s .take { s with inbox := rest, consumer := .ended }
  | row {body fragment run} (hc : s.consumer = .sending body fragment)
      (hrun : s.run.step .reply = some run) :
      Rule py s (.rowSent true)
        { s with
          run := run
          consumer := .replying s.run.calls.length
          sent := s.sent ++ [.row ((rowHost py body).getD "") fragment] }
  | rowFails {body fragment} (hc : s.consumer = .sending body fragment) :
      Rule py s (.rowSent false) { s with consumer := .ended }
  | timer {run} (hrun : s.run.step .timer = some run) : Rule py s .timer { s with run := run }
  | acquire {i run} (hrun : s.run.step (.acquire i) = some run) :
      Rule py s (.acquire i) { s with run := run }
  | settle {i c text run} (hc : s.run.calls[i]? = some c) (he : c.emission = .sending text)
      (hrun : s.run.step (.settle i true) = some run) :
      Rule py s (.settle i true) { s with run := run, sent := s.sent ++ [.sentinel text] }
  | settleFails {i run consumer} (hc : consumer = s.consumer ∨ consumer = .ended)
      (hrun : s.run.step (.settle i false) = some run) :
      Rule py s (.settle i false) { s with run := run, consumer := consumer }
  | resume {i} (hc : s.consumer = .replying i) : Rule py s .resume { s with consumer := .receiving }

variable {py : PyText} {s s' : Replies} {total : ℕ} {msgs : List String}

lemma onMessage_eq_some (h : s.onMessage = some s') : ∃ run, s.run.step .reply = some run ∧
    s' = { s with run := run, consumer := .replying s.run.calls.length } := by
  simp only [onMessage, Option.bind_eq_bind, Option.bind_eq_some_iff] at h
  obtain ⟨run, hrun, h⟩ := h
  exact ⟨run, hrun, (Option.some.inj h).symm⟩

lemma Rule.of_take (h : s.step py .take = some s') : Rule py s .take s' := by
  obtain ⟨run, inbox, consumer, sent⟩ := s
  cases consumer with
  | receiving =>
    cases inbox with
    | nil => cases h
    | cons body rest =>
      cases hbody : renderStatusRow py body with
      | error e =>
        simp only [Replies.step, hbody] at h
        obtain rfl := Option.some.inj h
        exact .raise rfl rfl hbody
      | ok fragment =>
        by_cases hempty : fragment = ""
        · subst hempty
          simp only [Replies.step, hbody] at h
          obtain ⟨run', hrun, rfl⟩ := onMessage_eq_some h
          exact .skip rfl rfl hbody hrun
        · simp only [Replies.step, hbody] at h
          obtain rfl := Option.some.inj h
          exact .take rfl rfl hbody hempty
  | sending body fragment => cases h
  | replying i => cases h
  | ended => cases h

/-- Every step is an instance of a rule. -/
theorem Rule.of_step {a : ReplyAct} (h : s.step py a = some s') : Rule py s a s' := by
  cases a with
  | take => exact .of_take h
  | rowSent delivered =>
    cases hc : s.consumer with
    | sending body fragment =>
      simp only [Replies.step, hc] at h
      cases delivered with
      | true =>
        obtain ⟨run, hrun, rfl⟩ := onMessage_eq_some h
        exact .row hc hrun
      | false =>
        obtain rfl := Option.some.inj h
        exact .rowFails hc
    | receiving => simp [Replies.step, hc] at h
    | replying i => simp [Replies.step, hc] at h
    | ended => simp [Replies.step, hc] at h
  | timer =>
    simp only [Replies.step, Option.bind_eq_bind, Option.bind_eq_some_iff] at h
    obtain ⟨run, hrun, h⟩ := h
    obtain rfl := Option.some.inj h
    exact .timer hrun
  | acquire i =>
    simp only [Replies.step, Option.bind_eq_bind, Option.bind_eq_some_iff] at h
    obtain ⟨run, hrun, h⟩ := h
    obtain rfl := Option.some.inj h
    exact .acquire hrun
  | settle i delivered =>
    simp only [Replies.step, Option.bind_eq_bind, Option.bind_eq_some_iff] at h
    obtain ⟨text, htext, run, hrun, h⟩ := h
    obtain rfl := Option.some.inj h
    cases delivered with
    | true =>
      unfold text? at htext
      split at htext
      · next hc =>
        obtain rfl := Option.some.inj htext
        simpa using Rule.settle hc rfl hrun
      · cases htext
    | false =>
      refine .settleFails ?_ hrun
      split_ifs
      · exact .inr rfl
      · exact .inl rfl
  | resume =>
    cases hc : s.consumer with
    | replying i =>
      simp only [Replies.step, hc, Option.bind_eq_bind, Option.bind_eq_some_iff] at h
      obtain ⟨c, -, h⟩ := h
      split_ifs at h
      obtain rfl := Option.some.inj h
      exact .resume hc
    | receiving => simp [Replies.step, hc] at h
    | sending body fragment => simp [Replies.step, hc] at h
    | ended => simp [Replies.step, hc] at h

/-- The row of every host that the given messages name was sent. -/
def RowsSent (py : PyText) (bodies : List String) (sent : List Sent) : Prop :=
  ∀ body ∈ bodies, ∀ host, rowHost py body = some host → ∃ fragment, .row host fragment ∈ sent

lemma RowsSent.append {bodies : List String} {sent : List Sent} (h : RowsSent py bodies sent)
    (more : List Sent) : RowsSent py bodies (sent ++ more) := by
  intro body hbody host hhost
  obtain ⟨fragment, hmem⟩ := h body hbody host hhost
  exact ⟨fragment, List.mem_append_left _ hmem⟩

lemma RowsSent.take {bodies rest : List String} {sent : List Sent} (h : RowsSent py bodies sent)
    {n : ℕ} (hn : n ≤ bodies.length) : RowsSent py ((bodies ++ rest).take n) sent := by
  intro body hbody
  rw [List.take_append_of_le_length hn] at hbody
  exact h body (List.mem_of_mem_take hbody)

/-- The messages `done` are counted and their rows sent; a consumer that did not end by an exception
has only one more message in hand. -/
structure Handled (py : PyText) (msgs done : List String) (s : Replies) : Prop where
  prefix_ : done <+: msgs
  rest : s.consumer ≠ .ended → msgs = done ++ s.consumer.inHand ++ s.inbox
  counted : s.run.recorded = done.length
  rows : RowsSent py done s.sent

/-- Before each sentinel that says "All", enough messages had come and their rows were sent. -/
def AllCovered (py : PyText) (total : ℕ) (msgs : List String) (sent : List Sent) : Prop :=
  ∀ before text after, sent = before ++ .sentinel text :: after → saysAll text →
    total ≤ msgs.length ∧ RowsSent py (msgs.take total) before

/-- A sentinel that is appended has to be covered by what was sent. -/
lemma AllCovered.append {sent : List Sent} {x : Sent} (h : AllCovered py total msgs sent)
    (hx : ∀ text, x = .sentinel text → saysAll text →
      total ≤ msgs.length ∧ RowsSent py (msgs.take total) sent) :
    AllCovered py total msgs (sent ++ [x]) := by
  intro before text after heq hall
  rcases List.eq_nil_or_concat after with rfl | ⟨after, y, rfl⟩
  · obtain ⟨rfl, hlast⟩ := List.append_inj' heq rfl
    exact hx text (List.singleton_inj.mp hlast) hall
  · have heq' : sent ++ [x] = (before ++ .sentinel text :: after) ++ [y] := by
      rw [heq]
      simp
    obtain ⟨hsent, -⟩ := List.append_inj' heq' rfl
    exact h before text after hsent hall

/-- What holds in every state of a poll. -/
structure Truthful (py : PyText) (total : ℕ) (msgs : List String) (s : Replies) : Prop where
  latched : PollRun.Latched total s.run
  handled : ∃ done, Handled py msgs done s
  covered : AllCovered py total msgs s.sent

lemma Truthful.init (py : PyText) (total : ℕ) (msgs : List String) :
    Truthful py total msgs (.init total msgs) where
  latched := .init total
  handled := ⟨[], List.nil_prefix, fun _ => rfl, rfl, fun _ h => absurd h List.not_mem_nil⟩
  covered := by
    intro before text after heq
    simp [Replies.init] at heq

/-- The consumer counts the message that it has in hand, once its row is sent. -/
lemma Handled.count {done inbox : List String} {run : PollRun} {sent : List Sent} {body : String}
    (h : Handled py msgs done s) (hc : s.consumer ≠ .ended) {i : ℕ}
    (hhand : s.consumer.inHand ++ s.inbox = body :: inbox)
    (hrun : s.run.step .reply = some run) (hrows : RowsSent py (done ++ [body]) sent) :
    Handled py msgs (done ++ [body]) ⟨run, inbox, .replying i, sent⟩ := by
  have hmsgs : msgs = done ++ [body] ++ inbox := by
    rw [h.rest hc, List.append_assoc, hhand, List.append_assoc]
    rfl
  refine ⟨⟨inbox, hmsgs.symm⟩, fun _ => ?_, ?_, hrows⟩
  · simpa [Consumer.inHand] using hmsgs
  · rw [PollRun.recorded_step hrun, h.counted]
    simp

/-- A step of a call leaves the handling of the messages alone. -/
lemma Handled.other {done : List String} {run : PollRun} {a : PollAct} (h : Handled py msgs done s)
    (ha : a ≠ .reply) (hrun : s.run.step a = some run) (more : List Sent) {consumer : Consumer}
    (hc : consumer = s.consumer ∨ consumer = .ended) :
    Handled py msgs done ⟨run, s.inbox, consumer, s.sent ++ more⟩ := by
  refine ⟨h.prefix_, ?_, ?_, h.rows.append more⟩
  · intro hne
    rcases hc with rfl | rfl
    · exact h.rest hne
    · exact absurd rfl hne
  · rw [PollRun.recorded_step hrun, if_neg ha]
    exact h.counted

/-- Every step keeps it. -/
lemma Truthful.step {a : ReplyAct} (h : Truthful py total msgs s) (hs : s.step py a = some s') :
    Truthful py total msgs s' := by
  obtain ⟨done, hd⟩ := h.handled
  cases Rule.of_step hs with
  | @skip body rest run hc hi hbody hrun =>
    -- A body without a host renders to no row, but counts as a reply.
    have hnone : rowHost py body = none := (renderStatusRow_ok hbody).mp rfl
    refine ⟨h.latched.step hrun, ⟨done ++ [body], hd.count ?_ ?_ hrun ?_⟩, h.covered⟩
    · rw [hc]
      exact Consumer.noConfusion
    · rw [hc, hi]
      rfl
    · intro b hb host hhost
      rcases List.mem_append.mp hb with hb | hb
      · exact hd.rows b hb host hhost
      · obtain rfl := List.mem_singleton.mp hb
        rw [hnone] at hhost
        cases hhost
  | @take body fragment rest hc hi =>
    refine ⟨h.latched, ⟨done, hd.prefix_, fun _ => ?_, hd.counted, hd.rows⟩, h.covered⟩
    have hrest := hd.rest (by rw [hc]; exact Consumer.noConfusion)
    rw [hc, hi] at hrest
    simpa [Consumer.inHand] using hrest
  | raise =>
    exact ⟨h.latched, ⟨done, hd.prefix_, fun hne => absurd rfl hne, hd.counted, hd.rows⟩, h.covered⟩
  | @row body fragment run hc hrun =>
    -- The row has been sent, and only now its reply counts.
    have hne : s.consumer ≠ .ended := by
      rw [hc]
      exact Consumer.noConfusion
    refine ⟨h.latched.step hrun, ⟨done ++ [body], hd.count hne ?_ hrun ?_⟩, h.covered.append ?_⟩
    · rw [hc]
      rfl
    · intro b hb host hhost
      rcases List.mem_append.mp hb with hb | hb
      · exact hd.rows.append _ b hb host hhost
      · obtain rfl := List.mem_singleton.mp hb
        rw [hhost]
        exact ⟨fragment, by simp⟩
    · rintro text hx
      cases hx
  | rowFails =>
    exact ⟨h.latched, ⟨done, hd.prefix_, fun hne => absurd rfl hne, hd.counted, hd.rows⟩, h.covered⟩
  | timer hrun =>
    -- The timer and the lock touch no message.
    have hd' := hd.other PollAct.noConfusion hrun [] (.inl rfl)
    rw [List.append_nil] at hd'
    exact ⟨h.latched.step hrun, ⟨done, hd'⟩, h.covered⟩
  | acquire hrun =>
    have hd' := hd.other PollAct.noConfusion hrun [] (.inl rfl)
    rw [List.append_nil] at hd'
    exact ⟨h.latched.step hrun, ⟨done, hd'⟩, h.covered⟩
  | @settle i c text run hc he hrun =>
    refine ⟨h.latched.step hrun, ⟨done, hd.other PollAct.noConfusion hrun _ (.inl rfl)⟩,
      h.covered.append ?_⟩
    rintro text' hx hall
    obtain rfl := Sent.sentinel.inj hx
    -- the call began its send with as many replies as hosts, and each is a counted message
    have htext := h.latched.texts i c hc text he
    rw [htext, saysAll_renderSentinel] at hall
    have hle : total ≤ done.length := by
      have := h.latched.began i c hc
      rw [← hd.counted]
      omega
    obtain ⟨rest, rfl⟩ := hd.prefix_
    refine ⟨?_, hd.rows.take hle⟩
    rw [List.length_append]
    omega
  | settleFails hc hrun =>
    have hd' := hd.other PollAct.noConfusion hrun [] hc
    rw [List.append_nil] at hd'
    exact ⟨h.latched.step hrun, ⟨done, hd'⟩, h.covered⟩
  | resume hc =>
    refine ⟨h.latched, ⟨done, hd.prefix_, fun _ => ?_, hd.counted, hd.rows⟩, h.covered⟩
    have hrest := hd.rest (by rw [hc]; exact Consumer.noConfusion)
    rw [hc] at hrest
    exact hrest

/-! ### The run in which the messages come first and every send delivers -/

/-- The rows that were sent come from the given messages. -/
def RowsFrom (py : PyText) (bodies : List String) (sent : List Sent) : Prop :=
  ∀ host fragment, .row host fragment ∈ sent → ∃ body ∈ bodies, rowHost py body = some host

/-- A message is rendered, its row sent if there is one, and counted. -/
lemma exists_counted {body : String} {rest bodies : List String} {run : PollRun}
    (hc : s.consumer = .receiving) (hi : s.inbox = body :: rest)
    (hr : ∃ fragment, renderStatusRow py body = .ok fragment)
    (hrun : s.run.step .reply = some run) (hrows : RowsFrom py bodies s.sent) :
    ∃ sent, RowsFrom py (bodies ++ [body]) sent ∧ Reaches (Replies.step py) (fun _ _ => True) s
      ⟨run, rest, .replying s.run.calls.length, sent⟩ := by
  obtain ⟨fragment, hr⟩ := hr
  have hold : RowsFrom py (bodies ++ [body]) s.sent := by
    intro host fragment hmem
    obtain ⟨b, hb, hhost⟩ := hrows host fragment hmem
    exact ⟨b, List.mem_append_left _ hb, hhost⟩
  by_cases hempty : fragment = ""
  · subst hempty
    refine ⟨s.sent, hold, .single (a := .take) trivial ?_⟩
    simp [Replies.step, hc, hi, hr, onMessage, hrun]
  · -- A row that is not empty is of a host, and takes one step more.
    obtain ⟨host, hhost⟩ : ∃ host, rowHost py body = some host := by
      rw [← Option.ne_none_iff_exists']
      intro h
      exact hempty ((renderStatusRow_ok hr).mpr h)
    refine ⟨s.sent ++ [.row host fragment], ?_, ?_⟩
    · intro host' fragment' hmem
      rcases List.mem_append.mp hmem with hmem | hmem
      · exact hold host' fragment' hmem
      · obtain ⟨rfl, rfl⟩ := Sent.row.inj (List.mem_singleton.mp hmem)
        exact ⟨body, by simp, hhost⟩
    · have htake : s.step py .take =
        some { s with inbox := rest, consumer := .sending body fragment } := by
        simp [Replies.step, hc, hi, hr]
      refine .next (.single (a := .take) trivial htake) (a := .rowSent true) trivial ?_
      simp [Replies.step, onMessage, hrun, hhost]

/-- As long as fewer messages than hosts are counted the consumer goes on to receive. -/
lemma exists_prefix (hr : ∀ body ∈ msgs, ∃ fragment, renderStatusRow py body = .ok fragment) (k : ℕ)
    (hk : k < total) (hlen : k ≤ msgs.length) :
    ∃ s, Reaches (Replies.step py) (fun _ _ => True) (.init total msgs) s ∧
      s.consumer = .receiving ∧ s.run.poll = ⟨total, k, false, false⟩ ∧ s.inbox = msgs.drop k ∧
      RowsFrom py (msgs.take k) s.sent := by
  induction k with
  | zero => exact ⟨_, .refl, rfl, rfl, rfl, fun _ _ h => absurd h List.not_mem_nil⟩
  | succ k ih =>
    obtain ⟨s, hs, hc, hpoll, hi, hrows⟩ := ih (by omega) (by omega)
    have hlt : k < msgs.length := hlen
    rw [List.drop_eq_getElem_cons hlt] at hi
    obtain ⟨run, hrun, hpoll', hcall⟩ : ∃ run, s.run.step .reply = some run ∧
        run.poll = ⟨total, k + 1, false, false⟩ ∧
        run.calls[s.run.calls.length]? = some ⟨true, .finished, 0⟩ := by
      have hopen : ¬total ≤ k + 1 := by omega
      simp [PollRun.step, hpoll, PollState.onReply, PollState.complete, hopen]
    obtain ⟨sent, hrows', hs'⟩ := exists_counted hc hi (hr _ (List.getElem_mem hlt)) hrun hrows
    rw [← List.take_succ_eq_append_getElem hlt] at hrows'
    refine ⟨⟨run, msgs.drop (k + 1), .receiving, sent⟩,
      .next (hs.trans hs') (a := .resume) trivial ?_, rfl, hpoll', rfl, hrows'⟩
    simp [Replies.step, hcall]

lemma exists_locked {i : ℕ} {reply : Bool} {n : ℕ}
    (hc : s.run.calls[i]? = some ⟨reply, .acquiring, n⟩) (hfree : s.run.poll.locked = false)
    (hopen : s.run.poll.completed = false) :
    ∃ s', s.step py (.acquire i) = some s' ∧ s'.sent = s.sent ∧ s'.run.calls[i]? =
      some ⟨reply, .sending (renderSentinel s.run.poll.received s.run.poll.total),
        s.run.recorded⟩ := by
  obtain ⟨hi, hget⟩ := List.getElem?_eq_some_iff.mp hc
  simp [Replies.step, PollRun.step, hget, PollState.acquire, hfree, hopen, hi]

lemma exists_settled {i : ℕ} {reply : Bool} {text : String} {n : ℕ}
    (hc : s.run.calls[i]? = some ⟨reply, .sending text, n⟩) :
    ∃ s', s.step py (.settle i true) = some s' ∧ s'.sent = s.sent ++ [.sentinel text] := by
  simp [Replies.step, PollRun.step, text?, hc]

/-- A call that gets the lock first, and whose send delivers, sends the sentinel. -/
lemma exists_emitted {i : ℕ} {reply : Bool} {n : ℕ}
    (hc : s.run.calls[i]? = some ⟨reply, .acquiring, n⟩) (hfree : s.run.poll.locked = false)
    (hopen : s.run.poll.completed = false) :
    ∃ s', Reaches (Replies.step py) (fun _ _ => True) s s' ∧
      s'.sent = s.sent ++ [.sentinel (renderSentinel s.run.poll.received s.run.poll.total)] := by
  obtain ⟨s₁, hacquire, hsent₁, hc₁⟩ := exists_locked hc hfree hopen
  obtain ⟨s₂, hsettle, hsent₂⟩ := exists_settled hc₁
  refine ⟨s₂, .next (.single trivial hacquire) trivial hsettle, ?_⟩
  rw [hsent₂, hsent₁]

/-- With as many messages as hosts the sentinel says "All", with the rows of these messages. -/
lemma exists_all_sent (hr : ∀ body ∈ msgs, ∃ fragment, renderStatusRow py body = .ok fragment)
    (h₀ : 0 < total) (hlen : total ≤ msgs.length) :
    ∃ s sent, Reaches (Replies.step py) (fun _ _ => True) (.init total msgs) s ∧
      s.sent = sent ++ [.sentinel (renderSentinel total total)] ∧
      RowsFrom py (msgs.take total) sent := by
  obtain ⟨k, rfl⟩ : ∃ k, total = k + 1 := ⟨total - 1, by omega⟩
  obtain ⟨s, hs, hc, hpoll, hi, hrows⟩ :=
    exists_prefix hr k (Nat.lt_succ_self k) (by omega)
  have hlt : k < msgs.length := hlen
  rw [List.drop_eq_getElem_cons hlt] at hi
  obtain ⟨run, hrun, hpoll', hcall⟩ : ∃ run, s.run.step .reply = some run ∧
      run.poll = ⟨k + 1, k + 1, false, false⟩ ∧
      run.calls[s.run.calls.length]? = some ⟨true, .acquiring, 0⟩ := by
    simp [PollRun.step, hpoll, PollState.onReply, PollState.complete]
  obtain ⟨sent, hrows', hs'⟩ := exists_counted hc hi (hr _ (List.getElem_mem hlt)) hrun hrows
  rw [← List.take_succ_eq_append_getElem hlt] at hrows'
  obtain ⟨s', hs'', hsent⟩ :=
    exists_emitted (s := ⟨run, msgs.drop (k + 1), .replying s.run.calls.length, sent⟩) hcall
      (by rw [hpoll']) (by rw [hpoll'])
  refine ⟨s', sent, (hs.trans hs').trans hs'', ?_, hrows'⟩
  rw [hsent, hpoll']

end Replies

/-- If the sentinel that all runners responded was sent, a row of each host was sent before it. -/
def Honest (hosts : List String) (sent : List Sent) : Prop :=
  ∀ before text after, sent = before ++ .sentinel text :: after → saysAll text →
    ∀ host ∈ hosts, ∃ fragment, .row host fragment ∈ before

/-- On given messages the sentinel is honest in every run exactly if fewer messages than hosts come,
or the first ones give a row of every host. -/
theorem all_responded_iff {py : PyText} {hosts msgs : List String} (h₀ : hosts ≠ [])
    (hr : ∀ body ∈ msgs, ∃ fragment, renderStatusRow py body = .ok fragment) :
    (∀ s, Reaches (Replies.step py) (fun _ _ => True) (.init hosts.length msgs) s →
      Honest hosts s.sent) ↔
    (hosts.length ≤ msgs.length →
      ∀ host ∈ hosts, ∃ body ∈ msgs.take hosts.length, rowHost py body = some host) := by
  constructor
  · intro hall hlen host hhost
    have hpos : 0 < hosts.length := List.length_pos_iff.mpr h₀
    obtain ⟨s, sent, hs, hsent, hrows⟩ := Replies.exists_all_sent hr hpos hlen
    obtain ⟨fragment, hmem⟩ :=
      hall s hs sent _ [] hsent (saysAll_renderSentinel.mpr ⟨hpos, le_rfl⟩) host hhost
    exact hrows host fragment hmem
  · intro hcover s hs before text after hsent hall host hhost
    have ht : Replies.Truthful py hosts.length msgs s :=
      hs.invariant (.init py hosts.length msgs) fun _ _ _ ht _ hs => ht.step hs
    obtain ⟨hlen, hrows⟩ := ht.covered before text after hsent hall
    obtain ⟨body, hbody, hname⟩ := hcover hlen host hhost
    exact hrows body hbody host hname

/-- The conversions, on texts of one key and numbers without decimals. -/
def samplePyText : PyText where
  loads body :=
    if body = "\x7b\"host_id\": \"a\"\x7d" then .value (.object [("host_id", .str "a")])
    else if body = "\x7b\"host_id\": \"b\"\x7d" then .value (.object [("host_id", .str "b")])
    else .decodeError
  str
    | .str s => s
    | .int i => toString i
    | v => v.typeName
  fixed
    | .int i, 0 => .ok (toString i)
    | .int i, n => .ok (toString i ++ "." ++ String.ofList (List.replicate n '0'))
    | _, _ => .error (.typeError "unsupported format string")

/-- Of two hosts the first replies twice. -/
def repeatedReply : List String := ["\x7b\"host_id\": \"a\"\x7d", "\x7b\"host_id\": \"a\"\x7d"]

theorem bothReplied_honest : ∃ s : Replies,
    s.sent.getLast? = some (.sentinel (renderSentinel 2 2)) ∧ Honest ["a", "b"] s.sent := by
  obtain ⟨s, hs, hp⟩ := exists_reaches_of_guardedRun (Replies.step samplePyText) (fun _ _ => True)
    (.init 2 ["\x7b\"host_id\": \"a\"\x7d", "\x7b\"host_id\": \"b\"\x7d"])
    [.take, .rowSent true, .resume, .take, .rowSent true, .acquire 1, .settle 1 true]
    (fun s => s.sent.getLast? = some (.sentinel (renderSentinel 2 2))) (by decide +kernel)
  simp only [decide_eq_true_eq] at hp
  have hr : ∀ body ∈ ["\x7b\"host_id\": \"a\"\x7d", "\x7b\"host_id\": \"b\"\x7d"],
      ∃ fragment, renderStatusRow samplePyText body = .ok fragment := by
    simp only [List.forall_mem_cons]
    exact ⟨⟨_, by rfl⟩, ⟨_, by rfl⟩, by simp⟩
  exact ⟨s, hp, (all_responded_iff (List.cons_ne_nil _ _) hr).mpr (by decide +kernel) s hs⟩

/-- One host replies twice, and the sentinel says that both responded. -/
theorem repeatedReply_dishonest :
    ¬ ∀ (py : PyText) (hosts msgs : List String), hosts ≠ [] →
      (∀ body ∈ msgs, ∃ fragment, renderStatusRow py body = .ok fragment) →
      ∀ s, Reaches (Replies.step py) (fun _ _ => True) (.init hosts.length msgs) s →
        Honest hosts s.sent := by
  intro h
  obtain ⟨s, hs, hp⟩ := exists_reaches_of_guardedRun (Replies.step samplePyText) (fun _ _ => True)
    (.init 2 repeatedReply)
    [.take, .rowSent true, .resume, .take, .rowSent true, .acquire 1, .settle 1 true]
    (fun s => s.sent.getLast? = some (.sentinel (renderSentinel 2 2)) &&
      s.sent.all fun x => match x with
        | .row host _ => host = "a"
        | .sentinel _ => true) (by decide +kernel)
  simp only [Bool.and_eq_true, decide_eq_true_eq, List.all_eq_true] at hp
  obtain ⟨hlast, hrows⟩ := hp
  have hr : ∀ body ∈ repeatedReply,
      ∃ fragment, renderStatusRow samplePyText body = .ok fragment := by
    simp only [repeatedReply, List.forall_mem_cons]
    exact ⟨⟨_, by rfl⟩, ⟨_, by rfl⟩, by simp⟩
  obtain ⟨before, hsent⟩ := List.getLast?_eq_some_iff.mp hlast
  obtain ⟨fragment, hmem⟩ := h samplePyText ["a", "b"] repeatedReply (List.cons_ne_nil _ _) hr s hs
    before _ [] hsent (by decide +kernel) "b" (by simp)
  have hb := hrows (.row "b" fragment) (hsent ▸ List.mem_append_left _ hmem)
  simp at hb

end TestOrch
