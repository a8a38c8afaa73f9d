import TestOrch.Backend.WsAdmin

/-!
# The steps of the poll tasks

What a step of a consumer or of a grace timer of an admin socket does: which code the task goes on
with and what is sent to the browser. Everything else that the step changes is in the poll states.
-/

namespace TestOrch.WsAdmin

/-- A text that is about to be sent is that of a sentinel. -/
def Emission.IsSentinel : Emission → Prop
  | .sending text => ∃ received total, text = renderSentinel received total
  | _ => True

/-- A sentinel that the task is about to send. -/
def Code.IsSentinel : Code → Prop
  | .consumer (.emitting _ e) => Emission.IsSentinel e
  | .timer _ (.emitting e) => Emission.IsSentinel e
  | _ => True

/-- The consumer has dealt with the rows of all messages that it has taken, and goes on. -/
def ConsumerPc.between : ConsumerPc → Bool
  | .receiving | .emitting .. => true
  | _ => false

/-- What a task does in one step and sends in it, given the fragment that its message renders to. -/
inductive TaskEffect (fragment : String) (delivered : Bool) : Code → Code → List String → Prop
  | connect (h : delivered = true) :
      TaskEffect fragment delivered (.consumer .connecting) (.consumer .receiving) []
  | connectFails (h : delivered = false) :
      TaskEffect fragment delivered (.consumer .connecting) (.consumer .finished) []
  | skip {pc} (h : fragment = "") (hpc : pc.between = true) :
      TaskEffect fragment delivered (.consumer .receiving) (.consumer pc) []
  | take (h : fragment ≠ "") :
      TaskEffect fragment delivered (.consumer .receiving) (.consumer (.sending fragment)) []
  | row {row pc} (h : delivered = true) (hpc : pc.between = true) :
      TaskEffect fragment delivered (.consumer (.sending row)) (.consumer pc) [row]
  | rowFails {row} (h : delivered = false) :
      TaskEffect fragment delivered (.consumer (.sending row)) (.consumer .finished) []
  | emit {i e pc sent} (hpc : pc.between = true ∨ pc = .finished)
      (hsent : sent = [] ∨ ∃ text, e = .sending text ∧ sent = [text]) :
      TaskEffect fragment delivered (.consumer (.emitting i e)) (.consumer pc) sent
  | timer {i pc pc' sent}
      (hsent : sent = [] ∨ ∃ text, pc = .emitting (.sending text) ∧ sent = [text]) :
      TaskEffect fragment delivered (.timer i pc) (.timer i pc') sent

variable {render : String → String} {s s' : Socket} {fragment : String} {delivered : Bool}

/-- The step changes neither the tasks nor what was dispatched, and sends the given texts. -/
structure Sends (s s' : Socket) (sent : List String) : Prop where
  tasks : s'.tasks = s.tasks
  dispatched : s'.dispatched = s.dispatched
  sent : s'.sent = s.sent ++ sent

lemma Sends.nothing (s : Socket) : Sends s s [] := ⟨rfl, rfl, (List.append_nil _).symm⟩

lemma stepEmission_sends {i : ℕ} {e e' : Emission}
    (h : stepEmission s i e delivered = some (s', e')) :
    Emission.IsSentinel e' ∧ ∃ sent, Sends s s' sent ∧
      (sent = [] ∨ ∃ text, e = .sending text ∧ sent = [text]) := by
  unfold stepEmission at h
  split at h
  · next p _ =>
    obtain ⟨⟨p', e''⟩, hp, heq⟩ := Option.map_eq_some_iff.mp h
    obtain ⟨rfl, rfl⟩ := Prod.mk.inj heq
    refine ⟨?_, [], ⟨rfl, rfl, (List.append_nil _).symm⟩, .inl rfl⟩
    unfold PollState.acquire at hp
    split_ifs at hp
    · obtain ⟨-, rfl⟩ := Prod.mk.inj (Option.some.inj hp)
      trivial
    · obtain ⟨-, rfl⟩ := Prod.mk.inj (Option.some.inj hp)
      exact ⟨_, _, rfl⟩
  · next p text _ =>
    obtain ⟨rfl, rfl⟩ := Prod.mk.inj (Option.some.inj h)
    refine ⟨trivial, ?_⟩
    cases delivered with
    | true => exact ⟨[text], ⟨rfl, rfl, rfl⟩, .inr ⟨text, rfl, rfl⟩⟩
    | false => exact ⟨[], ⟨rfl, rfl, (List.append_nil _).symm⟩, .inl rfl⟩
  · cases h

/-- Counting a reply sends nothing by itself. -/
lemma onMessage_sends (s : Socket) (k : ℕ) :
    Sends s (onMessage s k).1 [] ∧ (onMessage s k).2.between = true ∧
      Code.IsSentinel (.consumer (onMessage s k).2) := by
  have hreply : Sends s (guardedOnReply k s).1 [] := by
    unfold guardedOnReply
    split_ifs
    · cases s.polls[s.cells.state]? with
      | none => exact .nothing s
      | some p => exact ⟨rfl, rfl, (List.append_nil _).symm⟩
    · exact .nothing s
  refine ⟨hreply, ?_⟩
  simp only [onMessage]
  cases (guardedOnReply k s).2 <;> exact ⟨rfl, trivial⟩

/-- A step of a consumer, for a poll whose closures render. -/
lemma stepConsumer_effect {k : ℕ} {pc pc' : ConsumerPc} {body : String}
    (hcurrent : isCurrent k s = true)
    (h : stepConsumer render s k pc body delivered = some (s', pc')) :
    Code.IsSentinel (.consumer pc') ∧ ∃ sent, Sends s s' sent ∧
      TaskEffect (render body) delivered (.consumer pc) (.consumer pc') sent := by
  have hrender : guardedRender render k s body = render body := by
    rw [guardedRender, if_pos hcurrent]
  cases pc with
  | connecting =>
    obtain ⟨rfl, rfl⟩ := Prod.mk.inj (Option.some.inj h)
    cases delivered with
    | true => exact ⟨trivial, [], .nothing s, .connect rfl⟩
    | false => exact ⟨trivial, [], .nothing s, .connectFails rfl⟩
  | receiving =>
    simp only [stepConsumer, hrender] at h
    -- An empty fragment is not sent, and its reply counts at once.
    split_ifs at h with hempty
    · obtain ⟨hsends, hbetween, hsentinel⟩ := onMessage_sends s k
      obtain ⟨rfl, rfl⟩ := Prod.mk.inj (Option.some.inj h)
      exact ⟨hsentinel, [], hsends, .skip hempty hbetween⟩
    · obtain ⟨rfl, rfl⟩ := Prod.mk.inj (Option.some.inj h)
      exact ⟨trivial, [], .nothing s, .take hempty⟩
  | sending row =>
    cases delivered with
    | true =>
      obtain ⟨hsends, hbetween, hsentinel⟩ := onMessage_sends { s with sent := s.sent ++ [row] } k
      obtain ⟨rfl, rfl⟩ := Prod.mk.inj (Option.some.inj h)
      exact ⟨hsentinel, [row], ⟨hsends.tasks, hsends.dispatched,
        hsends.sent.trans (List.append_nil _)⟩, .row rfl hbetween⟩
    | false =>
      obtain ⟨rfl, rfl⟩ := Prod.mk.inj (Option.some.inj h)
      exact ⟨trivial, [], .nothing s, .rowFails rfl⟩
  | emitting i e =>
    obtain ⟨⟨s'', e'⟩, he, heq⟩ := Option.map_eq_some_iff.mp h
    obtain ⟨rfl, rfl⟩ := Prod.mk.inj heq
    obtain ⟨hsentinel, sent, hsends, hsent⟩ := stepEmission_sends he
    -- After the sentinel the consumer goes back to its queue, or ends.
    cases e' with
    | finished =>
      refine ⟨?_, sent, hsends, .emit ?_ hsent⟩ <;> dsimp only <;> split_ifs
      · trivial
      · trivial
      · exact .inl rfl
      · exact .inr rfl
    | acquiring => exact ⟨hsentinel, sent, hsends, .emit (.inl rfl) hsent⟩
    | sending text => exact ⟨hsentinel, sent, hsends, .emit (.inl rfl) hsent⟩
  | finished => cases h

lemma stepTimer_effect {k i : ℕ} {pc pc' : TimerPc}
    (h : stepTimer s k i pc delivered = some (s', pc')) :
    Code.IsSentinel (.timer i pc') ∧ ∃ sent, Sends s s' sent ∧
      TaskEffect fragment delivered (.timer i pc) (.timer i pc') sent := by
  cases pc with
  | sleeping =>
    obtain ⟨rfl, rfl⟩ := Prod.mk.inj (Option.some.inj h)
    refine ⟨?_, [], .nothing s, .timer (.inl rfl)⟩
    split_ifs <;> trivial
  | emitting e =>
    obtain ⟨⟨s'', e'⟩, he, heq⟩ := Option.map_eq_some_iff.mp h
    obtain ⟨rfl, rfl⟩ := Prod.mk.inj heq
    obtain ⟨hsentinel, sent, hsends, hsent⟩ := stepEmission_sends he
    refine ⟨?_, sent, hsends, .timer ?_⟩
    · cases e' with
      | finished => trivial
      | acquiring => trivial
      | sending text => exact hsentinel
    · rcases hsent with rfl | ⟨text, rfl, rfl⟩
      · exact .inl rfl
      · exact .inr ⟨text, rfl, rfl⟩
  | finished => cases h

lemma modify_code {tasks : List PollTask} {t : ℕ} {task : PollTask} (h : tasks[t]? = some task)
    (code : Code) : tasks.modify t (fun task => { task with code := code }) =
      tasks.set t { task with code := code } := by
  rw [List.modify_eq_set_getElem?, h]
  rfl

/-- A step of task `t` of a socket whose closures render. -/
theorem step_task_effect {t : ℕ} {body : String} (hcurrent : ∀ k, isCurrent k s = true)
    (h : step render s (.task t body delivered) = some s') :
    ∃ task code' sent, s.tasks[t]? = some task ∧ Code.IsSentinel code' ∧
      TaskEffect (render body) delivered task.code code' sent ∧ SameFrame s s' ∧
      s'.tasks = s.tasks.set t { task with code := code' } ∧
      s'.dispatched = s.dispatched ∧ s'.sent = s.sent ++ sent := by
  have hframe := sameFrame_task h
  obtain ⟨task, htask, h⟩ := Option.bind_eq_some_iff.mp h
  split at h
  · next pc hcode =>
    obtain ⟨⟨s'', pc'⟩, hc, h⟩ := Option.bind_eq_some_iff.mp h
    obtain rfl := Option.some.inj h
    obtain ⟨hsentinel, sent, hsends, heffect⟩ := stepConsumer_effect (hcurrent task.poll) hc
    refine ⟨task, _, sent, htask, hsentinel, hcode ▸ heffect, hframe, ?_, hsends.dispatched,
      hsends.sent⟩
    simp only [Socket.setCode, hsends.tasks, modify_code htask]
  · next i pc hcode =>
    obtain ⟨⟨s'', pc'⟩, hc, h⟩ := Option.bind_eq_some_iff.mp h
    obtain rfl := Option.some.inj h
    obtain ⟨hsentinel, sent, hsends, heffect⟩ := stepTimer_effect hc
    refine ⟨task, _, sent, htask, hsentinel, hcode ▸ heffect, hframe, ?_, hsends.dispatched,
      hsends.sent⟩
    simp only [Socket.setCode, hsends.tasks, modify_code htask]

/-- `CancelledError` ends a task and sends nothing. -/
lemma cancelled_sends (s : Socket) (code : Code) :
    Sends s (cancelled s code).1 [] ∧ ((∃ pc, code = .consumer pc) ∧
      (cancelled s code).2 = .consumer .finished ∨
      ∃ i pc, code = .timer i pc ∧ (cancelled s code).2 = .timer i .finished) := by
  have habandon : ∀ i e, Sends s (abandonEmission s i e) [] := by
    intro i e
    cases e with
    | sending text => exact ⟨rfl, rfl, (List.append_nil _).symm⟩
    | acquiring => exact .nothing s
    | finished => exact .nothing s
  cases code with
  | consumer pc =>
    cases pc with
    | emitting i e => exact ⟨habandon i e, .inl ⟨⟨_, rfl⟩, rfl⟩⟩
    | _ => exact ⟨.nothing s, .inl ⟨⟨_, rfl⟩, rfl⟩⟩
  | timer i pc =>
    cases pc with
    | emitting e => exact ⟨habandon i e, .inr ⟨i, _, rfl, rfl⟩⟩
    | _ => exact ⟨.nothing s, .inr ⟨i, _, rfl, rfl⟩⟩

/-- A cancellation that takes effect. -/
theorem step_cancel_effect {t : ℕ} (h : step render s (.cancel t) = some s') :
    ∃ task code', s.tasks[t]? = some task ∧ SameFrame s s' ∧
      ((∃ pc, task.code = .consumer pc) ∧ code' = .consumer .finished ∨
        ∃ i pc, task.code = .timer i pc ∧ code' = .timer i .finished) ∧
      s'.tasks = s.tasks.set t { task with code := code' } ∧
      s'.dispatched = s.dispatched ∧ s'.sent = s.sent := by
  have hframe := sameFrame_cancel h
  obtain ⟨task, htask, h⟩ := Option.bind_eq_some_iff.mp h
  split_ifs at h
  change some ((cancelled s task.code).1.setCode t (cancelled s task.code).2) = some s' at h
  obtain rfl := Option.some.inj h
  obtain ⟨hsends, hcode⟩ := cancelled_sends s task.code
  refine ⟨task, _, htask, hframe, hcode, ?_, hsends.dispatched,
    hsends.sent.trans (List.append_nil _)⟩
  simp only [Socket.setCode, hsends.tasks, modify_code htask]

/-! ### One consumer for each poll -/

/-- The poll whose consumer task `t` is. -/
def consumerPoll (tasks : List PollTask) (t : ℕ) : Option ℕ :=
  tasks[t]?.bind fun task =>
    match task.code with
    | .consumer _ => some task.poll
    | .timer .. => none

/-- The coroutine has taken a generation and not started its consumer yet. -/
def MainPc.announced : MainPc → Bool
  | .announcing _ | .clearing _ => true
  | _ => false

/-- A poll has one consumer at most; that of the poll that is dispatched next is the one that
`consumer_task` is bound to. -/
structure OneConsumer (s : Socket) : Prop where
  unique : ∀ t t' k, consumerPoll s.tasks t = some k → consumerPoll s.tasks t' = some k → t = t'
  le : ∀ t k, consumerPoll s.tasks t = some k → k ≤ s.cells.myGen
  lt : s.main.announced = true → ∀ t k, consumerPoll s.tasks t = some k → k < s.cells.myGen
  current : ∀ hosts, s.main = .binding hosts →
    ∃ t, s.cells.consumerTask = some t ∧ consumerPoll s.tasks t = some s.cells.myGen

/-- A task whose cancellation is requested stays where it is. -/
lemma getElem?_request {tasks : List PollTask} {i t : ℕ} {task : PollTask}
    (h : (tasks.modify i fun t =>
      if t.code.done then t else { t with cancelRequested := true })[t]? = some task) :
    ∃ task', tasks[t]? = some task' ∧ task.code = task'.code ∧ task.poll = task'.poll := by
  rw [List.getElem?_modify] at h
  obtain ⟨task', htask', rfl⟩ := Option.map_eq_some_iff.mp h
  refine ⟨task', htask', ?_⟩
  split_ifs <;> exact ⟨rfl, rfl⟩

lemma getElem?_cancelInflight {s : Socket} {t : ℕ} {task : PollTask}
    (h : (cancelInflight s).tasks[t]? = some task) :
    ∃ task', s.tasks[t]? = some task' ∧ task.code = task'.code ∧ task.poll = task'.poll := by
  cases hsentinel : s.cells.sentinelTask <;> cases hconsumer : s.cells.consumerTask <;>
    simp only [cancelInflight, hsentinel, hconsumer] at h
  · exact ⟨task, h, rfl, rfl⟩
  · exact getElem?_request h
  · exact getElem?_request h
  · obtain ⟨task₁, h₁, hcode₁, hpoll₁⟩ := getElem?_request h
    obtain ⟨task₂, h₂, hcode₂, hpoll₂⟩ := getElem?_request h₁
    exact ⟨task₂, h₂, hcode₁.trans hcode₂, hpoll₁.trans hpoll₂⟩

lemma length_cancelInflight (s : Socket) : (cancelInflight s).tasks.length = s.tasks.length := by
  cases hsentinel : s.cells.sentinelTask <;> cases hconsumer : s.cells.consumerTask <;>
    simp [cancelInflight, hsentinel, hconsumer]

lemma consumerPoll_of_cancelInflight {t k : ℕ}
    (h : consumerPoll (cancelInflight s).tasks t = some k) : consumerPoll s.tasks t = some k := by
  obtain ⟨task, htask, hk⟩ := Option.bind_eq_some_iff.mp h
  obtain ⟨task', htask', hcode, hpoll⟩ := getElem?_cancelInflight htask
  rw [hcode, hpoll] at hk
  exact Option.bind_eq_some_iff.mpr ⟨task', htask', hk⟩

/-- A task that goes on stays what it is. -/
lemma consumerPoll_set {tasks : List PollTask} {t : ℕ} {task : PollTask} {code : Code}
    (htask : tasks[t]? = some task)
    (hcode : (∃ pc pc', task.code = .consumer pc ∧ code = .consumer pc') ∨
      ∃ i pc i' pc', task.code = .timer i pc ∧ code = .timer i' pc') (j : ℕ) :
    consumerPoll (tasks.set t { task with code := code }) j = consumerPoll tasks j := by
  rw [consumerPoll, Pool.getElem?_set_of_get htask]
  by_cases hj : j = t
  · subst hj
    rw [if_pos rfl, consumerPoll, htask]
    rcases hcode with ⟨pc, pc', h, rfl⟩ | ⟨i, pc, i', pc', h, rfl⟩ <;> simp [h]
  · rw [if_neg hj, consumerPoll]

lemma consumerPoll_append (tasks : List PollTask) (new : PollTask) (j : ℕ) :
    consumerPoll (tasks ++ [new]) j =
      if j = tasks.length then consumerPoll [new] 0 else consumerPoll tasks j := by
  rw [consumerPoll, Pool.getElem?_append_singleton]
  split_ifs <;> rfl

lemma TaskEffect.sameKind {code code' : Code} {sent : List String}
    (h : TaskEffect fragment delivered code code' sent) :
    (∃ pc pc', code = .consumer pc ∧ code' = .consumer pc') ∨
      ∃ i pc i' pc', code = .timer i pc ∧ code' = .timer i' pc' := by
  cases h with
  | timer => exact .inr ⟨_, _, _, _, rfl, rfl⟩
  | _ => exact .inl ⟨_, _, rfl, rfl⟩

lemma OneConsumer.of_frame (h : OneConsumer s) (hframe : SameFrame s s')
    (htasks : ∀ t, consumerPoll s'.tasks t = consumerPoll s.tasks t) : OneConsumer s' where
  unique t t' k ht ht' := h.unique t t' k (htasks t ▸ ht) (htasks t' ▸ ht')
  le t k ht := by
    rw [hframe.cells]
    exact h.le t k (htasks t ▸ ht)
  lt hmain t k ht := by
    rw [hframe.cells]
    exact h.lt (hframe.main ▸ hmain) t k (htasks t ▸ ht)
  current hosts hmain := by
    simp only [hframe.cells, htasks]
    exact h.current hosts (hframe.main ▸ hmain)

lemma OneConsumer.init : OneConsumer .init where
  unique _ _ _ h := by cases h
  le _ _ h := by cases h
  lt hmain := by cases hmain
  current _ hmain := by cases hmain

/-- The step lemma: every step of a socket keeps its consumers apart. -/
lemma oneConsumer_step {a : Act} (hi : OneConsumer s) (hframe : FrameInv s)
    (h : step render s a = some s') : OneConsumer s' := by
  have hgen := hframe.gen
  cases a with
  | main hostIds =>
    cases hm : s.main with
    | receiving =>
      simp only [step, stepMain, hm, Option.some.injEq] at h
      subst h
      -- `my_gen` goes up, so every consumer that is there is of an earlier poll.
      have hlt : ∀ t k, consumerPoll (cancelInflight s).tasks t = some k →
          k < (cancelInflight s).cells.generation + 1 := by
        intro t k ht
        have hle := hi.le t k (consumerPoll_of_cancelInflight ht)
        change k < s.cells.generation + 1
        omega
      exact ⟨fun t t' k ht ht' => hi.unique t t' k (consumerPoll_of_cancelInflight ht)
        (consumerPoll_of_cancelInflight ht'), fun t k ht => (hlt t k ht).le, fun _ => hlt,
        fun hosts hmain => by cases hmain⟩
    | announcing hosts =>
      simp only [step, stepMain, hm, Option.some.injEq] at h
      subst h
      exact ⟨hi.unique, hi.le, fun _ => hi.lt (by rw [hm]; rfl), fun hosts hmain => by cases hmain⟩
    | clearing hosts =>
      simp only [step, stepMain, hm, Option.some.injEq] at h
      subst h
      -- The new consumer is the only one of the poll, since all others are of earlier ones.
      have hlt := hi.lt (by rw [hm]; rfl)
      refine ⟨fun t t' k ht ht' => ?_, fun t k ht => ?_, fun hmain => (by cases hmain),
        fun hosts _ => ⟨_, rfl, ?_⟩⟩
      · simp only [consumerPoll_append] at ht ht'
        split_ifs at ht ht' with h₁ h₂ h₂
        · exact h₁.trans h₂.symm
        · obtain rfl : s.cells.myGen = k := Option.some.inj ht
          exact absurd (hlt t' _ ht') (lt_irrefl _)
        · obtain rfl : s.cells.myGen = k := Option.some.inj ht'
          exact absurd (hlt t _ ht) (lt_irrefl _)
        · exact hi.unique t t' k ht ht'
      · simp only [consumerPoll_append] at ht
        split_ifs at ht with h₁
        · exact (Option.some.inj ht).ge
        · exact hi.le t k ht
      · simp only [consumerPoll_append, if_true]
        rfl
    | binding hosts =>
      simp only [step, stepMain, hm, Option.some.injEq] at h
      subst h
      -- The sentinel task is no consumer.
      have hold : ∀ t k, consumerPoll (s.tasks ++ [⟨s.cells.myGen, false,
          .timer s.cells.state .sleeping⟩]) t = some k → consumerPoll s.tasks t = some k := by
        intro t k ht
        rw [consumerPoll_append] at ht
        split_ifs at ht with h₁
        · cases ht
        · exact ht
      exact ⟨fun t t' k ht ht' => hi.unique t t' k (hold t k ht) (hold t' k ht'),
        fun t k ht => hi.le t k (hold t k ht), fun hmain => (by cases hmain),
        fun hosts hmain => by cases hmain⟩
    | ended => simp [step, stepMain, hm] at h
  | leave =>
    simp only [step] at h
    split_ifs at h
    obtain rfl := Option.some.inj h
    exact ⟨fun t t' k ht ht' => hi.unique t t' k (consumerPoll_of_cancelInflight ht)
      (consumerPoll_of_cancelInflight ht'),
      fun t k ht => hi.le t k (consumerPoll_of_cancelInflight ht), fun hmain => (by cases hmain),
      fun hosts hmain => by cases hmain⟩
  | task t body delivered =>
    -- A task that goes on, or is cancelled, keeps its poll, and the frame stays as it is.
    have hcurrent : ∀ k, isCurrent k s = true := fun k => by simp [isCurrent, hgen]
    obtain ⟨task, code', sent, htask, -, heffect, hsame, htasks, -⟩ :=
      step_task_effect hcurrent h
    refine hi.of_frame hsame fun j => ?_
    rw [htasks, consumerPoll_set htask heffect.sameKind]
  | cancel t =>
    obtain ⟨task, code', htask, hsame, hcode, htasks, -⟩ := step_cancel_effect h
    refine hi.of_frame hsame fun j => ?_
    rw [htasks, consumerPoll_set htask]
    rcases hcode with ⟨⟨pc, hpc⟩, rfl⟩ | ⟨i, pc, hpc, rfl⟩
    · exact .inl ⟨pc, _, hpc, rfl⟩
    · exact .inr ⟨i, pc, _, _, hpc, rfl⟩

end TestOrch.WsAdmin
