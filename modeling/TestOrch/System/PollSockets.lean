import TestOrch.System.StatusPolls

/-!
# The consumers of one admin socket

A consumer takes the replies in its queue one after the other and sends the rows of those that
render to something. What it has sent, what it has in hand and what waits in the queue is all that
was published on its exchange since it bound the queue.
-/

namespace TestOrch.StatusPolls

open Transition Fanout WsAdmin

/-- The rows of some replies; a reply that renders to nothing has none. -/
def rows (render : String → String) (taken : List Reply) : List String :=
  (taken.map fun reply => render reply.body).filter (· ≠ "")

/-- What the coroutine and the sentinels send. -/
inductive IsNotice : String → Prop
  | waiting (n : ℕ) : IsNotice ("<tbody id=\"host-status-results\" hx-swap-oob=\"innerHTML\">" ++
      "<tr><td colspan=\"5\">" ++ s!"Waiting for {n} runner(s) to respond..." ++
      "</td></tr></tbody>")
  | cleared : IsNotice "<div id=\"poll-sentinel\" hx-swap-oob=\"innerHTML\"></div>"
  | sentinel (received total : ℕ) : IsNotice (renderSentinel received total)

/-- The hosts of the poll that the coroutine is starting. -/
def starting : MainPc → Option (List String)
  | .announcing hosts | .clearing hosts | .binding hosts => some hosts
  | .receiving | .ended => none

section Invariant

variable (render : String → String) (journal : List (String × Reply))

/-- What has become of the messages in the queue of a consumer that stands at `pc`. -/
def Handles (exchange : String) (pc : ConsumerPc) (q : Subscription) : Prop :=
  q.exchange = exchange ∧ Taken exchange journal q.since q.taken ∧
  match pc with
  | .connecting => False
  | .receiving | .emitting .. =>
    Delivered exchange journal q.since q.taken q.queue ∧ q.shown = rows render q.taken
  | .sending row =>
    Delivered exchange journal q.since q.taken q.queue ∧ row ≠ "" ∧
      ∃ handled reply, q.taken = handled ++ [reply] ∧ row = render reply.body ∧
        q.shown = rows render handled
  | .finished => q.shown <+: rows render q.taken

/-- A consumer has a queue from when it is connected. -/
def Subscribed (exchange : String) (pc : ConsumerPc) (q? : Option Subscription) : Prop :=
  (pc ≠ .connecting → pc ≠ .finished → q?.isSome = true) ∧
    ∀ q, q? = some q → Handles render journal exchange pc q

/-- A task belongs to a poll of its socket, and a consumer has bound its queue to the exchange of
that poll. -/
def TaskOk (a : AdminSocket) (t : ℕ) (task : PollTask) : Prop :=
  Code.IsSentinel task.code ∧ ∃ poll, 0 < task.poll ∧ a.polls[task.poll - 1]? = some poll ∧
    match task.code with
    | .consumer pc =>
      Subscribed render journal (statusExchangeFor poll.correlationId) pc (a.subscriptions t)
    | .timer .. => a.subscriptions t = none

/-- What holds of every socket, whatever the other ones do. -/
structure Consistent (a : AdminSocket) : Prop where
  frame : FrameInv a.socket
  count : a.polls.length = a.socket.cells.generation
  main : ∀ hosts, starting a.socket.main = some hosts → ∃ id, a.polls.getLast? = some ⟨id, hosts⟩
  tasks : Pool.All a.socket.tasks (TaskOk render journal a)
  unused : ∀ t, a.socket.tasks.length ≤ t → a.subscriptions t = none
  shown : ∀ t q, a.subscriptions t = some q → q.shown.Sublist a.socket.sent
  sent : ∀ f ∈ a.socket.sent, IsNotice f ∨ ∃ t q, a.subscriptions t = some q ∧ f ∈ q.shown

end Invariant

variable {render : String → String} {journal : List (String × Reply)} {a a' : AdminSocket}
  {exchange : String} {reply : Reply} {pc : ConsumerPc} {q : Subscription} {t : ℕ}

lemma rows_append (taken taken' : List Reply) :
    rows render (taken ++ taken') = rows render taken ++ rows render taken' := by
  simp [rows]

lemma rows_singleton_of_ne (h : render reply.body ≠ "") :
    rows render [reply] = [render reply.body] := by
  simp [rows, h]

lemma rows_singleton_of_eq (h : render reply.body = "") : rows render [reply] = [] := by
  simp [rows, h]

/-- A row on the browser is that of a reply that was taken. -/
lemma Handles.row_of_mem (h : Handles render journal exchange pc q) {f : String}
    (hf : f ∈ q.shown) : ∃ reply, (exchange, reply) ∈ journal ∧ f = render reply.body := by
  obtain ⟨-, htaken, hshown⟩ := h
  have hrows : f ∈ rows render q.taken := by
    cases pc with
    | connecting => exact hshown.elim
    | receiving => exact hshown.2 ▸ hf
    | emitting i e => exact hshown.2 ▸ hf
    | sending row =>
      obtain ⟨-, -, handled, last, heq, -, hrows⟩ := hshown
      rw [heq, rows_append]
      exact List.mem_append_left _ (hrows ▸ hf)
    | finished => exact hshown.subset hf
  obtain ⟨hmem, -⟩ := List.mem_filter.mp hrows
  obtain ⟨reply, hreply, rfl⟩ := List.mem_map.mp hmem
  refine ⟨reply, ?_, rfl⟩
  exact List.mem_of_mem_drop (mem_messagesOn.mp (htaken.taken_prefix.subset hreply))

/-- Another reply is published. -/
lemma Handles.publish (h : Handles render journal exchange pc q) (e : String) (reply : Reply) :
    Handles render (journal ++ [(e, reply)]) exchange pc
      (if pc ≠ .finished ∧ e = exchange then { q with queue := q.queue ++ [reply] } else q) := by
  obtain ⟨rfl, htaken, hpc⟩ := h
  by_cases hopen : pc ≠ .finished ∧ e = q.exchange
  · rw [if_pos hopen]
    refine ⟨rfl, htaken.publish _, ?_⟩
    cases pc with
    | connecting => exact hpc
    | receiving | emitting i e' =>
      exact ⟨by simpa [hopen.2] using hpc.1.publish e reply, hpc.2⟩
    | sending row => exact ⟨by simpa [hopen.2] using hpc.1.publish e reply, hpc.2⟩
    | finished => exact absurd rfl hopen.1
  · rw [if_neg hopen]
    refine ⟨rfl, htaken.publish _, ?_⟩
    cases pc with
    | connecting => exact hpc
    | receiving | emitting i e' =>
      have hne : e ≠ q.exchange := fun heq => hopen ⟨by simp, heq⟩
      exact ⟨by simpa [hne] using hpc.1.publish e reply, hpc.2⟩
    | sending row =>
      have hne : e ≠ q.exchange := fun heq => hopen ⟨by simp, heq⟩
      exact ⟨by simpa [hne] using hpc.1.publish e reply, hpc.2⟩
    | finished => exact hpc

/-! ### The steps of a consumer -/

variable {delivered : Bool} {pc' : ConsumerPc} {code : Code} {sent : List String} {row : String}

/-- A consumer that ends keeps what it has taken, and has sent the rows of a part of it. -/
lemma Handles.finish (h : Handles render journal exchange pc q) :
    Handles render journal exchange .finished q := by
  obtain ⟨hexchange, htaken, hpc⟩ := h
  refine ⟨hexchange, htaken, ?_⟩
  cases pc with
  | connecting => exact hpc.elim
  | receiving => exact hpc.2 ▸ List.prefix_rfl
  | emitting i e => exact hpc.2 ▸ List.prefix_rfl
  | sending row =>
    obtain ⟨-, -, handled, reply, heq, -, hshown⟩ := hpc
    show q.shown <+: rows render q.taken
    rw [heq, rows_append, hshown]
    exact List.prefix_append _ _
  | finished => exact hpc

lemma Handles.between (hpc : pc.between = true) : Handles render journal exchange pc q ↔
    q.exchange = exchange ∧ Taken exchange journal q.since q.taken ∧
      Delivered exchange journal q.since q.taken q.queue ∧ q.shown = rows render q.taken := by
  cases pc with
  | receiving => rfl
  | emitting i e => rfl
  | _ => cases hpc

/-- As long as the consumer runs its queue lacks no message. -/
lemma Handles.complete (h : Handles render journal exchange pc q) (hpc : pc ≠ .finished) :
    Delivered exchange journal q.since q.taken q.queue := by
  obtain ⟨-, -, hhandles⟩ := h
  cases pc with
  | connecting => exact hhandles.elim
  | receiving => exact hhandles.1
  | emitting i e => exact hhandles.1
  | sending row => exact hhandles.1
  | finished => exact absurd rfl hpc

/-- The queue is bound: it has no messages yet. -/
lemma Handles.bind (exchange : String) (journal : List (String × Reply)) :
    Handles render journal exchange .receiving ⟨exchange, journal.length, [], [], []⟩ :=
  have hdelivered := Delivered.bind exchange journal
  ⟨rfl, hdelivered.taken_of, hdelivered, rfl⟩

/-- The consumer takes its next message. -/
lemma Handles.take {rest : List Reply} (h : Handles render journal exchange .receiving q)
    (hqueue : q.queue = reply :: rest)
    (heffect : TaskEffect (render reply.body) delivered (.consumer .receiving) code sent) :
    sent = [] ∧ ∃ pc', code = .consumer pc' ∧
      Handles render journal exchange pc'
        { q with taken := q.taken ++ [reply], queue := rest } := by
  obtain ⟨hexchange, -, hdelivered, hshown⟩ := h
  rw [hqueue] at hdelivered
  cases heffect with
  | @skip pc' hempty hpc' =>
    refine ⟨rfl, pc', rfl, (Handles.between hpc').mpr
      ⟨hexchange, hdelivered.take.taken_of, hdelivered.take, ?_⟩⟩
    rw [rows_append, rows_singleton_of_eq hempty, List.append_nil]
    exact hshown
  | take hrow =>
    exact ⟨rfl, _, rfl, hexchange, hdelivered.take.taken_of, hdelivered.take, hrow, q.taken, reply,
      rfl, rfl, hshown⟩

/-- The send of a row ends. -/
lemma Handles.send {fragment : String} (h : Handles render journal exchange (.sending row) q)
    (heffect : TaskEffect fragment delivered (.consumer (.sending row)) code sent) :
    sent = (if delivered then [row] else []) ∧ ∃ pc', code = .consumer pc' ∧
      Handles render journal exchange pc'
        { q with shown := if delivered then q.shown ++ [row] else q.shown } := by
  cases heffect with
  | @row _ pc' hd hpc' =>
    obtain ⟨hexchange, htaken, hdelivered, hrow, handled, reply, heq, rfl, hshown⟩ := h
    subst hd
    refine ⟨rfl, pc', rfl, (Handles.between hpc').mpr ⟨hexchange, htaken, hdelivered, ?_⟩⟩
    show q.shown ++ [render reply.body] = rows render q.taken
    rw [heq, rows_append, rows_singleton_of_ne hrow, hshown]
  | rowFails hd =>
    subst hd
    exact ⟨rfl, _, rfl, h.finish⟩

/-- A step of the consumer while it emits the sentinel. -/
lemma Handles.emit {fragment : String} {i : ℕ} {e : Emission}
    (h : Handles render journal exchange (.emitting i e) q)
    (heffect : TaskEffect fragment delivered (.consumer (.emitting i e)) code sent) :
    ∃ pc', code = .consumer pc' ∧ Handles render journal exchange pc' q := by
  cases heffect with
  | @emit _ _ pc' _ hpc' _ =>
    refine ⟨pc', rfl, ?_⟩
    rcases hpc' with hpc' | rfl
    · exact (Handles.between hpc').mpr ((Handles.between rfl).mp h)
    · exact h.finish

/-! ### The steps of one socket -/

/-- What a task sends besides rows is a sentinel. -/
lemma isNotice_of_emission {e : Emission} (he : Emission.IsSentinel e)
    (hsent : sent = [] ∨ ∃ text, e = .sending text ∧ sent = [text]) : ∀ f ∈ sent, IsNotice f := by
  rcases hsent with rfl | ⟨text, rfl, rfl⟩
  · exact fun f hf => absurd hf List.not_mem_nil
  · obtain ⟨received, total, rfl⟩ := he
    exact fun f hf => List.mem_singleton.mp hf ▸ .sentinel received total

lemma TaskOk.of_eq {task : PollTask} (h : TaskOk render journal a t task) {task' : PollTask}
    (hcode : task'.code = task.code) (hpoll : task'.poll = task.poll)
    (hpolls : a.polls <+: a'.polls) (hsub : a'.subscriptions t = a.subscriptions t) :
    TaskOk render journal a' t task' := by
  obtain ⟨hsentinel, poll, hpos, hget, hcodes⟩ := h
  obtain ⟨more, hmore⟩ := hpolls
  rw [TaskOk, hcode, hpoll, hsub, ← hmore]
  exact ⟨hsentinel, poll, hpos, Pool.getElem?_append_of_get hget, hcodes⟩

/-- Only task `t` of the socket has moved: it went to `code`, and sent. -/
structure TaskMoved (socket : Socket) (t : ℕ) (task : PollTask) (code : Code) (sent : List String)
    (socket' : Socket) : Prop where
  found : socket.tasks[t]? = some task
  sentinel : Code.IsSentinel code
  frame : SameFrame socket socket'
  tasks : socket'.tasks = socket.tasks.set t { task with code := code }
  sends : socket'.sent = socket.sent ++ sent

/-- The move is that of the task's code, not a cancellation. -/
structure TaskMoves (render : String → String) (socket : Socket) (t : ℕ) (task : PollTask)
    (body : String) (delivered : Bool) (code : Code) (sent : List String) (socket' : Socket) : Prop
    extends TaskMoved socket t task code sent socket' where
  effect : TaskEffect (render body) delivered task.code code sent

section Moves

variable {task : PollTask} {socket : Socket} {poll : Poll}
  (hm : TaskMoved a.socket t task code sent socket)
include hm

/-- One task has moved, and with it at most its own queue. -/
lemma Consistent.task_moved (h : Consistent render journal a) (q? : Option Subscription)
    (hok : TaskOk render journal { a with subscriptions := Function.update a.subscriptions t q? } t
      { task with code := code })
    (hkeep : ∀ q, a.subscriptions t = some q → ∃ q', q? = some q' ∧ q.shown ⊆ q'.shown)
    (hshown : ∀ q, q? = some q → q.shown.Sublist (a.socket.sent ++ sent))
    (hnew : ∀ f ∈ sent, IsNotice f ∨ ∃ q, q? = some q ∧ f ∈ q.shown) :
    Consistent render journal
      { a with socket := socket, subscriptions := Function.update a.subscriptions t q? } where
  frame := h.frame.of_sameFrame hm.frame
  count := by rw [hm.frame.cells]; exact h.count
  main := by rw [hm.frame.main]; exact h.main
  tasks := by
    rw [hm.tasks]
    refine (Pool.all_set hm.found).mpr ⟨hok, fun j other hj hget => ?_⟩
    exact (h.tasks j other hget).of_eq rfl rfl List.prefix_rfl (Function.update_of_ne hj _ _)
  unused j hj := by
    rw [hm.tasks, List.length_set] at hj
    have ht : t < a.socket.tasks.length := (List.getElem?_eq_some_iff.mp hm.found).1
    have hne : j ≠ t := by omega
    exact (Function.update_of_ne hne _ _).trans (h.unused j hj)
  shown j q hq := by
    rw [hm.sends]
    by_cases hj : j = t
    · subst hj
      exact hshown q (by simpa using hq)
    · have hq : a.subscriptions j = some q := (Function.update_of_ne hj _ _).symm.trans hq
      exact (h.shown j q hq).trans (List.sublist_append_left _ _)
  sent f hf := by
    rw [hm.sends] at hf
    rcases List.mem_append.mp hf with hold | hnew'
    · refine (h.sent f hold).imp_right ?_
      rintro ⟨j, q, hq, hfq⟩
      by_cases hj : j = t
      · subst hj
        obtain ⟨q', rfl, hsub⟩ := hkeep q hq
        exact ⟨j, q', Function.update_self .., hsub hfq⟩
      · exact ⟨j, q, (Function.update_of_ne hj _ _).trans hq, hfq⟩
    · refine (hnew f hnew').imp_right ?_
      rintro ⟨q, rfl, hfq⟩
      exact ⟨t, q, Function.update_self .., hfq⟩

/-- One task has moved and left its queue alone. -/
lemma Consistent.task_kept (h : Consistent render journal a)
    (hok : TaskOk render journal a t { task with code := code })
    (hnew : ∀ f ∈ sent, IsNotice f) : Consistent render journal { a with socket := socket } := by
  have hmoved := h.task_moved hm (a.subscriptions t)
    (by rwa [Function.update_eq_self]) (fun q hq => ⟨q, hq, fun _ hf => hf⟩)
    (fun q hq => (h.shown t q hq).trans (List.sublist_append_left _ _))
    fun f hf => .inl (hnew f hf)
  rwa [Function.update_eq_self] at hmoved

/-- A consumer has moved, and its queue with it. -/
lemma Consistent.consumer_moved (h : Consistent render journal a)
    (hcode : code = .consumer pc) (hpos : 0 < task.poll)
    (hpoll : a.polls[task.poll - 1]? = some poll)
    (hhandles : Handles render journal (statusExchangeFor poll.correlationId) pc q)
    (hkeep : ∀ q', a.subscriptions t = some q' → q'.shown ⊆ q.shown)
    (hshown : q.shown.Sublist (a.socket.sent ++ sent)) (hnew : ∀ f ∈ sent, f ∈ q.shown) :
    Consistent render journal
      { a with socket := socket, subscriptions := Function.update a.subscriptions t (some q) } := by
  subst hcode
  refine h.task_moved hm (some q) ?_ (fun q' hq' => ⟨q, rfl, hkeep q' hq'⟩) ?_ ?_
  · refine ⟨hm.sentinel, poll, hpos, hpoll, fun _ _ => by simp, ?_⟩
    intro q' hq'
    obtain rfl := Option.some.inj (hq'.symm.trans (Function.update_self ..))
    exact hhandles
  · rintro q' ⟨⟩
    exact hshown
  · exact fun f hf => .inr ⟨q, rfl, hnew f hf⟩

end Moves

/-- The closures of every poll render. -/
lemma Consistent.isCurrent (h : Consistent render journal a) (k : ℕ) :
    WsAdmin.isCurrent k a.socket = true := by
  simp [WsAdmin.isCurrent, h.frame.gen]

lemma Consistent.taskMoves (h : Consistent render journal a) {task : PollTask} {body : String}
    {socket : Socket} (htask : a.socket.tasks[t]? = some task)
    (hs : WsAdmin.step render a.socket (.task t body delivered) = some socket) :
    ∃ code sent, TaskMoves render a.socket t task body delivered code sent socket := by
  obtain ⟨task', code, sent, htask', hsentinel, heffect, hframe, htasks, -, hsent⟩ :=
    step_task_effect h.isCurrent hs
  obtain rfl : task = task' := Option.some.inj (htask.symm.trans htask')
  exact ⟨code, sent, ⟨htask, hsentinel, hframe, htasks, hsent⟩, heffect⟩

section Steps

variable {task : PollTask} {socket : Socket} {poll : Poll} (h : Consistent render journal a)
  (hpos : 0 < task.poll) (hpoll : a.polls[task.poll - 1]? = some poll)
include h hpos hpoll

/-- A consumer has tried to connect. -/
lemma Consistent.connect
    (hm : TaskMoves render a.socket t task "" delivered code sent socket)
    (hconnecting : task.code = .consumer .connecting) (hnone : a.subscriptions t = none) :
    Consistent render journal { a with
      socket := socket
      subscriptions := if delivered then Function.update a.subscriptions t
          (some ⟨statusExchangeFor poll.correlationId, journal.length, [], [], []⟩)
        else a.subscriptions } := by
  have heffect := hm.effect
  rw [hconnecting] at heffect
  cases heffect with
  | connect hd =>
    subst hd
    refine h.consumer_moved hm.toTaskMoved rfl hpos hpoll (.bind _ _) (fun q' hq' => ?_)
      (List.nil_sublist _) fun f hf => hf
    simp [hnone] at hq'
  | connectFails hd =>
    subst hd
    refine h.task_kept hm.toTaskMoved
      ⟨hm.sentinel, poll, hpos, hpoll, fun _ hne => absurd rfl hne, ?_⟩
      fun f hf => absurd hf List.not_mem_nil
    intro q' hq'
    simp [hnone] at hq'

/-- A consumer has taken a reply. -/
lemma Consistent.takeReply {rest : List Reply}
    (hm : TaskMoves render a.socket t task reply.body delivered code sent socket)
    (hreceiving : task.code = .consumer .receiving) (hq : a.subscriptions t = some q)
    (hqueue : q.queue = reply :: rest)
    (hhandles : Handles render journal (statusExchangeFor poll.correlationId) .receiving q) :
    Consistent render journal { a with
      socket := socket
      subscriptions := Function.update a.subscriptions t
        (some { q with taken := q.taken ++ [reply], queue := rest }) } := by
  have heffect := hm.effect
  rw [hreceiving] at heffect
  obtain ⟨rfl, pc', hcode, hhandles'⟩ := hhandles.take hqueue heffect
  refine h.consumer_moved hm.toTaskMoved hcode hpos hpoll hhandles' (fun q' hq' => ?_) ?_ ?_
  · obtain rfl := Option.some.inj (hq.symm.trans hq')
    exact fun _ hf => hf
  · exact (h.shown t q hq).trans (List.sublist_append_left _ _)
  · exact fun f hf => absurd hf List.not_mem_nil

/-- The send of a row has ended. -/
lemma Consistent.sendRow
    (hm : TaskMoves render a.socket t task "" delivered code sent socket)
    (hsending : task.code = .consumer (.sending row)) (hq : a.subscriptions t = some q)
    (hhandles : Handles render journal (statusExchangeFor poll.correlationId) (.sending row) q) :
    Consistent render journal { a with
      socket := socket
      subscriptions := Function.update a.subscriptions t
        (some { q with shown := if delivered then q.shown ++ [row] else q.shown }) } := by
  have heffect := hm.effect
  rw [hsending] at heffect
  obtain ⟨hrow, pc', hcode, hhandles'⟩ := hhandles.send heffect
  have hkept := h.shown t q hq
  refine h.consumer_moved hm.toTaskMoved hcode hpos hpoll hhandles' (fun q' hq' => ?_) ?_ ?_
  · obtain rfl := Option.some.inj (hq.symm.trans hq')
    cases delivered with
    | true => exact List.subset_append_left _ _
    | false => exact List.Subset.refl _
  · rw [hrow]
    cases delivered with
    | true => exact hkept.append (List.Sublist.refl _)
    | false => exact hkept.trans (List.sublist_append_left _ _)
  · rw [hrow]
    cases delivered with
    | true => exact List.subset_append_right _ _
    | false => exact List.nil_subset _

/-- A timer has moved. -/
lemma Consistent.stepTimer {i : ℕ} {pc : TimerPc}
    (hm : TaskMoves render a.socket t task "" delivered code sent socket)
    (htimer : task.code = .timer i pc) (hsentinel : Code.IsSentinel task.code)
    (hnone : a.subscriptions t = none) :
    Consistent render journal { a with socket := socket } := by
  have heffect := hm.effect
  rw [htimer] at heffect
  cases heffect with
  | timer hsent =>
    refine h.task_kept hm.toTaskMoved ⟨hm.sentinel, poll, hpos, hpoll, hnone⟩ ?_
    rcases hsent with rfl | ⟨text, rfl, rfl⟩
    · exact fun f hf => absurd hf List.not_mem_nil
    · refine isNotice_of_emission ?_ (.inr ⟨text, rfl, rfl⟩)
      rwa [htimer] at hsentinel

/-- A consumer has moved while it emits the sentinel. -/
lemma Consistent.emitSentinel {i : ℕ} {e : Emission}
    (hm : TaskMoves render a.socket t task "" delivered code sent socket)
    (hemitting : task.code = .consumer (.emitting i e)) (hsentinel : Code.IsSentinel task.code)
    (hsubscribed : Subscribed render journal (statusExchangeFor poll.correlationId)
      (.emitting i e) (a.subscriptions t)) :
    Consistent render journal { a with socket := socket } := by
  have heffect := hm.effect
  rw [hemitting] at heffect hsentinel
  obtain ⟨q, hq⟩ := Option.isSome_iff_exists.mp (hsubscribed.1 (by simp) (by simp))
  obtain ⟨pc', rfl, hhandles⟩ := (hsubscribed.2 q hq).emit heffect
  cases heffect with
  | emit _ hsent =>
    refine h.task_kept hm.toTaskMoved
      ⟨hm.sentinel, poll, hpos, hpoll, fun _ _ => by rw [hq]; rfl, ?_⟩
      (isNotice_of_emission hsentinel hsent)
    intro q' hq'
    obtain rfl := Option.some.inj (hq.symm.trans hq')
    exact hhandles

end Steps

/-- A step of a task. -/
lemma Consistent.stepTask (h : Consistent render journal a)
    (hs : a.stepTask render journal.length t delivered = some a') :
    Consistent render journal a' ∧ a'.polls = a.polls ∧ a'.socket.main = a.socket.main := by
  obtain ⟨task, htask, hs⟩ := Option.bind_eq_some_iff.mp hs
  obtain ⟨hsentinel, poll, hpos, hpoll, hcode⟩ := h.tasks t task htask
  split at hs
  · next hconnecting =>
    -- The consumer connects: its queue is bound, or the connection fails.
    obtain ⟨socket, hsocket, hs⟩ := Option.bind_eq_some_iff.mp hs
    rw [hpoll] at hs
    obtain rfl := Option.some.inj hs
    obtain ⟨code, sent, hm⟩ := h.taskMoves htask hsocket
    rw [hconnecting] at hcode
    refine ⟨h.connect hpos hpoll hm hconnecting ?_, rfl, hm.frame.main⟩
    exact Option.eq_none_iff_forall_not_mem.mpr fun q hq => (hcode.2 q hq).2.2
  · next q hreceiving hq =>
    split at hs
    · next reply rest hqueue =>
      obtain ⟨socket, hsocket, hs⟩ := Option.bind_eq_some_iff.mp hs
      obtain rfl := Option.some.inj hs
      obtain ⟨code, sent, hm⟩ := h.taskMoves htask hsocket
      rw [hreceiving] at hcode
      -- The consumer takes the reply at the head of its queue.
      exact ⟨h.takeReply hpos hpoll hm hreceiving hq hqueue (hcode.2 q hq), rfl, hm.frame.main⟩
    · cases hs
  · cases hs
  · next row q hsending hq =>
    obtain ⟨socket, hsocket, hs⟩ := Option.bind_eq_some_iff.mp hs
    obtain rfl := Option.some.inj hs
    obtain ⟨code, sent, hm⟩ := h.taskMoves htask hsocket
    rw [hsending] at hcode
    exact ⟨h.sendRow hpos hpoll hm hsending hq (hcode.2 q hq), rfl, hm.frame.main⟩
  · next hnot₁ hnot₂ hnot₃ hnot₄ =>
    obtain ⟨socket, hsocket, hs⟩ := Option.bind_eq_some_iff.mp hs
    obtain rfl := Option.some.inj hs
    obtain ⟨code, sent, hm⟩ := h.taskMoves htask hsocket
    refine ⟨?_, rfl, hm.frame.main⟩
    -- What is left is the timer, and the consumer at its sentinel.
    cases hc : task.code with
    | timer i pc =>
      rw [hc] at hcode
      exact h.stepTimer hpos hpoll hm hc hsentinel hcode
    | consumer pc =>
      rw [hc] at hcode
      cases pc with
      | emitting i e => exact h.emitSentinel hpos hpoll hm hc hsentinel hcode
      | connecting => exact (hnot₁ hc).elim
      | receiving =>
        cases hq : a.subscriptions t with
        | none => exact (hnot₃ hc hq).elim
        | some q => exact (hnot₂ q hc hq).elim
      | sending row =>
        obtain ⟨q, hq⟩ := Option.isSome_iff_exists.mp (hcode.1 (by simp) (by simp))
        exact (hnot₄ row q hc hq).elim
      | finished =>
        have heffect := hm.effect
        rw [hc] at heffect
        cases heffect

/-- A cancellation takes effect. -/
lemma Consistent.cancel (h : Consistent render journal a) {socket : Socket}
    (hs : WsAdmin.step render a.socket (.cancel t) = some socket) :
    Consistent render journal { a with socket := socket } ∧ socket.main = a.socket.main := by
  obtain ⟨task, code', htask, hframe, hcode', htasks, -, hsent⟩ := step_cancel_effect hs
  obtain ⟨-, poll, hpos, hpoll, hcode⟩ := h.tasks t task htask
  have hsentinel : Code.IsSentinel code' := by
    rcases hcode' with ⟨-, rfl⟩ | ⟨i, pc, -, rfl⟩
    · trivial
    · trivial
  have hm : TaskMoved a.socket t task code' [] socket :=
    ⟨htask, hsentinel, hframe, htasks, hsent.trans (List.append_nil _).symm⟩
  refine ⟨h.task_kept hm ⟨hsentinel, poll, hpos, hpoll, ?_⟩ fun f hf => absurd hf List.not_mem_nil,
    hframe.main⟩
  rcases hcode' with ⟨⟨pc, hpc⟩, rfl⟩ | ⟨i, pc, hpc, rfl⟩
  · rw [hpc] at hcode
    exact ⟨fun _ hne => absurd rfl hne, fun q hq => (hcode.2 q hq).finish⟩
  · rw [hpc] at hcode
    exact hcode

/-- The coroutine has moved, and no task has. -/
lemma Consistent.main_moved (h : Consistent render journal a) {socket : Socket} (polls : List Poll)
    (hframe : FrameInv socket) (hcount : (a.polls ++ polls).length = socket.cells.generation)
    (hmain : ∀ hosts, starting socket.main = some hosts →
      ∃ id, (a.polls ++ polls).getLast? = some ⟨id, hosts⟩)
    (htasks : ∀ t task, socket.tasks[t]? = some task →
      (∃ task', a.socket.tasks[t]? = some task' ∧ task.code = task'.code ∧
        task.poll = task'.poll) ∨
      a.socket.tasks.length ≤ t ∧ task.poll = (a.polls ++ polls).length ∧ 0 < task.poll ∧
        (task.code = .consumer .connecting ∨ ∃ i, task.code = .timer i .sleeping))
    (hlength : a.socket.tasks.length ≤ socket.tasks.length)
    (hsent : socket.sent = a.socket.sent ++ sent) (hnew : ∀ f ∈ sent, IsNotice f) :
    Consistent render journal { a with socket := socket, polls := a.polls ++ polls } where
  frame := hframe
  count := hcount
  main := hmain
  tasks t task htask := by
    rcases htasks t task htask with ⟨task', htask', hcode, hpoll⟩ | ⟨hnew, hlast, hpos, hcode⟩
    · exact (h.tasks t task' htask').of_eq hcode hpoll (List.prefix_append _ _) rfl
    · have hnone := h.unused t hnew
      obtain ⟨poll, hpoll⟩ : ∃ poll, (a.polls ++ polls)[task.poll - 1]? = some poll :=
        ⟨_, List.getElem?_eq_getElem (by omega)⟩
      rcases hcode with hcode | ⟨i, hcode⟩
      · rw [TaskOk, hcode]
        refine ⟨trivial, poll, hpos, hpoll, fun hne => absurd rfl hne, fun q hq => ?_⟩
        exact absurd (hnone.symm.trans hq) (by simp)
      · rw [TaskOk, hcode]
        exact ⟨trivial, poll, hpos, hpoll, hnone⟩
  unused t ht := h.unused t (hlength.trans ht)
  shown t q hq := hsent ▸ (h.shown t q hq).trans (List.sublist_append_left _ _)
  sent f hf := by
    rw [hsent] at hf
    rcases List.mem_append.mp hf with hold | hnew'
    · exact h.sent f hold
    · exact .inl (hnew f hnew')

/-- A task that was there, or the one that the coroutine has just started. -/
lemma tasks_append {tasks : List PollTask} {new : PollTask} {P : ℕ → PollTask → Prop}
    (hnew : P tasks.length new) : ∀ t task, (tasks ++ [new])[t]? = some task →
      (∃ task', tasks[t]? = some task' ∧ task.code = task'.code ∧ task.poll = task'.poll) ∨
      tasks.length ≤ t ∧ P t task := by
  intro t task htask
  rw [Pool.getElem?_append_singleton] at htask
  split_ifs at htask with ht
  · obtain rfl := Option.some.inj htask
    exact .inr ⟨ht.ge, ht ▸ hnew⟩
  · exact .inl ⟨task, htask, rfl, rfl⟩

/-- The coroutine goes on. -/
lemma Consistent.stepMain (h : Consistent render journal a) {hostIds : List String} {id : String}
    {requests : List Request} (hs : a.stepMain render hostIds id = some (a', requests)) :
    Consistent render journal a' ∧ a.polls <+: a'.polls := by
  obtain ⟨socket, hsocket, hs⟩ := Option.bind_eq_some_iff.mp hs
  have hframe := frameInv_step h.frame hsocket
  have hcount := h.count
  have hlast : a.socket.cells.myGen = a.polls.length := h.frame.gen.symm.trans hcount.symm
  have hstarted : ∀ hosts, starting a.socket.main = some hosts → 0 < a.polls.length := by
    intro hosts hhosts
    obtain ⟨id, hid⟩ := h.main hosts hhosts
    exact List.length_pos_of_mem (List.mem_of_getLast? hid)
  cases hmain : a.socket.main with
  | receiving =>
    rw [hmain] at hs
    -- A poll begins: the tasks of the one before are cancelled, but stay in the list.
    simp only [Option.some.injEq, Prod.mk.injEq] at hs
    obtain ⟨rfl, -⟩ := hs
    simp only [WsAdmin.step, WsAdmin.stepMain, hmain, Option.some.injEq] at hsocket
    subst hsocket
    refine ⟨h.main_moved [_] hframe ?_ ?_ (fun t task htask => .inl (getElem?_cancelInflight htask))
      (length_cancelInflight _).ge (List.append_nil _).symm fun f hf => absurd hf List.not_mem_nil,
      List.prefix_append _ _⟩
    · rw [List.length_append, hcount]
      rfl
    · rintro hosts ⟨⟩
      exact ⟨id, by simp⟩
  | announcing hosts =>
    rw [hmain] at hs
    simp only [Option.some.injEq, Prod.mk.injEq] at hs
    obtain ⟨rfl, -⟩ := hs
    simp only [WsAdmin.step, WsAdmin.stepMain, hmain, Option.some.injEq] at hsocket
    subst hsocket
    have hmoved := h.main_moved [] hframe (by simpa using hcount)
      (by rintro _ ⟨⟩; simpa using h.main hosts (by rw [hmain]; rfl))
      (fun t task htask => .inl ⟨task, htask, rfl, rfl⟩) le_rfl rfl
      fun f hf => List.mem_singleton.mp hf ▸ .waiting hosts.length
    rw [List.append_nil] at hmoved
    exact ⟨hmoved, List.prefix_rfl⟩
  | clearing hosts =>
    rw [hmain] at hs
    simp only [Option.some.injEq, Prod.mk.injEq] at hs
    obtain ⟨rfl, -⟩ := hs
    simp only [WsAdmin.step, WsAdmin.stepMain, hmain, Option.some.injEq] at hsocket
    subst hsocket
    -- The consumer of the poll is created, and the table is cleared.
    have hpolls := hstarted hosts (by rw [hmain]; rfl)
    have hmoved := h.main_moved [] hframe (by simpa using hcount)
      (by rintro _ ⟨⟩; simpa using h.main hosts (by rw [hmain]; rfl))
      (tasks_append ⟨by rwa [List.append_nil], hlast ▸ hpolls, .inl rfl⟩) (by simp) rfl
      fun f hf => List.mem_singleton.mp hf ▸ .cleared
    rw [List.append_nil] at hmoved
    exact ⟨hmoved, List.prefix_rfl⟩
  | binding hosts =>
    rw [hmain] at hs
    obtain ⟨poll, -, hs⟩ := Option.bind_eq_some_iff.mp hs
    obtain ⟨requests, -, hs⟩ := Option.bind_eq_some_iff.mp hs
    simp only [Option.some.injEq, Prod.mk.injEq] at hs
    obtain ⟨rfl, -⟩ := hs
    simp only [WsAdmin.step, WsAdmin.stepMain, hmain, Option.some.injEq] at hsocket
    subst hsocket
    -- The requests are sent, and the sentinel task is created.
    have hpolls := hstarted hosts (by rw [hmain]; rfl)
    have hmoved := h.main_moved [] hframe (by simpa using hcount) (by rintro _ ⟨⟩)
      (tasks_append ⟨by rwa [List.append_nil], hlast ▸ hpolls, .inr ⟨_, rfl⟩⟩) (by simp)
      (List.append_nil _).symm fun f hf => absurd hf List.not_mem_nil
    rw [List.append_nil] at hmoved
    exact ⟨hmoved, List.prefix_rfl⟩
  | ended => simp [WsAdmin.step, WsAdmin.stepMain, hmain] at hsocket

/-- The coroutine ends early. -/
lemma Consistent.stepLeave (h : Consistent render journal a) {n : ℕ} {requests : List Request}
    (hs : a.stepLeave render n = some (a', requests)) :
    Consistent render journal a' ∧ a'.polls = a.polls := by
  obtain ⟨socket, hsocket, hs⟩ := Option.bind_eq_some_iff.mp hs
  have hmoved : Consistent render journal { a with socket := socket } := by
    have hframe := frameInv_step h.frame hsocket
    simp only [WsAdmin.step] at hsocket
    split_ifs at hsocket
    obtain rfl := Option.some.inj hsocket
    have hmoved := h.main_moved [] hframe (by rw [List.append_nil]; exact h.count) (by rintro _ ⟨⟩)
      (fun t task htask => .inl (getElem?_cancelInflight htask)) (length_cancelInflight _).ge
      (List.append_nil _).symm fun f hf => absurd hf List.not_mem_nil
    rwa [List.append_nil] at hmoved
  split at hs
  · obtain ⟨poll, -, hs⟩ := Option.bind_eq_some_iff.mp hs
    obtain ⟨requests, -, hs⟩ := Option.bind_eq_some_iff.mp hs
    simp only [Option.some.injEq, Prod.mk.injEq] at hs
    obtain ⟨rfl, -⟩ := hs
    exact ⟨hmoved, rfl⟩
  · simp only [Option.some.injEq, Prod.mk.injEq] at hs
    obtain ⟨rfl, -⟩ := hs
    exact ⟨hmoved, rfl⟩

lemma Code.done_consumer : (Code.consumer pc).done = true ↔ pc = .finished := by
  cases pc <;> simp [Code.done]

/-- A consumer that runs gets the replies on its exchange. -/
lemma Subscribed.receive {task : PollTask} {q? : Option Subscription}
    (htask : a.socket.tasks[t]? = some task) (hcode : task.code = .consumer pc)
    (h : Subscribed render journal exchange pc q?) (e : String) (reply : Reply) :
    Subscribed render (journal ++ [(e, reply)]) exchange pc (q?.map fun q =>
      if a.isOpen t && q.exchange = e then { q with queue := q.queue ++ [reply] } else q) := by
  refine ⟨fun hne hne' => by rw [Option.isSome_map]; exact h.1 hne hne', fun q' hq' => ?_⟩
  obtain ⟨q, hq, rfl⟩ := Option.map_eq_some_iff.mp hq'
  have hhandles := h.2 q hq
  have hopen : (a.isOpen t && decide (q.exchange = e)) = true ↔ pc ≠ .finished ∧ e = exchange := by
    rw [AdminSocket.isOpen, htask, Option.any_some, hcode, Bool.and_eq_true, decide_eq_true_eq,
      Bool.not_eq_true', ← Bool.not_eq_true, Code.done_consumer, hhandles.1, eq_comm (a := e)]
  simp only [hopen]
  exact hhandles.publish e reply

/-- A reply is published. -/
lemma Consistent.receive (h : Consistent render journal a) (e : String) (reply : Reply) :
    Consistent render (journal ++ [(e, reply)]) (a.receive e reply) where
  frame := h.frame
  count := h.count
  main := h.main
  tasks t task htask := by
    obtain ⟨hsentinel, poll, hpos, hpoll, hcode⟩ := h.tasks t task htask
    refine ⟨hsentinel, poll, hpos, hpoll, ?_⟩
    cases hc : task.code with
    | consumer pc =>
      rw [hc] at hcode
      exact hcode.receive htask hc e reply
    | timer i pc =>
      rw [hc] at hcode
      simp only [AdminSocket.receive, hcode, Option.map_none]
  unused t ht := by
    simp only [AdminSocket.receive, h.unused t ht, Option.map_none]
  shown t q' hq' := by
    obtain ⟨q, hq, rfl⟩ := Option.map_eq_some_iff.mp hq'
    have hshown := h.shown t q hq
    split_ifs <;> exact hshown
  sent f hf := by
    refine (h.sent f hf).imp_right ?_
    rintro ⟨t, q, hq, hfq⟩
    refine ⟨t, _, Option.map_eq_some_iff.mpr ⟨q, hq, rfl⟩, ?_⟩
    split_ifs <;> exact hfq

lemma Consistent.init : Consistent render journal .init where
  frame := ⟨rfl, by simp [AdminSocket.init, Socket.init], fun h => absurd rfl h⟩
  count := rfl
  main hosts h := by cases h
  tasks := Pool.all_nil
  unused _ _ := rfl
  shown t q hq := by cases hq
  sent f hf := absurd hf List.not_mem_nil

end TestOrch.StatusPolls
