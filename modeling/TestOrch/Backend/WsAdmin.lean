import TestOrch.Core.Transition
import TestOrch.Core.Pool
import TestOrch.Backend.PollState

/-!
# The admin poll socket (`ws_admin` in `backend/main.py`)

One call of `ws_admin` is a coroutine that starts, for each poll, a consumer task and a grace timer.
Between two await points a task runs undisturbed, so a step of the socket is what one task does from
one await to the next. The functions nested in `ws_admin` are closures over the variables of that
one call: all polls share them, and a closure reads them as they are bound when it is called.
-/

namespace TestOrch.WsAdmin

open Transition

/-- The variables of `ws_admin` that its nested functions read, and the tasks it can cancel. -/
structure Cells where
  generation : ℕ
  myGen : ℕ
  /-- The `_PollState` that `state` is bound to. -/
  state : ℕ
  consumerTask : Option ℕ
  sentinelTask : Option ℕ
  deriving DecidableEq, Repr

inductive ConsumerPc where
  | connecting
  | receiving
  | sending (fragment : String)
  | emitting (poll : ℕ) (e : Emission)
  | finished
  deriving DecidableEq, Repr

/-- Where `_emit_sentinel_after_grace` stands; its `state` is an argument. -/
inductive TimerPc where
  | sleeping
  | emitting (e : Emission)
  | finished
  deriving DecidableEq, Repr

inductive Code where
  | consumer (pc : ConsumerPc)
  | timer (poll : ℕ) (pc : TimerPc)
  deriving DecidableEq, Repr

/-- A task, with the poll that made its closures and whether its cancellation was requested. -/
structure PollTask where
  poll : ℕ
  cancelRequested : Bool
  code : Code
  deriving DecidableEq, Repr

/-- Where the coroutine `ws_admin` itself stands. -/
inductive MainPc where
  | receiving
  | announcing (hostIds : List String)
  | clearing (hostIds : List String)
  | binding (hostIds : List String)
  | ended
  deriving DecidableEq, Repr

/-- One socket: the coroutine, its variables, the poll states and tasks made so far, what was sent
to the browser and the polls dispatched to the hosts. -/
structure Socket where
  main : MainPc
  cells : Cells
  polls : List PollState
  tasks : List PollTask
  sent : List String
  dispatched : List (ℕ × String)
  deriving DecidableEq, Repr

def Socket.init : Socket := ⟨.receiving, ⟨0, 0, 0, none, none⟩, [], [], [], []⟩

section Closures

/-! ### The closures of poll `k` -/

def isCurrent (_k : ℕ) (s : Socket) : Bool := s.cells.generation == s.cells.myGen

/-- `_guarded_render` of poll `k`, given `render_status_row`. -/
def guardedRender (render : String → String) (k : ℕ) (s : Socket) (body : String) : String :=
  if isCurrent k s then render body else ""

/-- `_guarded_on_reply` of poll `k` up to its first await; the second part is the poll whose
sentinel is emitted next. -/
def guardedOnReply (k : ℕ) (s : Socket) : Socket × Option ℕ :=
  if isCurrent k s then
    match s.polls[s.cells.state]? with
    | some p => ({ s with polls := s.polls.set s.cells.state p.onReply },
        if p.onReply.complete then some s.cells.state else none)
    | none => (s, none)
  else (s, none)

end Closures

def Code.done : Code → Bool
  | .consumer .finished => true
  | .timer _ .finished => true
  | _ => false

def cancelInflight (s : Socket) : Socket :=
  let cancel (tasks : List PollTask) (t : Option ℕ) : List PollTask :=
    match t with
    | some i =>
      tasks.modify i fun t => if t.code.done then t else { t with cancelRequested := true }
    | none => tasks
  { s with tasks := cancel (cancel s.tasks s.cells.consumerTask) s.cells.sentinelTask }

/-- What the coroutine waits for happens: a frame arrives (`hostIds` is what the query then
returns), a send succeeds, the queue is bound or the wait times out. -/
def stepMain (s : Socket) (hostIds : List String) : Option Socket :=
  match s.main with
  | .receiving =>
    let s := cancelInflight s
    let generation := s.cells.generation + 1
    some { s with
      main := .announcing hostIds
      cells := { s.cells with generation := generation, myGen := generation } }
  | .announcing hosts =>
    some { s with
      main := .clearing hosts
      sent := s.sent ++ ["<tbody id=\"host-status-results\" hx-swap-oob=\"innerHTML\">" ++
        "<tr><td colspan=\"5\">" ++ s!"Waiting for {hosts.length} runner(s) to respond..." ++
        "</td></tr></tbody>"] }
  | .clearing hosts =>
    some { s with
      main := .binding hosts
      sent := s.sent ++ ["<div id=\"poll-sentinel\" hx-swap-oob=\"innerHTML\"></div>"]
      polls := s.polls ++ [.new hosts.length]
      tasks := s.tasks ++ [⟨s.cells.myGen, false, .consumer .connecting⟩]
      cells := { s.cells with state := s.polls.length, consumerTask := some s.tasks.length } }
  | .binding hosts =>
    some { s with
      main := .receiving
      dispatched := s.dispatched ++ hosts.map fun h => (s.cells.myGen, h)
      tasks := s.tasks ++ [⟨s.cells.myGen, false, .timer s.cells.state .sleeping⟩]
      cells := { s.cells with sentinelTask := some s.tasks.length } }
  | .ended => none

/-- What a step of `emit_sentinel` on poll `i` does; `delivered` is the outcome of its send. -/
def stepEmission (s : Socket) (i : ℕ) (e : Emission) (delivered : Bool) :
    Option (Socket × Emission) :=
  match s.polls[i]?, e with
  | some p, .acquiring => p.acquire.map fun (p, e) => ({ s with polls := s.polls.set i p }, e)
  | some p, .sending text =>
    some ({ s with
      polls := s.polls.set i (p.release delivered)
      sent := if delivered then s.sent ++ [text] else s.sent }, .finished)
  | _, _ => none

/-- The end of one message of `_consume_fanout`: `on_message`. -/
def onMessage (s : Socket) (k : ℕ) : Socket × ConsumerPc :=
  let (s', due) := guardedOnReply k s
  (s', match due with
    | some i => .emitting i .acquiring
    | none => .receiving)

/-- A step of the consumer made for poll `k`: the connection is made, `body` arrives, or a send ends
(`delivered`). An exception leaves the loop and the task. -/
def stepConsumer (render : String → String) (s : Socket) (k : ℕ) (pc : ConsumerPc) (body : String)
    (delivered : Bool) : Option (Socket × ConsumerPc) :=
  match pc with
  | .connecting => some (s, if delivered then .receiving else .finished)
  | .receiving =>
    let fragment := guardedRender render k s body
    if fragment = "" then some (onMessage s k) else some (s, .sending fragment)
  | .sending fragment =>
    if delivered then some (onMessage { s with sent := s.sent ++ [fragment] } k)
    else some (s, .finished)
  | .emitting i e =>
    (stepEmission s i e delivered).map fun (s', e') =>
      (s', match e' with
        | .finished => if delivered || e = .acquiring then .receiving else .finished
        | e' => .emitting i e')
  | .finished => none

/-- A step of the grace timer of poll `i`, made for poll `k`. -/
def stepTimer (s : Socket) (k i : ℕ) (pc : TimerPc) (delivered : Bool) :
    Option (Socket × TimerPc) :=
  match pc with
  | .sleeping => some (s, if isCurrent k s then .emitting .acquiring else .finished)
  | .emitting e =>
    (stepEmission s i e delivered).map fun (s', e') =>
      (s', match e' with
        | .finished => .finished
        | e' => .emitting e')
  | .finished => none

/-- `emit_sentinel` on poll `i` is left by an exception: a held lock is released. -/
def abandonEmission (s : Socket) (i : ℕ) : Emission → Socket
  | .sending _ => { s with polls := s.polls.modify i fun p => p.release false }
  | _ => s

/-- `CancelledError` at the await where the task stands. -/
def cancelled (s : Socket) (code : Code) : Socket × Code :=
  match code with
  | .consumer (.emitting i e) => (abandonEmission s i e, .consumer .finished)
  | .consumer _ => (s, .consumer .finished)
  | .timer i (.emitting e) => (abandonEmission s i e, .timer i .finished)
  | .timer i _ => (s, .timer i .finished)

def Socket.setCode (s : Socket) (t : ℕ) (code : Code) : Socket :=
  { s with tasks := s.tasks.modify t fun task => { task with code := code } }

inductive Act where
  /-- The coroutine goes on; `hostIds` is what the query returns if it makes one. -/
  | main (hostIds : List String)
  /-- A send of the coroutine or its publishing raises, or the client disconnects. -/
  | leave
  /-- Task `t` goes on. -/
  | task (t : ℕ) (body : String) (delivered : Bool)
  /-- A requested cancellation takes effect. -/
  | cancel (t : ℕ)
  deriving DecidableEq, Repr

def step (render : String → String) (s : Socket) : Act → Option Socket
  | .main hostIds => stepMain s hostIds
  | .leave => if s.main = .ended then none else some { cancelInflight s with main := .ended }
  | .task t body delivered => do
    let task ← s.tasks[t]?
    match task.code with
    | .consumer pc =>
      let (s', pc') ← stepConsumer render s task.poll pc body delivered
      pure (s'.setCode t (.consumer pc'))
    | .timer i pc =>
      let (s', pc') ← stepTimer s task.poll i pc delivered
      pure (s'.setCode t (.timer i pc'))
  | .cancel t => do
    let task ← s.tasks[t]?
    if task.cancelRequested then
      let (s', code') := cancelled s task.code
      pure (s'.setCode t code')
    else none

abbrev Reachable (render : String → String) (s : Socket) : Prop :=
  Reaches (step render) (fun _ _ => True) .init s

/-- Every call of the closures of poll `k` is suppressed: it reports that the poll is over, renders
nothing and counts nothing. -/
def Suppressed (render : String → String) (k : ℕ) (s : Socket) : Prop :=
  isCurrent k s = false ∧ (∀ body, guardedRender render k s body = "") ∧
    guardedOnReply k s = (s, none)

/-! ### What the steps change -/

variable {render : String → String} {s s' : Socket}

/-- Only the coroutine itself binds the variables and makes poll states. -/
structure SameFrame (s s' : Socket) : Prop where
  main : s'.main = s.main
  cells : s'.cells = s.cells
  polls : s'.polls.length = s.polls.length

lemma SameFrame.rfl : SameFrame s s := ⟨Eq.refl _, Eq.refl _, Eq.refl _⟩

lemma SameFrame.trans {s'' : Socket} (h : SameFrame s s') (h' : SameFrame s' s'') :
    SameFrame s s'' :=
  ⟨h'.main.trans h.main, h'.cells.trans h.cells, h'.polls.trans h.polls⟩

lemma sameFrame_setCode (t : ℕ) (code : Code) : SameFrame s (s.setCode t code) :=
  ⟨Eq.refl _, Eq.refl _, Eq.refl _⟩

lemma sameFrame_stepEmission {i : ℕ} {e e' : Emission} {delivered : Bool}
    (h : stepEmission s i e delivered = some (s', e')) : SameFrame s s' := by
  unfold stepEmission at h
  split at h
  · obtain ⟨⟨p, e''⟩, -, heq⟩ := Option.map_eq_some_iff.mp h
    simp only [Prod.mk.injEq] at heq
    obtain ⟨rfl, -⟩ := heq
    exact ⟨Eq.refl _, Eq.refl _, by simp⟩
  · simp only [Option.some.injEq, Prod.mk.injEq] at h
    obtain ⟨rfl, -⟩ := h
    exact ⟨Eq.refl _, Eq.refl _, by simp⟩
  · cases h

lemma sameFrame_guardedOnReply (k : ℕ) (s : Socket) : SameFrame s (guardedOnReply k s).1 := by
  unfold guardedOnReply
  split_ifs
  · cases s.polls[s.cells.state]? with
    | none => exact .rfl
    | some p => exact ⟨Eq.refl _, Eq.refl _, by simp⟩
  · exact .rfl

lemma sameFrame_stepConsumer {k : ℕ} {pc pc' : ConsumerPc} {body : String} {delivered : Bool}
    (h : stepConsumer render s k pc body delivered = some (s', pc')) : SameFrame s s' := by
  cases pc with
  | connecting =>
    simp only [stepConsumer, Option.some.injEq, Prod.mk.injEq] at h
    exact h.1 ▸ .rfl
  | receiving =>
    simp only [stepConsumer] at h
    split_ifs at h
    · rw [← (Prod.mk.inj (Option.some.inj h)).1]
      exact sameFrame_guardedOnReply k s
    · rw [← (Prod.mk.inj (Option.some.inj h)).1]
      exact .rfl
  | sending fragment =>
    simp only [stepConsumer] at h
    split_ifs at h
    · rw [← (Prod.mk.inj (Option.some.inj h)).1]
      have hsent : SameFrame s { s with sent := s.sent ++ [fragment] } :=
        ⟨Eq.refl _, Eq.refl _, Eq.refl _⟩
      exact hsent.trans (sameFrame_guardedOnReply k _)
    · rw [← (Prod.mk.inj (Option.some.inj h)).1]
      exact .rfl
  | emitting i e =>
    obtain ⟨⟨s'', e'⟩, he, heq⟩ := Option.map_eq_some_iff.mp h
    rw [← (Prod.mk.inj heq).1]
    exact sameFrame_stepEmission he
  | finished => cases h

lemma sameFrame_stepTimer {k i : ℕ} {pc pc' : TimerPc} {delivered : Bool}
    (h : stepTimer s k i pc delivered = some (s', pc')) : SameFrame s s' := by
  cases pc with
  | sleeping =>
    simp only [stepTimer, Option.some.injEq, Prod.mk.injEq] at h
    exact h.1 ▸ .rfl
  | emitting e =>
    obtain ⟨⟨s'', e'⟩, he, heq⟩ := Option.map_eq_some_iff.mp h
    rw [← (Prod.mk.inj heq).1]
    exact sameFrame_stepEmission he
  | finished => cases h

lemma sameFrame_abandonEmission (s : Socket) (i : ℕ) (e : Emission) :
    SameFrame s (abandonEmission s i e) := by
  cases e with
  | sending text => exact ⟨Eq.refl _, Eq.refl _, by simp [abandonEmission]⟩
  | acquiring => exact .rfl
  | finished => exact .rfl

lemma sameFrame_cancelled (s : Socket) (code : Code) : SameFrame s (cancelled s code).1 := by
  unfold cancelled
  split
  · exact sameFrame_abandonEmission ..
  · exact .rfl
  · exact sameFrame_abandonEmission ..
  · exact .rfl

lemma sameFrame_task {t : ℕ} {body : String} {delivered : Bool}
    (h : step render s (.task t body delivered) = some s') : SameFrame s s' := by
  obtain ⟨task, -, h⟩ := Option.bind_eq_some_iff.mp h
  split at h
  · obtain ⟨⟨s'', pc'⟩, hc, h⟩ := Option.bind_eq_some_iff.mp h
    rw [← Option.some.inj h]
    exact (sameFrame_stepConsumer hc).trans (sameFrame_setCode ..)
  · obtain ⟨⟨s'', pc'⟩, hc, h⟩ := Option.bind_eq_some_iff.mp h
    rw [← Option.some.inj h]
    exact (sameFrame_stepTimer hc).trans (sameFrame_setCode ..)

lemma sameFrame_cancel {t : ℕ} (h : step render s (.cancel t) = some s') : SameFrame s s' := by
  obtain ⟨task, -, h⟩ := Option.bind_eq_some_iff.mp h
  split_ifs at h
  rw [← Option.some.inj h]
  exact (sameFrame_cancelled s task.code).trans (sameFrame_setCode ..)

/-! ### Superseded polls -/

/-- Whether the current poll still has to make its `_PollState`. -/
def MainPc.pending : MainPc → ℕ
  | .announcing _ | .clearing _ | .ended => 1
  | .receiving | .binding _ => 0

/-- The frame between two steps: `my_gen` is the generation counter, and `state` is bound once a
poll has made its state. -/
structure FrameInv (s : Socket) : Prop where
  gen : s.cells.generation = s.cells.myGen
  made : s.cells.generation ≤ s.polls.length + s.main.pending
  bound : s.polls ≠ [] → s.cells.state < s.polls.length

lemma FrameInv.of_sameFrame (hi : FrameInv s) (h : SameFrame s s') : FrameInv s' where
  gen := by rw [h.cells, hi.gen]
  made := by rw [h.cells, h.polls, h.main]; exact hi.made
  bound hne := by
    have hs : s.polls ≠ [] := by
      rw [← List.length_pos_iff, ← h.polls, List.length_pos_iff]
      exact hne
    rw [h.cells, h.polls]
    exact hi.bound hs

lemma frameInv_step {a : Act} (hi : FrameInv s) (h : step render s a = some s') : FrameInv s' := by
  have hgen := hi.gen
  have hmade := hi.made
  cases a with
  | main hostIds =>
    cases hm : s.main with
    | receiving =>
      simp only [step, stepMain, hm, Option.some.injEq] at h
      subst h
      refine ⟨rfl, ?_, hi.bound⟩
      simp only [hm, MainPc.pending] at hmade ⊢
      simpa [cancelInflight] using hmade
    | announcing hosts =>
      simp only [step, stepMain, hm, Option.some.injEq] at h
      subst h
      exact ⟨hgen, by simpa [hm, MainPc.pending] using hmade, hi.bound⟩
    | clearing hosts =>
      simp only [step, stepMain, hm, Option.some.injEq] at h
      subst h
      exact ⟨hgen, by simpa [hm, MainPc.pending] using hmade, fun _ => by simp⟩
    | binding hosts =>
      simp only [step, stepMain, hm, Option.some.injEq] at h
      subst h
      exact ⟨hgen, by simpa [hm, MainPc.pending] using hmade, hi.bound⟩
    | ended => simp [step, stepMain, hm] at h
  | leave =>
    simp only [step] at h
    split_ifs at h with hm
    obtain rfl := Option.some.inj h
    refine ⟨hgen, ?_, hi.bound⟩
    have hle : s.main.pending ≤ 1 := by cases s.main <;> simp [MainPc.pending]
    simp only [cancelInflight, MainPc.pending]
    omega
  | task t body delivered => exact hi.of_sameFrame (sameFrame_task h)
  | cancel t => exact hi.of_sameFrame (sameFrame_cancel h)

lemma frameInv_of_reachable (h : Reachable render s) : FrameInv s :=
  h.invariant ⟨rfl, by simp [Socket.init], by simp [Socket.init]⟩
    fun _ _ _ hi _ hs => frameInv_step hi hs

/-- Once poll `n` has taken its generation, the closures of an earlier poll act as if that poll were
the current one: they render every body and count the reply for whichever poll `state` is bound
to. -/
theorem superseded_not_suppressed {k n : ℕ} (h : Reachable render s) (hk : 1 ≤ k) (hkn : k < n)
    (hn : n ≤ s.cells.generation) :
    ¬ Suppressed render k s ∧ isCurrent k s = true ∧
      (∀ body, guardedRender render k s body = render body) ∧
      ∃ p, s.polls[s.cells.state]? = some p ∧
        (guardedOnReply k s).1.polls = s.polls.set s.cells.state p.onReply := by
  have hi := frameInv_of_reachable h
  have hcur : isCurrent k s = true := by simp [isCurrent, hi.gen]
  have hne : s.polls ≠ [] := by
    have hmade := hi.made
    have hle : s.main.pending ≤ 1 := by cases s.main <;> simp [MainPc.pending]
    rw [← List.length_pos_iff]
    omega
  have hp := List.getElem?_eq_getElem (hi.bound hne)
  refine ⟨fun hs => ?_, hcur, fun body => by simp [guardedRender, hcur], _, hp, ?_⟩
  · simp [hs.1] at hcur
  · simp [guardedOnReply, hcur, hp]

/-- Two polls of one host: the second takes its generation while the consumer of the first still
waits for replies. -/
def twoPolls : List Act :=
  [.main ["h"], .main [], .main [], .task 0 "" true, .main [], .main ["h"]]

def twoPollsSocket : Socket where
  main := .announcing ["h"]
  cells := ⟨2, 2, 0, some 0, some 1⟩
  polls := [.new 1]
  tasks := [⟨1, true, .consumer .receiving⟩, ⟨1, true, .timer 0 .sleeping⟩]
  sent := ["<tbody id=\"host-status-results\" hx-swap-oob=\"innerHTML\"><tr><td colspan=\"5\">" ++
      "Waiting for 1 runner(s) to respond...</td></tr></tbody>",
    "<div id=\"poll-sentinel\" hx-swap-oob=\"innerHTML\"></div>"]
  dispatched := [(1, "h")]

lemma reachable_twoPollsSocket (render : String → String) : Reachable render twoPollsSocket :=
  reaches_of_guardedRun (show guardedRun _ _ _ twoPolls = some twoPollsSocket from rfl)

/-- On that socket a late reply of the first poll would be rendered and counted. -/
theorem twoPollsSocket_superseded :
    ¬ Suppressed id 1 twoPollsSocket ∧ isCurrent 1 twoPollsSocket = true ∧
      (∀ body, guardedRender id 1 twoPollsSocket body = body) ∧
      ∃ p, twoPollsSocket.polls[twoPollsSocket.cells.state]? = some p ∧
        (guardedOnReply 1 twoPollsSocket).1.polls =
          twoPollsSocket.polls.set twoPollsSocket.cells.state p.onReply :=
  superseded_not_suppressed (n := 2) (reachable_twoPollsSocket id) (by decide) (by decide)
    (by decide)

/-- The generation guard does not suppress superseded polls. -/
theorem generation_guard_fails :
    ¬ ∀ (render : String → String) (s : Socket), Reachable render s →
      ∀ k n, 1 ≤ k → k < n → n ≤ s.cells.generation → Suppressed render k s := by
  intro h
  have hs := h (fun body => body) _ (reachable_twoPollsSocket _) 1 2 (by decide) (by decide)
    (by decide)
  exact absurd hs.1 (by decide)

end TestOrch.WsAdmin
