import TestOrch.Core.Transition
import TestOrch.Core.Pool
import TestOrch.Backend.PollState

/-!
# One poll state under any interleaving

Any number of calls of `on_reply` and of the grace timer's `emit_sentinel` run on one `_PollState`.
A step is one call from one await to the next; which of the waiting calls gets the lock is open, and
a send delivers or raises.
-/

namespace TestOrch

open Transition

structure PollCall where
  /-- The call is `on_reply`, and not the timer's `emit_sentinel`. -/
  reply : Bool
  emission : Emission
  /-- The replies that were recorded when the send of this call began. -/
  recorded : ℕ
  deriving DecidableEq, Repr

/-- The call is sending, and so holds the lock. -/
def PollCall.sending (c : PollCall) : Bool :=
  match c.emission with
  | .sending _ => true
  | _ => false

/-- A poll state, the calls made on it, and the sentinels delivered, each with the number of replies
recorded when its send began. -/
structure PollRun where
  poll : PollState
  calls : List PollCall
  delivered : List (String × ℕ)
  deriving DecidableEq, Repr

inductive PollAct where
  /-- `on_reply` is called. -/
  | reply
  /-- The grace timer calls `emit_sentinel`. -/
  | timer
  /-- Call `i` gets the lock. -/
  | acquire (i : ℕ)
  /-- The send of call `i` ends. -/
  | settle (i : ℕ) (delivered : Bool)
  deriving DecidableEq

namespace PollRun

def init (total : ℕ) : PollRun := ⟨.new total, [], []⟩

/-- The replies recorded so far: the calls of `on_reply`. -/
def recorded (s : PollRun) : ℕ := s.calls.countP PollCall.reply

def step (s : PollRun) : PollAct → Option PollRun
  | .reply =>
    let poll := s.poll.onReply
    let next := if poll.complete then .acquiring else .finished
    some { s with poll := poll, calls := s.calls ++ [⟨true, next, 0⟩] }
  | .timer => some { s with calls := s.calls ++ [⟨false, .acquiring, 0⟩] }
  | .acquire i => do
    let c ← s.calls[i]?
    if c.emission = .acquiring then
      let (poll, e) ← s.poll.acquire
      some { s with
        poll := poll
        calls := s.calls.set i { c with emission := e, recorded := s.recorded } }
    else none
  | .settle i delivered => do
    let c ← s.calls[i]?
    match c.emission with
    | .sending text =>
      some {
        poll := s.poll.release delivered
        calls := s.calls.set i { c with emission := .finished }
        delivered := if delivered then s.delivered ++ [(text, c.recorded)] else s.delivered }
    | _ => none

/-- The steps, one rule for each thing a call can do. -/
inductive Rule (s : PollRun) : PollAct → PollRun → Prop
  | reply {e} (he : e = .acquiring ∨ e = .finished) :
      Rule s .reply { s with poll := s.poll.onReply, calls := s.calls ++ [⟨true, e, 0⟩] }
  | timer : Rule s .timer { s with calls := s.calls ++ [⟨false, .acquiring, 0⟩] }
  | late {i c} (hc : s.calls[i]? = some c) (he : c.emission = .acquiring)
      (hfree : s.poll.locked = false) (hdone : s.poll.completed = true) :
      Rule s (.acquire i)
        { s with calls := s.calls.set i { c with emission := .finished, recorded := s.recorded } }
  | send {i c} (hc : s.calls[i]? = some c) (he : c.emission = .acquiring)
      (hfree : s.poll.locked = false) (hdone : s.poll.completed = false) :
      Rule s (.acquire i)
        { s with
          poll := { s.poll with locked := true }
          calls := s.calls.set i
            { c with
              emission := .sending (renderSentinel s.poll.received s.poll.total)
              recorded := s.recorded } }
  | settle {i c text delivered} (hc : s.calls[i]? = some c) (he : c.emission = .sending text) :
      Rule s (.settle i delivered)
        { poll := s.poll.release delivered
          calls := s.calls.set i { c with emission := .finished }
          delivered := if delivered then s.delivered ++ [(text, c.recorded)] else s.delivered }

variable {s s' : PollRun} {total : ℕ}

/-- Every step is an instance of a rule. -/
theorem Rule.of_step {a : PollAct} (h : s.step a = some s') : Rule s a s' := by
  cases a with
  | reply =>
    obtain rfl := Option.some.inj h
    apply Rule.reply
    split_ifs
    · exact .inl rfl
    · exact .inr rfl
  | timer =>
    obtain rfl := Option.some.inj h
    exact .timer
  | acquire i =>
    obtain ⟨c, hc, h⟩ := Option.bind_eq_some_iff.mp h
    split_ifs at h with he
    obtain ⟨⟨poll, e⟩, hacq, h⟩ := Option.bind_eq_some_iff.mp h
    obtain rfl := Option.some.inj h
    unfold PollState.acquire at hacq
    split_ifs at hacq with hlocked hdone
    · obtain ⟨rfl, rfl⟩ := Prod.mk.inj (Option.some.inj hacq)
      exact .late hc he (by simpa using hlocked) hdone
    · obtain ⟨rfl, rfl⟩ := Prod.mk.inj (Option.some.inj hacq)
      exact .send hc he (by simpa using hlocked) (by simpa using hdone)
  | settle i delivered =>
    obtain ⟨c, hc, h⟩ := Option.bind_eq_some_iff.mp h
    cases he : c.emission with
    | sending text =>
      simp only [he] at h
      obtain rfl := Option.some.inj h
      exact .settle hc he
    | acquiring => simp [he] at h
    | finished => simp [he] at h

/-- A call that moves on stays what it is. -/
lemma recorded_set {i : ℕ} {c : PollCall} (hc : s.calls[i]? = some c) (e : Emission) (n : ℕ) :
    (s.calls.set i { c with emission := e, recorded := n }).countP PollCall.reply = s.recorded :=
  Pool.countP_set_same hc (by rfl)

/-- Only a call of `on_reply` records a reply. -/
lemma recorded_step {a : PollAct} (h : s.step a = some s') :
    s'.recorded = s.recorded + if a = .reply then 1 else 0 := by
  cases Rule.of_step h with
  | reply he => simp [recorded]
  | timer => simp [recorded]
  | late hc | send hc => exact recorded_set hc _ _
  | settle hc => exact recorded_set hc _ _

/-- The counter is the number of replies, the lock is held by the one call that is sending, a
sentinel is delivered exactly when the latch is set, and every text was rendered from the replies
recorded when its send began. -/
structure Latched (total : ℕ) (s : PollRun) : Prop where
  hosts : s.poll.total = total
  received : s.poll.received = s.recorded
  lock : s.calls.countP PollCall.sending = if s.poll.locked then 1 else 0
  open_ : s.poll.locked = true → s.poll.completed = false
  once : s.delivered.length = if s.poll.completed then 1 else 0
  began : Pool.All s.calls fun _ c => c.recorded ≤ s.recorded
  texts : Pool.All s.calls fun _ c => ∀ text, c.emission = .sending text →
    text = renderSentinel c.recorded total
  rendered : ∀ d ∈ s.delivered, d.1 = renderSentinel d.2 total

lemma Latched.init (total : ℕ) : Latched total (.init total) where
  hosts := rfl
  received := rfl
  lock := rfl
  open_ := fun _ => rfl
  once := rfl
  began := Pool.all_nil
  texts := Pool.all_nil
  rendered := by simp [PollRun.init]

/-- A new call, which does not send yet, keeps the latch if the counter counts it. -/
lemma Latched.append (h : Latched total s) {reply : Bool} {e : Emission} {poll : PollState}
    (he : ∀ text, e ≠ .sending text) (htotal : poll.total = s.poll.total)
    (hlocked : poll.locked = s.poll.locked) (hdone : poll.completed = s.poll.completed)
    (hreceived : poll.received = s.recorded + reply.toNat) :
    Latched total { s with poll := poll, calls := s.calls ++ [⟨reply, e, 0⟩] } := by
  have hsending : PollCall.sending ⟨reply, e, 0⟩ = false := by
    cases e with
    | sending text => exact absurd rfl (he text)
    | acquiring => rfl
    | finished => rfl
  have hrecorded : PollRun.recorded { s with poll := poll, calls := s.calls ++ [⟨reply, e, 0⟩] } =
      s.recorded + reply.toNat := by
    cases reply <;> simp [recorded]
  refine ⟨htotal.trans h.hosts, hreceived.trans hrecorded.symm, ?_, ?_, ?_, ?_, ?_, h.rendered⟩
  · show (s.calls ++ _).countP _ = if poll.locked then 1 else 0
    rw [List.countP_append, h.lock, List.countP_singleton, hsending, hlocked]
    rfl
  · intro hl
    exact hdone.trans (h.open_ (hlocked.symm.trans hl))
  · show s.delivered.length = if poll.completed then 1 else 0
    rw [hdone, h.once]
  · rw [hrecorded]
    exact Pool.all_append_singleton.mpr
      ⟨h.began.mono fun _ _ hc => hc.trans (Nat.le_add_right _ _), Nat.zero_le _⟩
  · refine Pool.all_append_singleton.mpr ⟨h.texts, ?_⟩
    intro text hsend
    exact absurd hsend (he text)

/-- Every step keeps the latch. -/
lemma Latched.step {a : PollAct} (h : Latched total s) (hs : s.step a = some s') :
    Latched total s' := by
  have hrecorded := recorded_step hs
  cases Rule.of_step hs with
  | @reply e he =>
    refine h.append ?_ rfl rfl rfl (congrArg (· + 1) h.received)
    rintro text rfl
    rcases he with he | he <;> cases he
  | timer => exact h.append (fun _ => Emission.noConfusion) rfl rfl rfl h.received
  | @late i c hc he hfree hdone =>
    -- A call that comes too late returns without a message.
    have hidle : c.sending = false := by rw [PollCall.sending, he]
    refine ⟨h.hosts, ?_, ?_, h.open_, h.once, ?_, ?_, h.rendered⟩
    · exact h.received.trans (recorded_set hc _ _).symm
    · exact (Pool.countP_set_same hc hidle.symm).trans h.lock
    · rw [hrecorded]
      exact (Pool.all_set hc).mpr ⟨le_rfl, fun j c' _ hj => h.began j c' hj⟩
    · refine (Pool.all_set hc).mpr ⟨?_, fun j c' _ hj => h.texts j c' hj⟩
      rintro text he'
      cases he'
  | @send i c hc he hfree hdone =>
    -- The call takes the lock, and renders the replies that are recorded now.
    have hidle : c.sending = false := by rw [PollCall.sending, he]
    refine ⟨h.hosts, ?_, ?_, fun _ => hdone, h.once, ?_, ?_, h.rendered⟩
    · exact h.received.trans (recorded_set hc _ _).symm
    · show (s.calls.set i _).countP _ = _
      rw [Pool.countP_set_succ hc hidle rfl, h.lock, hfree]
      rfl
    · rw [hrecorded]
      exact (Pool.all_set hc).mpr ⟨le_rfl, fun j c' _ hj => h.began j c' hj⟩
    · refine (Pool.all_set hc).mpr ⟨?_, fun j c' _ hj => h.texts j c' hj⟩
      rintro text he'
      obtain rfl := Emission.sending.inj he'
      rw [h.received, h.hosts]
  | @settle i c text delivered hc he =>
    have hbusy : c.sending = true := by rw [PollCall.sending, he]
    -- the call holds the lock, so nothing was delivered yet
    have hlocked : s.poll.locked = true := by
      have hpos := Pool.countP_pos_of_get hc hbusy
      rw [h.lock] at hpos
      by_contra hno
      simp [hno] at hpos
    have hopen := h.open_ hlocked
    have hnone : s.delivered = [] := by
      have := h.once
      rw [hopen] at this
      exact List.length_eq_zero_iff.mp this
    refine ⟨h.hosts, ?_, ?_, ?_, ?_, ?_, ?_, ?_⟩
    · exact h.received.trans (recorded_set hc _ _).symm
    · have hset : (s.calls.set i { c with emission := .finished }).countP PollCall.sending + 1 =
          s.calls.countP PollCall.sending := Pool.countP_set_pred hc hbusy rfl
      rw [h.lock, hlocked] at hset
      exact Nat.succ.inj hset
    · intro hno
      cases hno
    · cases delivered <;> simp [PollState.release, hopen, hnone]
    · rw [hrecorded]
      exact (Pool.all_set hc).mpr ⟨h.began i c hc, fun j c' _ hj => h.began j c' hj⟩
    · refine (Pool.all_set hc).mpr ⟨?_, fun j c' _ hj => h.texts j c' hj⟩
      rintro text' he'
      cases he'
    · intro d hd
      cases delivered with
      | false => exact h.rendered d hd
      | true =>
        rw [hnone] at hd
        obtain rfl := List.mem_singleton.mp hd
        exact h.texts i c hc text he

/-- At most one sentinel is delivered. It is rendered from the number `r` of replies recorded when
its send began, so it says "All" exactly when those are as many as the hosts, and never names fewer
than were recorded. -/
theorem one_truthful_sentinel (h : Reaches PollRun.step (fun _ _ => True) (.init total) s) :
    s.delivered.length ≤ 1 ∧
    ∀ text r, (text, r) ∈ s.delivered →
      text = renderSentinel r total ∧ (saysAll text ↔ 0 < total ∧ total ≤ r) ∧
      ∀ n, text = renderSentinel n total → min r total ≤ n := by
  have hl : Latched total s := h.invariant (.init total) fun _ _ _ hl _ hs => hl.step hs
  constructor
  · rw [hl.once]
    split_ifs <;> omega
  · intro text r hd
    have htext : text = renderSentinel r total := hl.rendered _ hd
    refine ⟨htext, ?_, ?_⟩
    · rw [htext, saysAll_renderSentinel]
    · intro n hn
      have := min_eq_of_renderSentinel (htext.symm.trans hn)
      omega

/-- The timer's send fails while the only reply waits for the lock. -/
theorem retriedSentinel_truthful : ∃ s : PollRun, s.delivered = [(renderSentinel 1 1, 1)] ∧
    s.delivered.length ≤ 1 ∧ saysAll (renderSentinel 1 1) := by
  obtain ⟨s, hs, hp⟩ := exists_reaches_of_guardedRun PollRun.step (fun _ _ => True) (.init 1)
    [.timer, .acquire 0, .reply, .settle 0 false, .acquire 1, .settle 1 true]
    (fun s => s.delivered = [(renderSentinel 1 1, 1)]) (by decide +kernel)
  simp only [decide_eq_true_eq] at hp
  obtain ⟨hlen, htexts⟩ := one_truthful_sentinel hs
  have hmem : (renderSentinel 1 1, 1) ∈ s.delivered := by
    rw [hp]
    exact List.mem_singleton_self _
  obtain ⟨-, hall, -⟩ := htexts _ _ hmem
  exact ⟨s, hp, hlen, hall.mpr (by decide)⟩

end PollRun

end TestOrch
