import TestOrch.System.PollSockets

/-!
# Polls do not mix and lose no reply

`uuid4` does not mint a correlation id twice, so a reply belongs to one poll of one socket. Where
the queue of a consumer is bound before its poll is dispatched, as `ws_admin` waits for, no reply of
the poll precedes the binding, and the browser is shown the rows of all of them.
-/

namespace TestOrch.StatusPolls

open Transition Fanout WsAdmin

/-- `uuid4` returns no id again. -/
def FreshIds (s : State) : Act → Prop
  | .main _ _ id => ∀ a ∈ s.sockets, ∀ poll ∈ a.polls, poll.correlationId ≠ id
  | _ => True

instance (s : State) : ∀ a, Decidable (FreshIds s a)
  | .main .. => inferInstanceAs (Decidable (∀ a ∈ s.sockets, ∀ poll ∈ a.polls, _))
  | .connect | .leave .. | .task .. | .cancel .. | .answer .. => inferInstanceAs (Decidable True)

def State.poll? (s : State) (i k : ℕ) : Option Poll := s.sockets[i]?.bind fun a => a.polls[k]?

/-- A poll with the id has the host. -/
def State.Polls (s : State) (id host : String) : Prop :=
  ∃ i k poll, s.poll? i k = some poll ∧ poll.correlationId = id ∧ host ∈ poll.hostIds

/-- Every request and every reply belongs to one poll. -/
structure Traceable (render : String → String) (s : State) : Prop where
  sockets : ∀ a ∈ s.sockets, Consistent render s.journal a
  distinct : ∀ i j k l p q, s.poll? i k = some p → s.poll? j l = some q →
    p.correlationId = q.correlationId → i = j ∧ k = l
  requests : ∀ r ∈ s.requests, ∃ host, s.Polls r.correlationId host ∧
    queueNameFor host = .ok r.queue
  journal : ∀ m ∈ s.journal, ∃ id, m.1 = statusExchangeFor id ∧ s.Polls id m.2.host

variable {render : String → String} {s s' : State} {a a' : AdminSocket} {i : ℕ}

lemma statusExchangeFor_inj {id id' : String} (h : statusExchangeFor id = statusExchangeFor id') :
    id = id' := by
  simpa [statusExchangeFor] using h

/-- The requests of a poll. -/
lemma mem_requestsFor {poll : Poll} {hostIds : List String} {requests : List Request}
    (h : requestsFor poll hostIds = some requests) {r : Request} (hr : r ∈ requests) :
    r.correlationId = poll.correlationId ∧ ∃ host ∈ hostIds, queueNameFor host = .ok r.queue := by
  cases hm : hostIds.mapM (requestFor poll.correlationId) with
  | error e => simp [requestsFor, hm, Except.toOption] at h
  | ok rs =>
    rw [requestsFor, hm] at h
    obtain rfl : rs = requests := Option.some.inj h
    obtain ⟨host, hhost, hrequest⟩ := Except.exists_mem_of_mapM hm r hr
    obtain ⟨queue, hqueue, hpure⟩ := Except.bind_eq_ok.mp hrequest
    obtain rfl := Except.pure_eq_ok.mp hpure
    exact ⟨rfl, host, hhost, hqueue⟩

/-- What a socket puts on the queues of the hosts are requests of its last poll. -/
def OwnRequests (a : AdminSocket) (requests : List Request) : Prop :=
  ∀ r ∈ requests, ∃ hosts poll, a.socket.main = .binding hosts ∧ a.polls.getLast? = some poll ∧
    r.correlationId = poll.correlationId ∧ ∃ host ∈ poll.hostIds, queueNameFor host = .ok r.queue

/-- The queues of the consumers before and after a step, when `published` replies have been
published: a queue keeps its exchange and its binding. -/
structure SameQueues (published : ℕ) (a a' : AdminSocket) : Prop where
  kept : ∀ j q, a.subscriptions j = some q →
    ∃ q', a'.subscriptions j = some q' ∧ q'.exchange = q.exchange ∧ q'.since = q.since
  bound : ∀ j q', a'.subscriptions j = some q' →
    (∃ q, a.subscriptions j = some q ∧ q'.exchange = q.exchange ∧ q'.since = q.since) ∨
      a.subscriptions j = none ∧ q'.since = published

lemma SameQueues.of_eq {published : ℕ} (h : a'.subscriptions = a.subscriptions) :
    SameQueues published a a' where
  kept _ q hq := ⟨q, h ▸ hq, rfl, rfl⟩
  bound _ q hq := .inl ⟨q, h ▸ hq, rfl, rfl⟩

/-- One queue changes in what it holds. -/
lemma SameQueues.update {published t : ℕ} {q q' : Subscription} (hq : a.subscriptions t = some q)
    (h : a'.subscriptions = Function.update a.subscriptions t (some q'))
    (hexchange : q'.exchange = q.exchange) (hsince : q'.since = q.since) :
    SameQueues published a a' where
  kept j p hp := by
    rw [h]
    by_cases hj : j = t
    · subst hj
      obtain rfl := Option.some.inj (hq.symm.trans hp)
      exact ⟨q', Function.update_self .., hexchange, hsince⟩
    · exact ⟨p, (Function.update_of_ne hj _ _).trans hp, rfl, rfl⟩
  bound j p hp := by
    rw [h] at hp
    by_cases hj : j = t
    · subst hj
      obtain rfl := Option.some.inj (hp.symm.trans (Function.update_self ..))
      exact .inl ⟨q, hq, hexchange, hsince⟩
    · exact .inl ⟨p, (Function.update_of_ne hj _ _).symm.trans hp, rfl, rfl⟩

/-- What a step of one socket does that others can notice: it starts the polls `new`, and puts
requests of its last poll on the queues. -/
structure Moves (render : String → String) (published : ℕ) (new : List Poll) (a a' : AdminSocket)
    (requests : List Request) : Prop where
  socket : ∃ act, WsAdmin.step render a.socket act = some a'.socket
  polls : a'.polls = a.polls ++ new
  requests : OwnRequests a requests
  queues : SameQueues published a a'

section Steps

variable {journal : List (String × Reply)} {published t n : ℕ} {id : String}
  {hostIds : List String} {requests : List Request} {delivered : Bool}

lemma OwnRequests.nil : OwnRequests a [] := fun _ h => absurd h List.not_mem_nil

lemma OwnRequests.of_requestsFor (h : Consistent render journal a) {hosts sub : List String}
    {poll : Poll} (hmain : a.socket.main = .binding hosts) (hsub : sub ⊆ hosts)
    (hpoll : a.polls.getLast? = some poll) (hr : requestsFor poll sub = some requests) :
    OwnRequests a requests := by
  intro r hmem
  obtain ⟨hid, host, hhost, hqueue⟩ := mem_requestsFor hr hmem
  obtain ⟨id, hlast⟩ := h.main hosts (by rw [hmain]; rfl)
  obtain rfl := Option.some.inj (hlast.symm.trans hpoll)
  exact ⟨hosts, _, hmain, hpoll, hid, host, hsub hhost, hqueue⟩

lemma Consistent.moves_main (h : Consistent render journal a)
    (hs : a.stepMain render hostIds id = some (a', requests)) :
    ∃ new, (new = [] ∨ new = [⟨id, hostIds⟩]) ∧ Moves render published new a a' requests := by
  obtain ⟨socket, hsocket, hs⟩ := Option.bind_eq_some_iff.mp hs
  split at hs
  · simp only [Option.some.injEq, Prod.mk.injEq] at hs
    obtain ⟨rfl, rfl⟩ := hs
    exact ⟨_, .inr rfl, ⟨_, hsocket⟩, rfl, .nil, .of_eq rfl⟩
  · next hosts hmain =>
    obtain ⟨poll, hpoll, hs⟩ := Option.bind_eq_some_iff.mp hs
    obtain ⟨requests, hrequests, hs⟩ := Option.bind_eq_some_iff.mp hs
    simp only [Option.some.injEq, Prod.mk.injEq] at hs
    obtain ⟨rfl, rfl⟩ := hs
    exact ⟨[], .inl rfl, ⟨_, hsocket⟩, (List.append_nil _).symm,
      .of_requestsFor h hmain (List.Subset.refl _) hpoll hrequests, .of_eq rfl⟩
  · simp only [Option.some.injEq, Prod.mk.injEq] at hs
    obtain ⟨rfl, rfl⟩ := hs
    exact ⟨[], .inl rfl, ⟨_, hsocket⟩, (List.append_nil _).symm, .nil, .of_eq rfl⟩

lemma Consistent.moves_leave (h : Consistent render journal a)
    (hs : a.stepLeave render n = some (a', requests)) :
    Moves render published [] a a' requests := by
  obtain ⟨socket, hsocket, hs⟩ := Option.bind_eq_some_iff.mp hs
  split at hs
  · next hosts hmain =>
    obtain ⟨poll, hpoll, hs⟩ := Option.bind_eq_some_iff.mp hs
    obtain ⟨requests, hrequests, hs⟩ := Option.bind_eq_some_iff.mp hs
    simp only [Option.some.injEq, Prod.mk.injEq] at hs
    obtain ⟨rfl, rfl⟩ := hs
    exact ⟨⟨_, hsocket⟩, (List.append_nil _).symm,
      .of_requestsFor h hmain (List.take_subset _ _) hpoll hrequests, .of_eq rfl⟩
  · simp only [Option.some.injEq, Prod.mk.injEq] at hs
    obtain ⟨rfl, rfl⟩ := hs
    exact ⟨⟨_, hsocket⟩, (List.append_nil _).symm, .nil, .of_eq rfl⟩

/-- A coroutine that ends before its first request sends none. -/
lemma stepLeave_zero (hs : a.stepLeave render 0 = some (a', requests)) : requests = [] := by
  obtain ⟨socket, -, hs⟩ := Option.bind_eq_some_iff.mp hs
  split at hs
  · obtain ⟨poll, -, hs⟩ := Option.bind_eq_some_iff.mp hs
    obtain ⟨requests', hrequests, hs⟩ := Option.bind_eq_some_iff.mp hs
    simp only [Option.some.injEq, Prod.mk.injEq] at hs
    obtain ⟨-, rfl⟩ := hs
    exact (Option.some.inj hrequests).symm
  · simp only [Option.some.injEq, Prod.mk.injEq] at hs
    exact hs.2.symm

lemma Consistent.moves_task (h : Consistent render journal a)
    (hs : a.stepTask render published t delivered = some a') :
    Moves render published [] a a' [] := by
  obtain ⟨task, htask, hs⟩ := Option.bind_eq_some_iff.mp hs
  split at hs
  · next hconnecting =>
    obtain ⟨socket, hsocket, hs⟩ := Option.bind_eq_some_iff.mp hs
    obtain ⟨poll, hpoll, hs⟩ := Option.bind_eq_some_iff.mp hs
    obtain rfl := Option.some.inj hs
    refine ⟨⟨_, hsocket⟩, (List.append_nil _).symm, .nil, ?_⟩
    have hnone : a.subscriptions t = none := by
      obtain ⟨-, poll', -, -, hcode⟩ := h.tasks t task htask
      rw [hconnecting] at hcode
      exact Option.eq_none_iff_forall_not_mem.mpr fun q hq => (hcode.2 q hq).2.2
    cases delivered with
    | false => exact .of_eq rfl
    | true =>
      constructor
      · intro j q hq
        have hj : j ≠ t := by
          rintro rfl
          exact absurd (hnone.symm.trans hq) (by simp)
        exact ⟨q, (Function.update_of_ne hj _ _).trans hq, rfl, rfl⟩
      · intro j q hq
        by_cases hj : j = t
        · subst hj
          obtain rfl := Option.some.inj (hq.symm.trans (Function.update_self ..))
          exact .inr ⟨hnone, rfl⟩
        · exact .inl ⟨q, (Function.update_of_ne hj _ _).symm.trans hq, rfl, rfl⟩
  · next q _ hq =>
    split at hs
    · obtain ⟨socket, hsocket, hs⟩ := Option.bind_eq_some_iff.mp hs
      obtain rfl := Option.some.inj hs
      exact ⟨⟨_, hsocket⟩, (List.append_nil _).symm, .nil,
        .update hq rfl rfl rfl⟩
    · cases hs
  · cases hs
  · next row q _ hq =>
    obtain ⟨socket, hsocket, hs⟩ := Option.bind_eq_some_iff.mp hs
    obtain rfl := Option.some.inj hs
    exact ⟨⟨_, hsocket⟩, (List.append_nil _).symm, .nil, .update hq rfl rfl rfl⟩
  · obtain ⟨socket, hsocket, hs⟩ := Option.bind_eq_some_iff.mp hs
    obtain rfl := Option.some.inj hs
    exact ⟨⟨_, hsocket⟩, (List.append_nil _).symm, .nil, .of_eq rfl⟩

end Steps

/-- The steps, one rule for each of the three things that can happen. -/
inductive Rule (render : String → String) (s : State) : Act → State → Prop
  | connect : Rule render s .connect { s with sockets := s.sockets ++ [.init] }
  | move {act i a a' new requests} (ha : s.sockets[i]? = some a)
      (hnew : new = [] ∨ ∃ hostIds id, act = .main i hostIds id ∧ new = [⟨id, hostIds⟩])
      (hact : requests = [] ∨ (∃ hostIds id, act = .main i hostIds id) ∨
        ∃ n, act = .leave i (n + 1))
      (hok : Consistent render s.journal a')
      (hmoves : Moves render s.journal.length new a a' requests) :
      Rule render s act (s.move i (a', requests))
  | answer {j r reply acknowledged} (hr : s.requests[j]? = some r)
      (hqueue : queueNameFor reply.host = .ok r.queue) :
      Rule render s (.answer j reply acknowledged)
        { sockets := s.sockets.map (AdminSocket.receive (statusExchangeFor r.correlationId) reply)
          requests := if acknowledged then s.requests.eraseIdx j else s.requests
          journal := s.journal ++ [(statusExchangeFor r.correlationId, reply)] }

/-- Every step is an instance of a rule. -/
theorem Rule.of_step {act : Act} (hi : ∀ a ∈ s.sockets, Consistent render s.journal a)
    (h : step render s act = some s') : Rule render s act s' := by
  cases act with
  | connect =>
    obtain rfl := Option.some.inj h
    exact .connect
  | main i hostIds id =>
    obtain ⟨a, ha, h⟩ := Option.bind_eq_some_iff.mp h
    obtain ⟨⟨a', requests⟩, hmoved, h⟩ := Option.bind_eq_some_iff.mp h
    obtain rfl := Option.some.inj h
    have hc := hi a (List.mem_of_getElem? ha)
    obtain ⟨new, hnew, hmoves⟩ := hc.moves_main hmoved
    exact .move ha (hnew.imp_right fun h => ⟨_, _, rfl, h⟩) (.inr (.inl ⟨_, _, rfl⟩))
      (hc.stepMain hmoved).1 hmoves
  | leave i n =>
    obtain ⟨a, ha, h⟩ := Option.bind_eq_some_iff.mp h
    obtain ⟨⟨a', requests⟩, hmoved, h⟩ := Option.bind_eq_some_iff.mp h
    obtain rfl := Option.some.inj h
    have hc := hi a (List.mem_of_getElem? ha)
    have hact : requests = [] ∨ (∃ hostIds id, Act.leave i n = .main i hostIds id) ∨
        ∃ m, Act.leave i n = .leave i (m + 1) := by
      cases n with
      | zero => exact .inl (stepLeave_zero hmoved)
      | succ n => exact .inr (.inr ⟨n, rfl⟩)
    exact .move ha (.inl rfl) hact (hc.stepLeave hmoved).1 (hc.moves_leave hmoved)
  | task i t delivered =>
    obtain ⟨a, ha, h⟩ := Option.bind_eq_some_iff.mp h
    obtain ⟨a', hmoved, h⟩ := Option.bind_eq_some_iff.mp h
    obtain rfl := Option.some.inj h
    have hc := hi a (List.mem_of_getElem? ha)
    exact .move ha (.inl rfl) (.inl rfl) (hc.stepTask hmoved).1 (hc.moves_task hmoved)
  | cancel i t =>
    obtain ⟨a, ha, h⟩ := Option.bind_eq_some_iff.mp h
    obtain ⟨socket, hsocket, h⟩ := Option.bind_eq_some_iff.mp h
    obtain rfl := Option.some.inj h
    have hc := hi a (List.mem_of_getElem? ha)
    exact .move ha (.inl rfl) (.inl rfl) (hc.cancel hsocket).1
      ⟨⟨_, hsocket⟩, (List.append_nil _).symm, .nil, .of_eq rfl⟩
  | answer j reply acknowledged =>
    obtain ⟨r, hr, h⟩ := Option.bind_eq_some_iff.mp h
    obtain ⟨queue, hqueue, h⟩ := Option.bind_eq_some_iff.mp h
    have hname : queueNameFor reply.host = .ok queue := by
      cases hname : queueNameFor reply.host with
      | error e => simp [hname, Except.toOption] at hqueue
      | ok name =>
        rw [hname] at hqueue
        rw [Option.some.inj hqueue]
    by_cases heq : queue = r.queue
    · rw [if_pos heq] at h
      obtain rfl := Option.some.inj h
      exact .answer hr (heq ▸ hname)
    · rw [if_neg heq] at h
      cases h

/-! ### Where the replies come from -/

lemma poll?_move (ha : s.sockets[i]? = some a) (requests : List Request) (j k : ℕ) :
    (s.move i (a', requests)).poll? j k = if j = i then a'.polls[k]? else s.poll? j k := by
  simp only [State.poll?, State.move, Pool.getElem?_set_of_get ha]
  split_ifs <;> rfl

lemma poll?_connect (j k : ℕ) :
    State.poll? { s with sockets := s.sockets ++ [.init] } j k = s.poll? j k := by
  simp only [State.poll?, Pool.getElem?_append_singleton]
  split_ifs with hj
  · rw [List.getElem?_eq_none hj.ge]
    rfl
  · rfl

lemma poll?_receive {exchange : String} {reply : Reply} {requests : List Request}
    {journal : List (String × Reply)} (j k : ℕ) :
    State.poll? ⟨s.sockets.map (AdminSocket.receive exchange reply), requests, journal⟩ j k =
      s.poll? j k := by
  simp only [State.poll?, List.getElem?_map]
  cases s.sockets[j]? <;> rfl

/-- Polls stay. -/
lemma State.Polls.mono {id host : String} (h : s.Polls id host)
    (hpolls : ∀ j k p, s.poll? j k = some p → s'.poll? j k = some p) : s'.Polls id host := by
  obtain ⟨j, k, p, hp, hid, hhost⟩ := h
  exact ⟨j, k, p, hpolls j k p hp, hid, hhost⟩

lemma poll?_of_move (ha : s.sockets[i]? = some a) {new : List Poll} {requests : List Request}
    (hpolls : a'.polls = a.polls ++ new) {j k : ℕ} {p : Poll} (hp : s.poll? j k = some p) :
    (s.move i (a', requests)).poll? j k = some p := by
  rw [poll?_move ha]
  split_ifs with hj
  · subst hj
    rw [State.poll?, ha] at hp
    rw [hpolls]
    exact Pool.getElem?_append_of_get hp
  · exact hp

/-- A poll was there before, or it has just been started. -/
lemma poll?_cases (ha : s.sockets[i]? = some a) {new : List Poll} {requests : List Request}
    (hpolls : a'.polls = a.polls ++ new) (hnew : new = [] ∨ ∃ q, new = [q]) {j k : ℕ} {p : Poll}
    (hp : (s.move i (a', requests)).poll? j k = some p) :
    s.poll? j k = some p ∨ j = i ∧ k = a.polls.length ∧ new = [p] := by
  rw [poll?_move ha] at hp
  split_ifs at hp with hj
  · subst hj
    have hold : s.poll? j k = a.polls[k]? := by rw [State.poll?, ha]; rfl
    rw [hpolls] at hp
    rcases hnew with rfl | ⟨q, rfl⟩
    · rw [List.append_nil] at hp
      exact .inl (hold.trans hp)
    · rw [Pool.getElem?_append_singleton] at hp
      split_ifs at hp with hk
      · exact .inr ⟨rfl, hk, by rw [Option.some.inj hp]⟩
      · exact .inl (hold.trans hp)
  · exact .inl hp

/-- The step lemma: requests and replies stay traceable as long as ids are fresh. -/
lemma traceable_step {act : Act} (hi : Traceable render s) (hG : FreshIds s act)
    (h : step render s act = some s') : Traceable render s' := by
  cases Rule.of_step hi.sockets h with
  | connect =>
    refine ⟨fun a ha => ?_, ?_, fun r hr => ?_, fun m hm => ?_⟩
    · rcases List.mem_append.mp ha with ha | ha
      · exact hi.sockets a ha
      · rw [List.mem_singleton.mp ha]
        exact .init
    · simp only [poll?_connect]
      exact hi.distinct
    · obtain ⟨host, hpolls, hqueue⟩ := hi.requests r hr
      exact ⟨host, hpolls.mono fun j k p hp => (poll?_connect j k).trans hp, hqueue⟩
    · obtain ⟨id, hid, hpolls⟩ := hi.journal m hm
      exact ⟨id, hid, hpolls.mono fun j k p hp => (poll?_connect j k).trans hp⟩
  | @move _ i a a' new requests ha hnew hact hok hmoves =>
    -- One socket moves, and may have started one poll.
    have hmono : ∀ j k p, s.poll? j k = some p → (s.move i (a', requests)).poll? j k = some p :=
      fun j k p hp => poll?_of_move ha hmoves.polls hp
    refine ⟨fun b hb => ?_, ?_, fun r hr => ?_, fun m hm => ?_⟩
    · rcases List.mem_or_eq_of_mem_set hb with hb | rfl
      · exact hi.sockets b hb
      · exact hok
    · have hfresh : ∀ {j k p q}, s.poll? j k = some p → new = [q] →
          p.correlationId ≠ q.correlationId := by
        intro j k p q hp hq
        rcases hnew with rfl | ⟨hostIds, id, rfl, rfl⟩
        · cases hq
        · obtain rfl : (⟨id, hostIds⟩ : Poll) = q := List.singleton_inj.mp hq
          obtain ⟨b, hb, hp⟩ := Option.bind_eq_some_iff.mp hp
          exact hG b (List.mem_of_getElem? hb) p (List.mem_of_getElem? hp)
      have hone : new = [] ∨ ∃ q, new = [q] :=
        hnew.imp_right fun ⟨hostIds, id, _, h⟩ => ⟨_, h⟩
      intro j k l m p q hp hq hid
      rcases poll?_cases ha hmoves.polls hone hp with hp' | ⟨hj, hl, hp'⟩ <;>
        rcases poll?_cases ha hmoves.polls hone hq with hq' | ⟨hk, hm, hq'⟩
      · exact hi.distinct j k l m p q hp' hq' hid
      · exact absurd hid (hfresh hp' hq')
      · exact absurd hid.symm (hfresh hq' hp')
      · exact ⟨hj.trans hk.symm, hl.trans hm.symm⟩
    · rcases List.mem_append.mp hr with hr | hr
      · obtain ⟨host, hpolls, hqueue⟩ := hi.requests r hr
        exact ⟨host, hpolls.mono hmono, hqueue⟩
      · obtain ⟨hosts, poll, -, hlast, hid, host, hhost, hqueue⟩ := hmoves.requests r hr
        refine ⟨host, State.Polls.mono ?_ hmono, hqueue⟩
        obtain ⟨k, hk⟩ := List.getElem?_of_mem (List.mem_of_getLast? hlast)
        exact ⟨i, k, poll, by rw [State.poll?, ha]; exact hk, hid.symm, hhost⟩
    · obtain ⟨id, hid, hpolls⟩ := hi.journal m hm
      exact ⟨id, hid, hpolls.mono hmono⟩
  | @answer j r reply acknowledged hr hqueue =>
    -- The queue of the request names the host that replies.
    obtain ⟨host, hpolls, hhost⟩ := hi.requests r (List.mem_of_getElem? hr)
    obtain rfl : reply.host = host := queueNameFor_inj hqueue hhost
    have hmono : ∀ {id host}, s.Polls id host → State.Polls
        ⟨s.sockets.map (AdminSocket.receive (statusExchangeFor r.correlationId) reply),
          if acknowledged then s.requests.eraseIdx j else s.requests,
          s.journal ++ [(statusExchangeFor r.correlationId, reply)]⟩ id host :=
      fun h => h.mono fun j k p hp => (poll?_receive j k).trans hp
    refine ⟨fun b hb => ?_, ?_, fun r' hr' => ?_, fun m hm => ?_⟩
    · obtain ⟨a, ha, rfl⟩ := List.mem_map.mp hb
      exact (hi.sockets a ha).receive _ _
    · simp only [poll?_receive]
      exact hi.distinct
    · have hmem : r' ∈ s.requests := by
        dsimp only at hr'
        split_ifs at hr'
        · exact List.mem_of_mem_eraseIdx hr'
        · exact hr'
      obtain ⟨host, hpolls', hqueue'⟩ := hi.requests r' hmem
      exact ⟨host, hmono hpolls', hqueue'⟩
    · rcases List.mem_append.mp hm with hm | hm
      · obtain ⟨id, hid, hpolls'⟩ := hi.journal m hm
        exact ⟨id, hid, hmono hpolls'⟩
      · rw [List.mem_singleton.mp hm]
        exact ⟨_, rfl, hmono hpolls⟩

/-- No socket was opened yet. -/
def State.start : State := ⟨[], [], []⟩

lemma Traceable.start : Traceable render .start where
  sockets _ ha := absurd ha List.not_mem_nil
  distinct _ _ _ _ _ _ hp := by cases hp
  requests _ hr := absurd hr List.not_mem_nil
  journal _ hm := absurd hm List.not_mem_nil

/-- In every run in which no correlation id is minted twice, with any number of admins who poll at
the same time: what a socket sends is a notice, or the row of a reply to one of its own polls, from
a host of that poll; and the exchange of the reply belongs to no poll of another socket. -/
theorem rows_own (h : Reaches (step render) FreshIds .start s) {i : ℕ} {a : AdminSocket}
    (ha : s.sockets[i]? = some a) {f : String} (hf : f ∈ a.socket.sent) :
    IsNotice f ∨ ∃ poll ∈ a.polls, ∃ reply : Reply,
      (statusExchangeFor poll.correlationId, reply) ∈ s.journal ∧ reply.host ∈ poll.hostIds ∧
      f = render reply.body ∧ ∀ j b, s.sockets[j]? = some b → ∀ other ∈ b.polls,
        statusExchangeFor other.correlationId = statusExchangeFor poll.correlationId → j = i := by
  have hi : Traceable render s := h.invariant .start fun _ _ _ hi hG hs => traceable_step hi hG hs
  have hc := hi.sockets a (List.mem_of_getElem? ha)
  refine (hc.sent f hf).imp_right ?_
  rintro ⟨t, q, hq, hfq⟩
  have ht : t < a.socket.tasks.length := by
    by_contra hle
    exact absurd ((hc.unused t (not_lt.mp hle)).symm.trans hq) (by simp)
  obtain ⟨-, poll, -, hpoll, hcode⟩ := hc.tasks t _ (List.getElem?_eq_getElem ht)
  split at hcode
  · obtain ⟨reply, hreply, rfl⟩ := (hcode.2 q hq).row_of_mem hfq
    have hmine : s.poll? i (a.socket.tasks[t].poll - 1) = some poll := by
      rw [State.poll?, ha]
      exact hpoll
    obtain ⟨id, hid, j, k, other, hother, hotherid, hhost⟩ := hi.journal _ hreply
    obtain rfl := statusExchangeFor_inj hid
    have hsame := hi.distinct _ _ _ _ _ _ hother hmine hotherid
    obtain rfl : other = poll := by
      rw [hsame.1, hsame.2] at hother
      exact Option.some.inj (hother.symm.trans hmine)
    refine ⟨other, List.mem_of_getElem? hpoll, reply, hreply, hhost, rfl, ?_⟩
    intro j' b hb other' hother' heq
    obtain ⟨k', hk'⟩ := List.getElem?_of_mem hother'
    have hpoll' : s.poll? j' k' = some other' := by rw [State.poll?, hb]; exact hk'
    exact (hi.distinct _ _ _ _ _ _ hpoll' hmine (statusExchangeFor_inj heq)).1
  · exact absurd (hcode.symm.trans hq) (by simp)

/-- A poll of one host, up to the row of its reply. -/
def onePoll : List Act :=
  [.connect, .main 0 ["h"] "c", .main 0 [] "", .main 0 [] "", .task 0 0 true, .main 0 [] "",
    .answer 0 ⟨"h", "row"⟩ true, .task 0 0 true, .task 0 0 true]

/-- The row that the browser is sent is that of the reply. -/
theorem onePoll_own : ∃ s : State, ∃ a : AdminSocket, s.sockets[0]? = some a ∧
    "row" ∈ a.socket.sent ∧ (IsNotice "row" ∨ ∃ poll ∈ a.polls, ∃ reply : Reply,
      (statusExchangeFor poll.correlationId, reply) ∈ s.journal ∧ reply.host ∈ poll.hostIds ∧
      "row" = reply.body) := by
  obtain ⟨s, hs, hp⟩ := exists_reaches_of_guardedRun (step id) FreshIds .start onePoll
    (fun s => s.sockets[0]?.any fun a => "row" ∈ a.socket.sent) (by decide +kernel)
  obtain ⟨a, ha, hrow⟩ := (Option.any_eq_true _ _).mp hp
  have hmem := of_decide_eq_true hrow
  refine ⟨s, a, ha, hmem, (rows_own hs ha hmem).imp_right ?_⟩
  rintro ⟨poll, hpoll, reply, hreply, hhost, heq, -⟩
  exact ⟨poll, hpoll, reply, hreply, hhost, heq⟩

/-! ### No reply is lost -/

/-- The coroutine waits for the queue of its consumer. -/
def AdminSocket.waits (a : AdminSocket) : Bool :=
  match a.socket.main with
  | .binding _ => true
  | _ => false

/-- `bound.is_set()`. -/
def AdminSocket.isBound (a : AdminSocket) : Bool :=
  a.socket.cells.consumerTask.any fun t => (a.subscriptions t).isSome

/-- The wait of the coroutine for the queue does not time out: no request is sent before the queue
of the consumer is bound. A coroutine that ends while it waits has sent none. -/
def BoundFirst (s : State) : Act → Prop
  | .main i _ _ | .leave i (_ + 1) => ∀ a ∈ s.sockets[i]?, a.waits = true → a.isBound = true
  | _ => True

instance (s : State) : ∀ a, Decidable (BoundFirst s a)
  | .main i _ _ | .leave i (_ + 1) => inferInstanceAs (Decidable (∀ a ∈ s.sockets[i]?, _))
  | .connect | .leave _ 0 | .task .. | .cancel .. | .answer .. => inferInstanceAs (Decidable True)

def State.Bound (s : State) (exchange : String) : Prop :=
  ∃ (i : ℕ) (a : AdminSocket) (t : ℕ) (q : Subscription), s.sockets[i]? = some a ∧
    a.subscriptions t = some q ∧ q.exchange = exchange

/-- A queue is bound before the first request of its poll is sent. -/
structure Timely (render : String → String) (s : State) : Prop extends Traceable render s where
  consumers : ∀ a ∈ s.sockets, OneConsumer a.socket
  requests_bound : ∀ r ∈ s.requests, s.Bound (statusExchangeFor r.correlationId)
  journal_bound : ∀ m ∈ s.journal, s.Bound m.1
  since : ∀ a ∈ s.sockets, ∀ t q, a.subscriptions t = some q →
    messagesOn q.exchange (s.journal.take q.since) = []

/-- A queue belongs to a consumer, whose poll gives the exchange its name. -/
lemma Consistent.subscribed {journal : List (String × Reply)} (h : Consistent render journal a)
    {t : ℕ} {q : Subscription} (hq : a.subscriptions t = some q) :
    q.since ≤ journal.length ∧ ∃ k poll, consumerPoll a.socket.tasks t = some (k + 1) ∧
      a.polls[k]? = some poll ∧ q.exchange = statusExchangeFor poll.correlationId := by
  have ht : t < a.socket.tasks.length := by
    by_contra hle
    exact absurd ((h.unused t (not_lt.mp hle)).symm.trans hq) (by simp)
  have hget := List.getElem?_eq_getElem ht
  obtain ⟨-, poll, hpos, hpoll, hcode⟩ := h.tasks t _ hget
  split at hcode
  · next pc hpc =>
    obtain ⟨hexchange, htaken, -⟩ := hcode.2 q hq
    refine ⟨htaken.since_le, _, poll, ?_, hpoll, hexchange⟩
    rw [consumerPoll, hget, Option.bind_some, hpc, Nat.sub_add_cancel hpos]
  · exact absurd (hcode.symm.trans hq) (by simp)

/-- An exchange has one queue. -/
lemma queue_unique (hi : Traceable render s) (hone : ∀ a ∈ s.sockets, OneConsumer a.socket)
    {i j t t' : ℕ} {b : AdminSocket} {q q' : Subscription} (ha : s.sockets[i]? = some a)
    (hb : s.sockets[j]? = some b) (hq : a.subscriptions t = some q)
    (hq' : b.subscriptions t' = some q') (h : q.exchange = q'.exchange) : i = j ∧ t = t' := by
  obtain ⟨-, k, poll, hk, hpoll, hexchange⟩ :=
    (hi.sockets a (List.mem_of_getElem? ha)).subscribed hq
  obtain ⟨-, k', poll', hk', hpoll', hexchange'⟩ :=
    (hi.sockets b (List.mem_of_getElem? hb)).subscribed hq'
  have hid : poll.correlationId = poll'.correlationId :=
    statusExchangeFor_inj (hexchange.symm.trans (h.trans hexchange'))
  obtain ⟨rfl, rfl⟩ := hi.distinct i j k k' poll poll' (by rw [State.poll?, ha]; exact hpoll)
    (by rw [State.poll?, hb]; exact hpoll') hid
  obtain rfl := Option.some.inj (ha.symm.trans hb)
  exact ⟨rfl, (hone a (List.mem_of_getElem? ha)).unique t t' _ hk hk'⟩

/-- A queue stays where it is. -/
lemma State.Bound.mono {exchange : String} (h : s.Bound exchange)
    (hqueues : ∀ (i : ℕ) (a : AdminSocket), s.sockets[i]? = some a →
      ∃ a', s'.sockets[i]? = some a' ∧ ∀ t q, a.subscriptions t = some q →
        ∃ q', a'.subscriptions t = some q' ∧ q'.exchange = q.exchange) : s'.Bound exchange := by
  obtain ⟨i, a, t, q, ha, hq, rfl⟩ := h
  obtain ⟨a', ha', hkept⟩ := hqueues i a ha
  obtain ⟨q', hq', hexchange⟩ := hkept t q hq
  exact ⟨i, a', t, q', ha', hq', hexchange⟩

lemma State.Bound.move {exchange : String} (h : s.Bound exchange) (ha : s.sockets[i]? = some a)
    {published : ℕ} {requests : List Request} (hqueues : SameQueues published a a') :
    (s.move i (a', requests)).Bound exchange := by
  refine h.mono fun j b hb => ?_
  rw [State.move, Pool.getElem?_set_of_get ha]
  by_cases hj : j = i
  · subst hj
    obtain rfl := Option.some.inj (ha.symm.trans hb)
    refine ⟨a', if_pos rfl, fun t q hq => ?_⟩
    obtain ⟨q', hq', hexchange, -⟩ := hqueues.kept t q hq
    exact ⟨q', hq', hexchange⟩
  · exact ⟨b, by rw [if_neg hj, hb], fun t q hq => ⟨q, hq, rfl⟩⟩

/-- A socket that dispatches with a bound queue has bound it to the exchange of the poll. -/
lemma bound_of_ownRequests (hi : Traceable render s) (hone : OneConsumer a.socket)
    (ha : s.sockets[i]? = some a) (hbound : a.waits = true → a.isBound = true)
    {requests : List Request} (hrequests : OwnRequests a requests) :
    ∀ r ∈ requests, s.Bound (statusExchangeFor r.correlationId) := by
  intro r hr
  obtain ⟨hosts, poll, hmain, hlast, hid, -⟩ := hrequests r hr
  have hset := hbound (by rw [AdminSocket.waits, hmain])
  obtain ⟨t, ht, hcurrent⟩ := hone.current hosts hmain
  rw [AdminSocket.isBound, ht, Option.any_some] at hset
  obtain ⟨q, hq⟩ := Option.isSome_iff_exists.mp hset
  have hc := hi.sockets a (List.mem_of_getElem? ha)
  obtain ⟨-, k, poll', hk, hpoll', hexchange⟩ := hc.subscribed hq
  refine ⟨i, a, t, q, ha, hq, ?_⟩
  have hlength : a.polls.length = k + 1 := by
    rw [hc.count, hc.frame.gen]
    exact Option.some.inj (hcurrent.symm.trans hk)
  rw [List.getLast?_eq_getElem?, hlength, Nat.add_sub_cancel, hpoll'] at hlast
  rw [hexchange, hid, Option.some.inj hlast]

/-- The step lemma. -/
lemma timely_step {act : Act} (hi : Timely render s) (hG : FreshIds s act)
    (hbound : BoundFirst s act) (h : step render s act = some s') : Timely render s' := by
  have htraceable := traceable_step hi.toTraceable hG h
  cases Rule.of_step hi.sockets h with
  | connect =>
    have hmono : ∀ {e}, s.Bound e → State.Bound { s with sockets := s.sockets ++ [.init] } e :=
      fun h => h.mono fun i a ha =>
        ⟨a, Pool.getElem?_append_of_get ha, fun t q hq => ⟨q, hq, rfl⟩⟩
    refine ⟨htraceable, fun a ha => ?_, fun r hr => hmono (hi.requests_bound r hr),
      fun m hm => hmono (hi.journal_bound m hm), fun a ha t q hq => ?_⟩
    · rcases List.mem_append.mp ha with ha | ha
      · exact hi.consumers a ha
      · rw [List.mem_singleton.mp ha]
        exact .init
    · rcases List.mem_append.mp ha with ha | ha
      · exact hi.since a ha t q hq
      · rw [List.mem_singleton.mp ha] at hq
        cases hq
  | @move _ i a a' new requests ha hnew hact hok hmoves =>
    have hc := hi.sockets a (List.mem_of_getElem? ha)
    have hone := hi.consumers a (List.mem_of_getElem? ha)
    have hconsumers : ∀ b ∈ (s.move i (a', requests)).sockets, OneConsumer b.socket := by
      intro b hb
      rcases List.mem_or_eq_of_mem_set hb with hb | rfl
      · exact hi.consumers b hb
      · obtain ⟨act', hstep⟩ := hmoves.socket
        exact oneConsumer_step hone hc.frame hstep
    refine ⟨htraceable, hconsumers, fun r hr => ?_,
      fun m hm => (hi.journal_bound m hm).move ha hmoves.queues, fun b hb t q hq => ?_⟩
    · rcases List.mem_append.mp hr with hr | hr
      · exact (hi.requests_bound r hr).move ha hmoves.queues
      · -- A new request: the guard says that its socket has a bound queue.
        have hwait : a.waits = true → a.isBound = true := by
          rcases hact with rfl | ⟨hostIds, id, rfl⟩ | ⟨n, rfl⟩
          · exact absurd hr List.not_mem_nil
          · exact hbound a ha
          · exact hbound a ha
        exact (bound_of_ownRequests hi.toTraceable hone ha hwait hmoves.requests r hr).move ha
          hmoves.queues
    · -- Of the queues only one that has just been bound is new.
      rcases List.mem_or_eq_of_mem_set hb with hb | rfl
      · exact hi.since b hb t q hq
      · rcases hmoves.queues.bound t q hq with ⟨q', hq', hexchange, hsince⟩ | ⟨hnone, hsince⟩
        · rw [hexchange, hsince]
          exact hi.since a (List.mem_of_getElem? ha) t q' hq'
        · -- A reply before the binding would have needed a queue already.
          by_contra hne
          obtain ⟨reply, hreply⟩ := List.exists_mem_of_ne_nil _ hne
          have hearlier := List.mem_of_mem_take (mem_messagesOn.mp hreply)
          obtain ⟨j, c, t', q', hj, hq', hexchange⟩ := hi.journal_bound _ hearlier
          have ha' : (s.move i (b, requests)).sockets[i]? = some b := by
            rw [State.move, Pool.getElem?_set_of_get ha, if_pos rfl]
          -- It is a queue of the same consumer, or of another poll with the same id.
          by_cases hij : j = i
          · subst hij
            obtain rfl := Option.some.inj (ha.symm.trans hj)
            obtain ⟨p, hp, hkept, -⟩ := hmoves.queues.kept t' q' hq'
            obtain ⟨-, rfl⟩ := queue_unique htraceable hconsumers ha' ha' hq hp
              (hkept.trans hexchange).symm
            exact absurd (hnone.symm.trans hq') (by simp)
          · have hc' : (s.move i (b, requests)).sockets[j]? = some c := by
              rw [State.move, Pool.getElem?_set_of_get ha, if_neg hij, hj]
            exact hij (queue_unique htraceable hconsumers hc' ha' hq' hq hexchange).1
  | @answer j r reply acknowledged hr hqueue =>
    -- The reply goes to the exchange of its request, which has a queue; no queue is new.
    have hmono : ∀ {e}, s.Bound e → State.Bound
        ⟨s.sockets.map (AdminSocket.receive (statusExchangeFor r.correlationId) reply),
          if acknowledged then s.requests.eraseIdx j else s.requests,
          s.journal ++ [(statusExchangeFor r.correlationId, reply)]⟩ e := by
      refine fun h => h.mono fun i a ha => ⟨_, by rw [List.getElem?_map, ha]; rfl, fun t q hq => ?_⟩
      refine ⟨_, Option.map_eq_some_iff.mpr ⟨q, hq, rfl⟩, ?_⟩
      split_ifs <;> rfl
    refine ⟨htraceable, fun b hb => ?_, fun r' hr' => ?_, fun m hm => ?_, fun b hb t q' hq' => ?_⟩
    · obtain ⟨a, ha, rfl⟩ := List.mem_map.mp hb
      exact hi.consumers a ha
    · apply hmono
      apply hi.requests_bound
      dsimp only at hr'
      split_ifs at hr'
      · exact List.mem_of_mem_eraseIdx hr'
      · exact hr'
    · rcases List.mem_append.mp hm with hm | hm
      · exact hmono (hi.journal_bound m hm)
      · rw [List.mem_singleton.mp hm]
        exact hmono (hi.requests_bound r (List.mem_of_getElem? hr))
    · obtain ⟨a, ha, rfl⟩ := List.mem_map.mp hb
      obtain ⟨q, hq, rfl⟩ := Option.map_eq_some_iff.mp hq'
      obtain ⟨hsince, -⟩ := (hi.sockets a ha).subscribed hq
      have hold := hi.since a ha t q hq
      rw [← List.take_append_of_le_length hsince] at hold
      split_ifs <;> exact hold

lemma Timely.start : Timely render .start where
  toTraceable := .start
  consumers _ ha := absurd ha List.not_mem_nil
  requests_bound _ hr := absurd hr List.not_mem_nil
  journal_bound _ hm := absurd hm List.not_mem_nil
  since _ ha := absurd ha List.not_mem_nil

/-- In every run in which no correlation id is minted twice and every consumer has bound its queue
when its poll is dispatched: the replies to a poll whose consumer has not ended are those that it
has taken and those that wait in its queue, in the order in which they were published, and between
two messages the browser has been sent the rows of all that were taken. -/
theorem no_reply_lost
    (h : Reaches (step render) (fun s act => FreshIds s act ∧ BoundFirst s act) .start s) {i t : ℕ}
    {a : AdminSocket} {task : PollTask} {pc : ConsumerPc} (ha : s.sockets[i]? = some a)
    (htask : a.socket.tasks[t]? = some task) (hcode : task.code = .consumer pc)
    (hpc : pc ≠ .finished) :
    ∃ poll, a.polls[task.poll - 1]? = some poll ∧
      (a.subscriptions t = none →
        messagesOn (statusExchangeFor poll.correlationId) s.journal = []) ∧
      ∀ q, a.subscriptions t = some q →
        q.taken ++ q.queue = messagesOn (statusExchangeFor poll.correlationId) s.journal ∧
        (pc.between = true → (rows render q.taken).Sublist a.socket.sent) := by
  have hi : Timely render s := h.invariant .start fun _ _ _ hi hG hs =>
    timely_step hi hG.1 hG.2 hs
  have hc := hi.sockets a (List.mem_of_getElem? ha)
  obtain ⟨-, poll, hpos, hpoll, hsub⟩ := hc.tasks t task htask
  rw [hcode] at hsub
  refine ⟨poll, hpoll, fun hnone => ?_, fun q hq => ?_⟩
  · -- A reply would have needed a queue on the exchange, and this consumer has the only one.
    by_contra hne
    obtain ⟨reply, hreply⟩ := List.exists_mem_of_ne_nil _ hne
    obtain ⟨j, b, t', q, hb, hq, hexchange⟩ := hi.journal_bound _ (mem_messagesOn.mp hreply)
    obtain ⟨-, k, poll', hk, hpoll', hname⟩ :=
      (hi.sockets b (List.mem_of_getElem? hb)).subscribed hq
    obtain ⟨rfl, rfl⟩ := hi.distinct j i k (task.poll - 1) poll' poll
      (by rw [State.poll?, hb]; exact hpoll') (by rw [State.poll?, ha]; exact hpoll)
      (statusExchangeFor_inj (hname.symm.trans hexchange))
    obtain rfl := Option.some.inj (ha.symm.trans hb)
    have hmine : consumerPoll a.socket.tasks t = some (task.poll - 1 + 1) := by
      rw [consumerPoll, htask, Option.bind_some, hcode, Nat.sub_add_cancel hpos]
    obtain rfl := (hi.consumers a (List.mem_of_getElem? ha)).unique t t' _ hmine hk
    exact absurd (hnone.symm.trans hq) (by simp)
  · have hhandles := hsub.2 q hq
    have hdelivered := hhandles.complete hpc
    have hsplit := messagesOn_take_append_drop q.exchange q.since s.journal
    rw [hi.since a (List.mem_of_getElem? ha) t q hq, List.nil_append] at hsplit
    refine ⟨?_, fun hbetween => ?_⟩
    · rw [hdelivered.taken_append_queue, ← hhandles.1, hsplit]
    · rw [← ((Handles.between hbetween).mp hhandles).2.2.2]
      exact hc.shown t q hq

/-- The consumer of `onePoll` counts its reply. -/
theorem onePoll_complete : ∃ s : State, ∃ a : AdminSocket, ∃ q : Subscription, ∃ poll ∈ a.polls,
    s.sockets[0]? = some a ∧ a.subscriptions 0 = some q ∧ q.taken.length = 1 ∧
    q.taken ++ q.queue = messagesOn (statusExchangeFor poll.correlationId) s.journal ∧
    (rows id q.taken).Sublist a.socket.sent := by
  obtain ⟨s, hs, hp⟩ := exists_reaches_of_guardedRun (step id)
    (fun s act => FreshIds s act ∧ BoundFirst s act) .start onePoll
    (fun s => s.sockets[0]?.any fun a =>
      a.socket.tasks[0]? = some ⟨1, false, .consumer (.emitting 0 .acquiring)⟩ &&
        (a.subscriptions 0).any fun q => q.taken.length = 1) (by decide +kernel)
  obtain ⟨a, ha, hp⟩ := (Option.any_eq_true _ _).mp hp
  rw [Bool.and_eq_true, decide_eq_true_eq, Option.any_eq_true] at hp
  obtain ⟨htask, q, hq, hone⟩ := hp
  obtain ⟨poll, hpoll, -, hall⟩ := no_reply_lost hs ha htask rfl (by simp)
  obtain ⟨hsplit, hrows⟩ := hall q hq
  exact ⟨s, a, q, poll, List.mem_of_getElem? hpoll, ha, hq, of_decide_eq_true hone, hsplit,
    hrows rfl⟩

end TestOrch.StatusPolls

