import TestOrch.Backend.PollReplies
import TestOrch.Backend.RowMarkup

/-!
# The rows of one poll

With a WebSocket that accepts every send, a poll shows the row of each reply in the order of
arrival, whatever else arrives, as long as rendering returns on every body. It does not on a JSON
text that is no object, nor on an object in which one of the five numbers cannot be formatted; the
exception then leaves the consumer, and no later reply is shown.
-/

namespace TestOrch

open Transition

/-! ### Bodies that can be rendered -/

/-- `format(value, ".<n>f")` returns. -/
def PyValue.Formattable : PyValue → Prop
  | .bool _ => True
  | .int i => i.natAbs < floatBound
  | .float _ => True
  | _ => False

lemma PyValue.exists_fixed_iff {v : PyValue} (n : ℕ) :
    (∃ text, v.fixed n = .ok text) ↔ v.Formattable := by
  cases v with
  | bool b => exact iff_of_true ⟨_, rfl⟩ trivial
  | float x => exact iff_of_true ⟨_, rfl⟩ trivial
  | int i =>
    rw [fixed, floatOfInt]
    by_cases hi : i.natAbs < floatBound
    · rw [if_pos hi]
      exact iff_of_true ⟨_, rfl⟩ hi
    · rw [if_neg hi]
      refine iff_of_false ?_ hi
      rintro ⟨text, h⟩
      cases h
  | none | str | list | tuple | dict | object =>
    refine iff_of_false ?_ not_false
    rintro ⟨text, h⟩
    cases h

/-- The keys whose values are formatted as numbers. -/
def numberKeys : List String :=
  ["cpu_percent", "ram_available_mb", "ram_total_mb", "disk_available_gb", "disk_total_gb"]

/-- The text is no JSON, or that of an object whose five numbers can be formatted. -/
def Loaded.Renderable (l : Loaded) : Prop :=
  l = .decodeError ∨ ∃ items, l.items? = some items ∧
    ∀ key ∈ numberKeys, ((PyValue.item? items key).getD (.int 0)).Formattable

section Rendering

variable {loads : String → Loaded} {printable : Char → Bool}

lemma exists_statusRow_iff {items : List (PyValue × PyValue)} :
    (∃ fragment, statusRow (.builtin loads printable) items = .ok fragment) ↔
      ∀ key ∈ numberKeys, ((PyValue.item? items key).getD (.int 0)).Formattable := by
  simp only [numberKeys, List.forall_mem_cons, List.not_mem_nil, false_imp_iff, implies_true,
    and_true, statusRow_eq_ok]
  constructor
  · rintro ⟨_, cpu, ramAvailable, ramTotal, diskAvailable, diskTotal, hcpu, hramAvailable,
      hramTotal, hdiskAvailable, hdiskTotal, -⟩
    exact ⟨(PyValue.exists_fixed_iff 1).mp ⟨_, hcpu⟩, (PyValue.exists_fixed_iff 1).mp
      ⟨_, hramAvailable⟩, (PyValue.exists_fixed_iff 0).mp ⟨_, hramTotal⟩,
      (PyValue.exists_fixed_iff 2).mp ⟨_, hdiskAvailable⟩, (PyValue.exists_fixed_iff 0).mp
      ⟨_, hdiskTotal⟩⟩
  · rintro ⟨hcpu, hramAvailable, hramTotal, hdiskAvailable, hdiskTotal⟩
    obtain ⟨cpu, hcpu⟩ := (PyValue.exists_fixed_iff 1).mpr hcpu
    obtain ⟨ramAvailable, hramAvailable⟩ := (PyValue.exists_fixed_iff 1).mpr hramAvailable
    obtain ⟨ramTotal, hramTotal⟩ := (PyValue.exists_fixed_iff 0).mpr hramTotal
    obtain ⟨diskAvailable, hdiskAvailable⟩ := (PyValue.exists_fixed_iff 2).mpr hdiskAvailable
    obtain ⟨diskTotal, hdiskTotal⟩ := (PyValue.exists_fixed_iff 0).mpr hdiskTotal
    exact ⟨_, cpu, ramAvailable, ramTotal, diskAvailable, diskTotal, hcpu, hramAvailable,
      hramTotal, hdiskAvailable, hdiskTotal, rfl⟩

/-- Rendering returns exactly on the renderable bodies. -/
lemma exists_renderStatusRow_iff {body : String} :
    (∃ fragment, renderStatusRow (.builtin loads printable) body = .ok fragment) ↔
      (loads body).Renderable := by
  constructor
  · rintro ⟨fragment, h⟩
    rcases renderStatusRow_eq_ok.mp h with ⟨hbody, -⟩ | ⟨items, hitems, hrow⟩
    · exact .inl hbody
    · exact .inr ⟨items, hitems, exists_statusRow_iff.mp ⟨fragment, hrow⟩⟩
  · rintro (hbody | ⟨items, hitems, hnumbers⟩)
    · exact ⟨"", renderStatusRow_eq_ok.mpr (.inl ⟨hbody, rfl⟩)⟩
    · obtain ⟨fragment, hrow⟩ := exists_statusRow_iff.mpr hnumbers
      exact ⟨fragment, renderStatusRow_eq_ok.mpr (.inr ⟨items, hitems, hrow⟩)⟩

/-- The reply of a host is rendered, as the row of this host. -/
lemma renderStatusRow_hostStats (printable : Char → Bool) {body : String} {stats : HostStats}
    (h : (loads body).items? = some stats.toDict) :
    ∃ fragment, renderStatusRow (.builtin loads printable) body = .ok fragment ∧ fragment ≠ "" ∧
      rowHost (.builtin loads printable) body = some stats.hostId := by
  have hnumbers : ∀ key ∈ numberKeys,
      ((PyValue.item? stats.toDict key).getD (.int 0)).Formattable := by
    simp only [numberKeys, List.forall_mem_cons]
    refine ⟨trivial, trivial, trivial, trivial, trivial, ?_⟩
    simp
  obtain ⟨fragment, hrow⟩ := exists_statusRow_iff.mpr hnumbers
  refine ⟨fragment, renderStatusRow_eq_ok.mpr (.inr ⟨_, h, hrow⟩), statusRow_ne_empty hrow, ?_⟩
  show (loads body).items?.map _ = _
  rw [h]
  rfl

end Rendering

/-- The call waits for the lock. -/
def PollCall.waiting (c : PollCall) : Bool := c.emission = .acquiring

/-- How many steps the calls still have to make. -/
def PollRun.weight (r : PollRun) : ℕ :=
  2 * r.calls.countP PollCall.waiting + r.calls.countP PollCall.sending

/-- How many steps the consumer has to make for the body in hand, those of its call included. -/
def Consumer.weight : Consumer → ℕ
  | .sending _ _ => 4
  | .replying _ => 1
  | _ => 0

namespace Replies

/-- The row that is sent for a body, if there is one. -/
def row? (py : PyText) (body : String) : Option Sent :=
  match renderStatusRow py body with
  | .ok fragment =>
    if fragment = "" then none else some (.row ((rowHost py body).getD "") fragment)
  | .error _ => none

def rows (s : Replies) : List Sent :=
  s.sent.filter fun x => match x with
    | .row _ _ => true
    | .sentinel _ => false

/-- The WebSocket accepts what is sent. -/
def Accepts (_ : Replies) : ReplyAct → Prop
  | .rowSent delivered => delivered = true
  | .settle _ delivered => delivered = true
  | _ => True

/-- Nothing is left to do, except for the timer. -/
def Settled (py : PyText) (s : Replies) : Prop :=
  ∀ a, a ≠ .timer → s.Accepts a → s.step py a = none

/-- The consumer goes on, the rows sent are those of the first bodies in the order of arrival, and
when nothing is left to do they are those of all. -/
structure Sees (py : PyText) (msgs : List String) (s : Replies) : Prop where
  alive : s.consumer ≠ .ended
  order : s.rows <+: msgs.filterMap (row? py)
  complete : s.Settled py → s.rows = msgs.filterMap (row? py)

/-- The bodies `done` were handled and their rows sent; the consumer has at most one body in hand,
and the call that it awaits was made. -/
structure Shown (py : PyText) (msgs done : List String) (s : Replies) : Prop where
  account : msgs = done ++ s.consumer.inHand ++ s.inbox
  sent : s.rows = done.filterMap (row? py)
  alive : s.consumer ≠ .ended
  hand : ∀ body fragment, s.consumer = .sending body fragment →
    renderStatusRow py body = .ok fragment ∧ fragment ≠ ""
  call : ∀ i, s.consumer = .replying i → i < s.run.calls.length

variable {py : PyText} {s s' : Replies} {total : ℕ} {msgs done : List String}

lemma row?_of_ok {body fragment : String} (h : renderStatusRow py body = .ok fragment)
    (hrow : fragment ≠ "") : row? py body = some (.row ((rowHost py body).getD "") fragment) := by
  rw [row?, h]
  exact if_neg hrow

lemma row?_of_empty {body : String} (h : renderStatusRow py body = .ok "") :
    row? py body = none := by
  rw [row?, h]
  exact if_pos rfl

lemma length_calls_step {run run' : PollRun} {a : PollAct} (h : run.step a = some run') :
    run.calls.length ≤ run'.calls.length := by
  cases PollRun.Rule.of_step h with
  | reply => simp
  | timer => simp
  | late => simp
  | send => simp
  | settle => simp

lemma length_calls_reply {run run' : PollRun} (h : run.step .reply = some run') :
    run.calls.length < run'.calls.length := by
  cases PollRun.Rule.of_step h with
  | reply => simp

/-- A step of a call alone leaves the account of the rows. -/
lemma Shown.other {run : PollRun} {a : PollAct} (h : Shown py msgs done s)
    (hrun : s.run.step a = some run) : Shown py msgs done { s with run := run } :=
  ⟨h.account, h.sent, h.alive, h.hand,
    fun i hi => (h.call i hi).trans_le (length_calls_step hrun)⟩

/-- If rendering returns on every body, every step keeps the account. -/
lemma Shown.step (hr : ∀ body ∈ msgs, ∃ fragment, renderStatusRow py body = .ok fragment)
    (h : Shown py msgs done s) {a : ReplyAct} (ha : s.Accepts a) (hs : s.step py a = some s') :
    ∃ done', Shown py msgs done' s' := by
  cases Rule.of_step hs with
  | @skip body rest run hc hi hbody hrun =>
    have haccount := h.account
    rw [hc, hi] at haccount
    refine ⟨done ++ [body], ?_, ?_, Consumer.noConfusion, fun _ _ => Consumer.noConfusion, ?_⟩
    · simpa [Consumer.inHand] using haccount
    · rw [List.filterMap_append, List.filterMap_cons_none (row?_of_empty hbody), List.filterMap_nil,
        List.append_nil]
      exact h.sent
    · rintro i hi
      obtain rfl := Consumer.replying.inj hi
      exact length_calls_reply hrun
  | @take body fragment rest hc hi hbody hrow =>
    have haccount := h.account
    rw [hc, hi] at haccount
    refine ⟨done, ?_, h.sent, Consumer.noConfusion, ?_, fun _ => Consumer.noConfusion⟩
    · simpa [Consumer.inHand] using haccount
    · rintro body' fragment' hc'
      obtain ⟨rfl, rfl⟩ := Consumer.sending.inj hc'
      exact ⟨hbody, hrow⟩
  | @raise body rest e hc hi hbody =>
    -- Rendering returns on every message, so none is left half handled.
    have hmem : body ∈ msgs := by
      rw [h.account, hi]
      simp
    obtain ⟨fragment, hok⟩ := hr body hmem
    rw [hok] at hbody
    cases hbody
  | @row body fragment run hc hrun =>
    have haccount := h.account
    rw [hc] at haccount
    obtain ⟨hbody, hrow⟩ := h.hand body fragment hc
    refine ⟨done ++ [body], ?_, ?_, Consumer.noConfusion, fun _ _ => Consumer.noConfusion, ?_⟩
    · simpa [Consumer.inHand] using haccount
    · rw [List.filterMap_append, List.filterMap_cons, row?_of_ok hbody hrow, ← h.sent]
      exact List.filter_append ..
    · rintro i hi
      obtain rfl := Consumer.replying.inj hi
      exact length_calls_reply hrun
  | rowFails => cases ha
  -- What follows sends no row.
  | timer hrun => exact ⟨done, h.other hrun⟩
  | acquire hrun => exact ⟨done, h.other hrun⟩
  | settle hc he hrun =>
    obtain ⟨haccount, hsent, halive, hhand, hcall⟩ := h.other hrun
    refine ⟨done, haccount, ?_, halive, hhand, hcall⟩
    rw [← hsent]
    exact (List.filter_append ..).trans (List.append_nil _)
  | settleFails => cases ha
  | resume hc =>
    have haccount := h.account
    rw [hc] at haccount
    exact ⟨done, haccount, h.sent, Consumer.noConfusion, fun _ _ => Consumer.noConfusion,
      fun _ => Consumer.noConfusion⟩

lemma exists_shown (hr : ∀ body ∈ msgs, ∃ fragment, renderStatusRow py body = .ok fragment)
    (h : Reaches (Replies.step py) Accepts (.init total msgs) s) :
    ∃ done, Shown py msgs done s := by
  apply h.invariant
  · exact ⟨[], rfl, rfl, Consumer.noConfusion, fun _ _ => Consumer.noConfusion,
      fun _ => Consumer.noConfusion⟩
  · rintro t a u ⟨done, ht⟩ ha hs
    exact ht.step hr ha hs

/-! ### A poll comes to rest -/

lemma exists_settle {i : ℕ} {c : PollCall} {text : String} (hc : s.run.calls[i]? = some c)
    (he : c.emission = .sending text) : ∃ s', s.step py (.settle i true) = some s' := by
  obtain ⟨reply, e, n⟩ := c
  obtain rfl : e = .sending text := he
  obtain ⟨s', hs', -⟩ := exists_settled hc
  exact ⟨s', hs'⟩

lemma exists_acquire {i : ℕ} {c : PollCall} (hc : s.run.calls[i]? = some c)
    (he : c.emission = .acquiring) (hfree : s.run.poll.locked = false) :
    ∃ s', s.step py (.acquire i) = some s' := by
  cases hdone : s.run.poll.completed with
  | true => simp [Replies.step, PollRun.step, PollState.acquire, hc, he, hfree, hdone]
  | false => simp [Replies.step, PollRun.step, PollState.acquire, hc, he, hfree, hdone]

/-- A lock that is taken is held by a call that is sending. -/
lemma exists_sending (hl : PollRun.Latched total s.run) (hlocked : s.run.poll.locked = true) :
    ∃ (i : ℕ) (c : PollCall) (text : String),
      s.run.calls[i]? = some c ∧ c.emission = .sending text := by
  have hpos : 0 < s.run.calls.countP PollCall.sending := by
    rw [hl.lock, hlocked]
    exact Nat.one_pos
  obtain ⟨c, hmem, hsending⟩ := List.countP_pos_iff.mp hpos
  obtain ⟨i, hi⟩ := List.getElem?_of_mem hmem
  cases he : c.emission with
  | sending text => exact ⟨i, c, text, hi, he⟩
  | acquiring => simp [PollCall.sending, he] at hsending
  | finished => simp [PollCall.sending, he] at hsending

/-- The consumer always reaches its next message: whatever it waits for can go on. -/
lemma Shown.of_settled (h : Shown py msgs done s) (hl : PollRun.Latched total s.run)
    (hrest : s.Settled py) : s.consumer = .receiving ∧ s.inbox = [] := by
  cases hc : s.consumer with
  | ended => exact absurd hc h.alive
  | sending body fragment =>
    -- A consumer that sends a row can have it delivered.
    have hstep := hrest (.rowSent true) ReplyAct.noConfusion rfl
    simp [Replies.step, hc, onMessage, PollRun.step] at hstep
  | receiving =>
    cases hi : s.inbox with
    | nil => exact ⟨rfl, rfl⟩
    | cons body rest =>
      have hstep := hrest .take ReplyAct.noConfusion trivial
      cases hbody : renderStatusRow py body with
      | error e => simp [Replies.step, hc, hi, hbody] at hstep
      | ok fragment =>
        by_cases hempty : fragment = ""
        · simp [Replies.step, hc, hi, hbody, hempty, onMessage, PollRun.step] at hstep
        · simp [Replies.step, hc, hi, hbody] at hstep
  | replying i =>
    -- A consumer at its sentinel waits for its own send, or for the lock of another.
    obtain ⟨c, hcall⟩ : ∃ c, s.run.calls[i]? = some c :=
      ⟨_, List.getElem?_eq_getElem (h.call i hc)⟩
    cases he : c.emission with
    | sending text =>
      obtain ⟨s', hs'⟩ := exists_settle hcall he
      rw [hrest (.settle i true) ReplyAct.noConfusion rfl] at hs'
      cases hs'
    | finished =>
      have hstep := hrest .resume ReplyAct.noConfusion trivial
      simp [Replies.step, hc, hcall, he] at hstep
    | acquiring =>
      cases hlocked : s.run.poll.locked with
      | false =>
        obtain ⟨s', hs'⟩ := exists_acquire hcall he hlocked
        rw [hrest (.acquire i) ReplyAct.noConfusion trivial] at hs'
        cases hs'
      | true =>
        obtain ⟨j, c', text, hc', he'⟩ := exists_sending hl hlocked
        obtain ⟨s', hs'⟩ := exists_settle hc' he'
        rw [hrest (.settle j true) ReplyAct.noConfusion rfl] at hs'
        cases hs'

lemma Shown.sees (h : Shown py msgs done s) (hl : PollRun.Latched total s.run) :
    Sees py msgs s where
  alive := h.alive
  order := by
    rw [h.sent, h.account, List.filterMap_append, List.filterMap_append, List.append_assoc]
    exact List.prefix_append _ _
  complete := by
    intro hrest
    obtain ⟨hc, hi⟩ := h.of_settled hl hrest
    rw [h.sent, h.account, hc, hi]
    simp [Consumer.inHand]

/-- A bound on the steps that are left, the timer's calls to come apart. -/
def weight (s : Replies) : ℕ := 5 * s.inbox.length + s.consumer.weight + s.run.weight

lemma weight_reply {run run' : PollRun} (h : run.step .reply = some run') :
    run'.weight ≤ run.weight + 2 := by
  cases PollRun.Rule.of_step h with
  | reply he =>
    simp only [PollRun.weight, List.countP_append, List.countP_singleton]
    rcases he with rfl | rfl
    · simp [PollCall.waiting, PollCall.sending]
      omega
    · simp [PollCall.waiting, PollCall.sending]

/-- A call that moves on has less left to do. -/
lemma weight_set {run : PollRun} {i : ℕ} {c b : PollCall} (hc : run.calls[i]? = some c)
    (h : 2 * b.waiting.toNat + b.sending.toNat < 2 * c.waiting.toNat + c.sending.toNat)
    {poll : PollState} {delivered : List (String × ℕ)} :
    PollRun.weight ⟨poll, run.calls.set i b, delivered⟩ < run.weight := by
  have hwaiting := Pool.countP_set_of_get PollCall.waiting hc b
  have hsending := Pool.countP_set_of_get PollCall.sending hc b
  have htoNat : ∀ b : Bool, (if b = true then 1 else 0) = b.toNat := by decide
  simp only [htoNat] at hwaiting hsending
  simp only [PollRun.weight]
  omega

lemma weight_call {run run' : PollRun} {a : PollAct} (h : run.step a = some run')
    (ha : a ≠ .reply ∧ a ≠ .timer) : run'.weight < run.weight := by
  cases PollRun.Rule.of_step h with
  | reply => exact absurd rfl ha.1
  | timer => exact absurd rfl ha.2
  | late hc he => exact weight_set hc (by simp [PollCall.waiting, PollCall.sending, he])
  | send hc he => exact weight_set hc (by simp [PollCall.waiting, PollCall.sending, he])
  | settle hc he => exact weight_set hc (by simp [PollCall.waiting, PollCall.sending, he])

/-- Every step but the timer's leaves less to do. -/
lemma weight_step {a : ReplyAct} (hne : a ≠ .timer) (ha : s.Accepts a)
    (hs : s.step py a = some s') : s'.weight < s.weight := by
  cases Rule.of_step hs with
  | @skip body rest run hc hi hbody hrun =>
    -- A message that counts puts one more call of the lock to do, and leaves the inbox.
    have hrun := weight_reply hrun
    simp only [weight, hc, hi, List.length_cons, Consumer.weight]
    omega
  | take hc hi hbody hrow =>
    simp only [weight, hc, hi, List.length_cons, Consumer.weight]
    omega
  | raise hc hi hbody =>
    simp only [weight, hc, hi, List.length_cons, Consumer.weight]
    omega
  | row hc hrun =>
    have hrun := weight_reply hrun
    simp only [weight, hc, Consumer.weight]
    omega
  | rowFails => cases ha
  | timer => exact absurd rfl hne
  | acquire hrun =>
    have hrun := weight_call hrun ⟨PollAct.noConfusion, PollAct.noConfusion⟩
    simp only [weight]
    omega
  | settle hc he hrun =>
    have hrun := weight_call hrun ⟨PollAct.noConfusion, PollAct.noConfusion⟩
    simp only [weight]
    omega
  | settleFails => cases ha
  | resume hc =>
    simp only [weight, hc, Consumer.weight]
    omega

/-- Every poll comes to rest, if the timer makes no more calls. -/
lemma exists_settled_state (s : Replies) :
    ∃ s', Reaches (Replies.step py) Accepts s s' ∧ s'.Settled py := by
  induction hw : s.weight using Nat.strongRecOn generalizing s with
  | ind w ih =>
    by_cases hrest : s.Settled py
    · exact ⟨s, .refl, hrest⟩
    · unfold Settled at hrest
      push Not at hrest
      obtain ⟨a, hne, ha, hs⟩ := hrest
      obtain ⟨t, ht⟩ := Option.ne_none_iff_exists'.mp hs
      obtain ⟨s', hs', hrest'⟩ := ih t.weight (hw ▸ weight_step hne ha ht) t rfl
      exact ⟨s', (Reaches.single ha ht).trans hs', hrest'⟩

end Replies

/-- Rendering returns on each of the bodies that arrive, with a row for the reply of a host, and so
every run of the poll shows all of their rows: it never loses the consumer, it can always come to
rest, and wherever it stands it has sent the rows of the first bodies, at rest of all. -/
structure PollSees (py : PyText) (total : ℕ) (msgs : List String) : Prop where
  returns : ∀ body ∈ msgs, ∃ fragment, renderStatusRow py body = .ok fragment
  replies : ∀ body ∈ msgs, ∀ stats : HostStats, (py.loads body).items? = some stats.toDict →
    ∃ fragment, Replies.row? py body = some (.row stats.hostId fragment)
  sees : ∀ s, Reaches (Replies.step py) Replies.Accepts (.init total msgs) s → s.Sees py msgs
  rests : ∀ s, Reaches (Replies.step py) Replies.Accepts (.init total msgs) s →
    ∃ s', Reaches (Replies.step py) Replies.Accepts s s' ∧ s'.Settled py

/-- Bad replies leave a poll its sight exactly if each is no JSON text, or that of an object whose
five numbers, where they are given, are numbers that a `float` can hold. -/
theorem pollSees_iff {loads : String → Loaded} {printable : Char → Bool} {total : ℕ}
    {msgs : List String} :
    PollSees (.builtin loads printable) total msgs ↔ ∀ body ∈ msgs, (loads body).Renderable := by
  constructor
  · intro h body hbody
    exact exists_renderStatusRow_iff.mp (h.returns body hbody)
  · intro h
    have hr : ∀ body ∈ msgs,
        ∃ fragment, renderStatusRow (.builtin loads printable) body = .ok fragment :=
      fun body hbody => exists_renderStatusRow_iff.mpr (h body hbody)
    refine ⟨hr, ?_, ?_, fun s _ => s.exists_settled_state⟩
    · intro body _ stats hstats
      have hitems : (loads body).items? = some stats.toDict := hstats
      obtain ⟨fragment, hok, hrow, hhost⟩ := renderStatusRow_hostStats printable hitems
      refine ⟨fragment, ?_⟩
      rw [Replies.row?_of_ok hok hrow, hhost]
      rfl
    · intro s hs
      obtain ⟨done, hshown⟩ := Replies.exists_shown hr hs
      have htruthful : Replies.Truthful (.builtin loads printable) total msgs s :=
        hs.invariant (.init _ total msgs) fun _ _ _ ht _ hstep => ht.step hstep
      exact hshown.sees htruthful.latched

/-- `json.loads`, on an empty list and a reply with nothing but its host. -/
def loadsHost (body : String) : Loaded :=
  if body = "[]" then .value (.array [])
  else if body = "\x7b\"host_id\": \"a\"\x7d" then .value (.object [("host_id", .str "a")])
  else .decodeError

/-- A list ends the consumer, and the reply after it is not shown. -/
theorem listBody_blinds :
    ¬ PollSees (.builtin loadsHost fun _ => false) 1 ["[]", "\x7b\"host_id\": \"a\"\x7d"] := by
  intro h
  have hstep : (Replies.init 1 ["[]", "\x7b\"host_id\": \"a\"\x7d"]).step
      (.builtin loadsHost fun _ => false) .take =
        some ⟨.init 1, ["\x7b\"host_id\": \"a\"\x7d"], .ended, []⟩ := by decide +kernel
  exact (h.sees _ (.single (a := .take) trivial hstep)).alive rfl

end TestOrch
