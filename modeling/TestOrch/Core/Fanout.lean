import Mathlib.Data.List.Infix

/-!
# Fanout exchanges

A fanout exchange puts a copy of each message into the queues that are bound to it at that moment;
without a queue the message is lost. The journal has the messages of all exchanges in the order in
which they were published. A consumer binds a queue of its own, when the journal has `since`
messages, and takes one message after the other from it. The connection of a consumer does not drop
as long as it consumes.
-/

namespace Fanout

variable {ε μ : Type*} [DecidableEq ε]

/-- The messages that were published on an exchange. -/
def messagesOn (e : ε) (journal : List (ε × μ)) : List μ :=
  (journal.filter fun m => m.1 = e).map Prod.snd

/-- What the consumer has taken begins the messages since it bound its queue. -/
structure Taken (e : ε) (journal : List (ε × μ)) (since : ℕ) (taken : List μ) : Prop where
  since_le : since ≤ journal.length
  taken_prefix : taken <+: messagesOn e (journal.drop since)

/-- All messages since the queue was bound are taken or wait in the queue. -/
structure Delivered (e : ε) (journal : List (ε × μ)) (since : ℕ) (taken queue : List μ) : Prop where
  since_le : since ≤ journal.length
  taken_append_queue : taken ++ queue = messagesOn e (journal.drop since)

variable {e : ε} {journal : List (ε × μ)} {since : ℕ} {taken queue : List μ} {m : μ}

@[simp] lemma messagesOn_nil : messagesOn e ([] : List (ε × μ)) = [] := rfl

lemma mem_messagesOn {e : ε} {m : μ} : m ∈ messagesOn e journal ↔ (e, m) ∈ journal := by
  simp [messagesOn]

lemma messagesOn_append (journal journal' : List (ε × μ)) :
    messagesOn e (journal ++ journal') = messagesOn e journal ++ messagesOn e journal' := by
  simp [messagesOn]

/-- A message is seen on its own exchange only. -/
lemma messagesOn_singleton (e' : ε) (m : μ) :
    messagesOn e [(e', m)] = if e' = e then [m] else [] := by
  by_cases h : e' = e <;> simp [messagesOn, h]

/-- What is published later comes after what has been published since the queue was bound. -/
lemma messagesOn_drop_append (h : since ≤ journal.length) (journal' : List (ε × μ)) :
    messagesOn e ((journal ++ journal').drop since) =
      messagesOn e (journal.drop since) ++ messagesOn e journal' := by
  rw [List.drop_append_of_le_length h, messagesOn_append]

lemma messagesOn_take_append_drop (e : ε) (n : ℕ) (journal : List (ε × μ)) :
    messagesOn e (journal.take n) ++ messagesOn e (journal.drop n) = messagesOn e journal := by
  rw [← messagesOn_append, List.take_append_drop]

lemma messagesOn_drop_suffix (n : ℕ) (journal : List (ε × μ)) :
    messagesOn e (journal.drop n) <:+ messagesOn e journal :=
  ⟨_, messagesOn_take_append_drop e n journal⟩

namespace Taken

/-- A consumer that has ended keeps what it has taken. -/
lemma publish (h : Taken e journal since taken) (journal' : List (ε × μ)) :
    Taken e (journal ++ journal') since taken where
  since_le := h.since_le.trans (by simp)
  taken_prefix := by
    rw [messagesOn_drop_append h.since_le]
    exact h.taken_prefix.trans (List.prefix_append _ _)

end Taken

namespace Delivered

/-- A queue that is bound starts empty. -/
lemma bind (e : ε) (journal : List (ε × μ)) : Delivered e journal journal.length [] [] where
  since_le := le_rfl
  taken_append_queue := by simp

/-- A message on the exchange is put into the queue. -/
lemma publish (h : Delivered e journal since taken queue) (e' : ε) (m : μ) :
    Delivered e (journal ++ [(e', m)]) since taken
      (if e' = e then queue ++ [m] else queue) where
  since_le := h.since_le.trans (by simp)
  taken_append_queue := by
    rw [messagesOn_drop_append h.since_le, ← h.taken_append_queue, messagesOn_singleton]
    split_ifs <;> simp

/-- The consumer takes the first message in its queue. -/
lemma take (h : Delivered e journal since taken (m :: queue)) :
    Delivered e journal since (taken ++ [m]) queue where
  since_le := h.since_le
  taken_append_queue := by
    rw [← h.taken_append_queue, List.append_assoc]
    rfl

lemma taken_of (h : Delivered e journal since taken queue) : Taken e journal since taken where
  since_le := h.since_le
  taken_prefix := h.taken_append_queue ▸ List.prefix_append _ _

end Delivered

end Fanout
