import TestOrch.Backend.StatusRender

/-!
# Sentinel coordination of one poll (`_PollState` in `backend/main.py`)

The methods of `_PollState` are cut at their await points: taking the lock and sending the sentinel.
-/

namespace TestOrch

/-- `_PollState`, with the state of its `asyncio.Lock`. -/
structure PollState where
  total : ℕ
  received : ℕ
  completed : Bool
  locked : Bool
  deriving DecidableEq, Repr

/-- Where a call of `emit_sentinel` stands. -/
inductive Emission where
  | acquiring
  | sending (text : String)
  | finished
  deriving DecidableEq, Repr

namespace PollState

/-- `__init__`. -/
def new (total : ℕ) : PollState := ⟨total, 0, false, false⟩

/-- `on_reply` up to its await. -/
def onReply (p : PollState) : PollState := { p with received := p.received + 1 }

/-- The condition under which `on_reply` goes on to emit the sentinel. -/
def complete (p : PollState) : Bool := p.total ≠ 0 && p.received ≥ p.total

/-- `emit_sentinel` from the lock to the send; the call waits while the lock is taken. -/
def acquire (p : PollState) : Option (PollState × Emission) :=
  if p.locked then none
  else if p.completed then some (p, .finished)
  else some ({ p with locked := true }, .sending (renderSentinel p.received p.total))

/-- The end of `emit_sentinel`, after the send delivered or raised. -/
def release (p : PollState) (delivered : Bool) : PollState :=
  { p with completed := p.completed || delivered, locked := false }

end PollState

end TestOrch
