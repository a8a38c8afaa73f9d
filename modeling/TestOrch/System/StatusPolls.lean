import TestOrch.Backend.PollTasks
import TestOrch.Backend.Scheduler
import TestOrch.Core.Fanout

/-!
# Status polls across the broker (`ws_admin` in `main.py`, `report_status` in `tasks.py`)

Any number of admin sockets poll the hosts at the same time. A poll has a correlation id; the
requests that it puts on the queues of the hosts carry it, and a host replies on the exchange of
that name, to which the consumer of the poll has bound a queue of its own. A host may answer a
request more than once, since it is acknowledged late. Connections to the broker that are open do
not drop.
-/

namespace TestOrch.StatusPolls

open Transition Fanout WsAdmin

/-- `status_exchange_for`, which the worker publishes to under the same name. -/
def statusExchangeFor (correlationId : String) : String := "host_status." ++ correlationId

/-- A `worker.report_status` message. -/
structure Request where
  queue : String
  correlationId : String
  deriving DecidableEq

/-- A published reply, with the host whose worker sent it. -/
structure Reply where
  host : String
  body : String
  deriving DecidableEq

/-- The queue of a consumer, the messages it has taken from it, and the rows it has sent. -/
structure Subscription where
  exchange : String
  /-- The number of replies that had been published when the queue was bound. -/
  since : ℕ
  taken : List Reply
  queue : List Reply
  shown : List String

/-- The local variables `correlation_id` and `host_ids` of a poll. -/
structure Poll where
  correlationId : String
  hostIds : List String

/-- An admin socket with the polls it has started and the queues of its consumers. -/
structure AdminSocket where
  socket : Socket
  polls : List Poll
  subscriptions : ℕ → Option Subscription

/-- The sockets, the requests that are not acknowledged yet, and the replies in the order in which
they were published, each with its exchange. -/
structure State where
  sockets : List AdminSocket
  requests : List Request
  journal : List (String × Reply)

inductive Act where
  /-- An admin opens a socket. -/
  | connect
  /-- The coroutine of socket `i` goes on; `hostIds` and `id` are the results of the query and of
  `uuid4` if it starts a poll. -/
  | main (i : ℕ) (hostIds : List String) (id : String)
  /-- The coroutine of socket `i` ends by an exception or since the client is gone; when it is
  dispatching, `n` requests are sent before. -/
  | leave (i n : ℕ)
  /-- Task `t` of socket `i` goes on. -/
  | task (i t : ℕ) (delivered : Bool)
  /-- A requested cancellation takes effect. -/
  | cancel (i t : ℕ)
  /-- The worker of a host answers request `j`. -/
  | answer (j : ℕ) (reply : Reply) (acknowledged : Bool)

def requestFor (correlationId hostId : String) : Except PyError Request := do
  let queue ← queueNameFor hostId
  pure ⟨queue, correlationId⟩

def requestsFor (poll : Poll) (hostIds : List String) : Option (List Request) :=
  (hostIds.mapM (requestFor poll.correlationId)).toOption

namespace AdminSocket

def init : AdminSocket := ⟨.init, [], fun _ => none⟩

/-- The task has not ended, so its connection is open. -/
def isOpen (a : AdminSocket) (t : ℕ) : Bool :=
  a.socket.tasks[t]?.any fun task => !task.code.done

/-- Put a reply into the queues that are bound to its exchange. -/
def receive (exchange : String) (reply : Reply) (a : AdminSocket) : AdminSocket :=
  { a with subscriptions := fun t => (a.subscriptions t).map fun q =>
      if a.isOpen t && q.exchange = exchange then { q with queue := q.queue ++ [reply] } else q }

/-- The coroutine goes on, and what it puts on the queues of the hosts. -/
def stepMain (render : String → String) (a : AdminSocket) (hostIds : List String) (id : String) :
    Option (AdminSocket × List Request) := do
  let socket ← WsAdmin.step render a.socket (.main hostIds)
  match a.socket.main with
  | .receiving => some ({ a with socket := socket, polls := a.polls ++ [⟨id, hostIds⟩] }, [])
  | .binding hosts =>
    let poll ← a.polls.getLast?
    let requests ← requestsFor poll hosts
    some ({ a with socket := socket }, requests)
  | _ => some ({ a with socket := socket }, [])

/-- The coroutine ends early. -/
def stepLeave (render : String → String) (a : AdminSocket) (n : ℕ) :
    Option (AdminSocket × List Request) := do
  let socket ← WsAdmin.step render a.socket .leave
  match a.socket.main with
  | .binding hosts =>
    let poll ← a.polls.getLast?
    let requests ← requestsFor poll (hosts.take n)
    some ({ a with socket := socket }, requests)
  | _ => some ({ a with socket := socket }, [])

/-- Task `t` goes on, when `published` replies have been published. -/
def stepTask (render : String → String) (published : ℕ) (a : AdminSocket) (t : ℕ)
    (delivered : Bool) : Option AdminSocket := do
  let task ← a.socket.tasks[t]?
  match task.code, a.subscriptions t with
  | .consumer .connecting, _ =>
    let socket ← WsAdmin.step render a.socket (.task t "" delivered)
    let poll ← a.polls[task.poll - 1]?
    let bound : Subscription := ⟨statusExchangeFor poll.correlationId, published, [], [], []⟩
    some { a with
      socket := socket
      subscriptions := if delivered then Function.update a.subscriptions t (some bound)
        else a.subscriptions }
  | .consumer .receiving, some q =>
    match q.queue with
    | reply :: rest =>
      let socket ← WsAdmin.step render a.socket (.task t reply.body delivered)
      some { a with
        socket := socket
        subscriptions := Function.update a.subscriptions t
          (some { q with taken := q.taken ++ [reply], queue := rest }) }
    | [] => none
  | .consumer .receiving, none => none
  | .consumer (.sending row), some q =>
    let socket ← WsAdmin.step render a.socket (.task t "" delivered)
    some { a with
      socket := socket
      subscriptions := Function.update a.subscriptions t
        (some { q with shown := if delivered then q.shown ++ [row] else q.shown }) }
  | _, _ =>
    let socket ← WsAdmin.step render a.socket (.task t "" delivered)
    some { a with socket := socket }

end AdminSocket

def State.move (s : State) (i : ℕ) (moved : AdminSocket × List Request) : State :=
  { s with sockets := s.sockets.set i moved.1, requests := s.requests ++ moved.2 }

def step (render : String → String) (s : State) : Act → Option State
  | .connect => some { s with sockets := s.sockets ++ [.init] }
  | .main i hostIds id => do
    let a ← s.sockets[i]?
    let moved ← a.stepMain render hostIds id
    some (s.move i moved)
  | .leave i n => do
    let a ← s.sockets[i]?
    let moved ← a.stepLeave render n
    some (s.move i moved)
  | .task i t delivered => do
    let a ← s.sockets[i]?
    let a' ← a.stepTask render s.journal.length t delivered
    some (s.move i (a', []))
  | .cancel i t => do
    let a ← s.sockets[i]?
    let socket ← WsAdmin.step render a.socket (.cancel t)
    some (s.move i ({ a with socket := socket }, []))
  | .answer j reply acknowledged => do
    let r ← s.requests[j]?
    let queue ← (queueNameFor reply.host).toOption
    if queue = r.queue then
      let exchange := statusExchangeFor r.correlationId
      some {
        sockets := s.sockets.map (AdminSocket.receive exchange reply)
        requests := if acknowledged then s.requests.eraseIdx j else s.requests
        journal := s.journal ++ [(exchange, reply)] }
    else none

end TestOrch.StatusPolls
