import Mathlib.Logic.Function.Basic
import Mathlib.Data.List.Nodup

/-!
# The capture threads of `study_serve.py`

Each websocket connection of the study server is a `FingerWebSocket` with two threads. The
handler thread runs `received_message` for each message in turn: a message with a `finger` key
calls `finger_request`, which sets `abort_request`, takes the lock of `available_req`, stores the
request in `current_req`, clears `abort_request`, calls `notify()` and releases the lock. The
worker thread runs `finger_worker`: it takes the lock, waits while there is neither a request nor
an abort, runs `finger_process` on `current_req` holding the lock, clears `current_req` and releases
the lock. `finger_process` returns early once it sees `abort_request`; when it runs to the end it
reads `req['finger']`, which raises `TypeError` if the request is `None`, and ends with `send()`.
When the connection ends, `closed()` sets `abort_request`, wakes the worker with `notify()` and
waits for it with `join(10.0)`.

`available_req = threading.Condition()` is a class attribute: all connections share one lock and
one queue of waiters, and `notify()` wakes the waiter that has waited longest, whichever
connection it belongs to. The other shared fields are set per connection.

The model is the state of all threads, with the lock's holder and the waiters' queue. A step is one
thread's step, or a message or the end of a connection arriving at a handler that is between
messages. A handler's work inside the lock is one step: no other thread can act on what it
reads or writes until it releases the lock. `finger_process` is one step, taken when the worker
reads `abort_request`: `abort_request` is only cleared by a handler holding the lock, so while the
worker runs `finger_process` the flag can only go from unset to set.

A connection ends in one of two orders. When the client sends a close frame, ws4py sets
`server_terminated` before `closed()` runs; the model sets it together with `abort_request`, and
the `join()` then changes nothing the model tracks. When the client's stream just ends, ws4py's
`terminate()` calls `closed()` first and sets the flags only once it returns, so the worker's loop
cannot see them during the `join()`, which is then a state of its own. In that window the client is
gone, and the `send()` that ends a `finger_process` run may raise; the worker thread then ends
holding the lock. Requests are the parsed messages, and a request is truthy and carries the
keys `finger_process` reads (`finger`, `picture`, `participant`, `group`) with values its formats
accept: on one that does not, the log line or `finger_save_image` raises in the worker, which the
model leaves out. The `ectool` polling, which ends when the sensor answers or `abort_request` is
set, the image files, the text of the reply, logging and `config_request` are left out: they touch
none of the shared fields. A `send()` is taken to succeed while the client is connected.

Main results: with any number of connections, no worker thread ever dies in `finger_process`, and
while a handler is between messages its latest request is either still `current_req` or the last
one processed. With one connection, the worker can always process the latest request on its
own, and once `closed()` has run and the flags are set it can always leave its loop. With two
connections a request can be stranded: its worker waits while `current_req` holds it, because
`notify()` woke the other connection's worker. When a stream ends without a close frame, the
`join()` of `closed()` never sees the worker leave, and with one connection the worker spins
through it; a worker whose `send()` raised keeps the lock for good, and no worker of any
connection processes a request again.
-/

namespace CrosPlatform.Biod

/-- Where the worker thread of a connection is in `finger_worker`. -/
inductive WorkerAt (Req : Type) where
  /-- At the test `while not self.server_terminated and not self.client_terminated`. -/
  | loop
  /-- At `self.available_req.acquire()`. -/
  | acquiring
  /-- Holding the lock, at the test `while not self.current_req and not self.abort_request`. -/
  | checking
  /-- In `self.available_req.wait()`: queued among the waiters, the lock released. -/
  | waiting
  /-- Woken by `notify()`, taking the lock back inside `wait()`. -/
  | reacquiring
  /-- Holding the lock, in `self.finger_process(req)`. -/
  | processing (req : Option Req)
  /-- `finger_process(None)` raised `TypeError`; the thread ended holding the lock. -/
  | crashed
  /-- The `send()` at the end of `finger_process` raised, the client being gone; the thread ended
  holding the lock. -/
  | sendFailed
  /-- Out of the loop: the thread ended. -/
  | exited

/-- Whether a worker at this place holds the lock of `available_req`. -/
def WorkerAt.holdsLock {Req : Type} : WorkerAt Req → Bool
  | .checking | .processing _ | .crashed | .sendFailed => true
  | _ => false

/-- Where the handler thread of a connection is. -/
inductive HandlerAt (Req : Type) where
  /-- Between messages. -/
  | idle
  /-- In `finger_request(req)`, after `self.abort_request = True`, at `acquire()`. -/
  | requesting (req : Req)
  /-- The client's stream ended without a close frame: ws4py's `terminate()` is about to call
  `closed()`. -/
  | ending
  /-- In `closed()`, after `self.abort_request = True`, at `acquire()`. -/
  | closing
  /-- In the `join(10.0)` of `closed()`, the terminated flags not yet set. -/
  | joining
  /-- Past the `notify()` of `closed()`, with the terminated flags set. -/
  | closed

/-- A `FingerWebSocket`: the fields its two threads share, where each thread is, and, as ghost
state, the requests `finger_request` was given and those `finger_process` ran to the end on. -/
structure FingerWebSocket (Req : Type) where
  currentReq : Option Req
  abortRequest : Bool
  /-- `server_terminated` and `client_terminated`. -/
  terminated : Bool
  worker : WorkerAt Req
  handler : HandlerAt Req
  submitted : List Req
  processed : List Req

/-- The `n` connections of the server and the `available_req` they share: the worker holding its
lock, and its waiters in the order `notify()` wakes them. -/
structure Server (n : Nat) (Req : Type) where
  sockets : Fin n → FingerWebSocket Req
  owner : Option (Fin n)
  waiters : List (Fin n)

/-- What happens next: a step of connection `c`'s worker or handler, a message with a `finger` key
arriving at its handler, the client's close frame, the client's stream ending without one, or the
`send()` of the worker's `finger_process` raising. -/
inductive Event (n : Nat) (Req : Type) where
  | worker (c : Fin n)
  | handler (c : Fin n)
  | finger (c : Fin n) (req : Req)
  | close (c : Fin n)
  | drop (c : Fin n)
  | sendFails (c : Fin n)

section Server

variable {n : Nat} {Req : Type}

/-- A connection after `set_config` started its worker. -/
def FingerWebSocket.opened : FingerWebSocket Req :=
  { currentReq := none, abortRequest := false, terminated := false, worker := .loop,
    handler := .idle, submitted := [], processed := [] }

/-- The server with every connection opened and the lock free. -/
def Server.init : Server n Req :=
  { sockets := fun _ => .opened, owner := none, waiters := [] }

namespace Server

/-- Connection `c` changed by `f`. -/
def modify (s : Server n Req) (c : Fin n) (f : FingerWebSocket Req → FingerWebSocket Req) :
    Server n Req :=
  { s with sockets := Function.update s.sockets c (f (s.sockets c)) }

/-- `available_req.notify()`: the longest waiter leaves the queue and takes the lock back. -/
def notify (s : Server n Req) : Server n Req :=
  match s.waiters with
  | [] => s
  | w :: rest => { s.modify w (fun ws => { ws with worker := .reacquiring }) with waiters := rest }

/-- One step of connection `c`'s worker thread; `none` while it is blocked or ended. -/
def workerStep (s : Server n Req) (c : Fin n) : Option (Server n Req) :=
  let ws := s.sockets c
  match ws.worker with
  | .loop =>
    some (s.modify c fun ws => { ws with worker := if ws.terminated then .exited else .acquiring })
  | .acquiring | .reacquiring =>
    if s.owner.isNone then
      some { s.modify c (fun ws => { ws with worker := .checking }) with owner := some c }
    else none
  | .checking =>
    if ws.currentReq.isNone && !ws.abortRequest then
      some { s.modify c (fun ws => { ws with worker := .waiting }) with
        owner := none, waiters := s.waiters ++ [c] }
    else some (s.modify c fun ws => { ws with worker := .processing ws.currentReq })
  | .processing req =>
    if ws.abortRequest then
      some { s.modify c (fun ws => { ws with worker := .loop, currentReq := none }) with
        owner := none }
    else
      match req with
      | some r =>
        some { s.modify c (fun ws => { ws with
          worker := .loop, currentReq := none, processed := ws.processed ++ [r] }) with
          owner := none }
      | none => some (s.modify c fun ws => { ws with worker := .crashed })
  | .waiting | .crashed | .sendFailed | .exited => none

/-- One step of connection `c`'s handler thread: the rest of `finger_request` once the lock is free,
or a step of `closed()`: `abort_request = True`, its `notify()` once the lock is free, and the end
of its `join()`, after which ws4py sets the terminated flags. -/
def handlerStep (s : Server n Req) (c : Fin n) : Option (Server n Req) :=
  match (s.sockets c).handler with
  | .requesting r =>
    if s.owner.isNone then
      some (s.modify c fun ws => { ws with
        abortRequest := false, currentReq := some r, handler := .idle }).notify
    else none
  | .ending => some (s.modify c fun ws => { ws with abortRequest := true, handler := .closing })
  | .closing =>
    if s.owner.isNone then
      some (s.modify c fun ws => { ws with
        handler := if ws.terminated then .closed else .joining }).notify
    else none
  | .joining => some (s.modify c fun ws => { ws with terminated := true, handler := .closed })
  | .idle | .closed => none

/-- A message with a `finger` key: `finger_request(req)` up to its `acquire()`. -/
def fingerRequest (s : Server n Req) (c : Fin n) (req : Req) : Option (Server n Req) :=
  match (s.sockets c).handler with
  | .idle =>
    some (s.modify c fun ws => { ws with
      abortRequest := true, handler := .requesting req, submitted := ws.submitted ++ [req] })
  | _ => none

/-- The client's close frame: the terminated flags, then `closed()` up to its `acquire()`. -/
def close (s : Server n Req) (c : Fin n) : Option (Server n Req) :=
  match (s.sockets c).handler with
  | .idle =>
    some (s.modify c fun ws => { ws with
      terminated := true, abortRequest := true, handler := .closing })
  | _ => none

/-- The client's stream ends without a close frame. -/
def drop (s : Server n Req) (c : Fin n) : Option (Server n Req) :=
  match (s.sockets c).handler with
  | .idle => some (s.modify c fun ws => { ws with handler := .ending })
  | _ => none

/-- `finger_process` runs to the end on a request while the client is gone, and its `send()`
raises. -/
def sendFails (s : Server n Req) (c : Fin n) : Option (Server n Req) :=
  match (s.sockets c).worker, (s.sockets c).handler, (s.sockets c).abortRequest with
  | .processing (some _), .ending, false =>
    some (s.modify c fun ws => { ws with worker := .sendFailed })
  | _, _, _ => none

/-- The server after an event, or `none` when the event cannot happen now. -/
def next (s : Server n Req) : Event n Req → Option (Server n Req)
  | .worker c => s.workerStep c
  | .handler c => s.handlerStep c
  | .finger c req => s.fingerRequest c req
  | .close c => s.close c
  | .drop c => s.drop c
  | .sendFails c => s.sendFails c

/-- The server after events in order. -/
def run (s : Server n Req) : List (Event n Req) → Option (Server n Req)
  | [] => some s
  | e :: events => (s.next e).bind fun s' => s'.run events

/-- The states the server reaches from `init`. -/
inductive Reachable : Server n Req → Prop
  | init : Reachable init
  | step {s s' : Server n Req} {e : Event n Req} :
      Reachable s → s.next e = some s' → Reachable s'

/-! ## What a step changes -/

@[simp]
theorem sockets_modify_self (s : Server n Req) (c : Fin n) (f) :
    (s.modify c f).sockets c = f (s.sockets c) := by
  simp [modify]

theorem sockets_modify_of_ne (s : Server n Req) {c c' : Fin n} (f) (other : c' ≠ c) :
    (s.modify c f).sockets c' = s.sockets c' := by
  simp [modify, Function.update_noteq other]

theorem sockets_modify (s : Server n Req) (c c' : Fin n) (f) :
    (s.modify c f).sockets c' = if c' = c then f (s.sockets c) else s.sockets c' :=
  Function.update_apply _ _ _ _

@[simp]
theorem owner_modify (s : Server n Req) (c : Fin n) (f) : (s.modify c f).owner = s.owner := rfl

@[simp]
theorem waiters_modify (s : Server n Req) (c : Fin n) (f) : (s.modify c f).waiters = s.waiters :=
  rfl

theorem sockets_notify (s : Server n Req) (c : Fin n) :
    s.notify.sockets c =
      if s.waiters.head? = some c then { s.sockets c with worker := .reacquiring }
      else s.sockets c := by
  unfold notify
  split
  · simp_all
  · rename_i w rest waiters
    by_cases same : c = w
    · subst same
      simp [waiters]
    · simp [waiters, sockets_modify_of_ne _ _ same, Ne.symm same]

@[simp]
theorem owner_notify (s : Server n Req) : s.notify.owner = s.owner := by
  unfold notify
  split <;> rfl

@[simp]
theorem waiters_notify (s : Server n Req) : s.notify.waiters = s.waiters.tail := by
  unfold notify
  split <;> simp_all

theorem Reachable.run {s s' : Server n Req} :
    ∀ {events : List (Event n Req)}, s.Reachable → s.run events = some s' → s'.Reachable
  | [], reached, ran => Option.some.inj ran ▸ reached
  | e :: events, reached, ran => by
    obtain ⟨s₁, stepped, rest⟩ := Option.bind_eq_some.mp ran
    exact Reachable.run (reached.step stepped) rest

/-! ## The lock and the waiters -/

/-- The lock is held by the worker `owner` names and by no other, and the waiters are the waiting
workers, each once. -/
structure Consistent (s : Server n Req) : Prop where
  holds : ∀ c, (s.sockets c).worker.holdsLock = true ↔ s.owner = some c
  waiting : ∀ c, (s.sockets c).worker = .waiting ↔ c ∈ s.waiters
  nodup : s.waiters.Nodup

theorem consistent_init : (init : Server n Req).Consistent where
  holds c := by simp [init, FingerWebSocket.opened, WorkerAt.holdsLock]
  waiting c := by simp [init, FingerWebSocket.opened]
  nodup := List.nodup_nil

/-- A step of connection `c` that leaves the other connections as they were keeps the lock and
the waiters consistent when it does so for `c`. -/
theorem Consistent.of_step {s s' : Server n Req} (cons : s.Consistent) (c : Fin n)
    (same : ∀ c', c' ≠ c → s'.sockets c' = s.sockets c')
    (holds : (s'.sockets c).worker.holdsLock = true ↔ s'.owner = some c)
    (owner : ∀ c', c' ≠ c → (s'.owner = some c' ↔ s.owner = some c'))
    (waiting : (s'.sockets c).worker = .waiting ↔ c ∈ s'.waiters)
    (waiters : ∀ c', c' ≠ c → (c' ∈ s'.waiters ↔ c' ∈ s.waiters))
    (nodup : s'.waiters.Nodup) : s'.Consistent where
  holds c' := by
    by_cases self : c' = c
    · exact self ▸ holds
    · rw [same c' self, owner c' self, cons.holds]
  waiting c' := by
    by_cases self : c' = c
    · exact self ▸ waiting
    · rw [same c' self, waiters c' self, cons.waiting]
  nodup := nodup

theorem Consistent.notify {s : Server n Req} (cons : s.Consistent) : s.notify.Consistent := by
  match first : s.waiters with
  | [] => simpa [Server.notify, first] using cons
  | w :: rest =>
    have nodup := first ▸ cons.nodup
    have wWaits := (cons.waiting w).mpr (by simp [first])
    refine cons.of_step w (fun c' other => ?_) ?_ (fun _ _ => by rw [owner_notify]) ?_
      (fun c' other => ?_) ?_
    · simp [sockets_notify, first, Ne.symm other]
    · simp [sockets_notify, first, WorkerAt.holdsLock, ← cons.holds, wWaits]
    · simp [sockets_notify, first, (List.nodup_cons.mp nodup).1]
    · simp [first, other]
    · simpa [first] using (List.nodup_cons.mp nodup).2

/-- A change of connection `c` that leaves its worker where it was keeps the lock and the
waiters consistent. -/
theorem Consistent.modify {s : Server n Req} (cons : s.Consistent) (c : Fin n)
    {f : FingerWebSocket Req → FingerWebSocket Req}
    (worker : (f (s.sockets c)).worker = (s.sockets c).worker) :
    (s.modify c f).Consistent :=
  cons.of_step c (fun _ other => sockets_modify_of_ne _ _ other) (by simp [worker, cons.holds])
    (fun _ _ => Iff.rfl) (by simp [worker, cons.waiting]) (fun _ _ => Iff.rfl) cons.nodup

/-- The worker takes the free lock, after `acquire()` or inside `wait()`. -/
theorem Consistent.take {s : Server n Req} (cons : s.Consistent) {c : Fin n}
    (notWaiting : (s.sockets c).worker ≠ .waiting) (free : s.owner = none) :
    ({ s.modify c (fun ws => { ws with worker := .checking }) with owner := some c }).Consistent :=
  cons.of_step c (fun _ other => by dsimp only; exact sockets_modify_of_ne _ _ other)
    (by simp [WorkerAt.holdsLock]) (fun c' other => by simp [free, Ne.symm other])
    (by simp [← cons.waiting, notWaiting])
    (fun _ _ => Iff.rfl) cons.nodup

/-- A worker holding the lock is not among the waiters. -/
theorem Consistent.not_mem_waiters {s : Server n Req} (cons : s.Consistent) {c : Fin n}
    (held : (s.sockets c).worker.holdsLock = true) : c ∉ s.waiters := by
  rw [← cons.waiting]
  intro waits
  simp [waits, WorkerAt.holdsLock] at held

/-- The worker holding the lock releases it, leaving its loop body for `place`. -/
theorem Consistent.release {s : Server n Req} (cons : s.Consistent) {c : Fin n}
    (held : (s.sockets c).worker.holdsLock = true) {f : FingerWebSocket Req → FingerWebSocket Req}
    (free : (f (s.sockets c)).worker = .loop) :
    ({ s.modify c f with owner := none }).Consistent :=
  cons.of_step c (fun _ other => by dsimp only; exact sockets_modify_of_ne _ _ other)
    (by simp [free, WorkerAt.holdsLock])
    (fun c' other => by simp [(cons.holds c).mp held, Ne.symm other])
    (by simp [free, cons.not_mem_waiters held]) (fun _ _ => Iff.rfl) cons.nodup

/-- The worker holding the lock moves to another place that holds it. -/
theorem Consistent.keepHeld {s : Server n Req} (cons : s.Consistent) {c : Fin n}
    (held : (s.sockets c).worker.holdsLock = true) {f : FingerWebSocket Req → FingerWebSocket Req}
    (holds : (f (s.sockets c)).worker.holdsLock = true) : (s.modify c f).Consistent :=
  have notWaiting : (f (s.sockets c)).worker ≠ .waiting := fun waits => by
    simp [waits, WorkerAt.holdsLock] at holds
  cons.of_step c (fun _ other => sockets_modify_of_ne _ _ other)
    (by simp [holds, (cons.holds c).mp held]) (fun _ _ => Iff.rfl)
    (by simp [notWaiting, cons.not_mem_waiters held]) (fun _ _ => Iff.rfl) cons.nodup

theorem Consistent.workerStep {s s' : Server n Req} (cons : s.Consistent) {c : Fin n}
    (stepped : s.workerStep c = some s') : s'.Consistent := by
  have holds := cons.holds c
  have waiting := cons.waiting c
  cases at_ : (s.sockets c).worker with
  | loop =>
    simp only [Server.workerStep, at_, Option.some.injEq] at stepped
    simp only [at_, WorkerAt.holdsLock, reduceCtorEq, false_iff] at holds waiting
    subst stepped
    refine cons.of_step c (fun _ other => sockets_modify_of_ne _ _ other) ?_ (fun _ _ => Iff.rfl) ?_
      (fun _ _ => Iff.rfl) cons.nodup <;>
    simp only [sockets_modify_self, owner_modify, waiters_modify] <;>
    split <;> simp [WorkerAt.holdsLock, holds, waiting]
  | acquiring | reacquiring =>
    simp only [Server.workerStep, at_, Option.isNone_iff_eq_none] at stepped
    split at stepped <;> cases stepped
    exact cons.take (by simp [at_]) ‹_›
  | checking =>
    simp only [Server.workerStep, at_] at stepped
    simp only [at_, WorkerAt.holdsLock, reduceCtorEq, true_iff, false_iff] at holds waiting
    split at stepped
    · cases stepped
      refine cons.of_step c (fun _ other => by dsimp only; exact sockets_modify_of_ne _ _ other)
        (by simp [WorkerAt.holdsLock]) (fun c' other => by simp [holds, Ne.symm other]) (by simp)
        (fun c' other => by simp [other]) (List.nodup_append.mpr ⟨cons.nodup, by simp, ?_⟩)
      simpa using waiting
    · cases stepped
      exact cons.keepHeld (by simp [at_, WorkerAt.holdsLock]) (by simp [WorkerAt.holdsLock])
  | processing req =>
    simp only [Server.workerStep, at_] at stepped
    have held : (s.sockets c).worker.holdsLock = true := by simp [at_, WorkerAt.holdsLock]
    split at stepped
    · cases stepped
      exact cons.release held rfl
    · split at stepped
      · cases stepped
        exact cons.release held rfl
      · cases stepped
        exact cons.keepHeld held (by simp [WorkerAt.holdsLock])
  | waiting | crashed | sendFailed | exited => simp [Server.workerStep, at_] at stepped

theorem Consistent.next {s s' : Server n Req} (cons : s.Consistent) {e : Event n Req}
    (stepped : s.next e = some s') : s'.Consistent := by
  cases e with
  | worker c => exact cons.workerStep stepped
  | handler c =>
    simp only [Server.next, Server.handlerStep] at stepped
    split at stepped
    all_goals (try split at stepped) <;> cases stepped
    all_goals first | exact (cons.modify c rfl).notify | exact cons.modify c rfl
  | finger c _ | close c | drop c =>
    simp only [Server.next, Server.fingerRequest, Server.close, Server.drop] at stepped
    split at stepped <;> cases stepped
    exact cons.modify c rfl
  | sendFails c =>
    simp only [Server.next, Server.sendFails] at stepped
    split at stepped <;> cases stepped
    exact cons.keepHeld (by simp [‹(s.sockets c).worker = _›, WorkerAt.holdsLock])
      (by simp [WorkerAt.holdsLock])

theorem Reachable.consistent {s : Server n Req} (reached : s.Reachable) : s.Consistent := by
  induction reached with
  | init => exact consistent_init
  | step _ stepped cons => exact cons.next stepped

end Server

/-! ## What each connection keeps -/

/-- What every connection keeps, whatever the other connections do: a worker runs
`finger_process` on a missing request only once the abort is set, on what `current_req` holds, and
never dies of it; its `send()` raises only once the stream has ended; a handler between messages
has cleared the abort, and its latest request is still `current_req` or was the last one
processed; `closed()` has set the abort, and the flags are unset during a `join()` that waits on
them. -/
structure FingerWebSocket.Sound (ws : FingerWebSocket Req) : Prop where
  abort_of_missing : ws.worker = .processing none → ws.abortRequest = true
  current_of_processing : ∀ req, ws.worker = .processing req → ws.currentReq = req
  not_crashed : ws.worker ≠ .crashed
  terminated_of_exited : ws.worker = .exited → ws.terminated = true
  send_failed : ws.worker = .sendFailed → ws.handler = .ending ∨ ws.handler = .closing
  idle : ws.handler = .idle → ws.abortRequest = false ∧ ws.terminated = false
  requesting : ∀ req, ws.handler = .requesting req →
    ws.submitted.getLast? = some req ∧ ws.terminated = false
  closing : ws.handler = .closing → ws.abortRequest = true
  joining : ws.handler = .joining → ws.abortRequest = true ∧ ws.terminated = false
  closed : ws.handler = .closed → ws.abortRequest = true ∧ ws.terminated = true
  latest : ws.handler = .idle → ∀ req, ws.submitted.getLast? = some req →
    ws.currentReq = some req ∨ ws.currentReq = none ∧ ws.processed.getLast? = some req

namespace FingerWebSocket

theorem sound_opened : (opened : FingerWebSocket Req).Sound where
  abort_of_missing := by simp [opened]
  current_of_processing := by simp [opened]
  not_crashed := by simp [opened]
  terminated_of_exited := by simp [opened]
  send_failed := by simp [opened]
  idle := by simp [opened]
  requesting := by simp [opened]
  closing := by simp [opened]
  joining := by simp [opened]
  closed := by simp [opened]
  latest := by simp [opened]

variable {ws : FingerWebSocket Req}

/-- `notify()` wakes a worker. -/
theorem Sound.reacquire (sound : ws.Sound) : { ws with worker := .reacquiring }.Sound :=
  { sound with
    abort_of_missing := by simp
    current_of_processing := by simp
    not_crashed := by simp
    terminated_of_exited := by simp
    send_failed := by simp }

/-- A worker step that keeps the request and the handler's fields, from and to a place where
the worker does not run `finger_process`. -/
theorem Sound.move (sound : ws.Sound) (place : WorkerAt Req)
    (notProcessing : ∀ req, place ≠ .processing req) (notCrashed : place ≠ .crashed)
    (notFailed : place ≠ .sendFailed) (exited : place = .exited → ws.terminated = true) :
    { ws with worker := place }.Sound :=
  { sound with
    abort_of_missing := fun processing => absurd processing (notProcessing none)
    current_of_processing := fun req processing => absurd processing (notProcessing req)
    not_crashed := notCrashed
    terminated_of_exited := exited
    send_failed := fun failed => absurd failed notFailed }

/-- The worker leaves `finger_process` and clears `current_req`, after an abort or having run it
on `done`. -/
theorem Sound.finish (sound : ws.Sound) {req : Option Req}
    (processing : ws.worker = .processing req)
    (done : List Req) (finished : ws.abortRequest = true ∨
      ∃ r, req = some r ∧ ws.abortRequest = false ∧ done = [r]) :
    { ws with worker := .loop, currentReq := none, processed := ws.processed ++ done }.Sound :=
  { sound with
    abort_of_missing := by simp
    current_of_processing := by simp
    not_crashed := by simp
    terminated_of_exited := by simp
    send_failed := by simp
    latest := fun idle q last => by
      have current := sound.current_of_processing req processing
      rcases finished with aborting | ⟨r, rfl, _, rfl⟩
      · simp [(sound.idle idle).1] at aborting
      · rcases sound.latest idle q last with pending | ⟨none, _⟩
        · simp_all
        · simp_all }

/-- The worker passes the test of its inner loop and calls `finger_process(self.current_req)`. -/
theorem Sound.process (sound : ws.Sound) (passes : ¬(ws.currentReq.isNone && !ws.abortRequest)) :
    { ws with worker := .processing ws.currentReq }.Sound :=
  { sound with
    abort_of_missing := fun processing => by
      cases current : ws.currentReq <;> simp_all
    current_of_processing := by simp
    not_crashed := by simp
    terminated_of_exited := by simp
    send_failed := by simp }

/-- `send()` raises at the end of `finger_process`, the stream having ended. -/
theorem Sound.sendFail (sound : ws.Sound) (ending : ws.handler = .ending) :
    { ws with worker := .sendFailed }.Sound :=
  { sound with
    abort_of_missing := by simp
    current_of_processing := by simp
    not_crashed := by simp
    terminated_of_exited := by simp
    send_failed := fun _ => .inl ending }

/-- `finger_request(req)` up to its `acquire()`. -/
theorem Sound.request (sound : ws.Sound) (idle : ws.handler = .idle) (req : Req) :
    { ws with
      abortRequest := true
      handler := .requesting req
      submitted := ws.submitted ++ [req] }.Sound :=
  { sound with
    abort_of_missing := by simp
    send_failed := fun failed => by simpa [idle] using sound.send_failed failed
    idle := by simp
    requesting := by simp [(sound.idle idle).2]
    closing := by simp
    joining := by simp
    closed := by simp
    latest := by simp }

/-- The rest of `finger_request(req)`, with the lock, which the worker does not hold. -/
theorem Sound.deliver (sound : ws.Sound) {req : Req} (requesting : ws.handler = .requesting req)
    (notHeld : ws.worker.holdsLock = false) :
    { ws with abortRequest := false, currentReq := some req, handler := .idle }.Sound :=
  have notProcessing : ∀ r, ws.worker ≠ .processing r := fun r processing => by
    simp [processing, WorkerAt.holdsLock] at notHeld
  { sound with
    abort_of_missing := fun processing => absurd processing (notProcessing none)
    current_of_processing := fun r processing => absurd processing (notProcessing r)
    send_failed := fun (failed : ws.worker = .sendFailed) => by
      simp [failed, WorkerAt.holdsLock] at notHeld
    idle := by simp [(sound.requesting req requesting).2]
    requesting := by simp
    closing := by simp
    joining := by simp
    closed := by simp
    latest := by simp_all [(sound.requesting req requesting).1] }

/-- The close frame and `closed()` up to its `acquire()`. -/
theorem Sound.close (sound : ws.Sound) :
    { ws with terminated := true, abortRequest := true, handler := .closing }.Sound :=
  { sound with
    abort_of_missing := by simp
    terminated_of_exited := by simp
    send_failed := by simp
    idle := by simp
    requesting := by simp
    closing := by simp
    joining := by simp
    closed := by simp
    latest := by simp }

/-- The stream ends without a close frame. -/
theorem Sound.drop (sound : ws.Sound) : { ws with handler := .ending }.Sound :=
  { sound with
    send_failed := by simp
    idle := by simp
    requesting := by simp
    closing := by simp
    joining := by simp
    closed := by simp
    latest := by simp }

/-- `closed()` sets `abort_request`, the flags as they were. -/
theorem Sound.abandon (sound : ws.Sound) :
    { ws with abortRequest := true, handler := .closing }.Sound :=
  { sound with
    abort_of_missing := by simp
    send_failed := by simp
    idle := by simp
    requesting := by simp
    closing := by simp
    joining := by simp
    closed := by simp
    latest := by simp }

/-- The `notify()` of `closed()`, with the lock, which the worker does not hold; the `join()`
waits on the flags only when they are unset. -/
theorem Sound.notified (sound : ws.Sound) (closing : ws.handler = .closing)
    (notHeld : ws.worker.holdsLock = false) :
    { ws with handler := if ws.terminated then .closed else .joining }.Sound := by
  have aborting := sound.closing closing
  refine { sound with
    send_failed := fun (failed : ws.worker = .sendFailed) => by
      simp [failed, WorkerAt.holdsLock] at notHeld
    idle := ?_, requesting := ?_, closing := ?_, joining := ?_, closed := ?_, latest := ?_ } <;>
  cases ws.terminated <;> simp [aborting]

/-- The `join()` of `closed()` ends and ws4py sets the terminated flags. -/
theorem Sound.join (sound : ws.Sound) (joining : ws.handler = .joining) :
    { ws with terminated := true, handler := .closed }.Sound :=
  { sound with
    terminated_of_exited := by simp
    send_failed := fun failed => by simpa [joining] using sound.send_failed failed
    idle := by simp
    requesting := by simp
    closing := by simp
    joining := by simp
    closed := fun _ => ⟨(sound.joining joining).1, rfl⟩
    latest := by simp }

/-- While `closed()` waits on the flags in its `join()`, the worker has not left its loop. -/
theorem Sound.not_exited_of_joining (sound : ws.Sound) (joining : ws.handler = .joining) :
    ws.worker ≠ .exited := fun exited => by
  simpa [sound.terminated_of_exited exited] using (sound.joining joining).2

end FingerWebSocket

namespace Server

/-- Every connection keeps its own invariant. -/
def Sound (s : Server n Req) : Prop := ∀ c, (s.sockets c).Sound

theorem sound_init : (init : Server n Req).Sound := fun _ => FingerWebSocket.sound_opened

/-- A step that changes only connection `c`, to `ws`. -/
theorem Sound.update {s s' : Server n Req} (sound : s.Sound) (c : Fin n) {ws : FingerWebSocket Req}
    (self : ws.Sound) (sockets : s'.sockets = Function.update s.sockets c ws) : s'.Sound :=
  fun c' => by
    rw [sockets]
    by_cases same : c' = c
    · subst same
      simpa using self
    · rw [Function.update_noteq same]
      exact sound c'

theorem Sound.notify {s : Server n Req} (sound : s.Sound) : s.notify.Sound := fun c => by
  rw [sockets_notify]
  split
  · exact (sound c).reacquire
  · exact sound c

theorem Sound.workerStep {s s' : Server n Req} (sound : s.Sound) {c : Fin n}
    (stepped : s.workerStep c = some s') : s'.Sound := by
  have self := sound c
  cases at_ : (s.sockets c).worker with
  | loop =>
    simp only [Server.workerStep, at_, Option.some.injEq] at stepped
    subst stepped
    refine sound.update c (self.move _ ?_ ?_ ?_ ?_) rfl <;> split <;> simp_all
  | acquiring | reacquiring =>
    simp only [Server.workerStep, at_, Option.isNone_iff_eq_none] at stepped
    split at stepped <;> cases stepped
    exact sound.update c (self.move .checking (by simp) (by simp) (by simp) (by simp)) rfl
  | checking =>
    simp only [Server.workerStep, at_] at stepped
    split at stepped <;> cases stepped
    · exact sound.update c (self.move .waiting (by simp) (by simp) (by simp) (by simp)) rfl
    · exact sound.update c (self.process ‹_›) rfl
  | processing req =>
    simp only [Server.workerStep, at_] at stepped
    by_cases aborting : (s.sockets c).abortRequest = true
    · simp only [aborting, ↓reduceIte, Option.some.injEq] at stepped
      subst stepped
      exact sound.update c (by simpa using self.finish at_ [] (.inl aborting)) rfl
    · cases req with
      | some r =>
        simp only [aborting, Bool.false_eq_true, ↓reduceIte, Option.some.injEq] at stepped
        subst stepped
        exact sound.update c
          (self.finish at_ [r] (.inr ⟨r, rfl, by simpa using aborting, rfl⟩)) rfl
      | none => exact absurd (self.abort_of_missing at_) aborting
  | waiting | crashed | sendFailed | exited => simp [Server.workerStep, at_] at stepped

theorem Sound.next {s s' : Server n Req} (sound : s.Sound) (cons : s.Consistent)
    {e : Event n Req} (stepped : s.next e = some s') : s'.Sound := by
  cases e with
  | worker c => exact sound.workerStep stepped
  | handler c =>
    have notHeld (free : s.owner = none) : (s.sockets c).worker.holdsLock = false := by
      simpa [free] using cons.holds c
    simp only [Server.next, Server.handlerStep, Option.isNone_iff_eq_none] at stepped
    split at stepped
    all_goals (try split at stepped) <;> cases stepped
    · exact (sound.update c ((sound c).deliver ‹_› (notHeld ‹_›)) rfl).notify
    · exact sound.update c (sound c).abandon rfl
    · exact (sound.update c ((sound c).notified ‹_› (notHeld ‹_›)) rfl).notify
    · exact sound.update c ((sound c).join ‹_›) rfl
  | finger c req =>
    simp only [Server.next, Server.fingerRequest] at stepped
    split at stepped <;> cases stepped
    exact sound.update c ((sound c).request ‹_› req) rfl
  | close c =>
    simp only [Server.next, Server.close] at stepped
    split at stepped <;> cases stepped
    exact sound.update c (sound c).close rfl
  | drop c =>
    simp only [Server.next, Server.drop] at stepped
    split at stepped <;> cases stepped
    exact sound.update c (sound c).drop rfl
  | sendFails c =>
    simp only [Server.next, Server.sendFails] at stepped
    split at stepped <;> cases stepped
    exact sound.update c ((sound c).sendFail ‹_›) rfl

theorem Reachable.sound {s : Server n Req} (reached : s.Reachable) : s.Sound := by
  induction reached with
  | init => exact sound_init
  | step before stepped sound => exact sound.next before.consistent stepped

/-! ## The worker on its own -/

section Steps

variable {s : Server n Req} {c : Fin n}

theorem workerStep_loop (at_ : (s.sockets c).worker = .loop) :
    s.workerStep c = some (s.modify c fun ws =>
      { ws with worker := if ws.terminated then .exited else .acquiring }) := by
  simp [workerStep, at_]

theorem workerStep_acquire (at_ : (s.sockets c).worker = .acquiring ∨
      (s.sockets c).worker = .reacquiring) (free : s.owner = none) :
    s.workerStep c =
      some { s.modify c (fun ws => { ws with worker := .checking }) with owner := some c } := by
  rcases at_ with at_ | at_ <;> simp [workerStep, at_, free]

theorem workerStep_take (at_ : (s.sockets c).worker = .checking)
    (passes : ¬((s.sockets c).currentReq.isNone && !(s.sockets c).abortRequest)) :
    s.workerStep c =
      some (s.modify c fun ws => { ws with worker := .processing ws.currentReq }) := by
  simp only [workerStep, at_]
  simp [passes]

theorem workerStep_abandon {req : Option Req} (at_ : (s.sockets c).worker = .processing req)
    (aborting : (s.sockets c).abortRequest = true) :
    s.workerStep c = some { s.modify c (fun ws => { ws with worker := .loop, currentReq := none })
      with owner := none } := by
  simp [workerStep, at_, aborting]

theorem workerStep_finish {req : Req} (at_ : (s.sockets c).worker = .processing (some req))
    (notAborting : (s.sockets c).abortRequest = false) :
    s.workerStep c = some { s.modify c (fun ws => { ws with
      worker := .loop, currentReq := none, processed := ws.processed ++ [req] }) with
      owner := none } := by
  simp [workerStep, at_, notAborting]

/-- A worker step leaves its connection's handler where it was. -/
theorem handler_workerStep {s' : Server n Req} (stepped : s.workerStep c = some s') :
    (s'.sockets c).handler = (s.sockets c).handler := by
  simp only [workerStep] at stepped
  split at stepped <;> (repeat' split at stepped) <;> cases stepped <;> simp

end Steps

/-- Worker `c`, with no other thread, message or close in between, reaches a state where `P`
holds. -/
def WorkerReaches (c : Fin n) (s : Server n Req) (P : Server n Req → Prop) : Prop :=
  ∃ k s', s.run (List.replicate k (.worker c)) = some s' ∧ P s'

theorem WorkerReaches.refl {c : Fin n} {s : Server n Req} {P : Server n Req → Prop}
    (holds : P s) : WorkerReaches c s P :=
  ⟨0, s, rfl, holds⟩

theorem WorkerReaches.step {c : Fin n} {s s₁ : Server n Req} {P : Server n Req → Prop}
    (stepped : s.workerStep c = some s₁) (rest : WorkerReaches c s₁ P) : WorkerReaches c s P :=
  let ⟨k, s', ran, holds⟩ := rest
  ⟨k + 1, s', by simp [List.replicate_succ, run, next, stepped, ran], holds⟩

section Ladder

variable {s : Server n Req} {c : Fin n} {req : Req}

/-- The worker runs `finger_process` to the end on a request it holds, with no abort. -/
theorem finishes_of_processing (at_ : (s.sockets c).worker = .processing (some req))
    (notAborting : (s.sockets c).abortRequest = false) :
    WorkerReaches c s fun s' => (s'.sockets c).processed.getLast? = some req :=
  .step (workerStep_finish at_ notAborting) (.refl (by simp))

theorem finishes_of_checking (at_ : (s.sockets c).worker = .checking)
    (pending : (s.sockets c).currentReq = some req)
    (notAborting : (s.sockets c).abortRequest = false) :
    WorkerReaches c s fun s' => (s'.sockets c).processed.getLast? = some req :=
  .step (workerStep_take at_ (by simp [pending]))
    (finishes_of_processing (by simp [pending]) (by simpa using notAborting))

theorem finishes_of_acquiring (at_ : (s.sockets c).worker = .acquiring ∨
      (s.sockets c).worker = .reacquiring) (free : s.owner = none)
    (pending : (s.sockets c).currentReq = some req)
    (notAborting : (s.sockets c).abortRequest = false) :
    WorkerReaches c s fun s' => (s'.sockets c).processed.getLast? = some req :=
  .step (workerStep_acquire at_ free)
    (finishes_of_checking (by simp) (by simpa using pending) (by simpa using notAborting))

theorem finishes_of_loop (at_ : (s.sockets c).worker = .loop)
    (open_ : (s.sockets c).terminated = false) (free : s.owner = none)
    (pending : (s.sockets c).currentReq = some req)
    (notAborting : (s.sockets c).abortRequest = false) :
    WorkerReaches c s fun s' => (s'.sockets c).processed.getLast? = some req :=
  .step (workerStep_loop at_)
    (finishes_of_acquiring (by simp [open_]) free (by simpa using pending)
      (by simpa using notAborting))

/-- Once the abort is set and the connection terminated, the worker leaves its loop. -/
theorem exits_of_loop (at_ : (s.sockets c).worker = .loop)
    (terminated : (s.sockets c).terminated = true) :
    WorkerReaches c s fun s' => (s'.sockets c).worker = .exited :=
  .step (workerStep_loop at_) (.refl (by simp [terminated]))

theorem exits_of_processing {current : Option Req}
    (at_ : (s.sockets c).worker = .processing current)
    (aborting : (s.sockets c).abortRequest = true) (terminated : (s.sockets c).terminated = true) :
    WorkerReaches c s fun s' => (s'.sockets c).worker = .exited :=
  .step (workerStep_abandon at_ aborting) (exits_of_loop (by simp) (by simpa using terminated))

theorem exits_of_checking (at_ : (s.sockets c).worker = .checking)
    (aborting : (s.sockets c).abortRequest = true) (terminated : (s.sockets c).terminated = true) :
    WorkerReaches c s fun s' => (s'.sockets c).worker = .exited :=
  .step (workerStep_take at_ (by simp [aborting]))
    (exits_of_processing (by simp only [sockets_modify_self]; rfl) (by simpa using aborting)
      (by simpa using terminated))

theorem exits_of_acquiring (at_ : (s.sockets c).worker = .acquiring ∨
      (s.sockets c).worker = .reacquiring) (free : s.owner = none)
    (aborting : (s.sockets c).abortRequest = true) (terminated : (s.sockets c).terminated = true) :
    WorkerReaches c s fun s' => (s'.sockets c).worker = .exited :=
  .step (workerStep_acquire at_ free)
    (exits_of_checking (by simp) (by simpa using aborting) (by simpa using terminated))

end Ladder

/-! ## Every interleaving -/

/-- With any number of connections and any interleaving of their threads, messages and closes,
no worker thread dies in `finger_process`: it reaches `req['finger']` only with a request. -/
theorem worker_never_crashes {s : Server n Req} (reached : s.Reachable) (c : Fin n) :
    (s.sockets c).worker ≠ .crashed :=
  (reached.sound c).not_crashed

/-- With one connection, a waiting worker has no request to take and `closed()` is not past its
`notify()`: no `notify()` it needs goes to another thread. -/
def Awake (s : Server 1 Req) : Prop :=
  (s.sockets 0).worker = .waiting →
    (s.sockets 0).currentReq = none ∧ (s.sockets 0).handler ≠ .joining ∧
      (s.sockets 0).handler ≠ .closed

theorem awake_init : (init : Server 1 Req).Awake := by
  simp [Awake, init, FingerWebSocket.opened]

/-- With one connection, `notify()` wakes its worker when it waits. -/
theorem worker_notify_ne_waiting {s : Server 1 Req} (cons : s.Consistent) :
    (s.notify.sockets 0).worker ≠ .waiting := by
  intro waits
  rw [sockets_notify] at waits
  split at waits
  · simp at waits
  · rename_i notHead
    match first : s.waiters with
    | [] => simpa [first] using (cons.waiting 0).mp waits
    | w :: _ => exact notHead (by simp [first, Fin.fin_one_eq_zero w])

theorem Awake.next {s s' : Server 1 Req} (awake : s.Awake) (cons : s.Consistent) (sound : s.Sound)
    {e : Event 1 Req} (stepped : s.next e = some s') : s'.Awake := by
  have self := sound 0
  cases e with
  | worker c =>
    obtain rfl := Fin.fin_one_eq_zero c
    intro waits
    have notClosed : (s.sockets 0).abortRequest = false →
        (s.sockets 0).handler ≠ .joining ∧ (s.sockets 0).handler ≠ .closed := fun notAborting =>
      ⟨fun joining => by simp [(self.joining joining).1] at notAborting,
        fun closed => by simp [(self.closed closed).1] at notAborting⟩
    cases at_ : (s.sockets 0).worker with
    | checking =>
      simp only [Server.workerStep, Server.next, at_] at stepped
      split at stepped <;> cases stepped
      · simp_all
      · simp at waits
    | loop =>
      simp only [Server.workerStep, Server.next, at_, Option.some.injEq] at stepped
      subst stepped
      simp only [sockets_modify_self] at waits
      split at waits <;> simp at waits
    | acquiring | reacquiring =>
      simp only [Server.workerStep, Server.next, at_] at stepped
      split at stepped <;> cases stepped
      simp at waits
    | processing req =>
      simp only [Server.workerStep, Server.next, at_] at stepped
      split at stepped
      · cases stepped
        simp at waits
      · split at stepped <;> cases stepped <;> simp at waits
    | waiting | crashed | sendFailed | exited =>
      simp [Server.workerStep, Server.next, at_] at stepped
  | handler c =>
    obtain rfl := Fin.fin_one_eq_zero c
    simp only [Server.next, Server.handlerStep] at stepped
    split at stepped
    all_goals (try split at stepped) <;> cases stepped
    · exact fun waits => absurd waits (worker_notify_ne_waiting (cons.modify 0 rfl))
    · intro waits
      simp only [sockets_modify_self] at waits ⊢
      exact ⟨(awake waits).1, by simp, by simp⟩
    · exact fun waits => absurd waits (worker_notify_ne_waiting (cons.modify 0 rfl))
    · intro waits
      simp only [sockets_modify_self] at waits
      exact absurd ‹_› (awake waits).2.1
  | finger c _ | close c | drop c =>
    obtain rfl := Fin.fin_one_eq_zero c
    simp only [Server.next, Server.fingerRequest, Server.close, Server.drop] at stepped
    split at stepped <;> cases stepped
    intro waits
    simp only [sockets_modify_self] at waits ⊢
    exact ⟨(awake waits).1, by simp, by simp⟩
  | sendFails c =>
    obtain rfl := Fin.fin_one_eq_zero c
    simp only [Server.next, Server.sendFails] at stepped
    split at stepped <;> cases stepped
    intro waits
    simp at waits

theorem Reachable.awake {s : Server 1 Req} (reached : s.Reachable) : s.Awake := by
  induction reached with
  | init => exact awake_init
  | step before stepped awake => exact awake.next before.consistent before.sound stepped

/-- With one connection, the lock is free while the worker does not hold it. -/
theorem owner_eq_none {s : Server 1 Req} (cons : s.Consistent)
    (notHeld : (s.sockets 0).worker.holdsLock = false) : s.owner = none := by
  cases owner : s.owner with
  | none => rfl
  | some w =>
    have held := (cons.holds 0).mpr (by rw [owner, Fin.fin_one_eq_zero w])
    simp [notHeld] at held

/-- With one connection, once `closed()` is past its `notify()` with the terminated flags set, the
worker on its own leaves its loop: after a close frame, the `join()` in `closed()` does not wait on
a worker nobody wakes. -/
theorem worker_exits_after_close {s : Server 1 Req} (reached : s.Reachable)
    (closed : (s.sockets 0).handler = .closed) :
    WorkerReaches 0 s fun s' => (s'.sockets 0).worker = .exited := by
  have self := reached.sound 0
  have free := owner_eq_none reached.consistent
  obtain ⟨aborting, terminated⟩ := self.closed closed
  cases at_ : (s.sockets 0).worker with
  | loop => exact exits_of_loop at_ terminated
  | acquiring =>
    exact exits_of_acquiring (.inl at_) (free (by simp [at_, WorkerAt.holdsLock])) aborting
      terminated
  | reacquiring =>
    exact exits_of_acquiring (.inr at_) (free (by simp [at_, WorkerAt.holdsLock])) aborting
      terminated
  | checking => exact exits_of_checking at_ aborting terminated
  | processing current => exact exits_of_processing at_ aborting terminated
  | waiting => exact absurd closed (reached.awake at_).2.2
  | crashed => exact absurd at_ self.not_crashed
  | sendFailed => simpa [closed] using self.send_failed at_
  | exited => exact .refl at_

/-- With one connection, while `closed()` joins the worker can always take a step: the abort is
set, so it neither waits nor keeps a request, and the flags are unset, so it does not leave. -/
theorem exists_workerStep_of_joining {s : Server 1 Req} (reached : s.Reachable)
    (joining : (s.sockets 0).handler = .joining) : ∃ s', s.workerStep 0 = some s' := by
  have self := reached.sound 0
  have free := owner_eq_none reached.consistent
  have aborting := (self.joining joining).1
  cases at_ : (s.sockets 0).worker with
  | loop => exact ⟨_, workerStep_loop at_⟩
  | acquiring =>
    exact ⟨_, workerStep_acquire (.inl at_) (free (by simp [at_, WorkerAt.holdsLock]))⟩
  | reacquiring =>
    exact ⟨_, workerStep_acquire (.inr at_) (free (by simp [at_, WorkerAt.holdsLock]))⟩
  | checking => exact ⟨_, workerStep_take at_ (by simp [aborting])⟩
  | processing req => exact ⟨_, workerStep_abandon at_ aborting⟩
  | waiting => exact absurd joining (reached.awake at_).2.1
  | crashed => exact absurd at_ self.not_crashed
  | sendFailed => simpa [joining] using self.send_failed at_
  | exited => exact absurd at_ (self.not_exited_of_joining joining)

/-- With one connection whose stream ended without a close frame, all through the `join(10.0)` of
`closed()` the worker runs on its own: however many steps it takes, it never blocks in `acquire()`
or `wait()` and never leaves its loop. It spins through `finger_worker`, finding `abort_request`
set, until the join times out. -/
theorem worker_spins_through_join {s : Server 1 Req} (reached : s.Reachable)
    (joining : (s.sockets 0).handler = .joining) (k : Nat) :
    ∃ s', s.run (List.replicate k (.worker 0)) = some s' ∧ (s'.sockets 0).handler = .joining ∧
      (s'.sockets 0).worker ≠ .exited := by
  induction k generalizing s with
  | zero => exact ⟨s, rfl, joining, (reached.sound 0).not_exited_of_joining joining⟩
  | succ k ih =>
    obtain ⟨s₁, stepped⟩ := exists_workerStep_of_joining reached joining
    obtain ⟨s', ran, stillJoining, running⟩ :=
      ih (reached.step (show s.next (.worker 0) = some s₁ from stepped))
        ((handler_workerStep stepped).trans joining)
    exact ⟨s', by simp [List.replicate_succ, run, next, stepped, ran], stillJoining, running⟩

/-! ## A failed `send()` -/

/-- The worker of connection `c` died in `send()`, and the lock and the waiters are consistent. -/
structure Wedged (c : Fin n) (s : Server n Req) : Prop where
  consistent : s.Consistent
  failed : (s.sockets c).worker = .sendFailed

section Wedged

variable {c : Fin n} {s s' : Server n Req}

theorem Wedged.owner (wedged : Wedged c s) : s.owner = some c :=
  (wedged.consistent.holds c).mp (by simp [wedged.failed, WorkerAt.holdsLock])

/-- Only the dead worker holds the lock. -/
theorem Wedged.not_held (wedged : Wedged c s) {c' : Fin n} (other : c' ≠ c) :
    (s.sockets c').worker.holdsLock = false := by
  simpa [wedged.owner, Ne.symm other] using wedged.consistent.holds c'

/-- A change of one connection that keeps its processed requests, and the worker when it is the
dead one's, keeps the dead worker and every connection's processed requests. -/
theorem Wedged.modify (wedged : Wedged c s) {c' : Fin n}
    {f : FingerWebSocket Req → FingerWebSocket Req}
    (worker : c' = c → ∀ ws, (f ws).worker = ws.worker)
    (processed : ∀ ws, (f ws).processed = ws.processed) :
    ((s.modify c' f).sockets c).worker = .sendFailed ∧
      ∀ c'', ((s.modify c' f).sockets c'').processed = (s.sockets c'').processed :=
  ⟨by
    rw [sockets_modify]
    split
    · subst ‹c = c'›
      rw [worker rfl, wedged.failed]
    · exact wedged.failed,
    fun c'' => by rw [sockets_modify]; split <;> simp_all⟩

/-- Every event keeps the server wedged and no request is processed: no thread but the dead
worker's connection's handler and the workers still in their loop test can move. -/
theorem Wedged.next (wedged : Wedged c s) {e : Event n Req} (stepped : s.next e = some s') :
    Wedged c s' ∧ ∀ c', (s'.sockets c').processed = (s.sockets c').processed := by
  suffices (s'.sockets c).worker = .sendFailed ∧
      ∀ c', (s'.sockets c').processed = (s.sockets c').processed from
    ⟨⟨wedged.consistent.next stepped, this.1⟩, this.2⟩
  have taken : s.owner.isNone = false := by simp [wedged.owner]
  cases e with
  | worker c' =>
    by_cases same : c' = c
    · subst same
      simp [Server.next, workerStep, wedged.failed] at stepped
    -- only a worker at its loop test moves: the others hold the lock or wait for it
    have notHeld := wedged.not_held same
    cases at_ : (s.sockets c').worker <;>
      simp [Server.next, workerStep, at_, taken, WorkerAt.holdsLock] at stepped notHeld
    subst stepped
    exact wedged.modify (fun back => absurd back same) (fun _ => rfl)
  | handler c' =>
    simp only [Server.next, handlerStep, taken, Bool.false_eq_true, ↓reduceIte] at stepped
    split at stepped <;> cases stepped
    all_goals exact wedged.modify (fun _ _ => rfl) (fun _ => rfl)
  | finger c' _ | close c' | drop c' =>
    simp only [Server.next, fingerRequest, Server.close, Server.drop] at stepped
    split at stepped <;> cases stepped
    exact wedged.modify (fun _ _ => rfl) (fun _ => rfl)
  | sendFails c' =>
    simp only [Server.next, Server.sendFails] at stepped
    split at stepped <;> cases stepped
    rename_i processing _ _
    by_cases same : c' = c
    · subst same
      simp [wedged.failed] at processing
    · simpa [processing, WorkerAt.holdsLock] using wedged.not_held same

theorem Wedged.run {events : List (Event n Req)} :
    ∀ {s s' : Server n Req}, Wedged c s → s.run events = some s' →
      Wedged c s' ∧ ∀ c', (s'.sockets c').processed = (s.sockets c').processed := by
  induction events with
  | nil =>
    intro s s' wedged ran
    obtain rfl := Option.some.inj ran
    exact ⟨wedged, fun _ => rfl⟩
  | cons e events ih =>
    intro s s' wedged ran
    obtain ⟨s₁, stepped, rest⟩ := Option.bind_eq_some.mp ran
    obtain ⟨wedged₁, same₁⟩ := wedged.next stepped
    obtain ⟨wedged', same'⟩ := ih wedged₁ rest
    exact ⟨wedged', fun c' => (same' c').trans (same₁ c')⟩

end Wedged

/-- Both workers wait, worker 1 first; connection 0 gets a request, and its `notify()` wakes
worker 1, which finds nothing to do and waits again. -/
def strandingEvents (req : Req) : List (Event 2 Req) :=
  [.worker 1, .worker 1, .worker 1, .worker 0, .worker 0, .worker 0, .finger 0 req, .handler 0,
    .worker 1, .worker 1]

/-- With two connections the request of connection 0 can be stranded: its handler is between
messages, `current_req` holds the request, nothing has been processed, and no thread can take a
step until a new message or the end of a connection calls `notify()` again. -/
theorem request_stranded_with_two_connections (req : Req) :
    ∃ s : Server 2 Req, s.Reachable ∧ (s.sockets 0).handler = .idle ∧
      (s.sockets 0).currentReq = some req ∧ (s.sockets 0).processed = [] ∧
      ∀ c, s.workerStep c = none ∧ s.handlerStep c = none :=
  ⟨_, Reachable.run .init (rfl : init.run (strandingEvents req) = some _), rfl, rfl, rfl,
    Fin.forall_fin_two.mpr ⟨⟨rfl, rfl⟩, ⟨rfl, rfl⟩⟩⟩

end Server

/-! ## Runs on which the results above are used -/

/-- The server of `strandingEvents` with the request `7`. -/
def strandedServer : Server 2 Nat := (Server.init.run (Server.strandingEvents 7)).getD Server.init

theorem strandedServer_reachable : strandedServer.Reachable :=
  Server.Reachable.run .init
    (rfl : Server.init.run (Server.strandingEvents 7) = some strandedServer)

/-- Even stranded, worker 1 has not died. -/
theorem worker_never_crashes_when_stranded : (strandedServer.sockets 1).worker ≠ .crashed :=
  Server.worker_never_crashes strandedServer_reachable 1

/-- One connection: the worker waits, a request arrives and its `notify()` wakes the worker. -/
def pendingServer : Server 1 Nat :=
  (Server.init.run [.worker 0, .worker 0, .worker 0, .finger 0 7, .handler 0]).getD Server.init

/-- One connection: the worker waits, and the connection ends. -/
def closedServer : Server 1 Nat :=
  (Server.init.run [.worker 0, .worker 0, .worker 0, .close 0, .handler 0]).getD Server.init

theorem worker_exits_after_close_from_wait :
    Server.WorkerReaches 0 closedServer fun s' => (s'.sockets 0).worker = .exited :=
  Server.worker_exits_after_close
    (Server.Reachable.run .init (rfl : Server.init.run [.worker 0, .worker 0, .worker 0, .close 0,
      .handler 0] = some closedServer)) rfl

/-- One connection: the worker waits, the stream ends, and `closed()` wakes the worker and joins. -/
def droppedServer : Server 1 Nat :=
  (Server.init.run [.worker 0, .worker 0, .worker 0, .drop 0, .handler 0, .handler 0]).getD
    Server.init

theorem droppedServer_reachable : droppedServer.Reachable :=
  Server.Reachable.run .init (rfl : Server.init.run [.worker 0, .worker 0, .worker 0, .drop 0,
    .handler 0, .handler 0] = some droppedServer)

theorem worker_spins_through_join_five_steps :
    ∃ s', droppedServer.run (List.replicate 5 (.worker 0)) = some s' ∧
      (s'.sockets 0).handler = .joining ∧ (s'.sockets 0).worker ≠ .exited :=
  Server.worker_spins_through_join droppedServer_reachable rfl 5

/-- Two connections: connection 0's worker runs `finger_process` on a request, the stream ends,
and `send()` raises. -/
def wedgedServer : Server 2 Nat :=
  (Server.init.run [.worker 0, .worker 0, .worker 0, .finger 0 7, .handler 0, .worker 0,
    .worker 0, .drop 0, .sendFails 0]).getD Server.init

end Server

end CrosPlatform.Biod
