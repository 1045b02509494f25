import MessageBroker.Error
import MessageBroker.Table

/-!
# The worker pool

Tasks wait in one queue and are taken first come first served. A worker is started when more tasks
wait than workers are idle and there is room for one more; a worker that stays idle for too long
goes. Stopping the pool turns new tasks away, lets running ones end and drops those that wait.

Those who submit tasks, the workers and those who stop the pool act side by side. `step` is one
action that nothing interrupts: taking one task off the queue, putting one in, or one look at the
pool under its lock. A schedule of such actions is a list of `Event`s.

Model of `WorkerPool` (specification §4.2): `execute` with `ensure_worker` (`Submission`), the loop
`run` of a worker (`Worker`) and `stop` (`Stopping`). Each of their states stands between two reads
or writes of what the threads share: the queue, the counters and the flag. The counters are read off
the table of workers (`live`, `idle`).

Out of scope: what tasks do, except that they return or panic; time, so the end of a wait in vain is
an event; a thread that cannot be started; and the manager that joins workers which have gone
(`reap`), as nothing else depends on it.

Headline:
* **`run_append`**: schedules run one after the other.
-/

namespace MessageBroker

/-- The number of a task. -/
abbrev TaskId := Nat

/-- How a task ends. -/
inductive TaskEnd
  | returned
  | panicked
deriving DecidableEq, Repr

namespace WorkerPool

/-- The number of a worker. -/
abbrev WorkerId := Nat

/-- The number of a call that submits a task or stops the pool. -/
abbrev CallId := Nat

/-- How far a call that submits a task has come. -/
inductive Submission
  /-- It has not looked yet whether the pool is stopped. -/
  | entering (task : TaskId)
  /-- It found the pool open; its task is not in the queue yet. -/
  | sending (task : TaskId)
  /-- Its task is in the queue; it has not looked yet whether a worker is missing. -/
  | checking
  /-- No worker was idle, and it gives those that are busy a moment. -/
  | waiting
  | answered (result : Except PoolError Unit)
deriving Repr

/-- How far a call that stops the pool has come. -/
inductive Stopping
  /-- It waits for the workers to go, but not for the one whose task it is made from, if any. -/
  | joining (within : Option WorkerId)
  /-- It drops the tasks that wait, one by one. -/
  | draining
  | returned
deriving DecidableEq, Repr

/-- What a worker is about. -/
inductive Worker
  /-- It looks whether the pool is stopped. -/
  | looking
  /-- It waits for a task. -/
  | receiving
  /-- It took a task off the queue and still counts as idle. -/
  | received (task : TaskId)
  /-- It counts as busy and has not looked yet whether the pool is stopped. -/
  | holding (task : TaskId)
  | running (task : TaskId)
  /-- Its task has ended and it still counts as busy. -/
  | finished
  /-- It dropped its task because the pool is stopped and still counts as busy. -/
  | refusing
  /-- It has been idle for too long. -/
  | expired
  /-- It goes because the pool is stopped. -/
  | leaving
deriving DecidableEq, Repr

/-- Whether a worker counts as idle; one does from the moment it is started, so that a burst of
tasks does not start one worker each. -/
def Worker.isIdle : Worker → Bool
  | holding _ | running _ | finished | refusing => false
  | _ => true

/-- What happens to a worker. -/
inductive WorkerEvent
  /-- It goes on with the next thing. -/
  | proceed
  /-- It has waited for a task in vain, and perhaps for so long that it may go. -/
  | timeOut (tooLong : Bool)
  /-- Its task ends. -/
  | finish (how : TaskEnd)
deriving DecidableEq, Repr

/-- One action of somebody. -/
inductive Event
  /-- A call begins that submits a task. -/
  | submit (call : CallId) (task : TaskId)
  /-- A call that submits a task goes on. -/
  | proceed (call : CallId)
  /-- A call begins that stops the pool, from outside or from the task that a worker runs. -/
  | stop (call : CallId) (within : Option WorkerId)
  /-- A call that stops the pool goes on. -/
  | proceedStop (call : CallId)
  | work (worker : WorkerId) (event : WorkerEvent)
deriving DecidableEq, Repr

end WorkerPool

open WorkerPool

/-- A worker pool. -/
structure WorkerPool where
  /-- How many workers there may be; zero sets no limit. -/
  limit : Nat
  /-- Tasks that wait, first come first. -/
  queue : List TaskId := []
  stopped : Bool := false
  /-- Workers that have been started and have not gone. -/
  workers : Table WorkerId Worker := ∅
  nextWorker : WorkerId := 0
  submissions : Table CallId Submission := ∅
  stoppings : Table CallId Stopping := ∅
  /-- Tasks that began to run, in order. -/
  started : List TaskId := []
  /-- Tasks that ended, in order, and how. -/
  ended : List (TaskId × TaskEnd) := []
  /-- Tasks that were in the queue and will never run. -/
  dropped : List TaskId := []

namespace WorkerPool

/-- How many workers there are. -/
def live (p : WorkerPool) : Nat := p.workers.size

/-- How many workers count as idle. -/
def idle (p : WorkerPool) : Nat := p.workers.values.countP Worker.isIdle

/-- Whether more tasks wait than workers are idle. -/
def isShort (p : WorkerPool) : Bool := decide (p.idle < p.queue.length)

/-- Whether one more worker may be started. -/
def hasRoom (p : WorkerPool) : Bool := p.limit == 0 || decide (p.live < p.limit)

def startWorker (p : WorkerPool) : WorkerPool :=
  { p with
    workers := p.workers.insert p.nextWorker .looking
    nextWorker := p.nextWorker + 1 }

/-- Moves a submitting call on. -/
def putSubmission (p : WorkerPool) (call : CallId) (s : Submission) : WorkerPool :=
  { p with submissions := p.submissions.insert call s }

/-- Moves a worker on. -/
def putWorker (p : WorkerPool) (id : WorkerId) (w : Worker) : WorkerPool :=
  { p with workers := p.workers.insert id w }

/-- The worker goes. -/
def removeWorker (p : WorkerPool) (id : WorkerId) : WorkerPool :=
  { p with workers := p.workers.erase id }

/-- The last look of a call whose task is in the queue: it starts a worker if one is missing and
there is room. -/
def supply (p : WorkerPool) (call : CallId) : WorkerPool :=
  if p.stopped then p.putSubmission call (.answered (.error .stopped))
  else if p.isShort && p.hasRoom then p.startWorker.putSubmission call (.answered (.ok ()))
  else p.putSubmission call (.answered (.ok ()))

/-- A submitting call goes on. -/
def stepSubmission (p : WorkerPool) (call : CallId) : Submission → Option WorkerPool
  | .entering task =>
    if p.stopped then some (p.putSubmission call (.answered (.error .stopped)))
    else some (p.putSubmission call (.sending task))
  | .sending task => some ({ p with queue := p.queue ++ [task] }.putSubmission call .checking)
  | .checking =>
    if !p.stopped && p.isShort && p.live != 0 then some (p.putSubmission call .waiting)
    else some (p.supply call)
  | .waiting => some (p.supply call)
  | .answered _ => none

/-- Whether the pool can be stopped from there: from outside, or from a task that is running. -/
def canStop (p : WorkerPool) : Option WorkerId → Bool
  | none => true
  | some id =>
    match p.workers.get? id with
    | some (.running _) => true
    | _ => false

/-- Whether every worker has gone but the one given. -/
def isLeft (p : WorkerPool) (within : Option WorkerId) : Bool :=
  p.workers.keys.all fun id => within == some id

/-- A stopping call goes on. -/
def stepStopping (p : WorkerPool) (call : CallId) : Stopping → Option WorkerPool
  | .joining within =>
    if p.isLeft within then some { p with stoppings := p.stoppings.insert call .draining } else none
  | .draining =>
    match p.queue with
    | [] => some { p with stoppings := p.stoppings.insert call .returned }
    | task :: rest => some { p with queue := rest, dropped := p.dropped ++ [task] }
  | .returned => none

/-- A worker goes on; nothing is done if what happens does not fit what it is about. -/
def stepWorker (p : WorkerPool) (id : WorkerId) : Worker → WorkerEvent → Option WorkerPool
  | .looking, .proceed => some (p.putWorker id (if p.stopped then .leaving else .receiving))
  | .receiving, .proceed =>
    match p.queue with
    | [] => none
    | task :: rest => some ({ p with queue := rest }.putWorker id (.received task))
  | .receiving, .timeOut tooLong =>
    if p.queue.isEmpty then some (p.putWorker id (if tooLong then .expired else .looking))
    else none
  | .received task, .proceed => some (p.putWorker id (.holding task))
  | .holding task, .proceed =>
    if p.stopped then some ({ p with dropped := p.dropped ++ [task] }.putWorker id .refusing)
    else some ({ p with started := p.started ++ [task] }.putWorker id (.running task))
  | .running task, .finish how =>
    some ({ p with ended := p.ended ++ [(task, how)] }.putWorker id .finished)
  | .finished, .proceed => some (p.putWorker id .looking)
  | .refusing, .proceed => some (p.putWorker id .leaving)
  | .expired, .proceed =>
    if p.queue.isEmpty then some (p.removeWorker id) else some (p.putWorker id .looking)
  | .leaving, .proceed => some (p.removeWorker id)
  | _, _ => none

/-- One action; none if nobody can act like that now. -/
def step (p : WorkerPool) : Event → Option WorkerPool
  | .submit call task =>
    if call ∈ p.submissions then none else some (p.putSubmission call (.entering task))
  | .proceed call => (p.submissions.get? call).bind (p.stepSubmission call)
  | .stop call within =>
    if call ∈ p.stoppings || !p.canStop within then none
    else
      some { p with
        stopped := true
        stoppings := p.stoppings.insert call (if p.stopped then .returned else .joining within) }
  | .proceedStop call => (p.stoppings.get? call).bind (p.stepStopping call)
  | .work id event => (p.workers.get? id).bind fun w => p.stepWorker id w event

/-- The actions of a schedule in turn; none if one of them cannot be. -/
def run (p : WorkerPool) : List Event → Option WorkerPool
  | [] => some p
  | e :: es => (p.step e).bind fun p => p.run es

/-- **Schedules run one after the other.** -/
theorem run_append (p : WorkerPool) (es fs : List Event) :
    p.run (es ++ fs) = (p.run es).bind fun p => p.run fs := by
  induction es generalizing p with
  | nil => rfl
  | cons e es ih =>
    simp only [List.cons_append, run]
    cases p.step e with
    | none => rfl
    | some q => exact ih q

end WorkerPool

end MessageBroker
