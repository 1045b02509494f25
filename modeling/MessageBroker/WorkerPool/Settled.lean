import MessageBroker.WorkerPool.Basic

/-!
# A pool that has come to rest

One schedule of the pool: calls come one at a time, each is answered before a worker acts, and then
the workers act, the oldest first, until none of them can go on without something from outside. A
task that waits for its release keeps its worker busy until then. The schedule is one of those that
`WorkerPool.run` allows, and the one that can be told in advance.
-/

namespace MessageBroker.WorkerPool

/-- What a task does when it runs. -/
inductive Job
  | finish (how : TaskEnd)
  /-- It waits for its release and returns. -/
  | wait
deriving DecidableEq, Repr

/-- A pool at rest, with the tasks it was given. -/
structure Settled where
  pool : WorkerPool
  jobs : Table TaskId Job := ∅
  /-- Tasks that need not wait any more. -/
  released : Table TaskId Unit := ∅
  /-- How many calls there have been. -/
  calls : Nat := 0

namespace Settled

/-- A pool that has just been made. -/
def new (limit : Nat) : Settled := { pool := { limit } }

/-- How a running task ends, if nothing keeps it. -/
def ending? (s : Settled) (task : TaskId) : Option TaskEnd :=
  match s.jobs.get? task with
  | some (.finish how) => some how
  | some .wait => if task ∈ s.released then some .returned else none
  | none => none

/-- What happens to a worker next, if it needs nothing from outside. -/
def nextEvent? (s : Settled) : Worker → Option WorkerEvent
  | .receiving =>
    if !s.pool.queue.isEmpty then some .proceed
    else if s.pool.stopped then some (.timeOut false)
    else none
  | .running task => (s.ending? task).map .finish
  | _ => some .proceed

/-- The action of the oldest worker that can act. -/
def nextAction? (s : Settled) : Option Event :=
  s.pool.workers.entries.findSome? fun e => (s.nextEvent? e.2).map (.work e.1)

/-- Takes an action; nothing changes if it cannot be. -/
def act (s : Settled) (e : Event) : Settled := { s with pool := (s.pool.step e).getD s.pool }

/-- Lets the workers act, at most so often. -/
def workFor : Nat → Settled → Settled
  | 0, s => s
  | n + 1, s =>
    match s.nextAction? with
    | none => s
    | some e => workFor n (s.act e)

/-- How often the workers can act before they rest: a task takes a worker round once, and a worker
that goes has no more to do than that. -/
def patience (s : Settled) : Nat := 8 * (s.pool.queue.length + s.pool.live)

/-- Lets the workers act until they rest. -/
def rest (s : Settled) : Settled := s.workFor s.patience

/-- The answer of a submitting call. -/
def answer? (s : Settled) (call : CallId) : Option (Except PoolError Unit) :=
  match s.pool.submissions.get? call with
  | some (.answered result) => some result
  | _ => none

/-- The longest way of a submitting call to its answer. -/
def submissionSteps : Nat := 4

/-- Submits a task and lets the workers act. -/
def submit (s : Settled) (task : TaskId) (job : Job) : Except PoolError Unit × Settled :=
  let call := s.calls
  let s := { s with
    jobs := s.jobs.insert task job
    released := s.released.erase task
    calls := call + 1 }
  let steps := Event.submit call task :: List.replicate submissionSteps (.proceed call)
  let s := steps.foldl act s
  ((s.answer? call).getD (.ok ()), s.rest)

/-- Lets a task go on that was submitted. -/
def release (s : Settled) (task : TaskId) : Settled :=
  if task ∈ s.jobs then { s with released := s.released.insert task () }.rest else s

/-- Time passes until no worker is idle any more. -/
def evict (s : Settled) : Settled :=
  let idle := s.pool.workers.keys.filter fun id => s.pool.workers.get? id == some .receiving
  idle.foldl (fun s id => (s.act (.work id (.timeOut true))).act (.work id .proceed)) s

/-- Tasks that are running, by number. -/
def runningTasks (s : Settled) : List TaskId :=
  let tasks := s.pool.workers.values.filterMap fun w => match w with
    | .running task => some task
    | _ => none
  tasks.mergeSort fun a b => decide (a ≤ b)

/-- Stops the pool, while the tasks that are running are released in the order of their numbers. -/
def stop (s : Settled) : Settled :=
  let call := s.calls
  let s := { s with calls := call + 1 }.act (.stop call none)
  let s := s.runningTasks.foldl release s.rest
  (List.replicate (s.pool.queue.length + 2) (Event.proceedStop call)).foldl act s

end Settled

end MessageBroker.WorkerPool
