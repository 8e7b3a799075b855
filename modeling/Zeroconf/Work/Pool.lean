import Zeroconf.Metric
import Zeroconf.Settings

/-!
This module contains pools of workers. A task goes into a bounded queue; if that is full the pool
grows, and if it cannot grow the task is refused or gets a worker of its own. Submission consists of
two separate steps, between which others may use the pool.
-/

namespace Zeroconf.Work

structure Pool (τ : Type) where
  name : String
  settings : PoolSettings
  /-- Whether the pool takes tasks. -/
  accepting : Bool := true
  /-- The tasks that wait, the next one in front. -/
  queue : List τ := []
  /-- How many workers have nothing to do. -/
  idle : Nat
  /-- The tasks that workers of the pool carry out. -/
  running : List τ := []
  /-- The tasks that have workers of their own. -/
  unpooled : List τ := []
  /-- The tasks that have been carried out, the latest one last. -/
  finished : List τ := []
  deriving Repr

namespace Pool

variable {τ : Type}

def start (name : String) (settings : PoolSettings) : Pool τ :=
  { name, settings, idle := settings.coreThreads }

def threads (pool : Pool τ) : Nat := pool.idle + pool.running.length

def isOperational (pool : Pool τ) : Bool := pool.accepting && pool.threads > 0

inductive Offer (τ : Type) where
  | taken (pool : Pool τ)
  /-- The pool takes no tasks any more. -/
  | refused
  | full

/--
Offer a task to the queue. A queue without room for a task still hands it to an idle worker.
-/
def offer (pool : Pool τ) (task : τ) : Offer τ :=
  if !pool.accepting then
    .refused
  else if pool.settings.queueDepth == 0 then
    match pool.idle with
    | 0 => .full
    | idle + 1 => .taken { pool with idle, running := pool.running ++ [task] }
  else if pool.queue.length < pool.settings.queueDepth then
    .taken { pool with queue := pool.queue ++ [task] }
  else
    .full

/--
Find a place for a task that met a full queue: a new worker if there may be one more.
-/
def place (pool : Pool τ) (task : τ) : Except Error Unit × Pool τ × List Sample :=
  if pool.threads < pool.settings.maxThreads then
    (.ok (), { pool with running := pool.running ++ [task] }, [])
  else
    match pool.settings.overflow with
    | .reject => (.error (.rejected pool.name), pool, [Sample.rejectedTask pool.name])
    | .runUnpooled => (.ok (), { pool with unpooled := pool.unpooled ++ [task] }, [])

/--
Submit a task while nobody else uses the pool.
-/
def submit (pool : Pool τ) (task : τ) : Except Error Unit × Pool τ × List Sample :=
  match pool.offer task with
  | .taken pool => (.ok (), pool, [])
  | .refused => (.error (.rejected pool.name), pool, [])
  | .full => pool.place task

def take (pool : Pool τ) : Pool τ :=
  match pool.idle, pool.queue with
  | idle + 1, task :: queue => { pool with idle, queue, running := pool.running ++ [task] }
  | _, _ => pool

/--
A task has been carried out, or it has failed; its worker is idle then or, if it was of the task's
own, gone.
-/
def finish [BEq τ] (pool : Pool τ) (task : τ) : Pool τ :=
  if pool.running.contains task then
    { pool with
      idle := pool.idle + 1
      running := pool.running.erase task
      finished := pool.finished ++ [task] }
  else if pool.unpooled.contains task then
    { pool with unpooled := pool.unpooled.erase task, finished := pool.finished ++ [task] }
  else
    pool

/--
A worker that has been idle for long leaves, unless it belongs to the core.
-/
def retire (pool : Pool τ) : Pool τ :=
  if pool.idle > 0 && pool.threads > pool.settings.coreThreads then
    { pool with idle := pool.idle - 1 }
  else
    pool

/--
An idle worker leaves because there will be nothing to do any more.
-/
def leave (pool : Pool τ) : Pool τ :=
  if !pool.accepting && pool.queue.isEmpty && pool.idle > 0 then
    { pool with idle := pool.idle - 1 }
  else
    pool

/--
Take no more tasks. Those in the queue are still carried out.
-/
def shutdown (pool : Pool τ) : Pool τ := { pool with accepting := false }

def times (step : Pool τ → Pool τ) : Nat → Pool τ → Pool τ
  | 0, pool => pool
  | n + 1, pool => times step n (step pool)

def settle (pool : Pool τ) : Pool τ :=
  let pool := times take pool.queue.length pool
  times leave pool.idle pool

/--
Let all workers do what they can, where the tasks that satisfy `isDone` come to their end as soon as
they have started.
-/
def work [BEq τ] (isDone : τ → Bool) (pool : Pool τ) : Pool τ :=
  go (pool.queue.length + pool.running.length + pool.unpooled.length) pool.settle
where
  go : Nat → Pool τ → Pool τ
    | 0, pool => pool
    | fuel + 1, pool =>
      match (pool.running ++ pool.unpooled).find? isDone with
      | some task => go fuel (pool.finish task).settle
      | none => pool

def describe (pool : Pool τ) : String :=
  s!"WorkerPool \x7b name: \"{pool.name}\", threads: {pool.threads}, " ++
    s!"queued: {pool.queue.length} \x7d"

end Pool

end Zeroconf.Work
