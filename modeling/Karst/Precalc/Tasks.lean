
namespace Karst

structure TaskStats where
  submitted : Nat := 0
  dropped : Nat := 0
  completed : Nat := 0
  panicked : Nat := 0
  pending : Nat := 0
deriving DecidableEq, Repr

structure TaskPool (J : Type) where
  workers : Nat
  capacity : Nat
  queue : List J := []
  running : List J := []
  submitted : Nat := 0
  dropped : Nat := 0
  completed : Nat := 0
  panicked : Nat := 0
  pending : Nat := 0

namespace TaskPool

variable {J : Type}

/-- The queue holds at least one job. -/
def ofWorkers (workers queueCapacity : Nat) : TaskPool J :=
  { workers, capacity := max queueCapacity 1 }

def disabled : TaskPool J := ofWorkers 0 1

def isIdle (pool : TaskPool J) : Bool := pool.pending == 0

/-- Queues a job, and answers whether it was accepted. The job is pending before it is queued, and
no longer if the queue turns it away. -/
def submit (pool : TaskPool J) (job : J) : Bool × TaskPool J :=
  let pool := { pool with submitted := pool.submitted + 1 }
  if pool.workers = 0 then (false, { pool with dropped := pool.dropped + 1 })
  else
    let pool := { pool with pending := pool.pending + 1 }
    if pool.queue.length < pool.capacity then (true, { pool with queue := pool.queue ++ [job] })
    else (false, { pool with pending := pool.pending - 1, dropped := pool.dropped + 1 })

def start? (pool : TaskPool J) : Option (J × TaskPool J) :=
  match pool.queue with
  | job :: queue =>
      if pool.running.length < pool.workers then
        some (job, { pool with queue, running := pool.running ++ [job] })
      else none
  | [] => none

def finish (pool : TaskPool J) (place : Nat) (panics : Bool) : TaskPool J :=
  if place < pool.running.length then
    { pool with
      running := pool.running.eraseIdx place
      completed := if panics then pool.completed else pool.completed + 1
      panicked := if panics then pool.panicked + 1 else pool.panicked
      pending := pool.pending - 1 }
  else pool

inductive Outcome where
  | completes
  | panics
  | holds
deriving DecidableEq, Repr

def finishLast (pool : TaskPool J) : Outcome → TaskPool J
  | .completes => pool.finish (pool.running.length - 1) false
  | .panics => pool.finish (pool.running.length - 1) true
  | .holds => pool

def settleUpTo (outcome : J → Outcome) : Nat → TaskPool J → TaskPool J
  | 0, pool => pool
  | count + 1, pool =>
      match pool.start? with
      | some (job, pool) => settleUpTo outcome count (pool.finishLast (outcome job))
      | none => pool

def settle (outcome : J → Outcome) (pool : TaskPool J) : TaskPool J :=
  pool.settleUpTo outcome pool.queue.length

/-- Ends every running job as `panics` says, and then runs every queued one to its end. -/
def release (panics : J → Bool) (pool : TaskPool J) : TaskPool J :=
  let pool := pool.running.foldl (fun pool job => pool.finish 0 (panics job)) pool
  pool.settle fun job => if panics job then .panics else .completes

def stats (pool : TaskPool J) : TaskStats :=
  ⟨pool.submitted, pool.dropped, pool.completed, pool.panicked, pool.pending⟩

end TaskPool

end Karst
