import PromqlAssist.Server.Backend

/-!
# Letting time pass

On a clock that is moved by hand, the sleeping tasks run at the millisecond at which they are due,
the earlier ones first, and of two that are due together the one that fell asleep first.
-/

namespace PromqlAssist.Backend

/-- The place of the task that runs next, if one is due by `time`. -/
def nextDue? (time : Nat) (tasks : List SleepingTask) : Option (Nat × SleepingTask) :=
  tasks.zipIdx.foldl (fun best (task, place) =>
    if time < task.due then best
    else
      match best with
      | some (_, b) => if task.due < b.due then some (place, task) else best
      | none => some (place, task)) none

/-- How often the tasks can still be woken. -/
def wakeBudget : List SleepingTask → Nat
  | [] => 0
  | task :: tasks =>
    let wakes := match task.stage with
      | .validation _ => 2
      | .projection _ _ => 1
    wakes + wakeBudget tasks

/-- Runs due tasks, at most `budget` of them, until `time`. Each publication comes with its time. -/
def advanceWithin (now time : Nat) : Nat → Backend → List (Nat × Publication) × Backend
  | 0, b => ([], b)
  | budget + 1, b =>
    match nextDue? time b.tasks with
    | none => ([], b)
    | some (place, task) =>
      let now := max now task.due
      let (p?, b) := b.wake now place
      let (later, b) := advanceWithin now time budget b
      ((p?.map fun p => (now, p)).toList ++ later, b)

/-- Moves the clock from `now` to `time` and runs what is due on the way. -/
def advance (b : Backend) (now time : Nat) : List (Nat × Publication) × Backend :=
  advanceWithin now time (wakeBudget b.tasks) b

end PromqlAssist.Backend
