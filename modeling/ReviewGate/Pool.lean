/-! A pool of workers. Tasks wait in a row, and a worker that is free takes the first of them. Which of the
busy workers is done next is open, but results are handed out in the order of their tasks. -/
namespace ReviewGate

/-- A pool at work: the tasks that wait, those that workers are busy with, and the results so far, each with
the place of its task in the row. -/
structure Pool (α β : Type) where
  waiting : List (α × Nat)
  busy : List (α × Nat)
  results : List (β × Nat)

namespace Pool

/-- What happens next in a pool: a free worker takes a task, or one of the busy workers is done. -/
inductive Event where
  | taken
  | done (worker : Nat)

variable {α β : Type}

def start (tasks : List α) : Pool α β := ⟨tasks.zipIdx, [], []⟩

/-- The result of a task, which keeps its place. -/
def outcome (work : α → β) (task : α × Nat) : β × Nat :=
  (work task.1, task.2)

/-- A pool after something has happened. What cannot happen, because all workers are busy or nobody is,
changes nothing. -/
def after (workers : Nat) (work : α → β) (p : Pool α β) : Event → Pool α β
  | .taken =>
    match p.waiting with
    | [] => p
    | task :: more =>
      if p.busy.length < workers then ⟨more, p.busy ++ [task], p.results⟩ else p
  | .done worker =>
    match p.busy[worker]? with
    | none => p
    | some task => ⟨p.waiting, p.busy.eraseIdx worker, p.results ++ [outcome work task]⟩

/-- All results, once the tasks that are left are done as well. -/
def allResults (work : α → β) (p : Pool α β) : List (β × Nat) :=
  p.results ++ (p.busy ++ p.waiting).map (outcome work)

/-- Results in the order of their places, of which there are so many. -/
def inOrder (places : Nat) (results : List (β × Nat)) : List β :=
  (List.range places).filterMap fun place => (results.find? fun r => r.2 == place).map Prod.fst

/-- The results of tasks that are shared out among workers, where first the given events happen. -/
def share (workers : Nat) (events : List Event) (work : α → β) (tasks : List α) : List β :=
  inOrder tasks.length ((events.foldl (after workers work) (start tasks)).allResults work)

end Pool

end ReviewGate
