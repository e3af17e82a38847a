import SourceLinks.Task

namespace SourceLinks

/-- How far the task of a view has come. -/
inductive TaskState (ε : Type) where
  | running
  /-- Its work is done and the final check is still to come. -/
  | computed (result : Except (TaskError ε) View)
  /-- The final check found the view open. -/
  | cleared (view : View)
  /-- Nothing is left to do; a view closed in time has no result. -/
  | settled (result : Except (TaskError ε) (Option View))

/-- A view that a client opened. -/
structure Handle (ε : Type) where
  request : Request
  /-- Under which name the client is told of the result. -/
  client : String
  transform : String → List UInt8 → Except ε (Option RawText)
  closed : Bool := false
  task : TaskState ε := .running

/-- The views of a corpus. Handles are numbered in the order of their creation; `registered` holds
the open one of each key. -/
structure Service (ε : Type) where
  corpus : Corpus
  config : Config
  parse : Document → Node
  handles : List (Handle ε) := []
  registered : List (ViewKey × Nat) := []
  stopped : Bool := false
  delivered : List (String × Nat) := []

/-- No task can be started any more. -/
structure ServiceStopped where
deriving Repr, DecidableEq

def ServiceStopped.message (_ : ServiceStopped) : String :=
  "cannot schedule new futures after shutdown"

/-- A service needs at least one worker. -/
structure NoWorkers where
deriving Repr, DecidableEq

def NoWorkers.message (_ : NoWorkers) : String :=
  "max_workers must be greater than 0"

namespace Service
variable {ε : Type}

/-- A service without views. -/
def start (corpus : Corpus) (config : Config) (parse : Document → Node) :
    Except NoWorkers (Service ε) :=
  if config.workers ≤ 0 then .error ⟨⟩ else .ok { corpus, config, parse }

def isOpen (s : Service ε) (key : ViewKey) : Bool :=
  (s.registered.lookup key).isSome

/-- A request whose view is open gets that view's handle. -/
def openView (s : Service ε) (h : Handle ε) : Except ServiceStopped (Nat × Service ε) :=
  match s.registered.lookup h.request.key with
  | some i => .ok (i, s)
  | none =>
    if s.stopped then .error ⟨⟩
    else
      let i := s.handles.length
      .ok (i, { s with
        handles := s.handles ++ [h], registered := s.registered ++ [(h.request.key, i)] })

def update (s : Service ε) (i : Nat) (f : Handle ε → Handle ε) : Service ε :=
  { s with handles := s.handles.modify i f }

/-- Tells the task of a view that nobody waits for it. -/
def cancel (s : Service ε) (i : Nat) : Service ε :=
  s.update i fun h => { h with closed := true }

/-- Takes a view from the open ones, unless a newer one of its key took its place. -/
def forget (s : Service ε) (i : Nat) : Service ε :=
  { s with registered := s.registered.filter fun r => r.2 != i }

def close (s : Service ε) (i : Nat) : Service ε :=
  (s.cancel i).forget i

/-- The task of a view does its work, with these answers to its cancellation checks; the corpus keeps
what it had to read. -/
def finish (s : Service ε) (i : Nat) (cancelled : Nat → Bool) : Service ε :=
  match s.handles[i]? with
  | some h =>
    match h.task with
    | .running =>
      let w : Workshop ε := { transform := h.transform, parse := s.parse, cancelled }
      let ((result, _), corpus, _) := (h.request.run s.corpus s.config w).run s.corpus
      { s with corpus }.update i fun h => { h with task := .computed result }
    | _ => s
  | none => s

/-- The work of a task during which nobody closes its view. -/
def compute (s : Service ε) (i : Nat) : Service ε :=
  s.finish i fun _ => (s.handles[i]?).any Handle.closed

/-- The final check: the result of a closed view is dropped, an error is not. -/
def check (s : Service ε) (i : Nat) : Service ε :=
  s.update i fun h =>
    match h.task with
    | .computed (.error e) => { h with task := .settled (.error e) }
    | .computed (.ok view) =>
      if h.closed then { h with task := .settled (.ok none) } else { h with task := .cleared view }
    | _ => h

/-- A view that passed the check is delivered to its client. -/
def deliver (s : Service ε) (i : Nat) : Service ε :=
  match s.handles[i]? with
  | some h =>
    match h.task with
    | .cleared view =>
      { s with delivered := s.delivered ++ [(h.client, view.links.length)] }.update i
        fun h => { h with task := .settled (.ok (some view)) }
    | _ => s
  | none => s

/-- Runs a task to its end. -/
def runTask (s : Service ε) (i : Nat) : Service ε :=
  ((s.compute i).check i).deliver i

def Handle.isRunning (h : Handle ε) : Bool :=
  match h.task with
  | .running => true
  | _ => false

/-- The tasks that have a worker: as many of the unfinished ones as there are workers, the oldest
first. -/
def active (s : Service ε) : List Nat :=
  ((List.range s.handles.length).filter fun i => (s.handles[i]?).any Handle.isRunning).take
    s.config.workers.toNat

/-- Runs tasks that have a worker and need not wait, until there is none. -/
def advance (ready : Handle ε → Bool) : (bound : Nat) → Service ε → Service ε
  | 0, s => s
  | bound + 1, s =>
    match s.active.find? fun i => (s.handles[i]?).any ready with
    | some i => advance ready bound (s.runTask i)
    | none => s

/-- Runs every task that can run now. -/
def settle (s : Service ε) (ready : Handle ε → Bool) : Service ε :=
  advance ready s.handles.length s

def result? (s : Service ε) (i : Nat) : Option (Except (TaskError ε) (Option View)) :=
  match (s.handles[i]?).map Handle.task with
  | some (.settled result) => some result
  | _ => none

end Service
end SourceLinks
