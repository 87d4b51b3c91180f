import SqlUnits.Database.Table
/-!
What runs: the evaluation of an expression, and the run of a statement as a finite stream of rows.
Both remember the calls of registered functions, a stream where in it each one happened.
-/

namespace SqlUnits

/-- A call of a registered function. -/
structure FunctionCall where
  name : String
  args : List Stored
deriving DecidableEq

/-- An evaluation: a value or the message of a failure, after the calls made so far. -/
abbrev Eval := ExceptT String (StateM (List FunctionCall))

namespace Eval

def called (call : FunctionCall) : Eval Unit :=
  modify (· ++ [call])

def fail (message : String) : Eval α :=
  throw message

/-- The outcome of an evaluation, and the calls it made. -/
def outcome (e : Eval α) : Except String α × List FunctionCall :=
  (e.run.run [])

end Eval

inductive Event (α : Type) where
  | called (call : FunctionCall)
  | item (a : α)
deriving DecidableEq

/-- Events in order, and the message of the failure that ended them, if one did. -/
structure Run (α : Type) where
  events : List (Event α) := []
  failure : Option String := none

namespace Run

def empty : Run α := {}

def ofList (items : List α) : Run α :=
  { events := items.map .item }

def failed (message : String) : Run α :=
  { failure := some message }

/-- What one run does and then, unless it failed, another one. -/
def append (a b : Run α) : Run α :=
  match a.failure with
  | some _ => a
  | none => ⟨a.events ++ b.events, b.failure⟩

def ofEval (e : Eval α) : Run α :=
  let (result, calls) := e.outcome
  let calls := calls.map Event.called
  match result with
  | .ok a => ⟨calls ++ [.item a], none⟩
  | .error m => ⟨calls, some m⟩

def bindEvents (f : α → Run β) (failure : Option String) : List (Event α) → Run β
  | [] => ⟨[], failure⟩
  | .called c :: rest => append ⟨[.called c], none⟩ (bindEvents f failure rest)
  | .item a :: rest => append (f a) (bindEvents f failure rest)

/-- The run of what each item stands for, in its place. -/
def bind (run : Run α) (f : α → Run β) : Run β :=
  bindEvents f run.failure run.events

def mapEval (run : Run α) (f : α → Eval β) : Run β :=
  run.bind fun a => ofEval (f a)

/-- Keeps the items that satisfy a test. -/
def filterEval (run : Run α) (test : α → Eval Bool) : Run α :=
  run.bind fun a =>
    (ofEval (test a)).bind fun keep => if keep then ofList [a] else empty

def Event.item? : Event α → Option α
  | .item a => some a
  | .called _ => none

def Event.call? : Event α → Option FunctionCall
  | .item _ => none
  | .called c => some c

def items (run : Run α) : List α :=
  run.events.filterMap Event.item?

def calls (run : Run α) : List FunctionCall :=
  run.events.filterMap Event.call?

/-- All items as one value. -/
def all (run : Run α) : Eval (List α) := do
  run.calls.forM Eval.called
  match run.failure with
  | some m => Eval.fail m
  | none => pure run.items

def callsBefore : List (Event α) → List FunctionCall
  | .called c :: rest => c :: callsBefore rest
  | _ => []

def afterCalls : List (Event α) → List (Event α)
  | .called _ :: rest => afterCalls rest
  | events => events

/-- The first item, if there is one; what follows it does not happen. -/
def first? (run : Run α) : Eval (Option α) := do
  (callsBefore run.events).forM Eval.called
  match afterCalls run.events with
  | .item a :: _ => pure (some a)
  | _ =>
      match run.failure with
      | some m => Eval.fail m
      | none => pure none

/-- A run that begins once the items of another one are all there. -/
def gather (run : Run α) (f : List α → Run β) : Run β :=
  (ofEval run.all).bind f

def dropItems : Nat → List (Event α) → List (Event α)
  | 0, events => events
  | _ + 1, [] => []
  | n + 1, .called c :: rest => .called c :: dropItems (n + 1) rest
  | n + 1, .item _ :: rest => dropItems n rest

/-- The run without its first items. -/
def drop (run : Run α) (n : Nat) : Run α :=
  { run with events := dropItems n run.events }

def takeItems : Nat → List (Event α) → List (Event α) × Bool
  | 0, _ => ([], true)
  | _ + 1, [] => ([], false)
  | n + 1, .called c :: rest =>
      let (kept, cut) := takeItems (n + 1) rest
      (.called c :: kept, cut)
  | n + 1, .item a :: rest =>
      let (kept, cut) := takeItems n rest
      (.item a :: kept, cut)

/-- The run as far as so many items. -/
def take (run : Run α) (n : Nat) : Run α :=
  let (kept, cut) := takeItems n run.events
  ⟨kept, if cut then none else run.failure⟩

end Run

end SqlUnits
