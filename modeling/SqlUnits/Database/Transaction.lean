import SqlUnits.Database.Table
/-!
Transactions. Every open one, outermost last, keeps the contents that it began with; to roll one
back is to put those contents in place again.
-/

namespace SqlUnits

/-- Where a transaction began: with a name if it is a savepoint. -/
structure Mark where
  name : Option String
  before : Database

namespace Mark

def isNamed (name : String) (mark : Mark) : Bool :=
  mark.name.any (Text.sameLetters · name)

end Mark

/-- The contents of a database, and its open transactions, the innermost first. -/
structure Contents where
  database : Database
  marks : List Mark := []

namespace Contents

/-- No transaction is open, so that every statement is one of its own. -/
def autocommit (c : Contents) : Bool :=
  c.marks.isEmpty

/-- The marks from the innermost one of a name on. -/
def marksFrom (name : String) (marks : List Mark) : List Mark :=
  marks.dropWhile fun m => !m.isNamed name

def begin (c : Contents) : Except String Contents :=
  if c.marks.isEmpty then .ok { c with marks := [⟨none, c.database⟩] }
  else .error "cannot start a transaction within a transaction"

def commit (c : Contents) : Except String Contents :=
  if c.marks.isEmpty then .error "cannot commit - no transaction is active"
  else .ok { c with marks := [] }

def rollback (c : Contents) : Except String Contents :=
  match c.marks.getLast? with
  | some m => .ok ⟨m.before, []⟩
  | none => .error "cannot rollback - no transaction is active"

def savepoint (name : String) (c : Contents) : Contents :=
  { c with marks := ⟨some name, c.database⟩ :: c.marks }

def release (name : String) (c : Contents) : Except String Contents :=
  match marksFrom name c.marks with
  | _ :: rest => .ok { c with marks := rest }
  | [] => .error ("no such savepoint: " ++ name)

def rollbackTo (name : String) (c : Contents) : Except String Contents :=
  match marksFrom name c.marks with
  | m :: rest => .ok ⟨m.before, m :: rest⟩
  | [] => .error ("no such savepoint: " ++ name)

def step (c : Contents) : Sql.TransactionStep → Except String Contents
  | .begin => c.begin
  | .commit => c.commit
  | .rollback => c.rollback
  | .savepoint name => .ok (c.savepoint name)
  | .release name => c.release name
  | .rollbackTo name => c.rollbackTo name

end Contents

end SqlUnits
