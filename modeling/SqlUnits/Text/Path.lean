import SqlUnits.Text.Span
/-!
File paths: parts separated by slashes.
-/

namespace SqlUnits.Path

def isAbsolute (path : String) : Bool :=
  path.toList.head? == some '/'

/-- A path seen from a directory; an absolute one stays as it is. -/
def join (base path : String) : String :=
  if isAbsolute path || base.isEmpty then path
  else if base.toList.getLast? == some '/' then base ++ path
  else base ++ "/" ++ path

/-- The parts between slashes. -/
def splitSlashes : Text → Text → List Text
  | part, [] => [part.reverse]
  | part, '/' :: rest => part.reverse :: splitSlashes [] rest
  | part, c :: rest => splitSlashes (c :: part) rest

/-- The named parts of a path; empty ones and inner dots stand for nothing. -/
def parts (path : String) : List String :=
  ((splitSlashes [] path.toList).map String.ofList).filter fun p => p != "" && p != "."

/-- A step of a path, in the order in which paths are sorted. -/
inductive Step where
  | root
  | here
  | up
  | named (name : String)
deriving DecidableEq

namespace Step

def rank : Step → Nat
  | root => 0
  | here => 1
  | up => 2
  | named _ => 3

def name : Step → String
  | named name => name
  | _ => ""

def before (a b : Step) : Bool :=
  a.rank < b.rank || (a.rank == b.rank && a.name < b.name)

end Step

/-- The steps of a path; a dot is one only where it leads a relative path. -/
def steps (path : String) : List Step :=
  let named := (parts path).map fun p => if p == ".." then .up else .named p
  if isAbsolute path then .root :: named
  else
    match (splitSlashes [] path.toList).head? with
    | some ['.'] => .here :: named
    | _ => named

def stepsBefore : List Step → List Step → Bool
  | _, [] => false
  | [], _ :: _ => true
  | a :: as, b :: bs => a.before b || (a == b && stepsBefore as bs)

/-- Whether a path is not sorted after another one. -/
def atMost (a b : String) : Bool :=
  !stepsBefore (steps b) (steps a)

/-- Two spellings of one path. -/
def same (a b : String) : Bool :=
  steps a == steps b

/-- Of neighbours that are one path the first. -/
def distinct : List String → List String
  | [] => []
  | path :: rest =>
      match distinct rest with
      | [] => [path]
      | next :: more => if same path next then path :: more else path :: next :: more

/-- Slashes and dots at the end of a path, which name nothing. -/
def trimEnd (cs : Text) : Text :=
  let rec trim : Text → Text
    | '/' :: rest => if rest.isEmpty then ['/'] else trim rest
    | '.' :: '/' :: rest => if rest.isEmpty then ['/'] else trim rest
    | reversed => reversed
  (trim cs.reverse).reverse

/-- The directory that a path is in; empty for a name alone. -/
def parent (path : String) : String :=
  let cs := trimEnd path.toList
  if cs == ['/'] then ""
  else
    let kept := (cs.reverse.dropWhile (· != '/')).reverse
    String.ofList (trimEnd kept)

/-- What follows the last point of a name, unless the point leads it. -/
def extension? (path : String) : Option String := do
  let name ← (parts path).getLast?
  let reversed := name.toList.reverse
  let ending := reversed.takeWhile (· != '.')
  if name == ".." || ending.length + 1 ≥ reversed.length then none
  else pure (String.ofList ending.reverse)

end SqlUnits.Path
