import SqlUnits.Database.Table
import SqlUnits.Text.Path
/-!
The files of a working directory, as values. A database file holds the database itself.
-/

namespace SqlUnits

inductive FileNode where
  | directory
  | text (contents : String)
  | database (contents : Database)

namespace FileNode

def isDirectory : FileNode → Bool
  | directory => true
  | _ => false

def text? : FileNode → Option String
  | text contents => some contents
  | _ => none

end FileNode

inductive FileError where
  | notFound
  | alreadyThere
  | notADirectory
  | isADirectory
  /-- The bytes of a file are no text. -/
  | notText
deriving DecidableEq

def FileError.message : FileError → String
  | notFound => "No such file or directory (os error 2)"
  | alreadyThere => "File exists (os error 17)"
  | notADirectory => "Not a directory (os error 20)"
  | isADirectory => "Is a directory (os error 21)"
  | notText => "stream did not contain valid UTF-8"

/-- What the working directory holds, by the names that lead there from it. -/
structure FileTree where
  /-- The absolute path of the working directory. -/
  home : String
  nodes : List (List String × FileNode) := []

namespace FileTree

/-- Takes the names of a path one after the other, back as well; nothing is above the start. -/
def follow : List String → List String → Option (List String)
  | back, [] => some back.reverse
  | back, ".." :: rest =>
      match back with
      | [] => none
      | _ :: back => follow back rest
  | back, name :: rest => follow (name :: back) rest

/-- The names that lead to a path. -/
def locate? (tree : FileTree) (path : String) : Option (List String) :=
  let parts := Path.parts path
  if path.isEmpty then none
  else if Path.isAbsolute path then
    let home := Path.parts tree.home
    if home.isPrefixOf parts then follow [] (parts.drop home.length) else none
  else follow [] parts

def find? (tree : FileTree) (names : List String) : Option FileNode :=
  if names.isEmpty then some .directory else tree.nodes.lookup names

/-- The directories on the way to `names`, outermost first. -/
def way (names : List String) : List (List String) :=
  (List.range names.length).map names.take

/-- Why nothing can be at `names`: a file may stand on the way. -/
def obstacle (tree : FileTree) (names : List String) : FileError :=
  if (way names).all fun names => (tree.find? names).all (·.isDirectory) then .notFound
  else .notADirectory

def node (tree : FileTree) (path : String) : Except FileError FileNode :=
  match tree.locate? path with
  | none => .error .notFound
  | some names =>
      match tree.find? names with
      | some node => .ok node
      | none => .error (tree.obstacle names)

def holds (tree : FileTree) (path : String) : Bool :=
  (tree.node path).toOption.isSome

def read (tree : FileTree) (path : String) : Except FileError String := do
  match ← tree.node path with
  | .text contents => pure contents
  | .directory => throw .isADirectory
  | .database _ => throw .notText

def putAt (names : List String) (node : FileNode) :
    List (List String × FileNode) → List (List String × FileNode)
  | [] => [(names, node)]
  | entry :: rest =>
      if entry.1 == names then (names, node) :: rest else entry :: putAt names node rest

def put (tree : FileTree) (names : List String) (node : FileNode) : FileTree :=
  { tree with nodes := putAt names node tree.nodes }

/-- Replaces a file or adds one to a directory that is there. -/
def writeNode (tree : FileTree) (path : String) (node : FileNode) :
    Except FileError FileTree :=
  match tree.locate? path with
  | none => .error .notFound
  | some names =>
      match tree.find? names, tree.find? names.dropLast with
      | some .directory, _ => .error .isADirectory
      | some _, _ => .ok (tree.put names node)
      | none, some .directory => .ok (tree.put names node)
      | none, _ => .error (tree.obstacle names)

def write (tree : FileTree) (path text : String) : Except FileError FileTree :=
  tree.writeNode path (.text text)

def makeDirectory (last : List String) (tree : FileTree) (names : List String) :
    Except FileError FileTree :=
  match tree.find? names with
  | none => .ok (tree.put names .directory)
  | some .directory => .ok tree
  | some _ => .error (if names == last then .alreadyThere else .notADirectory)

/-- Makes a directory and those on the way to it, as far as they are missing. -/
def makeDirectories (tree : FileTree) (path : String) : Except FileError FileTree :=
  match tree.locate? path with
  | none => if path.isEmpty then .ok tree else .error .notFound
  | some names => (way names ++ [names]).foldlM (makeDirectory names) tree

/-- Takes away what is at a path, and all below it. -/
def remove (tree : FileTree) (path : String) : FileTree :=
  match tree.locate? path with
  | some names => { tree with nodes := tree.nodes.filter fun e => !names.isPrefixOf e.1 }
  | none => tree

/-- What is below `names`, by the names that lead on from there. -/
def below (tree : FileTree) (names : List String) : List (List String × FileNode) :=
  (tree.nodes.filter fun e => names.isPrefixOf e.1 && e.1 != names).map fun e =>
    (e.1.drop names.length, e.2)

/-- The text files by their paths, sorted. -/
def texts (tree : FileTree) : List (String × String) :=
  (tree.nodes.filterMap fun (names, node) =>
    node.text?.map (String.intercalate "/" names, ·)).mergeSort fun a b => a.1 ≤ b.1

end FileTree

end SqlUnits
