/-
Files in a directory and around it, and how a path leads to one of them. The parts of a path are
followed one by one, each from a directory; an empty part and `.` stay where they are and `..` goes
up. A file is put where its path leads to, and the directories on the way are made.
-/
import ExprLexer.Files.Error

namespace ExprLexer

/-- What stands at a location: a file with its content, or a directory. -/
inductive Node where
  | file (content : ByteArray)
  | directory

def Node.content : Node → Except ReadError ByteArray
  | file content => .ok content
  | directory => .error .isADirectory

/-- A directory that locations are counted from. -/
inductive Base where
  /-- The directory so many levels above the current one. -/
  | above (levels : Nat)
  /-- The directory above all others. -/
  | root
  deriving DecidableEq, Repr

def Base.up : Base → Base
  | above levels => above (levels + 1)
  | root => root

/-- A location that a path leads to: a base and the names that lead down from it. -/
structure Location where
  base : Base
  names : List String
  deriving DecidableEq, Repr

/-- The location that a part of a path leads to from a directory. -/
def Location.enter (p : Location) (part : String) : Location :=
  if part = "" ∨ part = "." then p
  else if part = ".." then
    if p.names.isEmpty then ⟨p.base.up, []⟩ else { p with names := p.names.dropLast }
  else { p with names := p.names ++ [part] }

def pathParts (path : String) : List String := (path.toList.splitOn '/').map String.ofList

def Location.start (path : String) : Location :=
  ⟨if path.toList.head? = some '/' then .root else .above 0, []⟩

/-- What has been put at locations; what was put last comes first. -/
structure Tree where
  entries : List (Location × Node)

namespace Tree

def maxPath : Nat := 4095

/-- The number of bytes of the longest part of a path. -/
def maxPart : Nat := 255

/-- Puts a node where the parts of a path lead to from a location. -/
def putFrom (t : Tree) (node : Node) (location : Location) : List String → Tree
  | [] => ⟨(location, node) :: t.entries⟩
  | part :: rest => putFrom ⟨(location, .directory) :: t.entries⟩ node (location.enter part) rest

def put (t : Tree) (path : String) (node : Node) : Tree :=
  t.putFrom node (.start path) (pathParts path)

/-- Puts files and directories one after the other. -/
def putAll (t : Tree) (entries : List (String × Node)) : Tree :=
  entries.foldl (fun t entry => t.put entry.1 entry.2) t

def ofList (entries : List (String × Node)) : Tree := putAll ⟨[]⟩ entries

/-- What stands at a location. The bases are always there. -/
def node? (t : Tree) (location : Location) : Option Node :=
  match t.entries.find? fun entry => entry.1 = location with
  | some entry => some entry.2
  | none => if location.names.isEmpty then some .directory else none

/-- What the parts of a path lead to from a location. -/
def walk (t : Tree) (location : Location) : List String → Except ReadError Node
  | [] =>
    match t.node? location with
    | some node => .ok node
    | none => .error .notFound
  | part :: rest =>
    match t.node? location with
    | none => .error .notFound
    | some (.file _) => .error .notADirectory
    | some .directory =>
      if maxPart < part.utf8ByteSize then .error .nameTooLong
      else t.walk (location.enter part) rest

def checkPath (path : String) : Except ReadError Unit :=
  if '\x00' ∈ path.toList then .error .nulInPath
  else if path = "" then .error .notFound
  else if maxPath < path.utf8ByteSize then .error .nameTooLong
  else .ok ()

def read (t : Tree) : Files := fun path => do
  checkPath path
  (← t.walk (.start path) (pathParts path)).content

end Tree

end ExprLexer
