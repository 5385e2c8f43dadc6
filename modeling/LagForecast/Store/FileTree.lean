import LagForecast.Store.Document
import LagForecast.Text.Basic

/-!
Trees of files, and what paths name in them.  A path is walked name by name from the directory in
which a program runs, and every name but the last has to lead to a directory, the names `.` and
`..` included.
-/

set_option autoImplicit false

namespace LagForecast

/-- A place among the files: the names that lead to it, the last first.  The empty list is the
directory in which a program runs, `..` leads out of it, and `/` is the root. -/
abbrev FilePlace := List String

inductive FileNode where
  | file (bytes : List UInt8)
  | directory

/-- Files and directories at their places.  A place on the way to another one is a directory. -/
structure FileTree where
  entries : List (FilePlace × FileNode)

/-- The names in a path.  Those between two slashes that stand together are empty. -/
def pathNames (path : String) : List String := (Text.parts '/' path).map String.ofList

def pathFault (path : String) : Option FileFault :=
  if '\x00' ∈ path.toList then some .zeroByte
  else if path = "" then some .missing
  else if 4095 < path.utf8ByteSize then some .nameTooLong
  else none

def pathStart (path : String) : FilePlace := if path.toList.head? = some '/' then ["/"] else []

def FilePlace.parent : FilePlace → FilePlace
  | [] => [".."]
  | ".." :: rest => ".." :: ".." :: rest
  | "/" :: rest => "/" :: rest
  | _ :: rest => rest

namespace FileTree

variable (t : FileTree)

def node? (place : FilePlace) : Option FileNode :=
  match t.entries.lookup place with
  | some node => some node
  | none =>
    if place.all (fun n => n = ".." || n = "/") || t.entries.any (fun e => place.isSuffixOf e.1)
    then some .directory
    else none

/-- Go from a place, which has to be a directory, to a name in it.  Whether anything stands there
is not asked. -/
def step (place : FilePlace) (name : String) : Except FileFault FilePlace :=
  match t.node? place with
  | none => .error .missing
  | some (.file _) => .error .notDirectory
  | some .directory =>
    if name = "" || name = "." then .ok place
    else if name = ".." then .ok place.parent
    else if 255 < name.utf8ByteSize then .error .nameTooLong
    else .ok (name :: place)

def walk (path : String) (names : List String) : Except FileFault FilePlace :=
  match pathFault path with
  | some fault => .error fault
  | none => names.foldlM t.step (pathStart path)

def put (place : FilePlace) (node : FileNode) : FileTree :=
  ⟨(place, node) :: t.entries.filter fun e => e.1 ≠ place⟩

def view : FileView := fun path => do
  match t.node? (← t.walk path (pathNames path)) with
  | some (.file bytes) => return bytes
  | some .directory => throw .directory
  | none => throw .missing

/-- The names to walk for a file that is to be made.  A name with a slash after it could only be a
directory, so the walk ends at the directory of that name. -/
def namesToMake (path : String) : List String :=
  match (pathNames path).reverse with
  | "" :: rest => ((rest.dropWhile (· = "")).drop 1).reverse ++ ["."]
  | names => names.reverse

def write (path : String) (bytes : List UInt8) : Except FileFault FileTree := do
  let place ← t.walk path (namesToMake path)
  match t.node? place with
  | some .directory => throw .directory
  | _ => return t.put place (.file bytes)

/-- Go to a name as a walk does, and make a directory of that name where nothing stands. -/
def enter (here : FileTree × FilePlace) (name : String) :
    Except FileFault (FileTree × FilePlace) := do
  let place ← here.1.step here.2 name
  match here.1.node? place with
  | none => return (here.1.put place .directory, place)
  | some _ => return (here.1, place)

/-- Make the directories that some names lead through along a path, as far as they are missing. -/
def makeDirectories (path : String) (names : List String) : Except FileFault FileTree :=
  match pathFault path with
  | some fault => .error fault
  | none => do return (← names.foldlM enter (t, pathStart path)).1

/-- Add a file, or a directory if there are no bytes, and the directories on the way to it. -/
def add (path : String) : Option (List UInt8) → Except FileFault FileTree
  | none => t.makeDirectories path (pathNames path)
  | some bytes => do (← t.makeDirectories path (namesToMake path).dropLast).write path bytes

/-- The tree in which the given files are made one after the other.  Two paths may name the same
place, where the later file then stands; a file that cannot be made is left out. -/
def ofList (files : List (String × Option (List UInt8))) : FileTree :=
  files.foldl (fun t f => (t.add f.1 f.2).toOption.getD t) ⟨[]⟩

end FileTree

end LagForecast
