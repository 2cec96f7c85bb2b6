import ArithLexer.Host.Basic

/-!
# A directory in memory

A host without a machine: a directory of files and directories, and a standard input. Paths lead
from name to name, starting from the directory, and every name on the way but the last has to be
that of a directory; a path that ends in a slash has to lead to a directory as a whole.

A path that begins with a slash, or that goes up too often, leads outside. Of the outside nothing
is known but that it is a directory.
-/

namespace ArithLexer

/-- What a path can lead to. -/
inductive Node where
  | file (content : List UInt8)
  | directory
deriving DecidableEq, Repr

/-- Where a path can lead to. -/
inductive Place where
  /-- What names lead to, from the directory downwards. -/
  | inside (names : List String)
  | outside
deriving DecidableEq, Repr

def Place.parent : Place → Place
  | inside [] => outside
  | inside names => inside names.dropLast
  | outside => outside

/-- A directory, with all that is below it, and a standard input. -/
structure Directory where
  /-- What there is, by the names that lead to it. -/
  entries : List (List String × Node) := []
  standardInput : List Portion := []
deriving DecidableEq, Repr

namespace Directory

def noSuchFile : IoError := ⟨.notFound, "No such file or directory (os error 2)"⟩

def isADirectory : IoError := ⟨.isADirectory, "Is a directory (os error 21)"⟩

def notADirectory : IoError := ⟨.notADirectory, "Not a directory (os error 20)"⟩

/-- No path can hold the character with code zero. -/
def nulInPath : IoError := ⟨.invalidInput, "file name contained an unexpected NUL byte"⟩

def nameTooLong : IoError := ⟨.invalidFilename, "File name too long (os error 36)"⟩

def maxNameSize : Nat := 255

def maxPathSize : Nat := 4095

def node? (d : Directory) : Place → Option Node
  | .outside => some .directory
  | .inside [] => some .directory
  | .inside names => (d.entries.find? fun e => e.1 = names).map (·.2)

def put (d : Directory) (names : List String) (node : Node) : Directory :=
  { d with entries := (names, node) :: d.entries.filter fun e => e.1 ≠ names }

/-- The place that a name leads to from a directory. It need not hold anything. -/
def enter (here : Place) (name : String) : Except IoError Place :=
  if name = "" ∨ name = "." then .ok here
  else if name = ".." then .ok here.parent
  else if maxNameSize < name.utf8ByteSize then .error nameTooLong
  else
    match here with
    | .inside names => .ok (.inside (names ++ [name]))
    | .outside => .error noSuchFile

def follow (d : Directory) (here : Place) : List String → Except IoError Place
  | [] => .ok here
  | name :: rest =>
    match d.node? here with
    | none => .error noSuchFile
    | some (.file _) => .error notADirectory
    | some .directory => do follow d (← enter here name) rest

/-- The place from which a path starts and its names. -/
def split (path : String) : Except IoError (Place × List String) :=
  if path.toList.contains '\x00' then .error nulInPath
  else if maxPathSize < path.utf8ByteSize then .error nameTooLong
  else if path = "" then .error noSuchFile
  else .ok (if path.toList.head? = some '/' then .outside else .inside [], pathNames path)

/-- The place that a path leads to. It need not hold anything. -/
def resolve (d : Directory) (path : String) : Except IoError Place := do
  let (start, names) ← split path
  d.follow start names

def find (d : Directory) (path : String) : Except IoError Node := do
  match d.node? (← d.resolve path) with
  | some node => return node
  | none => throw noSuchFile

/-- The content of a file. A directory can be found, but not read. -/
def contentOf (d : Directory) (path : String) : Except IoError (List UInt8) := do
  match ← d.find path with
  | .file content => return content
  | .directory => throw isADirectory

/-- The directory with a file made where the path leads to, if nothing is there. A path that ends
in a slash is that of a directory, whether or not there is one. -/
def create (d : Directory) (path : String) : Except IoError Directory := do
  let (start, names) ← split path
  if path.endsWith "/" then
    discard (d.follow start ((names.reverse.dropWhile (· = "")).tail.reverse ++ [""]))
    throw isADirectory
  let place ← d.follow start names
  match d.node? place, place with
  | some .directory, _ => throw isADirectory
  | some (.file _), _ => return d
  | none, .inside names => return d.put names (.file [])
  | none, .outside => throw noSuchFile

/-- The directory with bytes put at the end of a file. -/
def extend (d : Directory) (path : String) (bytes : List UInt8) : Directory :=
  match d.resolve path with
  | .ok (.inside names) =>
    match d.node? (.inside names) with
    | some (.file content) => d.put names (.file (content ++ bytes))
    | _ => d
  | _ => d

/-- A directory as a host, with this standard output. -/
def hostWith (output : Device (StateM Directory)) : Host (StateM Directory) where
  isFile path := do
    match (← get).find path with
    | .ok (.file _) => return true
    | _ => return false
  readFile path := return (← get).contentOf path
  openLog path := do
    match (← get).create path with
    | .ok d => set d; return .ok ()
    | .error cause => return .error cause
  extendLog path bytes := modify fun d => d.extend path bytes
  openInput path := do
    match (← get).find path with
    | .ok (.file content) => return .ok [.bytes content]
    | .ok .directory => return .ok [.failure isADirectory]
    | .error cause => return .error cause
  standardInput := return (← get).standardInput
  output := output

/-- The host with a standard output that takes whatever is written to it. -/
def host : Host (StateM Directory) :=
  hostWith { write := fun bytes => pure bytes.length, flush := pure () }

end Directory
end ArithLexer
