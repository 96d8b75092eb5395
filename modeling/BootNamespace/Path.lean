import BootNamespace.Bytes
import BootNamespace.FsError

namespace BootNamespace.Path

def maxNameLength : Nat := 255

/-- A usable name is not empty, has at most 255 bytes, and holds neither a slash nor a NUL. -/
def validName (name : String) : Bool :=
  decide (name ≠ "") && decide (name.utf8ByteSize ≤ maxNameLength) &&
    !name.toList.contains '/' && !name.toList.contains '\x00'

def isAbsolute (path : String) : Bool := path.toList.head? == some '/'

def endsWithSlash (path : String) : Bool := path.toList.getLast? == some '/'

/-- The path in a request: what comes before the first NUL. -/
def ofPayload (payload : Bytes) : Except FsError String :=
  match Bytes.toText? (payload.takeWhile (· ≠ 0)) with
  | some path => .ok path
  | none => .error (.invalidPath .notText)

/-- The request form of a path, which ends in a NUL. -/
def toPayload (path : String) : Bytes := Bytes.ofText path ++ [0]

def checkCreatable (path : String) : Except FsError Unit :=
  if !isAbsolute path then .error (.invalidPath .notRooted)
  else if endsWithSlash path then .error (.invalidPath .trailingSlash)
  else .ok ()

def dropSlashes (cs : List Char) : List Char := cs.dropWhile (· = '/')

/-- A directory's path and a name, with one slash between them. -/
def join (dir name : String) : String :=
  String.ofList ((dropSlashes dir.toList.reverse).reverse ++ '/' :: dropSlashes name.toList)

def splitSlash : List Char → List (List Char)
  | [] => [[]]
  | c :: cs =>
    if c = '/' then [] :: splitSlash cs
    else
      match splitSlash cs with
      | [] => [[c]]
      | piece :: rest => (c :: piece) :: rest

/-- The pieces between slashes, empty ones included. -/
def pieces (path : String) : List String := (splitSlash path.toList).map String.ofList

/-- The names on a path: its pieces without the empty ones. -/
def segments (path : String) : List String := (pieces path).filter (· ≠ "")

/-- The absolute path along the names. -/
def ofSegments (names : List String) : String :=
  String.ofList (names.flatMap fun name ↦ '/' :: name.toList)

end BootNamespace.Path
