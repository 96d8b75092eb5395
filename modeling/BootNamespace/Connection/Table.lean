import BootNamespace.Connection.Basic
import BootNamespace.SessionMap

namespace BootNamespace

structure ConnectionTable where
  bySession : SessionMap Connection

namespace ConnectionTable

def empty : ConnectionTable := ⟨.empty⟩

variable (table : ConnectionTable)

def get? (s : SessionId) : Option Connection := table.bySession.get? s

def put (s : SessionId) (conn : Connection) : ConnectionTable := ⟨table.bySession.insert s conn⟩

def toList : List Connection := table.bySession.values

def size : Nat := table.bySession.size

def attach (s : SessionId) : Except FsError Unit × ConnectionTable :=
  match table.get? s with
  | some _ => (.error .busy, table)
  | none => (.ok (), table.put s (.new s))

variable {κ : Type} (release : Connection → κ → Connection × κ)

/-- Removes a session once `release` has taken down what its connection holds. -/
def detach (s : SessionId) (held : κ) : Except FsError Unit × ConnectionTable × κ :=
  match table.get? s with
  | none => (.error .notFound, table, held)
  | some conn => (.ok (), ⟨table.bySession.erase s⟩, (release conn held).2)

/-- Lets `release` take down what a connection holds and keeps the session. -/
def close (s : SessionId) (held : κ) : Except FsError Unit × ConnectionTable × κ :=
  match table.get? s with
  | none => (.error .notFound, table, held)
  | some conn =>
    let (conn, held) := release conn held
    (.ok (), table.put s conn, held)

end ConnectionTable

end BootNamespace
