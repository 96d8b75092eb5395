import BootNamespace.Dispatch.App

namespace BootNamespace

/-- One call of an app. -/
inductive Call where
  | start (context : ServerContext)
  | attach (session : SessionId)
  | detach (session : SessionId)
  | io (message : Message)
  | shutdown
  deriving DecidableEq, Repr

/-- Which calls an app refuses. -/
structure Refusals where
  start : Bool
  attach : Bool
  detach : Bool
  io : Bool
  deriving DecidableEq, Repr

/-- An app that answers each request with its payload and notes every call, refused ones too. -/
structure Echo where
  refusals : Refusals
  calls : List Call
  deriving DecidableEq, Repr

namespace Echo

def new (refusals : Refusals) : Echo := ⟨refusals, []⟩

def note (echo : Echo) (call : Call) : Echo := { echo with calls := echo.calls ++ [call] }

def outcome (refused : Bool) : Except AppError Unit :=
  if refused then .error (.internal "nope") else .ok ()

instance : ServerApp Echo where
  start echo context := (outcome echo.refusals.start, echo.note (.start context))
  attach echo _ session := (outcome echo.refusals.attach, echo.note (.attach session))
  detach echo _ session := (outcome echo.refusals.detach, echo.note (.detach session))
  answer echo _ m :=
    (if echo.refusals.io then Reply.ofError .invalidState else Reply.okWith m.payload,
      echo.note (.io m))
  shutdown echo _ := echo.note .shutdown

end Echo

end BootNamespace
