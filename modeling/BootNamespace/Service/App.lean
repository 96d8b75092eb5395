import BootNamespace.Dispatch.App
import BootNamespace.Service.Handlers

namespace BootNamespace.Service

variable {σ : Type}

/-- A service refuses to start with a configuration that is not valid. -/
def start (s : Service σ) : Except AppError Unit :=
  match s.config.validate with
  | .ok () => .ok ()
  | .error e => .error (.startFailed (.config e))

instance [Sharing σ] : ServerApp (Service σ) where
  start s _ := (s.start, s)
  attach s _ session :=
    let (result, s) := s.attach session
    (result.mapError .fs, s)
  detach s _ session :=
    let (result, s) := s.detach session
    (result.mapError .fs, s)
  answer s _ m := s.answer m
  shutdown s _ := s

end BootNamespace.Service
