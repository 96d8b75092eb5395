import BootNamespace.Dispatch.App

namespace BootNamespace

/-- A channel that plays given events, or failures to receive, and then closes. It keeps every reply
and refuses to deliver some. -/
structure Script where
  steps : List (Except AppError Event)
  refused : List ReceiveId
  replies : List (ReceiveId × Reply)

namespace Script

def play (steps : List (Except AppError Event)) (refused : List ReceiveId) : Script :=
  ⟨steps, refused, []⟩

def receive (script : Script) : Received × Script :=
  match script.steps with
  | [] => (.closed, script)
  | .ok event :: rest => (.event event, { script with steps := rest })
  | .error e :: rest => (.failed e, { script with steps := rest })

def reply (script : Script) (rcvid : ReceiveId) (reply : Reply) : Except AppError Unit × Script :=
  let script' := { script with replies := script.replies ++ [(rcvid, reply)] }
  if rcvid ∈ script.refused then (.error (.ipc (.described "refused")), script')
  else (.ok (), script')

instance : Channel Script where
  receive := receive
  reply := reply
  backlog script := script.steps.length
  backlog_receive {c c' e} h := by
    unfold receive at h
    split at h
    · cases h
    next heq =>
      cases h
      simp [heq]
    · cases h
  backlog_reply script rcvid r := by
    unfold reply
    dsimp only
    split <;> exact Nat.le_refl _

end Script

end BootNamespace
