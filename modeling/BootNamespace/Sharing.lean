import BootNamespace.AppError
import BootNamespace.SessionMap

namespace BootNamespace

/-- The buffer that a grant is to cover. -/
structure SharedRegion where
  generation : UInt32
  data : Buffer
  deriving DecidableEq, Repr

/-- Grants sessions direct access to a buffer, and revokes it. Either may fail. -/
class Sharing (σ : Type) where
  share : σ → SessionId → SharedRegion → Except AppError Unit × σ
  /-- Revokes whatever the session was granted. -/
  unshare : σ → SessionId → Except AppError Unit × σ

structure Grant where
  generation : UInt32
  length : Nat
  deriving DecidableEq, Repr

/-- Within one address space a grant only needs to be noted. -/
structure GrantTable where
  bySession : SessionMap Grant

namespace GrantTable

def empty : GrantTable := ⟨.empty⟩

variable (grants : GrantTable)

def grant? (s : SessionId) : Option Grant := grants.bySession.get? s

def share (s : SessionId) (region : SharedRegion) : Except AppError Unit × GrantTable :=
  (.ok (), ⟨grants.bySession.insert s ⟨region.generation, region.data.length⟩⟩)

def unshare (s : SessionId) : Except AppError Unit × GrantTable :=
  match grants.grant? s with
  | some _ => (.ok (), ⟨grants.bySession.erase s⟩)
  | none => (.error (.shareFailed (.noGrant s)), grants)

instance : Sharing GrantTable := ⟨share, unshare⟩

end GrantTable

/-- A grant table that counts its calls and refuses the next of either kind when told to. -/
structure FaultyGrants where
  grants : GrantTable
  shares : Nat
  unshares : Nat
  refuseShare : Bool
  refuseUnshare : Bool

namespace FaultyGrants

def empty : FaultyGrants := ⟨.empty, 0, 0, false, false⟩

variable (faulty : FaultyGrants)

/-- A refused share is not counted. -/
def share (s : SessionId) (region : SharedRegion) : Except AppError Unit × FaultyGrants :=
  if faulty.refuseShare then
    (.error (.shareFailed .denied), { faulty with refuseShare := false })
  else
    let (result, grants) := faulty.grants.share s region
    (result, { faulty with grants := grants, shares := faulty.shares + 1 })

/-- A refused unshare is counted and leaves the grant. -/
def unshare (s : SessionId) : Except AppError Unit × FaultyGrants :=
  let counted := { faulty with unshares := faulty.unshares + 1 }
  if faulty.refuseUnshare then
    (.error (.shareFailed .denied), { counted with refuseUnshare := false })
  else
    let (result, grants) := faulty.grants.unshare s
    (result, { counted with grants := grants })

instance : Sharing FaultyGrants := ⟨share, unshare⟩

end FaultyGrants

end BootNamespace
