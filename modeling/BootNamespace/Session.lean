namespace BootNamespace

/-- A client of the server, numbered when it attaches. -/
structure SessionId where
  number : UInt32
  deriving DecidableEq, Repr, Inhabited

/-- One request under way, so that its reply finds the way back. -/
structure ReceiveId where
  number : UInt32
  deriving DecidableEq, Repr, Inhabited

namespace SessionId

instance : LT SessionId := ⟨fun s t ↦ s.number < t.number⟩

instance (s t : SessionId) : Decidable (s < t) := inferInstanceAs (Decidable (s.number < t.number))

def text (s : SessionId) : String := s!"SessionId({s.number.toNat})"

end SessionId

def ReceiveId.text (r : ReceiveId) : String := s!"ReceiveId({r.number.toNat})"

end BootNamespace
