namespace BootNamespace

inductive EntryKind where
  | directory
  | file (size : UInt64)
  deriving DecidableEq, Repr

structure Entry where
  name : String
  kind : EntryKind
  deriving DecidableEq, Repr

end BootNamespace
