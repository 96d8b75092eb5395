namespace BootNamespace.Text

/-- A number in base sixteen behind `0x`, in lower case and without leading zeros. -/
def hex (n : Nat) : String :=
  "0x" ++ String.ofList (Nat.toDigits 16 n)

end BootNamespace.Text
