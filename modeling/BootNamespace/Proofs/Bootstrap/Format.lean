import Mathlib.Data.Nat.Digits.Defs
import BootNamespace.Proofs.Bytes
import BootNamespace.Proofs.Image.Facts

namespace BootNamespace

open Image

namespace Text

/-- A number in base sixteen: its digits in lower case, the most significant first. -/
def numeral (n : Nat) : String :=
  if n = 0 then "0" else String.ofList ((Nat.digits 16 n).reverse.map Nat.digitChar)

theorem toDigits_eq {n : Nat} (hn : 0 < n) :
    Nat.toDigits 16 n = (Nat.digits 16 n).reverse.map Nat.digitChar := by
  induction n using Nat.strongRecOn with
  | ind n ih =>
    rw [Nat.toDigits_eq_if (by decide), Nat.digits_def' (by decide) hn, List.reverse_cons,
      List.map_append, List.map_singleton]
    split
    next hlt =>
      rw [Nat.div_eq_of_lt hlt, Nat.mod_eq_of_lt hlt, Nat.digits_zero]
      rfl
    next hge =>
      have hdiv : 0 < n / 16 := Nat.div_pos (Nat.not_lt.mp hge) (by decide)
      rw [ih _ (Nat.div_lt_self hn (by decide)) hdiv]

theorem hex_eq (n : Nat) : hex n = "0x" ++ numeral n := by
  rw [hex, numeral]
  split
  next hzero =>
    rw [hzero]
    rfl
  next hne => rw [toDigits_eq (Nat.pos_of_ne_zero hne)]

example : hex 0x1c28000 = "0x1c28000" ∧ numeral 0x1c28000 = "1c28000" := by decide

/-- The last byte of a numeral is that of a digit, and so no colon. -/
theorem exists_numeral_eq (n : Nat) :
    ∃ front last, Bytes.ofText (numeral n) = front ++ [last] ∧ last ≠ 58 := by
  have hdigit : ∀ k < 16, String.utf8EncodeChar (Nat.digitChar k) =
      [(Nat.digitChar k).toNat.toUInt8] ∧ (Nat.digitChar k).toNat.toUInt8 ≠ 58 := by decide
  rw [numeral]
  split
  next => exact ⟨[], 48, by decide, by decide⟩
  next hne =>
    obtain ⟨hencode, hcolon⟩ := hdigit (n % 16) (Nat.mod_lt _ (by decide))
    rw [Nat.digits_def' (by decide) (Nat.pos_of_ne_zero hne), List.reverse_cons, List.map_append,
      Bytes.ofText_eq, String.toList_ofList, List.flatMap_append, List.map_singleton,
      List.flatMap_singleton, hencode]
    exact ⟨_, _, rfl, hcolon⟩

end Text

namespace Bytes

variable {bs : Bytes}

/-- A text of lines in bytes, with a newline behind each. -/
def ofLines (lines : List String) : Bytes := lines.flatMap fun line ↦ ofText line ++ [10]

theorem ofText_joined (lines : List String) :
    ofText (String.join (lines.map (· ++ "\n"))) = ofLines lines := by
  rw [ofText_join, List.flatMap_map, ofLines]
  refine List.flatMap_congr fun line _ ↦ ?_
  rw [ofText_append]
  rfl

theorem ofLines_isText (lines : List String) : (toText? (ofLines lines)).isSome := by
  rw [← ofText_joined, toText?_ofText]
  rfl

theorem ofLines_append (lines more : List String) :
    ofLines (lines ++ more) = ofLines lines ++ ofLines more := List.flatMap_append

/-- The bytes end with a line, and that line not with a colon. -/
def EndsPlainly (bs : Bytes) : Prop := ∃ front last, bs = front ++ [last, 10] ∧ last ≠ 58

theorem endsPlainly_ofLines {line : String} {front : Bytes} {last : UInt8}
    (hline : ofText line = front ++ [last]) (hlast : last ≠ 58) (lines : List String) :
    (ofLines (lines ++ [line])).EndsPlainly := by
  refine ⟨ofLines lines ++ front, last, ?_, hlast⟩
  rw [ofLines_append, ofLines, ofLines, List.flatMap_singleton, hline]
  simp only [List.append_assoc, List.cons_append, List.nil_append]

theorem EndsPlainly.not_suffix (h : EndsPlainly bs) (before : Bytes) :
    ¬bs <:+ before ++ ofText ":\n" := by
  obtain ⟨front, last, rfl, hlast⟩ := h
  have hcolon : ofText ":\n" = [58, 10] := by decide
  rintro ⟨rest, hrest⟩
  rw [hcolon, ← List.append_assoc] at hrest
  exact hlast (List.cons.inj (List.append_inj' hrest rfl).2).1

end Bytes

namespace Image.Facts

open Text

variable (facts : Facts)

/-- The summary of the machine, line by line. -/
def sysLines : List String :=
  ["Version: " ++ facts.version, "Arch: " ++ facts.arch, "Mach: " ++ facts.machine,
    "Ram Size: 0x" ++ numeral facts.ram.size.toNat]

/-- The summary of the devices, with a line for each of them in the order of the device table. -/
def deviceLines : List String :=
  facts.devices.map fun device ↦ "\x7b\"" ++ device.name ++ "\", @0x" ++
    numeral device.addr.toNat ++ ", 0x" ++ numeral device.size.toNat ++ "\x7d"

def sysData : Bytes := .ofLines facts.sysLines

def devicesData : Bytes := .ofLines facts.deviceLines

/-- The program writes the summary of the machine as it is to be. -/
theorem sysText_eq : Bytes.ofText (Bootstrap.sysText facts.version facts.arch facts.machine
    facts.ram) = facts.sysData := by
  rw [sysData, ← Bytes.ofText_joined]
  -- Not by its equation, which takes seconds to make for so long a text.
  delta Bootstrap.sysText
  rw [hex_eq]
  congr 1
  simp [sysLines, ← String.toList_inj]

/-- The program writes the summary of the devices as it is to be. -/
theorem devicesText_eq :
    Bytes.ofText (String.join (facts.devices.map Bootstrap.deviceLine)) = facts.devicesData := by
  rw [devicesData, ← Bytes.ofText_joined, deviceLines, List.map_map]
  congr 2
  refine List.map_congr_left fun device _ ↦ ?_
  rw [Bootstrap.deviceLine, hex_eq, hex_eq]
  simp [← String.toList_inj]

/-- The summaries end with the last device's line, or with the size of the memory. -/
theorem summaries_endPlainly : (facts.sysData ++ facts.devicesData).EndsPlainly := by
  rw [sysData, devicesData, ← Bytes.ofLines_append, deviceLines]
  rcases List.eq_nil_or_concat facts.devices with hnil | ⟨devices, device, hconcat⟩
  · obtain ⟨front, last, hnumeral, hlast⟩ := exists_numeral_eq facts.ram.size.toNat
    have hline : Bytes.ofText ("Ram Size: 0x" ++ numeral facts.ram.size.toNat) =
        Bytes.ofText "Ram Size: 0x" ++ front ++ [last] := by
      rw [Bytes.ofText_append, hnumeral, List.append_assoc]
    rw [hnil, List.map_nil, List.append_nil, sysLines]
    exact Bytes.endsPlainly_ofLines hline hlast [_, _, _]
  · have hbrace : Bytes.ofText "\x7d" = [125] := by decide
    rw [hconcat, List.concat_eq_append, List.map_append, List.map_singleton, ← List.append_assoc]
    exact Bytes.endsPlainly_ofLines (by rw [Bytes.ofText_append, hbrace]) (by decide) _

end Image.Facts

end BootNamespace
