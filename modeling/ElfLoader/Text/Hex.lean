/-!
# Hexadecimal text

Addresses and sizes are shown in lower case hexadecimal, in three forms:

* `ElfLoader.Hex.digits` – the digits alone, as few as possible;
* `ElfLoader.Hex.literal` – the digits behind `0x`;
* `ElfLoader.Hex.padded` – the digits filled up with zeros to a width.

A byte always takes two digits (`ElfLoader.Hex.byte`).
-/

namespace ElfLoader.Hex

/-- The hexadecimal digits of a number, without leading zeros; zero is `0`. -/
def digits (n : Nat) : String := String.ofList (Nat.toDigits 16 n)

/-- The digits of a number behind `0x`. -/
def literal (n : Nat) : String := "0x" ++ digits n

/-- The digits of a number, filled up with zeros on the left to a width. -/
def padded (width n : Nat) : String :=
  let ds := Nat.toDigits 16 n
  String.ofList (List.replicate (width - ds.length) '0' ++ ds)

/-- The two digits of a byte. -/
def byte (b : UInt8) : String :=
  String.ofList [Nat.digitChar (b.toNat / 16), Nat.digitChar (b.toNat % 16)]

end ElfLoader.Hex
