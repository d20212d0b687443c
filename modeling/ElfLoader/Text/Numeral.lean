/-!
# Numbers as users write them

A number is a run of digits, possibly behind a plus sign, that stays within a
limit. On the command line an address or a size is decimal, or hexadecimal behind
`0x` (`ElfLoader.Numeral.address?`). The reader accepts nothing else: no blanks,
no separators, no minus sign.
-/

namespace ElfLoader.Numeral

/-- The value of a digit of a base up to sixteen. -/
def digit? (base : Nat) (c : Char) : Option Nat :=
  let v? :=
    if '0' ≤ c ∧ c ≤ '9' then some (c.toNat - '0'.toNat)
    else if 'a' ≤ c ∧ c ≤ 'f' then some (c.toNat - 'a'.toNat + 10)
    else if 'A' ≤ c ∧ c ≤ 'F' then some (c.toNat - 'A'.toNat + 10)
    else none
  v?.filter (· < base)

/-- The value of a run of digits that continues `acc`. -/
def continue? (base : Nat) (acc : Nat) : List Char → Option Nat
  | [] => some acc
  | c :: cs => do
    let d ← digit? base c
    continue? base (base * acc + d) cs

/-- The value of a run of at least one digit, possibly behind a plus sign. -/
def ofChars? (base : Nat) : List Char → Option Nat
  | [] => none
  | '+' :: [] => none
  | '+' :: cs => continue? base 0 cs
  | cs => continue? base 0 cs

/-- Numbers fit into 64 bits. -/
def limit : Nat := 18446744073709551616

/-- The number that a text in the base stands for, if it is one and fits. -/
def unsigned? (base : Nat) (text : List Char) : Option Nat :=
  (ofChars? base text).filter (· < limit)

/-- A decimal number. -/
def decimal? (text : String) : Option Nat := unsigned? 10 text.toList

/-- A decimal number, or a hexadecimal one behind `0x`. -/
def address? (text : String) : Option Nat :=
  match text.toList with
  | '0' :: 'x' :: rest => unsigned? 16 rest
  | cs => unsigned? 10 cs

/-- What is said about a text that `address?` refuses. -/
def refusal (text : String) : String :=
  "`" ++ text ++ "` isn't a hex or decimal number"

end ElfLoader.Numeral
