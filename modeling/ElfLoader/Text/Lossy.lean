/-!
# Decoding text that may be damaged

Names in object files are bytes that should be UTF-8. Where they are not, each
longest run of bytes that could still have started a character is replaced by one
U+FFFD, and decoding goes on behind it. So every byte sequence has a text
(`ElfLoader.Lossy.decode`), and a sequence that is valid UTF-8 has its own.
-/

namespace ElfLoader.Lossy

/-- The character that stands for bytes that are no text. -/
def replacement : Char := '\ufffd'

/-- Whether a byte can continue a character. -/
def continues (b : UInt8) : Bool := 0x80 ≤ b && b ≤ 0xbf

/-- How many bytes follow the first byte of a character; none for a byte that
starts no character of several bytes. -/
def followers (a : UInt8) : Nat :=
  if 0xc2 ≤ a && a ≤ 0xdf then 1
  else if 0xe0 ≤ a && a ≤ 0xef then 2
  else if 0xf0 ≤ a && a ≤ 0xf4 then 3
  else 0

/-- Whether `b` can be the second byte behind `a`. The bounds keep out overlong
forms, surrogates and values past U+10FFFF. -/
def second (a b : UInt8) : Bool :=
  if a == 0xe0 then 0xa0 ≤ b && b ≤ 0xbf
  else if a == 0xed then 0x80 ≤ b && b ≤ 0x9f
  else if a == 0xf0 then 0x90 ≤ b && b ≤ 0xbf
  else if a == 0xf4 then 0x80 ≤ b && b ≤ 0x8f
  else continues b

/-- The six low bits that a continuing byte adds. -/
def low (b : UInt8) : Nat := b.toNat % 64

/-- The characters of a byte sequence. -/
def chars : List UInt8 → List Char
  | [] => []
  | a :: r =>
    if a < 0x80 then Char.ofNat a.toNat :: chars r
    else if followers a = 0 then replacement :: chars r
    else match r with
      | [] => [replacement]
      | b :: r =>
        if !second a b then replacement :: chars (b :: r)
        else if followers a = 1 then Char.ofNat (a.toNat % 32 * 64 + low b) :: chars r
        else match r with
          | [] => [replacement]
          | c :: r =>
            if !continues c then replacement :: chars (c :: r)
            else if followers a = 2 then
              Char.ofNat (a.toNat % 16 * 4096 + low b * 64 + low c) :: chars r
            else match r with
              | [] => [replacement]
              | d :: r =>
                if !continues d then replacement :: chars (d :: r)
                else
                  Char.ofNat (a.toNat % 8 * 262144 + low b * 4096 + low c * 64 + low d) ::
                    chars r

/-- The text of a byte sequence. -/
def decode (bytes : List UInt8) : String := String.ofList (chars bytes)

end ElfLoader.Lossy
