/-!
# Alignment

Segments are laid out in whole pages, so addresses are rounded to multiples of a
page size: `ElfLoader.alignDown` to the greatest multiple that is not above,
`ElfLoader.alignUp` to the least multiple that is not below. The sizes in use are
powers of two (`ElfLoader.isPowerOfTwo`), and `ElfLoader.nextPowerOfTwo` finds the
least one that is not below a number.
-/

namespace ElfLoader

/-- The greatest multiple of `align` that is at most `n`. -/
def alignDown (n align : Nat) : Nat := n / align * align

/-- The least multiple of `align` that is at least `n`. -/
def alignUp (n align : Nat) : Nat := (n + align - 1) / align * align

/-- Whether a number is a power of two. -/
def isPowerOfTwo (n : Nat) : Bool := n ≠ 0 && n == 1 <<< n.log2

/-- The least power of two that is at least `n`. -/
def nextPowerOfTwo (n : Nat) : Nat :=
  if n ≤ 1 <<< n.log2 then 1 <<< n.log2 else 1 <<< (n.log2 + 1)

end ElfLoader
