import ElfLoader.Bytes.Order
import ElfLoader.FileSystem.Basic
import ElfLoader.Report
import ElfLoader.Text.Lossy

/-!
# Object files as bytes

An `ElfLoader.ObjectFile` is the content of a file whose identification says that
it is a 32-bit object file of a known byte order. All else in the file is read
through the checked accesses of this module, which refuse whatever does not lie
within the file: the files come from the user and may be cut off or garbage.

* `ElfLoader.ObjectFile.identify` – the check of the first bytes;
* `ElfLoader.ObjectFile.open` – the same for a path;
* `ElfLoader.ObjectFile.slice`, `ElfLoader.ObjectFile.byte`,
  `ElfLoader.ObjectFile.half`, `ElfLoader.ObjectFile.word`,
  `ElfLoader.ObjectFile.string` – the accesses.
-/

namespace ElfLoader

/-- Goes on only under a condition. -/
def ensure (p : Prop) [Decidable p] (e : LoadError) : Except LoadError Unit :=
  if p then .ok () else .error e

@[simp] theorem ensure_eq_ok_iff (p : Prop) [Decidable p] (e : LoadError) (u : Unit) :
    ensure p e = .ok u ↔ p := by
  unfold ensure
  split <;> simp_all

/-- The content of an object file. -/
structure ObjectFile where
  /-- Where the content came from; only messages use it. -/
  path : String
  /-- The byte order of the processor that the file is for. -/
  order : ByteOrder
  /-- The content. -/
  bytes : ByteArray

namespace ObjectFile

/-! ### Accesses -/

variable (f : ObjectFile)

/-- How many bytes there are. -/
def size : Nat := f.bytes.size

/-- The error for a flaw of this file. -/
def flawed (flaw : Flaw) : LoadError := .corrupt f.path flaw

/-- A run of bytes. -/
def slice (offset size : Nat) : Except LoadError ByteArray :=
  if offset + size ≤ f.size then .ok (f.bytes.extract offset (offset + size))
  else .error (f.flawed (.rangePastEnd size offset))

/-- A single byte. -/
def byte (offset : Nat) : Except LoadError UInt8 :=
  if h : offset < f.bytes.size then .ok f.bytes[offset]
  else .error (f.flawed (.byteMissing offset))

/-- A half. -/
def half (offset : Nat) : Except LoadError UInt16 :=
  if h : offset + 2 ≤ f.bytes.size then
    .ok (f.order.half f.bytes[offset] f.bytes[offset + 1])
  else .error (f.flawed (.rangePastEnd 2 offset))

/-- A word. -/
def word (offset : Nat) : Except LoadError UInt32 :=
  if h : offset + 4 ≤ f.bytes.size then
    .ok (f.order.word f.bytes[offset] f.bytes[offset + 1] f.bytes[offset + 2]
      f.bytes[offset + 3])
  else .error (f.flawed (.rangePastEnd 4 offset))

/-- The first offset from `offset` on where there is a zero byte. -/
def terminator? (bytes : ByteArray) (offset : Nat) : Option Nat :=
  if h : offset < bytes.size then
    if bytes[offset] = 0 then some offset else terminator? bytes (offset + 1)
  else none
  termination_by bytes.size - offset

/-- The text up to the next zero byte. -/
def string (offset : Nat) : Except LoadError String :=
  if offset ≤ f.size then
    match terminator? f.bytes offset with
    | some stop => .ok (Lossy.decode (f.bytes.extract offset stop).data.toList)
    | none => .error (f.flawed (.stringUnterminated offset))
  else .error (f.flawed (.stringPastEnd offset))

/-! ### Identification -/

/-- The length of the identification at the start of a file. -/
def identificationSize : Nat := 16

/-- The length of the header, the identification included. -/
def headerSize : Nat := 52

/-- The type of an executable. -/
def executableType : UInt16 := 2

/-- The type of a shared object. -/
def sharedType : UInt16 := 3

/-- The byte order that the identification asks for. -/
def orderOf? (encoding : UInt8) : Option ByteOrder :=
  if encoding = 1 then some .little else if encoding = 2 then some .big else none

/-- A byte of the identification. -/
def identificationByte (bytes : ByteArray) (i : Nat) : UInt8 := bytes[i]?.getD 0

/-- Whether the content starts the way every object file does. -/
def hasMagic (bytes : ByteArray) : Bool :=
  (List.range 4).map (identificationByte bytes) == [0x7f, 0x45, 0x4c, 0x46]

/-- **The object file with a content**, provided that the identification is one of a
32-bit object file, the header is all there, and the type is one that can be loaded. -/
def identify (path : String) (bytes : ByteArray) : Except LoadError ObjectFile := do
  ensure (identificationSize ≤ bytes.size) (.notLoadable path .tooSmall)
  ensure (hasMagic bytes) (.notLoadable path .badMagic)
  let wordClass := identificationByte bytes 4
  ensure (wordClass = 1) (.notLoadable path (.wrongClass wordClass))
  let encoding := identificationByte bytes 5
  match orderOf? encoding with
  | none => .error (.notLoadable path (.badEncoding encoding))
  | some order =>
    let version := identificationByte bytes 6
    ensure (version = 1) (.notLoadable path (.badVersion version))
    ensure (headerSize ≤ bytes.size) (.corrupt path .headerTruncated)
    let f : ObjectFile := ⟨path, order, bytes⟩
    let type ← f.half 16
    ensure (type = executableType ∨ type = sharedType) (.notLoadable path (.badType type))
    return f

/-- The object file that a path leads to. -/
def «open» (fs : FileSystem) (path : String) : Except LoadError ObjectFile :=
  match fs.read path with
  | .ok bytes => identify path bytes
  | .error .notFound => .error (.fileNotFound path none)
  | .error _ => .error (.unreadable path)

end ObjectFile

end ElfLoader
