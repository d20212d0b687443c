import ElfLoader.Error
import ElfLoader.Text.Styled

/-!
# Notices

While it works, the loader tells the user what it does and what it could not make
sense of. A `ElfLoader.Notice` is one such remark, and `ElfLoader.Notice.text` puts
it into words. Notices never change a result: they are collected beside it, in the
order in which they are given.
-/

namespace ElfLoader

/-- A remark to the user. -/
inductive Notice where
  /-- A segment has a type without a meaning and is left alone. -/
  | unknownSegmentType (value : UInt32)
  /-- The section headers cannot be read and are left alone. -/
  | sectionsIgnored (cause : LoadError)
  /-- The full symbol table cannot be read and is left alone. -/
  | symbolsIgnored (cause : LoadError)
  /-- A relocation table does not end with its last whole entry. -/
  | trailingBytes (path : String) (count offset : Nat)
  /-- A library lacks a version, which does no harm. -/
  | versionMissing (library version wantedBy : String)
  /-- A weak symbol stays undefined. -/
  | weakUndefined (symbol requiredBy : String)
  /-- The executable has its C library built in. -/
  | ownLibrary (name : String)
  /-- The executable names a loader of its own, which is not used. -/
  | interpreterIgnored (path : String)
  /-- An object was placed in memory. -/
  | placed (name : String) (address : UInt32) (path : String)
  /-- A segment of the object that was placed last. -/
  | segmentPlaced (address size : UInt32) (flags : String)
  /-- All relocations were applied. -/
  | linked (relocations objects : Nat)
  /-- The inspector was asked about an object that is not there. -/
  | notLoaded (name : String)
  /-- The inspector was asked about an address that is not there. -/
  | pastMemory (address size : Nat)
  /-- The inspector could not read memory. -/
  | failure (cause : LoadError)
  /-- The program could not be started. -/
  | notStarted (executable reason : String)
  deriving DecidableEq, Repr

/-- The remark in words. -/
def Notice.text : Notice → String
  | unknownSegmentType value => s!"Unknown segment type: {value.toNat}"
  | sectionsIgnored cause => s!"ignoring section headers: {cause.message}"
  | symbolsIgnored cause => s!"ignoring .symtab: {cause.message}"
  | trailingBytes path count offset =>
    s!"{path}: ignoring {count} trailing bytes in relocation table at {Hex.literal offset}"
  | versionMissing library version wantedBy =>
    s!"{library} has no version {version} (wanted by {wantedBy})"
  | weakUndefined symbol requiredBy =>
    s!"weak symbol {symbol} is undefined (required by {requiredBy})"
  | ownLibrary name => s!"{name} has a C library linked in"
  | interpreterIgnored path => s!"ignoring interpreter {path}"
  | placed name address path => s!"loaded {name} at {Hex.literal address.toNat} from {path}"
  | segmentPlaced address size flags =>
    s!"  segment {Hex.literal address.toNat} {Hex.literal size.toNat} bytes {flags}"
  | linked relocations objects => s!"applied {relocations} relocations in {objects} objects"
  | notLoaded name => s!"{name} isn't loaded"
  | pastMemory address size =>
    s!"{Hex.literal address} is past the end of simulated memory ({Hex.literal size})"
  | failure cause => cause.message
  | notStarted executable reason => s!"couldn't load {executable}: {reason}"

/-- The remark as a user sees it: on one line. -/
def Notice.shown (n : Notice) : String := Styled.visible n.text

end ElfLoader
