import ElfLoader.Text.Hex

/-!
# What can go wrong

Loading and linking a program fails for one of the causes in
`ElfLoader.LoadError`. The two causes that concern the content of a file carry a
finer cause of their own: `ElfLoader.Misfit` for a file that is no object file of
the supported kind, `ElfLoader.Flaw` for an object file that contradicts itself.
`ElfLoader.LoadError.message` is the one place where an error is put into words.
-/

namespace ElfLoader

/-! ### Why a file is not an object file that can be loaded -/

/-- Why a file is not a 32-bit object file, or not one that fits the program. -/
inductive Misfit where
  /-- Not even the identification fits into the file. -/
  | tooSmall
  /-- The first four bytes are not the ones every object file starts with. -/
  | badMagic
  /-- The file is for another word size. -/
  | wrongClass (value : UInt8)
  /-- The byte that gives the byte order has no meaning. -/
  | badEncoding (value : UInt8)
  /-- The format version is unknown. -/
  | badVersion (value : UInt8)
  /-- The object is neither an executable nor a shared object. -/
  | badType (value : UInt16)
  /-- The byte order is not the one of the named executable. -/
  | otherOrder (executable : String)
  /-- A reason given in words. -/
  | described (text : String)
  deriving DecidableEq, Repr

/-- The reason in words. -/
def Misfit.message : Misfit → String
  | tooSmall => "file is much too small"
  | badMagic => "bad magic"
  | wrongClass v => s!"class {v.toNat} is not ELFCLASS32"
  | badEncoding v => s!"bad data encoding: {v.toNat}"
  | badVersion v => s!"bad elf version: {v.toNat}"
  | badType v => s!"type {v.toNat} is not an executable or shared object"
  | otherOrder executable => s!"byte order differs from {executable}"
  | described text => text

/-! ### How an object file contradicts itself -/

/-- What is wrong inside an object file. -/
inductive Flaw where
  /-- The file ends within its header. -/
  | headerTruncated
  /-- A run of bytes does not lie within the file. -/
  | rangePastEnd (size offset : Nat)
  /-- A single byte does not lie within the file. -/
  | byteMissing (offset : Nat)
  /-- A string starts behind the end of the file. -/
  | stringPastEnd (offset : Nat)
  /-- No zero byte ends a string before the file ends. -/
  | stringUnterminated (offset : Nat)
  /-- The entries of the program header table are too small. -/
  | programEntrySize (size : UInt16)
  /-- The entries of the section header table are too small. -/
  | sectionEntrySize (size : UInt16)
  /-- A segment has more bytes in the file than in memory. -/
  | fileLargerThanMemory (address : UInt32)
  /-- A segment reaches past the top of the address space. -/
  | segmentWraps (address : UInt32)
  /-- Nothing is to be loaded. -/
  | nothingToLoad
  /-- The segments need more than the address space. -/
  | spanTooLarge
  /-- Names are used, but no string table is given. -/
  | stringTableMissing
  /-- Nothing says how many dynamic symbols there are. -/
  | symbolCountUnknown
  /-- An address has no byte in the file. -/
  | notInFile (address : UInt32)
  /-- A table is given by its address, but not its size. -/
  | tableWithoutSize (tag address : UInt32)
  /-- The form of the procedure linkage relocations is unknown. -/
  | badPltForm (value : UInt32)
  /-- The form of the procedure linkage relocations is not given. -/
  | pltFormMissing
  /-- The named tag gives a wrong size for the entries of a table. -/
  | entrySize (tag : String) (size : UInt32) (expected : Nat)
  /-- A record of version definitions has an unknown layout. -/
  | verdefLayout (value : UInt16)
  /-- A record of version needs has an unknown layout. -/
  | verneedLayout (value : UInt16)
  /-- A relocation table does not lie within the file. -/
  | relocationsPastEnd (offset size : Nat)
  /-- A relocation names a symbol that does not exist. -/
  | symbolMissing (relocation symbol count : Nat)
  /-- More objects are needed than can be told apart. -/
  | tooManyLibraries
  /-- A reason given in words. -/
  | described (text : String)
  deriving DecidableEq, Repr

/-- The flaw in words. -/
def Flaw.message : Flaw → String
  | headerTruncated => "ELF header is truncated"
  | rangePastEnd size offset => s!"{size} bytes at offset {Hex.literal offset} are past the end"
  | byteMissing offset => s!"no byte at offset {Hex.literal offset}"
  | stringPastEnd offset => s!"string at {Hex.literal offset} is past the end"
  | stringUnterminated offset => s!"string at {Hex.literal offset} isn't terminated"
  | programEntrySize size => s!"program header entries are {size.toNat} bytes"
  | sectionEntrySize size => s!"section header entries are {size.toNat} bytes"
  | fileLargerThanMemory address =>
    s!"segment at {Hex.literal address.toNat} has more file bytes than memory bytes"
  | segmentWraps address => s!"segment at {Hex.literal address.toNat} wraps"
  | nothingToLoad => "no loadable segments"
  | spanTooLarge => "loadable segments span the whole address space"
  | stringTableMissing => "dynamic section has no string table"
  | symbolCountUnknown => "can't tell how many dynamic symbols there are"
  | notInFile address => s!"address {Hex.literal address.toNat} isn't in the file"
  | tableWithoutSize tag address =>
    s!"dynamic tag {tag.toNat} at {Hex.literal address.toNat} has no size"
  | badPltForm value => s!"bad DT_PLTREL: {value.toNat}"
  | pltFormMissing => "DT_JMPREL without DT_PLTREL"
  | entrySize tag size expected => s!"{tag} is {size.toNat}, expected {expected}"
  | verdefLayout value => s!"unknown verdef version {value.toNat}"
  | verneedLayout value => s!"unknown verneed version {value.toNat}"
  | relocationsPastEnd offset size =>
    s!"relocation table at {Hex.literal offset} ({size} bytes) is past the end"
  | symbolMissing relocation symbol count =>
    s!"relocation {relocation} refers to symbol {symbol} of {count}"
  | tooManyLibraries => "too many libraries"
  | described text => text

/-! ### The errors -/

/-- Everything that can go wrong while a program is loaded and linked. -/
inductive LoadError where
  /-- The executable, or a library that another object needs, was not found. -/
  | fileNotFound (name : String) (neededBy : Option String)
  /-- A file is there but cannot be read. -/
  | unreadable (path : String)
  /-- A file is not a 32-bit object file that fits the program. -/
  | notLoadable (path : String) (reason : Misfit)
  /-- An object is for another processor than the simulated one. -/
  | unsupportedMachine (path : String) (machine expected : UInt16)
  /-- An object file is cut off or contradicts itself. -/
  | corrupt (path : String) (flaw : Flaw)
  /-- Simulated memory has no room, at the start if one was asked for. -/
  | noSpace (start : Option UInt32) (size : UInt32)
  /-- An access does not lie within simulated memory. -/
  | outOfRange (address : UInt32) (length : Nat)
  /-- No object defines a symbol that has to be defined. -/
  | undefinedSymbol (name requiring : String) (relocation : Nat)
  /-- The processor has no relocation of this type. -/
  | unknownRelocation (type : UInt32) (library : String) (relocation : Nat)
  /-- A library lacks a version that is needed, of the symbol if one is named. -/
  | versionMismatch (symbol : Option String) (version library requiredBy : String)
  /-- The configuration cannot work. -/
  | badConfig (reason : String)
  /-- A phase was asked for out of turn. -/
  | phaseOrder (phase state : String)
  deriving DecidableEq, Repr

namespace LoadError

/-- The error in words. -/
def message : LoadError → String
  | fileNotFound name none => s!"couldn't find {name}"
  | fileNotFound name (some by_) => s!"couldn't find library {name} (needed by {by_})"
  | unreadable path => s!"couldn't read {path}"
  | notLoadable path reason => s!"{path} is not a 32-bit ELF file: {reason.message}"
  | unsupportedMachine path machine expected =>
    s!"{path} is for machine {machine.toNat} but the simulator expects {expected.toNat}"
  | corrupt path flaw => s!"{path} is truncated or corrupt: {flaw.message}"
  | noSpace start size =>
    let place := match start with
      | some s => s!" at {Hex.literal s.toNat}"
      | none => ""
    s!"no space in simulated memory for {Hex.literal size.toNat} bytes{place}"
  | outOfRange address length =>
    s!"access of {length} bytes at {Hex.literal address.toNat} is outside simulated memory"
  | undefinedSymbol name requiring relocation =>
    s!"undefined symbol {name} (required by {requiring}, relocation {relocation})"
  | unknownRelocation type library relocation =>
    s!"unknown relocation type {type.toNat} in {library} (relocation {relocation})"
  | versionMismatch (some symbol) version library requiredBy =>
    s!"{library} has no version {version} of {symbol} (required by {requiredBy})"
  | versionMismatch none version library requiredBy =>
    s!"version {version} not found in {library} (required by {requiredBy})"
  | badConfig reason => s!"bad loader configuration: {reason}"
  | phaseOrder phase state => s!"can't {phase}: the loader is {state}"

/-- Names the object and the relocation in an error about a relocation's type.
What decides on types knows neither; every other error is complete already. -/
def inRelocation (name : String) (index : Nat) : LoadError → LoadError
  | unknownRelocation type _ _ => unknownRelocation type name index
  | e => e

end LoadError

end ElfLoader
