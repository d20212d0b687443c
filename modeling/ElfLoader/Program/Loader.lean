import ElfLoader.LibraryPath
import ElfLoader.Program.Graph
import ElfLoader.Relocation.Processor
import ElfLoader.Space.AddressMap

/-!
# The state of a loader

A program is loaded in four phases, each of them once and in this order: the
executable is placed, the libraries are placed, all relocations are applied, and the
information that starts the program is collected. An `ElfLoader.Loader` is the state
that the phases work on; `ElfLoader.Phase` says how far it is.
-/

namespace ElfLoader

/-! ### Configuration -/

/-- What a user can choose. -/
structure Config where
  /-- Where libraries are looked for. -/
  libraryPath : LibraryPath
  /-- The alignment of shared objects. -/
  pageSize : UInt32
  /-- How many bytes at the top of memory belong to the stack. -/
  stackSize : UInt32
  /-- Whether progress is reported. -/
  verbose : Bool
  deriving Repr, Inhabited

namespace Config

/-- The page size that is used unless a user chooses another. -/
def standardPageSize : UInt32 := 4096

/-- The stack size that is used unless a user chooses another. -/
def standardStackSize : UInt32 := 0x10000

/-- What is used unless a user chooses otherwise. -/
def standard : Config := ⟨.empty, standardPageSize, standardStackSize, false⟩

/-- What is used in an environment unless a user chooses otherwise. -/
def ofEnvironment (environment : Environment) : Config :=
  { standard with libraryPath := .ofVariables environment LibraryPath.variableNames }

/-- Refuses a page size that is no power of two, as it is used for alignment. -/
def check (c : Config) : Except LoadError Unit :=
  ensure (isPowerOfTwo c.pageSize.toNat)
    (.badConfig s!"page size {Hex.literal c.pageSize.toNat} isn't a power of two")

end Config

/-! ### Phases -/

/-- How far a loader is. -/
inductive Phase where
  | created
  | initiated
  | loaded
  | linked
  | finalized
  deriving DecidableEq, Repr, Inhabited

/-- The phase in words. -/
def Phase.text : Phase → String
  | created => "not initiated"
  | initiated => "initiated"
  | loaded => "loaded"
  | linked => "linked"
  | finalized => "finalized"

/-! ### What starts a program -/

/-- What is needed to start a program and to stop it. All addresses are addresses in
memory. -/
structure ProgramInfo where
  /-- Where the program starts to run. -/
  entry : UInt32
  /-- The function to run at the start. -/
  initCode : Option UInt32
  /-- The function to run at the end. -/
  finiCode : Option UInt32
  /-- Functions to run before anything else. -/
  preinitArray : Option TableRef
  /-- Functions to run at the start. -/
  initArray : Option TableRef
  /-- Functions to run at the end. -/
  finiArray : Option TableRef
  /-- Whether the executable has its C library built in. -/
  ownLibrary : Bool
  /-- Where memory that the program asks for can start. -/
  heapStart : UInt32
  deriving DecidableEq, Repr, Inhabited

/-- What is known before a program is loaded. -/
def ProgramInfo.unknown : ProgramInfo := ⟨0, none, none, none, none, none, false, 0⟩

/-! ### The loader -/

/-- The state of a loader. What memory is and what relocations mean is fixed here to what the
loader comes with: a memory of bytes that are all within reach, and the table of a processor. A
loader for other memories or other meanings would have both as parameters. -/
structure Loader where
  /-- What the user chose. -/
  config : Config
  /-- What relocations mean. -/
  processor : Processor
  /-- The memory that the program is placed in. -/
  memory : Memory
  /-- Who owns which addresses of it. -/
  map : AddressMap
  /-- The loaded objects. -/
  graph : ObjectGraph
  /-- How far the loader is. -/
  phase : Phase
  /-- The byte order of the program. -/
  order : ByteOrder
  /-- The full symbol table of an executable that has its C library built in. -/
  ownSymbols : Option SymbolTable
  /-- What starts the program. -/
  program : ProgramInfo
  deriving Inhabited

namespace Loader

/-- The number of addresses that 32 bits can tell apart. -/
def addressSpace : Nat := 4294967296

/-- A loader that has loaded nothing. -/
def new (config : Config) (processor : Processor) (memory : Memory) : Loader where
  config
  processor
  memory
  map := .free (min memory.size addressSpace)
  graph := .empty
  phase := .created
  order := .host
  ownSymbols := none
  program := .unknown

/-- Work on a loader. -/
abbrev Work := Stage Loader

/-- Gives notices, if progress is reported. -/
def report (notices : List Notice) : Work Unit := do
  if (← Stage.state).config.verbose then Stage.notes notices

/-- Refuses to go on unless the loader is as far as expected. -/
def enter (expected : Phase) (activity : String) : Work Unit := fun l =>
  Stage.ofExcept (ensure (l.phase = expected) (.phaseOrder activity l.phase.text)) l

/-- The next `count` words from an address on, after those already read, the last one first. Reading
stops at the first word that cannot be read. -/
def readWords (l : Loader) : Nat → UInt32 → List UInt32 → Except LoadError (List UInt32)
  | 0, _, read => .ok read.reverse
  | count + 1, address, read => do
    let word ← l.memory.readWord address l.order
    l.readWords count (address + 4) (word :: read)

/-- The words in a table of the program, such as the functions to run at the start. -/
def readTable (l : Loader) (t : TableRef) : Except LoadError (List UInt32) :=
  l.readWords (t.size.toNat / 4) t.address []

end Loader

end ElfLoader
