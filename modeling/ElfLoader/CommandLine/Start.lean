import ElfLoader.CommandLine.Grammar
import ElfLoader.Program.Run

/-!
# Starting a program

The command line names an executable and how to load it (`ElfLoader.StartOptions`);
`ElfLoader.StartOptions.load` makes a loader and runs all its phases. Without a
processor on the command line, the header of the executable says which one is
simulated.
-/

namespace ElfLoader

/-! ### The command line -/

/-- What a user asks for. -/
structure StartOptions where
  /-- The path of the executable. -/
  executable : String
  /-- How many bytes of memory are simulated. -/
  memorySize : Nat
  /-- Where libraries are looked for, if the environment shall not say. -/
  libraryPath : Option String
  /-- The name of the processor, if the executable shall not say. -/
  processor : Option String
  /-- How many bytes at the top of memory belong to the stack. -/
  stackSize : Nat
  /-- Whether progress is reported. -/
  verbose : Bool
  deriving DecidableEq, Repr, Inhabited

namespace StartOptions

/-- What can be given on the command line. -/
def grammar : Grammar where
  options := [⟨"memory-size", none, .value .number⟩, ⟨"library-path", none, .value .text⟩,
    ⟨"arch", none, .value .text⟩, ⟨"stack-size", none, .value .number⟩,
    ⟨"verbose", some 'v', .flag⟩, .help, .version]
  operand := some ⟨"exe", .path⟩

/-- The memory that is simulated unless a user chooses otherwise. -/
def standardMemorySize : Nat := 0x1000000

/-- What the arguments ask for. -/
def ofGiven (given : Given) : StartOptions where
  executable := (given.lookup "exe").getD ""
  memorySize := given.number "memory-size" standardMemorySize
  libraryPath := given.lookup "library-path"
  processor := given.lookup "arch"
  stackSize := given.number "stack-size" Config.standardStackSize.toNat
  verbose := given.has "verbose"

/-- What the words of a command line ask for. -/
def parse (words : List String) : Except UsageError StartOptions :=
  ofGiven <$> grammar.parse words

end StartOptions

/-! ### Why a program is not started -/

/-- Why a program is not started. -/
inductive StartFailure where
  /-- It cannot be loaded. -/
  | load (cause : LoadError)
  /-- No processor has the name. -/
  | unknownProcessor (name : String)
  /-- The processor of the executable cannot be simulated. -/
  | unsupportedProcessor (machine : UInt16)
  /-- More memory is asked for than 32 bits can address. -/
  | memoryTooLarge
  /-- The size of the stack does not fit into 32 bits. -/
  | stackTooLarge
  deriving DecidableEq, Repr

/-- The failure in words. -/
def StartFailure.message : StartFailure → String
  | load cause => cause.message
  | unknownProcessor name => s!"unknown arch {name}"
  | unsupportedProcessor machine =>
    s!"no relocation support for {Machine.name machine} ({machine.toNat}), try --arch"
  | memoryTooLarge => "--memory-size can be at most 4 GiB"
  | stackTooLarge => "number too large to fit in target type"

/-- What comes of the attempt to start a program, with the notices given on the way. -/
structure StartOutcome where
  /-- The loader with the program, or why there is none. -/
  result : Except StartFailure Loader
  /-- What was said, in order. -/
  notices : List Notice

/-! ### The start -/

namespace StartOptions

variable (o : StartOptions)

/-- The processor that the header of the executable asks for. -/
def headerProcessor (fs : FileSystem) : Except StartFailure Processor := do
  let h ← (do Header.read (← ObjectFile.open fs o.executable)).mapError .load
  match Processor.ofMachine? h.machine with
  | some p => return p
  | none => throw (.unsupportedProcessor h.machine)

/-- The processor that is simulated. -/
def chosenProcessor (fs : FileSystem) : Except StartFailure Processor :=
  match o.processor with
  | none => o.headerProcessor fs
  | some name =>
    match Processor.ofName? name with
    | some p => .ok p
    | none => .error (.unknownProcessor name)

/-- The configuration that the options ask for in an environment. -/
def config (environment : Environment) : Config where
  libraryPath := match o.libraryPath with
    | some text => .parse text
    | none => (Config.ofEnvironment environment).libraryPath
  pageSize := Config.standardPageSize
  stackSize := UInt32.ofNat o.stackSize
  verbose := o.verbose

/-- The loader that the options ask for. -/
def newLoader (fs : FileSystem) (environment : Environment) : Except StartFailure Loader := do
  let processor ← o.chosenProcessor fs
  if Loader.addressSpace < o.memorySize then throw .memoryTooLarge
  if Loader.addressSpace ≤ o.stackSize then throw .stackTooLarge
  return Loader.new (o.config environment) processor (.zeroed o.memorySize)

/-- **Starts a program**: all phases of loading are run. -/
def load (fs : FileSystem) (environment : Environment) : StartOutcome :=
  match o.newLoader fs environment with
  | .error e => ⟨.error e, []⟩
  | .ok l =>
    let outcome := (Loader.loadAndLink fs o.executable).run l
    ⟨(outcome.result.mapError .load).map fun _ => outcome.state, outcome.notices⟩

/-- What a user is told about a program that is not started. -/
def failureNotice (e : StartFailure) : Notice := .notStarted o.executable e.message

end StartOptions

end ElfLoader
