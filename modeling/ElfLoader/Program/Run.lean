import ElfLoader.Program.Linking
import ElfLoader.Text.Occurrence

/-!
# The phases of loading

* `ElfLoader.Loader.initiate` – places the executable, the stack and the guard page;
* `ElfLoader.Loader.loadLibraries` – places everything that is needed;
* `ElfLoader.Loader.link` – applies all relocations;
* `ElfLoader.Loader.finalize` – collects what starts the program.

Each phase runs once, after the one before it (`ElfLoader.Loader.enter`), and
`ElfLoader.Loader.loadAndLink` runs them all. A phase that fails leaves behind what
it did until then, but the loader is no further than before.
-/

namespace ElfLoader.Loader

/-! ### The executable -/

/-- What a C library leaves in the executables that it is built into. -/
def librarySignature : List UInt8 :=
  [0x47, 0x4e, 0x55, 0x20, 0x43, 0x20, 0x4c, 0x69, 0x62, 0x72, 0x61, 0x72, 0x79]

/-- The symbol that starts a program with a C library. -/
def librarySymbol : String := "__libc_start_main"

/-- Whether a table defines the symbol that starts a program. -/
def definesStart (table : SymbolTable) : Bool :=
  (table.find librarySymbol).any fun position =>
    match table.get? position with
    | some s => s.isDefined
    | none => false

/-- Whether an object has its C library built in, and if so its full symbol table. An
object that needs libraries has not. -/
def builtIn (o : Object) : Report (Option (Option SymbolTable)) :=
  if !o.needed.isEmpty then pure none
  else do
    let symbols ← o.staticSymbols
    let starts := match symbols with
      | some table => definesStart table
      | none => false
    if starts || occursIn librarySignature o.file.bytes.data.toList then return some symbols
    else return none

/-- The name of an executable: that of its file. -/
def executableName (path : String) : String := (Path.fileName? path).getD path

/-- Changes the owners of addresses. -/
def claim (f : AddressMap → Except LoadError AddressMap) : Work Unit :=
  Stage.attempt fun l => do return { l with map := ← f l.map }

/-- Reserves the stack at the top of memory. -/
def reserveStack (size : UInt32) (m : AddressMap) : Except LoadError AddressMap := do
  if size = 0 then return m
  else
    ensure (size.toNat ≤ m.size) (.noSpace none size)
    m.reserve (UInt32.ofNat (m.size - size.toNat)) size .stack

/-- Reserves the page at zero, unless the executable was linked to lie there. -/
def reserveGuard (o : Object) (pageSize : UInt32) (m : AddressMap) :
    Except LoadError AddressMap :=
  if o.isShared || pageSize ≤ o.extent.start then m.reserve 0 pageSize .guard else .ok m

/-- Takes note of a C library that is built into the executable. -/
def noteLibrary (name : String) (o : Object) : Work Unit := do
  match ← Stage.ofReport (builtIn o) with
  | none => return ()
  | some symbols =>
    report [.ownLibrary name]
    Stage.update fun l =>
      { l with program := { l.program with ownLibrary := true }, ownSymbols := symbols }

/-- Takes note of the loader that the executable asks for. -/
def noteInterpreter (o : Object) : Work Unit :=
  match o.interpreter with
  | none => pure ()
  | some path => report [.interpreterIgnored path]

/-- The address where the executable starts to run. -/
def entryOf (g : ObjectGraph) (key : Key) : UInt32 :=
  match g.get? key with
  | some n => n.relocate n.object.header.entry
  | none => 0

/-- **The first phase**: places the executable. Gives the address where it starts. -/
def initiate (fs : FileSystem) (path : String) : Work UInt32 := do
  enter .created "initiate"
  let l ← Stage.state
  Stage.ofExcept l.config.check
  let name := executableName path
  let o ← Stage.ofReport (Object.open fs path l.config.pageSize.toNat)
  Stage.ofExcept (l.admissible o)
  Stage.update fun l => { l with order := o.file.order }
  claim (reserveStack l.config.stackSize)
  claim (reserveGuard o l.config.pageSize)
  noteLibrary name o
  noteInterpreter o
  let key ← place fs name o
  Stage.update fun l =>
    { l with program := { l.program with entry := entryOf l.graph key }, phase := .initiated }
  return (← Stage.state).program.entry

/-! ### The libraries -/

/-- Whether a region lies in the way of memory that the program asks for. -/
def blocksHeap (r : Region) : Bool :=
  match r.owner with
  | some (.object _) | some .guard => true
  | _ => false

/-- The alignment of memory that the program asks for. -/
def heapAlignment : Nat := 8

/-- The first aligned address behind all objects. -/
def heapStart (m : AddressMap) : UInt32 :=
  let stop := (((m.regions.filter blocksHeap).map (·.stop)).max?).getD 0
  UInt32.ofNat (min (alignUp stop heapAlignment) 4294967295)

/-- **The second phase**: places all libraries that are needed. -/
def loadLibraries (fs : FileSystem) : Work Unit := do
  enter .initiated "load libraries"
  let l ← Stage.state
  serveAll fs (l.graph.requestsOf (Key.ofNat 0))
  let l ← Stage.state
  Stage.ofReport l.graph.checkNeeds
  Stage.update fun l =>
    { l with program := { l.program with heapStart := heapStart l.map }, phase := .loaded }

/-! ### Linking and the end -/

/-- What linking depends on. -/
def linker (l : Loader) : Linker where
  processor := l.processor
  scope := ⟨l.graph, l.ownSymbols⟩
  order := l.order

/-- **The third phase**: applies all relocations. Gives their number. -/
def link : Work Nat := do
  enter .loaded "link"
  let l ← Stage.state
  let count ← Stage.within (·.memory) (fun m l => { l with memory := m })
    (l.linker.linkAll l.graph.toList)
  Stage.update fun l => { l with phase := .linked }
  return count

/-- The information that starts a program, from the dynamic section of its executable. -/
def collect (p : ProgramInfo) (root : Node) (d : Dynamic) : ProgramInfo :=
  let table (t : Option TableRef) : Option TableRef :=
    t.map fun t => { t with address := root.relocate t.address }
  { p with
    initCode := d.initCode.map root.relocate
    finiCode := d.finiCode.map root.relocate
    preinitArray := table d.preinitArray
    initArray := table d.initArray
    finiArray := table d.finiArray }

/-- What is known about the program in the end. -/
def finalInfo (l : Loader) : ProgramInfo :=
  match l.graph.root? with
  | none => l.program
  | some root =>
    match root.object.dynamic with
    | none => l.program
    | some d => collect l.program root d

/-- **The last phase**: collects what starts the program. -/
def finalize : Work ProgramInfo := do
  enter .linked "finalize"
  Stage.update fun l => { l with program := l.finalInfo, phase := .finalized }
  return (← Stage.state).program

/-- **All phases.** -/
def loadAndLink (fs : FileSystem) (path : String) : Work ProgramInfo := do
  let _ ← initiate fs path
  loadLibraries fs
  let count ← link
  report [.linked count (← Stage.state).graph.size]
  finalize

end ElfLoader.Loader
