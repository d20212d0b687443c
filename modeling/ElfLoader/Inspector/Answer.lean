import ElfLoader.Inspector.Command
import ElfLoader.Inspector.Table
import ElfLoader.Program.Loader

/-!
# The answers of the inspector

`ElfLoader.Inspector.answer` carries out a command on a loaded program. It changes
nothing: an answer is some lines of text and some notices.

* `ElfLoader.Inspector.libraries` – a row for each object;
* `ElfLoader.Inspector.regions` – a row for each region of memory;
* `ElfLoader.Inspector.program` – what starts the program;
* `ElfLoader.Inspector.symbols` – a row for each symbol that others can bind to;
* `ElfLoader.Inspector.dump` – memory, sixteen bytes a line.
-/

namespace ElfLoader

/-- What a user is shown. -/
structure Answer where
  /-- The lines of text. -/
  lines : List String
  /-- The notices. -/
  notices : List Notice
  deriving Inhabited

namespace Inspector

/-- An answer without notices. -/
def display (lines : List String) : Answer := ⟨lines, []⟩

/-- An answer that is only a notice. -/
def tell (n : Notice) : Answer := ⟨[], [n]⟩

variable (l : Loader)

/-! ### Libraries -/

/-- The columns of the table of objects. -/
def libraryColumns : List Column :=
  [⟨"name", .left, "the name the object was loaded under"⟩,
    ⟨"start", .right, "first simulated address of the object"⟩,
    ⟨"size", .right, "bytes reserved for the object (hex)"⟩,
    ⟨"base", .right, "added to link time addresses, zero for objects linked at fixed addresses"⟩,
    ⟨"relocs", .right, "number of relocations applied to the object"⟩,
    ⟨"needs", .left, "objects named by DT_NEEDED entries"⟩,
    ⟨"path", .left, "the file the object was read from"⟩]

/-- The row of an object with a number of relocations. -/
def libraryRow (n : Node) (relocations : Nat) : List String :=
  [n.name, Hex.digits n.range.start.toNat, Hex.digits n.range.size.toNat,
    Hex.digits n.base.toNat, toString relocations, " ".intercalate (n.deps.map l.graph.nameOf),
    n.object.path]

/-- The table of objects. Counting relocations can give notices. -/
def libraries (style : TableStyle) : Answer :=
  let counts := l.graph.toList.map fun n => (n, n.object.relocationCount)
  let rows := counts.map fun c => libraryRow l c.1 (c.2.result.toOption.getD 0)
  ⟨TextTable.lines ⟨libraryColumns, rows⟩ style.titles style.explain,
    counts.flatMap (·.2.notices)⟩

/-! ### Regions -/

/-- The columns of the table of regions. -/
def regionColumns : List Column :=
  [⟨"start", .left, "first address in the region"⟩,
    ⟨"end", .left, "address just past the region"⟩,
    ⟨"size", .right, "size of the region (hex)"⟩,
    ⟨"owner", .left, "the object, the stack, the guard page at zero, or free"⟩]

/-- The owner of a region in words; an object is given by its name. -/
def ownerName (r : Region) : String :=
  match r.owner with
  | some (.object key) => l.graph.nameOf key
  | _ => r.ownerText

/-- The row of a region. -/
def regionRow (r : Region) : List String :=
  [Hex.padded 8 r.start, Hex.padded 8 r.stop, Hex.digits r.size, ownerName l r]

/-- The table of regions. -/
def regions (style : TableStyle) : Answer :=
  display (TextTable.lines ⟨regionColumns, l.map.regions.map (regionRow l)⟩ style.titles
    style.explain)

/-! ### The program -/

/-- An address that may be missing. -/
def addressText (address : Option UInt32) : String :=
  match address with
  | some a => Hex.literal a.toNat
  | none => "none"

/-- A table of functions that may be missing. -/
def arrayText (table : Option TableRef) : String :=
  match table with
  | some t => s!"{Hex.literal t.address.toNat} ({t.size.toNat / 4} entries)"
  | none => "none"

/-- What is known about the program. -/
def programFacts : List Fact :=
  let p := l.program
  [⟨"entry", Hex.literal p.entry.toNat, "where execution starts"⟩,
    ⟨"init", addressText p.initCode, "DT_INIT function, run before the init array"⟩,
    ⟨"preinit array", arrayText p.preinitArray, "functions run before anything else"⟩,
    ⟨"init array", arrayText p.initArray, "functions run before the entry point"⟩,
    ⟨"fini array", arrayText p.finiArray, "functions run at exit, last entry first"⟩,
    ⟨"fini", addressText p.finiCode, "DT_FINI function, run after the fini array"⟩,
    ⟨"heap start", Hex.literal p.heapStart.toNat,
      "first address past the loaded objects, for brk"⟩,
    ⟨"static libc", toString p.ownLibrary, "the executable has a C library linked into it"⟩,
    ⟨"endian", l.order.name, "byte order of the program"⟩,
    ⟨"host endian", toString l.order.matchesHost,
      "target words can be used as is on the host"⟩,
    ⟨"machine", Machine.name l.processor.machine, "CPU the relocations were applied for"⟩]

/-- How a program starts. -/
def startOrder : String :=
  "start up: the preinit array, init, and the init array run in that order before entry"

/-- The functions to run at the start, read from memory. -/
def initFunctions : Answer :=
  match l.program.initArray with
  | none => display []
  | some t =>
    match l.readTable t with
    | .ok functions =>
      display ["init array: " ++ " ".intercalate (functions.map fun f => Hex.literal f.toNat)]
    | .error e => tell (.failure e)

/-- What starts the program. -/
def program (explain : Bool) : Answer :=
  let functions := initFunctions l
  ⟨Fact.lines (programFacts l) explain ++ (if explain then [startOrder] else []) ++
    functions.lines, functions.notices⟩

/-! ### Symbols -/

/-- The columns of the table of symbols. -/
def symbolColumns : List Column :=
  [⟨"address", .right, "simulated address of the definition"⟩,
    ⟨"size", .right, "size of the symbol in bytes (decimal)"⟩,
    ⟨"type", .left, "func, object, etc"⟩,
    ⟨"binding", .left, "global or weak"⟩,
    ⟨"version", .left, "the version the definition belongs to, if any"⟩,
    ⟨"library", .left, "the object with the definition"⟩,
    ⟨"name", .left, "the symbol name"⟩]

/-- The version of a definition in words. -/
def versionText (version : Option (String × Bool)) : String :=
  match version with
  | some (name, true) => name ++ " (hidden)"
  | some (name, false) => name
  | none => ""

/-- The row of the symbol at a position of an object. -/
def symbolRow (n : Node) (s : Symbol) (position : Nat) : List String :=
  [Hex.digits (s.address n.base).toNat, toString s.size.toNat, s.type.name.toLower,
    s.binding.name.toLower, versionText (n.object.versions.defined? position), n.name, s.name]

/-- The rows of the symbols of an object that others can bind to. -/
def symbolRows (n : Node) : List (List String) :=
  (n.object.symbols.entries.toList.zipIdx.filter fun s => s.1.isExported).map fun s =>
    symbolRow n s.1 s.2

/-- The table of the symbols of some objects. -/
def symbolTable (nodes : List Node) (style : TableStyle) : Answer :=
  display (TextTable.lines ⟨symbolColumns, nodes.flatMap symbolRows⟩ style.titles style.explain)

/-- The table of symbols, of all objects or of one. -/
def symbols (library : Option String) (style : TableStyle) : Answer :=
  match library with
  | none => symbolTable l.graph.toList style
  | some name =>
    match l.graph.find? name with
    | none => tell (.notLoaded name)
    | some key => symbolTable (l.graph.toList.filter fun n => n.key == key) style

/-! ### Memory -/

/-- A line shows this many bytes. -/
def lineLength : Nat := 16

/-- The label of a line that starts `offset` bytes behind an address. -/
def label (labels : DumpLabels) (address offset : Nat) : String :=
  match labels with
  | .none => ""
  | .address => Hex.padded 8 (address + offset) ++ ": "
  | .offset => Hex.padded 4 offset ++ ": "

/-- The digits of bytes, each followed by a blank. -/
def digits (bytes : List UInt8) : String := String.join (bytes.map fun b => Hex.byte b ++ " ")

/-- The digits of the bytes of a line, with a gap in the middle. -/
def digitColumns (bytes : List UInt8) : String :=
  let second := bytes.drop (lineLength / 2)
  digits (bytes.take (lineLength / 2)) ++ (if second.isEmpty then "" else " " ++ digits second)

/-- The character of a byte: a dot, unless the byte is that of a visible character. -/
def glyph (b : UInt8) : Char :=
  if 0x21 ≤ b ∧ b ≤ 0x7e then Char.ofNat b.toNat else '.'

/-- A line of a dump. -/
def dumpLine (labels : DumpLabels) (address offset : Nat) (bytes : List UInt8) : String :=
  label labels address offset ++ digitColumns bytes ++ "  " ++ String.ofList (bytes.map glyph)

/-- Cuts bytes into `count` lines. -/
def dumpLines (labels : DumpLabels) (address : Nat) : (count offset : Nat) → List UInt8 →
    List String
  | 0, _, _ => []
  | count + 1, offset, bytes =>
    dumpLine labels address offset (bytes.take lineLength) ::
      dumpLines labels address count (offset + lineLength) (bytes.drop lineLength)

/-- The lines of a dump of bytes that lie at an address. -/
def dumpOf (labels : DumpLabels) (address : Nat) (bytes : List UInt8) : List String :=
  dumpLines labels address ((bytes.length + lineLength - 1) / lineLength) 0 bytes

/-- A dump of memory, as far as there is memory. -/
def dump (address count : Nat) (labels : DumpLabels) : Answer :=
  if l.memory.size ≤ address then tell (.pastMemory address l.memory.size)
  else
    let length := min count (l.memory.size - address)
    match l.memory.read (UInt32.ofNat address) length with
    | .ok bytes => display (dumpOf labels address bytes)
    | .error e => tell (.failure e)

/-! ### All commands -/

/-- **What a command shows.** The end shows nothing. -/
def answer : Command → Answer
  | .libraries style => libraries l style
  | .regions style => regions l style
  | .program explain => program l explain
  | .symbols library style => symbols l library style
  | .dump address count labels => dump l address count labels
  | .quit => display []

end Inspector

end ElfLoader
