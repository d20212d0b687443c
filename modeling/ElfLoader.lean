import ElfLoader.Bytes.Order
import ElfLoader.Text.Hex
import ElfLoader.Text.Numeral
import ElfLoader.Text.Lossy
import ElfLoader.Text.Escape
import ElfLoader.Text.Styled
import ElfLoader.Alignment
import ElfLoader.Error
import ElfLoader.Notice
import ElfLoader.Report
import ElfLoader.Text.Fields
import ElfLoader.Text.Occurrence
import ElfLoader.KeyTable
import ElfLoader.FileSystem.Path
import ElfLoader.FileSystem.Basic
import ElfLoader.FileSystem.Edit
import ElfLoader.LibraryPath
import ElfLoader.Object.File
import ElfLoader.Object.Cursor
import ElfLoader.Object.Header
import ElfLoader.Object.Span
import ElfLoader.Object.Segment
import ElfLoader.Object.Section
import ElfLoader.Object.Symbol
import ElfLoader.Object.Version
import ElfLoader.Object.Relocation
import ElfLoader.Object.Dynamic
import ElfLoader.Object.Basic
import ElfLoader.Space.AddressMap
import ElfLoader.Space.Memory
import ElfLoader.Relocation.Processor
import ElfLoader.Program.Graph
import ElfLoader.Program.Loader
import ElfLoader.Program.Placement
import ElfLoader.Program.Needs
import ElfLoader.Program.Compatibility
import ElfLoader.Program.Resolution
import ElfLoader.Program.Linking
import ElfLoader.Program.Run
import ElfLoader.Image.Layout
import ElfLoader.CommandLine.Commands
import ElfLoader.CommandLine.Start
import ElfLoader.Inspector.Answer
import ElfLoader.Main
import ElfLoader.Proofs.Alignment
import ElfLoader.Proofs.Outcomes
import ElfLoader.Proofs.Contents
import ElfLoader.Proofs.Ownership
import ElfLoader.Proofs.Names
import ElfLoader.Proofs.Extent
import ElfLoader.Proofs.Memory
import ElfLoader.Proofs.Mapping
import ElfLoader.Proofs.Placing
import ElfLoader.Proofs.Occupancy
import ElfLoader.Proofs.Starting
import ElfLoader.Proofs.Serving
import ElfLoader.Proofs.Succeeding
import ElfLoader.Proofs.LoadOrder
import ElfLoader.Proofs.LoadedBytes
import ElfLoader.Proofs.Binding
import ElfLoader.Proofs.Patching
import ElfLoader.Proofs.Regions
import ElfLoader.Proofs.Conditions
import ElfLoader.Proofs.Calls
import ElfLoader.Proofs.Closure
import ElfLoader.Proofs.Layout
import ElfLoader.Proofs.LinkSteps
import ElfLoader.Proofs.Heap
import ElfLoader.Proofs.Registry
import ElfLoader.Proofs.Truncation
import ElfLoader.Proofs.Decoding
import ElfLoader.Proofs.VersionChains
import ElfLoader.Proofs.PlannedLayout
import ElfLoader.Proofs.PlannedTags
import ElfLoader.Proofs.PlannedVersions
import ElfLoader.Proofs.PlannedContent
import ElfLoader.Proofs.Drafting
import ElfLoader.Proofs.Recovery
import ElfLoader.Proofs.FirstFit
import ElfLoader.Proofs.Turns
import ElfLoader.Proofs.Relinking
import ElfLoader.Proofs.Opening
import ElfLoader.Proofs.Releasing
import ElfLoader.Proofs.Fixups
import ElfLoader.Proofs.OneLibrary
import ElfLoader.Proofs.Linking
import ElfLoader.Proofs.Copying
import ElfLoader.Proofs.Visibility
import ElfLoader.Proofs.RelocationTables
import ElfLoader.Proofs.Trimming
import ElfLoader.Proofs.TwoViews
import ElfLoader.Proofs.VersionNeeds
import ElfLoader.Proofs.TagOrder
import ElfLoader.Proofs.Searching
import ElfLoader.Proofs.Moving
import ElfLoader.Proofs.Jumps
import ElfLoader.Proofs.Dumping
import ElfLoader.Proofs.Bounds
import ElfLoader.Proofs.Keys
import ElfLoader.Proofs.SymbolTables
import ElfLoader.Proofs.Following
import ElfLoader.Proofs.Tidiness
import ElfLoader.Proofs.Rounding
