import ElfLoader.FileSystem.Edit

/-!
# The style file

Users can choose the colors of what they are shown in a file below their home
directory. It is written with the standard colors unless something is there already
(`ElfLoader.StyleFile.create`); whatever is there is left alone.
-/

namespace ElfLoader

/-- How one kind of text is shown. -/
structure TextStyle where
  /-- The kind of text. -/
  element : String
  /-- Its color. -/
  color : String
  /-- Whether it is bold. -/
  bold : Bool
  deriving DecidableEq, Repr, Inhabited

namespace TextStyle

/-- The lines of the style file that give the style. -/
def lines (s : TextStyle) : List String :=
  [s!"@element \"{s.element}\" \x7b", s!"    fg: {s.color};"] ++
    (if s.bold then ["    decoration: bold;"] else []) ++ ["\x7d"]

/-- The standard styles. -/
def standard : List TextStyle :=
  [⟨"explain title", "blue", true⟩, ⟨"explain text", "white", false⟩,
    ⟨"hex offset", "cyan", false⟩, ⟨"hex hex", "white", false⟩, ⟨"hex ascii", "green", false⟩,
    ⟨"table header", "blue", true⟩, ⟨"table separator", "blue", false⟩,
    ⟨"table field", "white", false⟩, ⟨"note", "cyan", false⟩, ⟨"warn", "red", true⟩]

end TextStyle

namespace StyleFile

/-- The standard content of the style file: the styles with empty lines between them. -/
def content : String :=
  "\n".intercalate (TextStyle.standard.map fun s => String.join (s.lines.map (· ++ "\n")))

/-- The directory of the style file. -/
def directory (home : String) : String := Path.join home ".simrtld"

/-- The path of the style file. -/
def path (home : String) : String := Path.join (directory home) "styles.tcss"

/-- What a user is told if something cannot be created. -/
def complaint (path : String) : String := s!"couldn't create {path}"

/-- Writes the style file below a home directory, unless something is there. Gives what a
user is told. -/
def create (fs : FileSystem) (home : String) : FileSystem × List String :=
  match fs.makeDirectories [home, directory home] with
  | .error _ => (fs, [complaint (directory home)])
  | .ok fs =>
    match fs.createFile (path home) content.toUTF8 with
    | .ok fs => (fs, [])
    | .error .exists_ => (fs, [])
    | .error (.parent _) => (fs, [complaint (path home)])

end StyleFile

end ElfLoader
