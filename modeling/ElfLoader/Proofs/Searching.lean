import ElfLoader.LibraryPath
import ElfLoader.Proofs.TextOrder

/-!
# Which file is found

A name is looked for in one directory after the other, and the first that has anything for it
decides (`ElfLoader.FileSystem.Has`): the file of just that name, and failing that the file with
the least name among those whose names contain it (`ElfLoader.FileSystem.Least`). Names are
compared byte by byte.

What is found is told by what stands in the directories, whatever order they are listed in. So it
stays the same when they are listed in another one (`ElfLoader.FileSystem.Relists`).
-/

namespace ElfLoader

variable {fs fs' : FileSystem} {name directory candidate found : String}

/-! ### What a directory has -/

namespace FileSystem

/-- **A path leads to a directory that can be listed**, at a place. -/
structure Readable (fs : FileSystem) (directory : String) (place : Location) : Prop where
  /-- The path leads to the place. -/
  locate_eq : fs.locate directory = .ok place
  /-- There is a directory. -/
  entry?_eq : fs.entry? place = some .directory
  /-- It can be listed. -/
  notMem_unreadable : place ∉ fs.unreadable

/-- **A name is listed in a directory**: the directory can be listed, and an entry stands below it
under the name. -/
def Lists (fs : FileSystem) (directory candidate : String) : Prop :=
  ∃ place, fs.Readable directory place ∧ ∃ entry, (place ++ [candidate], entry) ∈ fs.entries

/-- **A file of a directory matches a name**: it is a regular file, all links followed, and its
name contains the one looked for. -/
structure Matches (fs : FileSystem) (name directory candidate : String) : Prop where
  /-- The file is listed. -/
  listed : fs.Lists directory candidate
  /-- Its name contains the one looked for. -/
  contains : name.toList <:+: candidate.toList
  /-- It is a regular file. -/
  isFile_eq : fs.isFile (Path.join directory candidate) = true

/-- **The least match**: no file that matches has a name of lesser bytes. -/
structure Least (fs : FileSystem) (name directory candidate : String) : Prop extends
    fs.Matches name directory candidate where
  /-- No other match comes before it. -/
  least : ∀ other, fs.Matches name directory other →
    ¬ other.toUTF8.data.toList < candidate.toUTF8.data.toList

/-- **A directory has a file for a name**: one of just that name, or one that matches it. -/
def Has (fs : FileSystem) (name directory : String) : Prop :=
  fs.isFile (Path.join directory name) = true ∨ ∃ candidate, fs.Matches name directory candidate

/-- **What a directory has for a name**: the file of just that name, or else the least match. -/
inductive Offers (fs : FileSystem) (name directory : String) : String → Prop
  /-- There is a file of just that name. -/
  | same (isFile_eq : fs.isFile (Path.join directory name) = true) :
    Offers fs name directory (Path.join directory name)
  /-- There is none, but others match. -/
  | least {candidate : String} (missing : fs.isFile (Path.join directory name) = false)
    (least : fs.Least name directory candidate) :
    Offers fs name directory (Path.join directory candidate)

theorem Offers.has (h : fs.Offers name directory found) : fs.Has name directory := by
  cases h with
  | same hfile => exact .inl hfile
  | least _ hleast => exact .inr ⟨_, hleast.toMatches⟩

/-- There are no two least matches, as texts of the same bytes are the same. -/
theorem Least.unique {other : String} (h : fs.Least name directory candidate)
    (h' : fs.Least name directory other) : candidate = other := by
  have hge := h.least other h'.toMatches
  have hle := h'.least candidate h.toMatches
  rw [← Lossy.lt_iff_toUTF8_lt] at hge hle
  exact le_antisymm (not_lt.1 hge) (not_lt.1 hle)

/-- A directory offers no two files. -/
theorem Offers.unique {other : String} (h : fs.Offers name directory found)
    (h' : fs.Offers name directory other) : found = other := by
  cases h with
  | same hfile =>
    cases h' with
    | same => rfl
    | least hmissing => cases hfile.symm.trans hmissing
  | least hmissing hleast =>
    cases h' with
    | same hfile => cases hfile.symm.trans hmissing
    | least _ hleast' => rw [hleast.unique hleast']

theorem nameIn?_eq_some_iff {place above : Location} :
    nameIn? above place = some name ↔ place = above ++ [name] := by
  unfold nameIn?
  constructor
  · intro h
    obtain ⟨rfl, hlast⟩ := Option.ite_none_right_eq_some.1 h
    exact (List.dropLast_append_getLast? name hlast).symm
  · rintro rfl
    simp

theorem isDirectory_iff {place : Location} (h : fs.locate directory = .ok place) :
    fs.isDirectory directory = true ↔ fs.entry? place = some .directory := by
  have hresolve : fs.resolve? directory = fs.entry? place := by
    rw [resolve?, h]
    rfl
  rw [isDirectory, hresolve]
  rcases fs.entry? place with _ | _ | _ | _ <;> simp

theorem readable_iff {place : Location} (h : fs.locate directory = .ok place) :
    (fs.isDirectory directory && !fs.unreadable.contains place) = true ↔
      fs.Readable directory place := by
  rw [Bool.and_eq_true, isDirectory_iff h, Bool.not_eq_true', List.contains_eq_mem,
    decide_eq_false_iff_not]
  exact ⟨fun ⟨hentry, hlist⟩ => ⟨h, hentry, hlist⟩, fun hread => ⟨hread.2, hread.3⟩⟩

/-- The names in a directory are those that are listed. -/
theorem mem_names_iff : candidate ∈ fs.names directory ↔ fs.Lists directory candidate := by
  unfold names
  cases hlocate : fs.locate directory with
  | error e =>
    refine iff_of_false List.not_mem_nil ?_
    rintro ⟨place, hread, -⟩
    cases hlocate.symm.trans hread.locate_eq
  | ok place =>
    have hplace : fs.Lists directory candidate ↔
        fs.Readable directory place ∧ ∃ entry, (place ++ [candidate], entry) ∈ fs.entries := by
      refine ⟨?_, fun h => ⟨place, h⟩⟩
      rintro ⟨other, hread, hentry⟩
      obtain rfl : place = other := Except.ok.inj (hlocate.symm.trans hread.locate_eq)
      exact ⟨hread, hentry⟩
    have hlisted : candidate ∈ fs.entries.filterMap (fun e => nameIn? place e.1) ↔
        ∃ entry, (place ++ [candidate], entry) ∈ fs.entries := by
      simp only [List.mem_filterMap, nameIn?_eq_some_iff]
      constructor
      · rintro ⟨⟨_, entry⟩, hmem, rfl⟩
        exact ⟨entry, hmem⟩
      · rintro ⟨entry, hmem⟩
        exact ⟨_, hmem, rfl⟩
    dsimp only
    rw [List.mem_ite_nil_right, readable_iff hlocate, hlisted, hplace]

/-- A directory without names has at most the file of just the name. -/
theorem not_has_of_names_eq_nil (hnames : fs.names directory = [])
    (hfile : fs.isFile (Path.join directory name) = false) : ¬ fs.Has name directory := by
  rintro (hexact | ⟨candidate, hmatches⟩)
  · cases hfile.symm.trans hexact
  · have hmem := mem_names_iff.2 hmatches.listed
    rw [hnames] at hmem
    cases hmem

/-! ### Listings in another order -/

/-- **The same files, listed in another order.** -/
structure Relists (fs fs' : FileSystem) : Prop where
  /-- Relative paths start at the same place. -/
  home_eq : fs'.home = fs.home
  /-- The entries are the same. -/
  perm : fs'.entries.Perm fs.entries
  /-- The same stands at each place. -/
  entry?_eq : ∀ place, fs'.entry? place = fs.entry? place
  /-- The same directories can be listed. -/
  unreadable_eq : fs'.unreadable = fs.unreadable

/-- In a table without two entries for one place, a look-up finds what the table has. -/
theorem lookup_eq_some_iff_mem {entries : List (Location × Entry)} {place : Location}
    {entry : Entry} (h : (entries.map Prod.fst).Nodup) :
    entries.lookup place = some entry ↔ (place, entry) ∈ entries := by
  induction entries with
  | nil => simp
  | cons e rest ih =>
    obtain ⟨other, found⟩ := e
    obtain ⟨hnew, hrest⟩ := List.nodup_cons.1 h
    rw [List.lookup_cons, List.mem_cons, Prod.mk.injEq]
    by_cases heq : place = other
    · subst heq
      have hbehind : (place, entry) ∉ rest := fun hmem => hnew (List.mem_map.2 ⟨_, hmem, rfl⟩)
      rw [beq_self_eq_true, Option.some_inj, or_iff_left hbehind, and_iff_right rfl, eq_comm]
    · rw [beq_false_of_ne heq, or_iff_right fun h => heq h.1]
      exact ih hrest

/-- **Shuffled entries are listed in another order**, if there are no two for one place. -/
theorem relists_of_perm (home_eq : fs'.home = fs.home) (perm : fs'.entries.Perm fs.entries)
    (nodup : (fs.entries.map Prod.fst).Nodup) (unreadable_eq : fs'.unreadable = fs.unreadable) :
    fs.Relists fs' where
  home_eq := home_eq
  perm := perm
  unreadable_eq := unreadable_eq
  entry?_eq place := by
    have nodup' := ((perm.map Prod.fst).nodup_iff).2 nodup
    have hlookup : fs'.entries.lookup place = fs.entries.lookup place := by
      refine Option.ext fun entry => ?_
      rw [lookup_eq_some_iff_mem nodup, lookup_eq_some_iff_mem nodup', perm.mem_iff]
    unfold entry?
    rw [hlookup]

/-- What is met on a way depends on what stands at each place, and not on how it is listed. -/
theorem walk_congr (h : ∀ place, fs'.entry? place = fs.entry? place) (place : Location)
    (components : List String) : fs'.walk place components = fs.walk place components := by
  induction components generalizing place with
  | nil => rfl
  | cons c rest ih => simp only [walk, h, ih]

theorem follow_congr (h : ∀ place, fs'.entry? place = fs.entry? place) (budget : Nat)
    (place : Location) (components : List String) :
    fs'.follow budget place components = fs.follow budget place components := by
  induction budget generalizing place components with
  | zero => rw [follow, follow, walk_congr h]
  | succ budget ih =>
    rw [follow, follow, walk_congr h]
    simp only [ih]

namespace Relists

variable (h : fs.Relists fs')
include h

/-- Paths lead to the same places. -/
theorem locate_eq (path : String) : fs'.locate path = fs.locate path := by
  simp only [locate, h.home_eq, follow_congr h.entry?_eq]

theorem isFile_eq (path : String) : fs'.isFile path = fs.isFile path := by
  rw [isFile, isFile, resolve?, resolve?, h.locate_eq, funext h.entry?_eq]

theorem symm : fs'.Relists fs where
  home_eq := h.home_eq.symm
  perm := h.perm.symm
  entry?_eq place := (h.entry?_eq place).symm
  unreadable_eq := h.unreadable_eq.symm

theorem readable_of_readable {place : Location} (hread : fs.Readable directory place) :
    fs'.Readable directory place where
  locate_eq := (h.locate_eq directory).trans hread.locate_eq
  entry?_eq := (h.entry?_eq place).trans hread.entry?_eq
  notMem_unreadable := h.unreadable_eq ▸ hread.notMem_unreadable

theorem matches_of_matches (hmatches : fs.Matches name directory candidate) :
    fs'.Matches name directory candidate where
  listed := by
    obtain ⟨place, hread, entry, hentry⟩ := hmatches.listed
    exact ⟨place, h.readable_of_readable hread, entry, h.perm.mem_iff.2 hentry⟩
  contains := hmatches.contains
  isFile_eq := (h.isFile_eq _).trans hmatches.isFile_eq

theorem least_of_least (hleast : fs.Least name directory candidate) :
    fs'.Least name directory candidate where
  toMatches := h.matches_of_matches hleast.toMatches
  least other hother := hleast.least other (h.symm.matches_of_matches hother)

theorem offers_of_offers (hoffers : fs.Offers name directory found) :
    fs'.Offers name directory found := by
  cases hoffers with
  | same hfile => exact .same ((h.isFile_eq _).trans hfile)
  | least hmissing hleast => exact .least ((h.isFile_eq _).trans hmissing) (h.least_of_least hleast)

end Relists

end FileSystem

/-! ### The search -/

namespace LibraryPath

/-- There is a least text unless there is none at all. -/
theorem least?_eq_none_iff {names : List String} : least? names = none ↔ names = [] := by
  cases names with
  | nil => simp [least?]
  | cons name rest =>
    rw [least?]
    refine iff_of_false ?_ nofun
    split
    · nofun
    · split <;> nofun

/-- **The least text** is one of the texts, and no other is less. -/
theorem of_least?_eq_some {names : List String} (h : least? names = some name) :
    name ∈ names ∧ ∀ other ∈ names, ¬ other < name := by
  induction names generalizing name with
  | nil => cases h
  | cons first rest ih =>
    rw [least?] at h
    cases hrest : least? rest with
    | none =>
      rw [hrest] at h
      cases h
      obtain rfl := least?_eq_none_iff.1 hrest
      exact ⟨List.mem_singleton_self _, List.forall_mem_singleton.2 (lt_irrefl _)⟩
    | some other =>
      rw [hrest] at h
      obtain ⟨hmem, hleast⟩ := ih hrest
      dsimp only at h
      split at h
      · next hlt =>
        cases h
        refine ⟨List.mem_cons_of_mem _ hmem, List.forall_mem_cons.2 ⟨?_, hleast⟩⟩
        exact lt_asymm hlt
      · next hge =>
        cases h
        refine ⟨List.mem_cons_self, List.forall_mem_cons.2 ⟨lt_irrefl _, ?_⟩⟩
        exact fun x hx hlt => hleast x hx (lt_of_lt_of_le hlt (not_lt.1 hge))

/-- The files among which the least is taken are those that match. -/
theorem mem_candidates_iff : candidate ∈ (fs.names directory).filter (fun n =>
    occursIn name.toList n.toList && fs.isFile (Path.join directory n)) ↔
      fs.Matches name directory candidate := by
  rw [List.mem_filter, FileSystem.mem_names_iff, Bool.and_eq_true, occursIn_iff]
  constructor
  · exact fun ⟨hlisted, hcontains, hfile⟩ => ⟨hlisted, hcontains, hfile⟩
  · exact fun ⟨hlisted, hcontains, hfile⟩ => ⟨hlisted, hcontains, hfile⟩

/-- **A directory has nothing for a name**, or it has what it offers. -/
theorem findIn?_cases (fs : FileSystem) (name directory : String) :
    (findIn? fs name directory = none ∧ ¬ fs.Has name directory) ∨
      ∃ found, findIn? fs name directory = some found ∧ fs.Offers name directory found := by
  unfold findIn?
  dsimp only
  by_cases hfile : fs.isFile (Path.join directory name) = true
  · rw [if_pos hfile]
    exact .inr ⟨_, rfl, .same hfile⟩
  · rw [if_neg hfile]
    cases hleast : least? _ with
    | none =>
      refine .inl ⟨rfl, ?_⟩
      rintro (hexact | ⟨candidate, hmatches⟩)
      · exact hfile hexact
      · rw [← mem_candidates_iff, least?_eq_none_iff.1 hleast] at hmatches
        cases hmatches
    | some candidate =>
      obtain ⟨hmem, hothers⟩ := of_least?_eq_some hleast
      refine .inr ⟨_, rfl, .least (Bool.eq_false_iff.2 hfile) ⟨mem_candidates_iff.1 hmem, ?_⟩⟩
      intro other hother
      rw [← Lossy.lt_iff_toUTF8_lt]
      exact hothers other (mem_candidates_iff.2 hother)

theorem findIn?_eq_none_iff : findIn? fs name directory = none ↔ ¬ fs.Has name directory := by
  rcases findIn?_cases fs name directory with ⟨hnone, hhas⟩ | ⟨found, hsome, hoffers⟩
  · exact iff_of_true hnone hhas
  · refine iff_of_false (fun hnone => ?_) fun hhas => hhas hoffers.has
    cases hnone.symm.trans hsome

theorem findIn?_eq_some_iff :
    findIn? fs name directory = some found ↔ fs.Offers name directory found := by
  rcases findIn?_cases fs name directory with ⟨hnone, hhas⟩ | ⟨other, hsome, hoffers⟩
  · refine iff_of_false (fun hfound => ?_) fun hoffers => hhas hoffers.has
    cases hnone.symm.trans hfound
  · rw [hsome, Option.some_inj]
    exact ⟨fun heq => heq ▸ hoffers, hoffers.unique⟩

section Find

variable {path : LibraryPath}

theorem find?_eq_none_iff (h : Path.hasSlash name = false) :
    path.find? fs name = none ↔ ∀ d ∈ path.directories, ¬ fs.Has name d := by
  rw [find?, if_neg (Bool.eq_false_iff.1 h), List.findSome?_eq_none_iff]
  simp only [findIn?_eq_none_iff]

/-- **The first directory that has anything decides.** -/
theorem find?_eq_some_iff (h : Path.hasSlash name = false) :
    path.find? fs name = some found ↔ ∃ before d behind, path.directories = before ++ d :: behind ∧
      (∀ d' ∈ before, ¬ fs.Has name d') ∧ fs.Offers name d found := by
  rw [find?, if_neg (Bool.eq_false_iff.1 h), List.findSome?_eq_some_iff]
  simp only [findIn?_eq_none_iff, findIn?_eq_some_iff, and_comm]

theorem find?_eq_some_iff_of_slash (h : Path.hasSlash name = true) :
    path.find? fs name = some found ↔ found = name ∧ fs.isFile name = true := by
  rw [find?, if_pos h, Option.ite_none_right_eq_some, Option.some_inj, and_comm, eq_comm]

/-- The order in which directories are listed does not matter. -/
theorem find?_of_relists (h : fs.Relists fs') : path.find? fs' name = path.find? fs name := by
  have hin : findIn? fs' name = findIn? fs name := by
    funext directory
    refine Option.ext fun found => ?_
    rw [findIn?_eq_some_iff, findIn?_eq_some_iff]
    exact ⟨h.symm.offers_of_offers, h.offers_of_offers⟩
  rw [find?, find?, hin, h.isFile_eq]

end Find

/-- **Which file is found**, in any file system, for any list of directories and any name. If the
name has no slash, nothing is found if no directory has anything for it, neither a regular file of
just that name nor, in a directory that can be listed, one whose name contains it. Else the first
directory that has anything decides: the file of just that name is found, or if there is none, the
one with the name of least bytes among those whose names contain it. In whatever order directories
are listed, the same file is found. If the name has a slash, it is a path, and it is found if it
leads to a regular file; no directory matters. -/
theorem find?_iff_first_offers (path : LibraryPath) (fs : FileSystem) (name : String) :
    (Path.hasSlash name = false →
      (path.find? fs name = none ↔ ∀ d ∈ path.directories, ¬ fs.Has name d) ∧
        ∀ found, path.find? fs name = some found ↔ ∃ before d behind,
          path.directories = before ++ d :: behind ∧ (∀ d' ∈ before, ¬ fs.Has name d') ∧
            fs.Offers name d found) ∧
      (∀ fs', fs.Relists fs' → path.find? fs' name = path.find? fs name) ∧
      (Path.hasSlash name = true →
        ∀ found, path.find? fs name = some found ↔ found = name ∧ fs.isFile name = true) :=
  ⟨fun h => ⟨find?_eq_none_iff h, fun _ => find?_eq_some_iff h⟩, fun _ => find?_of_relists,
    fun h _ => find?_eq_some_iff_of_slash h⟩

/-! ### Three directories -/

/-- Three directories with files for one name. The first of them cannot be listed. In the second
one the names that come first are those of a link that leads nowhere and of a directory. -/
def libraryFiles : FileSystem where
  entries := [(["shut"], .directory), (["shut", "libm.so.4"], .file ⟨#[]⟩),
    (["shut", "libc.so"], .file ⟨#[]⟩), (["old"], .directory),
    (["old", "libm.so.1"], .link "lost"), (["old", "libm.so.2"], .directory),
    (["old", "libm.so.6"], .file ⟨#[]⟩), (["old", "libm.so.5"], .file ⟨#[]⟩),
    (["new"], .directory), (["new", "libm.so"], .file ⟨#[]⟩)]
  home := []
  unreadable := [["shut"]]

/-- The same files, listed the other way around. -/
def turnedFiles : FileSystem := { libraryFiles with entries := libraryFiles.entries.reverse }

/-- A list of directories; the first one does not exist. -/
def libraryDirectories : LibraryPath := ⟨["/lost", "/shut", "/old", "/new"]⟩

theorem names_libraryFiles : libraryFiles.names "/lost" = [] ∧ libraryFiles.names "/shut" = [] ∧
    libraryFiles.names "/old" = ["libm.so.1", "libm.so.2", "libm.so.6", "libm.so.5"] := by
  decide +kernel

theorem isFile_libraryFiles : libraryFiles.isFile (Path.join "/lost" "libm.so") = false ∧
    libraryFiles.isFile (Path.join "/shut" "libm.so") = false ∧
    libraryFiles.isFile (Path.join "/old" "libm.so") = false ∧
    libraryFiles.isFile (Path.join "/old" "libm.so.1") = false ∧
    libraryFiles.isFile (Path.join "/old" "libm.so.2") = false ∧
    libraryFiles.isFile (Path.join "/old" "libm.so.5") = true := by
  decide +kernel

theorem relists_turnedFiles : libraryFiles.Relists turnedFiles :=
  FileSystem.relists_of_perm rfl (List.reverse_perm _) (by decide +kernel) rfl

/-- Of the files in the old directory only two match. -/
theorem matches_old {candidate : String} (h : libraryFiles.Matches "libm.so" "/old" candidate) :
    candidate = "libm.so.6" ∨ candidate = "libm.so.5" := by
  obtain ⟨-, -, hold⟩ := names_libraryFiles
  obtain ⟨-, -, -, hlink, hdirectory, -⟩ := isFile_libraryFiles
  have hmem := FileSystem.mem_names_iff.2 h.listed
  have hfile := h.isFile_eq
  rw [hold] at hmem
  simp only [List.mem_cons, List.not_mem_nil, or_false] at hmem
  rcases hmem with rfl | rfl | hmem
  · cases hlink.symm.trans hfile
  · cases hdirectory.symm.trans hfile
  · exact hmem

theorem least_old : libraryFiles.Least "libm.so" "/old" "libm.so.5" where
  listed := FileSystem.mem_names_iff.1 (by rw [names_libraryFiles.2.2]; decide)
  contains := (occursIn_iff _ _).1 (by decide)
  isFile_eq := isFile_libraryFiles.2.2.2.2.2
  least other hother := by
    rcases matches_old hother with rfl | rfl <;> decide +kernel

/-- The old directory decides, although one before it that cannot be listed has a file that would
match, and the new one has a file of just the name. The least of its two files is found, however
they are listed. In the directory that cannot be listed a file of just the name is found. A path
needs no directory. -/
theorem find?_libraryFiles :
    libraryDirectories.find? libraryFiles "libm.so" = some "/old/libm.so.5" ∧
      libraryDirectories.find? turnedFiles "libm.so" = some "/old/libm.so.5" ∧
      libraryDirectories.find? libraryFiles "libc.so" = some "/shut/libc.so" ∧
      LibraryPath.empty.find? libraryFiles "/new/libm.so" = some "/new/libm.so" := by
  obtain ⟨hnone, hnone', -⟩ := names_libraryFiles
  obtain ⟨hlost, hshut, hold, -⟩ := isFile_libraryFiles
  obtain ⟨hname, hrelists, -⟩ := find?_iff_first_offers libraryDirectories libraryFiles "libm.so"
  have hfound : libraryDirectories.find? libraryFiles "libm.so" = some "/old/libm.so.5" := by
    refine ((hname rfl).2 _).2 ⟨["/lost", "/shut"], "/old", ["/new"], rfl, ?_,
      .least hold least_old⟩
    intro d hd
    rcases List.mem_pair.1 hd with rfl | rfl
    · exact FileSystem.not_has_of_names_eq_nil hnone hlost
    · exact FileSystem.not_has_of_names_eq_nil hnone' hshut
  obtain ⟨hexact, -, -⟩ := find?_iff_first_offers libraryDirectories libraryFiles "libc.so"
  have hfound' : libraryDirectories.find? libraryFiles "libc.so" = some "/shut/libc.so" := by
    refine ((hexact rfl).2 _).2 ⟨["/lost"], "/shut", ["/old", "/new"], rfl, ?_,
      .same (by decide +kernel)⟩
    exact List.forall_mem_singleton.2
      (FileSystem.not_has_of_names_eq_nil hnone (by decide +kernel))
  obtain ⟨-, -, hpath⟩ := find?_iff_first_offers .empty libraryFiles "/new/libm.so"
  exact ⟨hfound, (hrelists turnedFiles relists_turnedFiles).trans hfound, hfound',
    (hpath rfl _).2 ⟨rfl, by decide +kernel⟩⟩

end LibraryPath

end ElfLoader
