import Constellation.Path
set_option autoImplicit false

/-!
# File trees

Everything that this library does to files is a function of a file tree: the directories and files
at and below the working directory, each with its content.

## Main definitions

* `Location` — the place of a file as the list of names that lead there.
* `FileTree` — what is at which location.
* `FileTree.resolve` — the location that a path leads to.
* `FileFault` — the reasons for which a file operation is refused.

## Main results

* `FileTree.lookUp_put_self`, `FileTree.lookUp_put_of_ne` — what a location holds after
  something was put there.
* `FileTree.lookUp_clear`, `FileTree.lookUp_remove` — what a location holds after another one was
  cleared or removed.

## Design

A path is followed name by name from the working directory, and whatever it passes through has to
be a directory. There are no links, so that two dots always lead to the location without its last
name. Locations outside of the working directory have names of their own, a slash for the root of
the file system and two dots for each directory above the working directory; these directories are
taken to exist, and nothing is known about their content but what is put there.
-/

namespace Constellation

/-- The reasons for which a file operation is refused. -/
inductive FileFault
  /-- There is nothing at the location. -/
  | notFound
  /-- There is something at the location already. -/
  | alreadyExists
  /-- Something other than a directory is on the way. -/
  | notADirectory
  /-- A directory is where a file is needed. -/
  | isADirectory
  /-- The directory cannot be removed under this name. -/
  | invalidArgument
  /-- A name or a path is longer than file systems allow. -/
  | nameTooLong
  /-- A path holds the character that ends a name. -/
  | nulInPath
  /-- The argument of a program holds the character that ends an argument. -/
  | nulInArgument
  /-- The argument of a program is longer than the system allows. -/
  | argumentTooLong
  /-- The content of a file is no text. -/
  | notText
  /-- What should be copied is no file. -/
  | notAFile
  /-- None of the directories can be created. -/
  | noParent
  deriving DecidableEq, Repr

/-- The wording of a fault. -/
def FileFault.message : FileFault → String
  | notFound => "No such file or directory (os error 2)"
  | alreadyExists => "File exists (os error 17)"
  | notADirectory => "Not a directory (os error 20)"
  | isADirectory => "Is a directory (os error 21)"
  | invalidArgument => "Invalid argument (os error 22)"
  | nameTooLong => "File name too long (os error 36)"
  | nulInPath => "file name contained an unexpected NUL byte"
  | nulInArgument => "nul byte found in provided data"
  | argumentTooLong => "Argument list too long (os error 7)"
  | notText => "stream did not contain valid UTF-8"
  | notAFile => "the source path is neither a regular file nor a symlink to a regular file"
  | noParent => "failed to create whole tree"

/-- The place of a file as the list of names that lead there from the working directory. -/
abbrev Location := List String

namespace Location

/-- The root of the file system. -/
def fileSystemRoot : Location := ["/"]

/-- Whether a location is the working directory, a directory above it, or the root of the file
system. These directories are always there. -/
def isGiven (l : Location) : Bool := l.all (· == "..") || l == fileSystemRoot

/-- Whether a location lies outside of the working directory. -/
def isOutside (l : Location) : Bool := l.head? == some ".." || l.head? == some "/"

/-- The directory that holds a location. -/
def parent (l : Location) : Location :=
  if l == fileSystemRoot then l
  else if l.all (· == "..") then l ++ [".."]
  else l.dropLast

/-- Whether `l` lies below `base`. -/
def isBelow (base l : Location) : Bool :=
  base.isPrefixOf l && base.length < l.length && !isOutside (l.drop base.length)

/-- The text of a location. -/
def text (l : Location) : String := "/".intercalate l

/-- The key under which a location is looked up. Its length comes first, so that few locations have
to be compared name by name. -/
def key (l : Location) : Nat × Location := (l.length, l)

/-- Different locations have different keys. -/
theorem key_inj {l m : Location} : l.key = m.key ↔ l = m :=
  ⟨congrArg Prod.snd, congrArg key⟩

end Location

/-- What is at a location. -/
inductive Entry
  /-- A directory. -/
  | directory
  /-- A file with its content. -/
  | file (content : ByteArray)

/-- Whether an entry is a directory. -/
def Entry.isDirectory : Entry → Bool
  | directory => true
  | file _ => false

/-- What is at which location. -/
structure FileTree where
  /-- The keys of the locations that are taken, each once. -/
  entries : List ((Nat × Location) × Entry)

namespace FileTree

/-- The tree with nothing in it. -/
def empty : FileTree := ⟨[]⟩

/-- The tree with the given entries, whose locations differ from each other. -/
def ofList (entries : List (Location × Entry)) : FileTree :=
  ⟨entries.map fun (l, entry) => (l.key, entry)⟩

/-- What is at a location. -/
def lookUp (tree : FileTree) (l : Location) : Option Entry :=
  if l.isGiven then some .directory else tree.entries.lookup l.key

/-- The tree with an entry put at a location, in place of what was there. -/
def put (tree : FileTree) (l : Location) (entry : Entry) : FileTree :=
  ⟨(l.key, entry) :: tree.entries.filter fun e => e.1 != l.key⟩

/-- The tree without anything below a location. -/
def clear (tree : FileTree) (l : Location) : FileTree :=
  ⟨tree.entries.filter fun e => !l.isBelow e.1.2⟩

/-- The tree without a location and anything below it. -/
def remove (tree : FileTree) (l : Location) : FileTree :=
  ⟨(tree.clear l).entries.filter fun e => e.1 != l.key⟩

/-- The names right below a location. -/
def namesBelow (tree : FileTree) (l : Location) : List String :=
  tree.entries.filterMap fun e =>
    if e.1.1 == l.length + 1 && l.isBelow e.1.2 then e.1.2.getLast? else none

/-- Everything in the working directory, ordered by the bytes of the paths. -/
def listing (tree : FileTree) : List (String × Entry) :=
  let shown := tree.entries.filterMap fun e =>
    if e.1.2.isOutside then none else some (e.1.2.text, e.2)
  shown.mergeSort fun a b => decide (a.1.toUTF8.toList ≤ b.1.toUTF8.toList)

/-- The greatest number of bytes in a name. -/
def nameLimit : Nat := 255

/-- The number of bytes from which on a path is too long. -/
def pathLimit : Nat := 4096

/-- Goes from a location to a name in it. -/
def advance (tree : FileTree) (l : Location) (name : String) : Except FileFault Location :=
  match tree.lookUp l with
  | none => .error .notFound
  | some (.file _) => .error .notADirectory
  | some .directory =>
    if name == "." then .ok l
    else if name == ".." then .ok l.parent
    else if nameLimit < name.utf8ByteSize then .error .nameTooLong
    else .ok (l ++ [name])

/-- Goes through names, each in the location that the ones before it lead to. -/
def advanceAll (tree : FileTree) (l : Location) : List String → Except FileFault Location
  | [] => .ok l
  | name :: names =>
    match tree.advance l name with
    | .ok next => advanceAll tree next names
    | .error fault => .error fault

/-- The location that a path leads to, which may hold nothing yet. -/
def resolve (tree : FileTree) (p : Path) : Except FileFault Location :=
  if p.chars.contains '\x00' then .error .nulInPath
  else if p.text.isEmpty then .error .notFound
  else if pathLimit ≤ p.text.utf8ByteSize then .error .nameTooLong
  else
    tree.advanceAll (if p.isAbsolute then Location.fileSystemRoot else [])
      (p.names.map String.ofList)

/-- Whether a path can only mean a directory: it ends in a separator or in dots. -/
def demandsDirectory (p : Path) : Bool :=
  p.chars.getLast? == some '/' || p.names.getLast? == some ['.'] ||
    p.names.getLast? == some ['.', '.']

/-- What a path leads to. -/
def entryAt (tree : FileTree) (p : Path) : Except FileFault Entry :=
  match tree.resolve p with
  | .error fault => .error fault
  | .ok l =>
    match tree.lookUp l with
    | none => .error .notFound
    | some .directory => .ok .directory
    | some (.file content) =>
      if demandsDirectory p then .error .notADirectory else .ok (.file content)

/-- Whether a path leads to a directory. -/
def isDirectory (tree : FileTree) (p : Path) : Bool :=
  match tree.entryAt p with
  | .ok entry => entry.isDirectory
  | .error _ => false

/-- Whether a path leads to a file. -/
def isFile (tree : FileTree) (p : Path) : Bool :=
  match tree.entryAt p with
  | .ok entry => !entry.isDirectory
  | .error _ => false

/-- What was put at a location is there, unless the location is given. -/
theorem lookUp_put_self (tree : FileTree) {l : Location} (entry : Entry)
    (h : l.isGiven = false) : (tree.put l entry).lookUp l = some entry := by
  simp [lookUp, h, put]

/-- What is found in a list from which the entries with some keys have been dropped. -/
theorem lookup_filter (entries : List ((Nat × Location) × Entry)) (keep : Nat × Location → Bool)
    (k : Nat × Location) :
    (entries.filter fun e => keep e.1).lookup k = if keep k then entries.lookup k else none := by
  induction entries with
  | nil => simp
  | cons e rest ih =>
    obtain ⟨k', entry⟩ := e
    by_cases hk : k = k'
    · subst hk
      cases hkeep : keep k <;> simp [hkeep, ih]
    · have hne : (k == k') = false := beq_eq_false_iff_ne.2 hk
      cases hkeep : keep k' <;> simp [hkeep, List.lookup_cons, hne, ih]

/-- Putting something at a location leaves all others alone. -/
theorem lookUp_put_of_ne (tree : FileTree) {l m : Location} (entry : Entry) (h : m ≠ l) :
    (tree.put l entry).lookUp m = tree.lookUp m := by
  have hkey : m.key ≠ l.key := fun heq => h (Location.key_inj.1 heq)
  have hfilter := lookup_filter tree.entries (fun k => k != l.key) m.key
  simp only [lookUp, put, List.lookup_cons, beq_eq_false_iff_ne.2 hkey, hfilter, bne_iff_ne, ne_eq,
    hkey, not_false_eq_true, if_true]

/-- What is looked up in the entries that do not lie below a location. -/
theorem lookup_entries_clear (tree : FileTree) (l m : Location) :
    (tree.clear l).entries.lookup m.key =
      if l.isBelow m then none else tree.entries.lookup m.key := by
  have hfilter := lookup_filter tree.entries (fun k => !l.isBelow k.2) m.key
  have hm : m.key.2 = m := rfl
  rw [hm] at hfilter
  rw [clear, hfilter]
  cases l.isBelow m <;> simp

/-- Clearing a location takes away what is below it, and leaves all else alone. -/
theorem lookUp_clear (tree : FileTree) (l m : Location) :
    (tree.clear l).lookUp m =
      if l.isBelow m && !m.isGiven then none else tree.lookUp m := by
  simp only [lookUp, lookup_entries_clear]
  cases l.isBelow m <;> cases m.isGiven <;> simp

/-- Removing a location takes away what is at it and below it, and leaves all else alone. -/
theorem lookUp_remove (tree : FileTree) (l m : Location) :
    (tree.remove l).lookUp m =
      if (m == l || l.isBelow m) && !m.isGiven then none else tree.lookUp m := by
  have hkey : (m.key == l.key) = (m == l) := by
    rw [Bool.eq_iff_iff, beq_iff_eq, beq_iff_eq, Location.key_inj]
  have hfilter := lookup_filter (tree.clear l).entries (fun k => k != l.key) m.key
  simp only [lookUp, remove, hfilter]
  simp only [lookup_entries_clear, bne, hkey]
  cases m == l <;> cases l.isBelow m <;> cases m.isGiven <;> simp

end FileTree

end Constellation
