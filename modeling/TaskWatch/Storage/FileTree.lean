/-!
# File trees

The files and directories of a file system, and the directory that one works in. Paths are followed
one name at a time: from the root if they are absolute, and else from the directory one works in. A
name may have at most 255 bytes, only a directory can be entered, and the directory above the root
is the root itself. A path with a NUL in it is refused as a whole, before anything is done.

There are no links, so the way back from a directory is the way to it without its last name. There
are no limits but the one on names, neither on whole paths nor on the space that is left, and
everybody may read and write everything.

## Main definitions

* `FileTree` — files and directories under their places.
* `FileTree.origin` — where a path begins.
* `FileTree.readFile`, `FileTree.writeFile`, `FileTree.rename`, `FileTree.makeDirectories` — the
  operations of a file system.
* `FileTree.listing` — everything below the directory that one works in, directories marked by a
  slash.

## Main results

* `FileTree.lookup_put`, `FileTree.lookup_remove` — a change touches one place only.
-/

namespace TaskWatch

/-- A place in a tree: the names on the way from the root. -/
abbrev Place : Type := List String

/-- What stands at a place. -/
inductive FileNode where
  /-- A file with its content. -/
  | file (content : ByteArray)
  /-- A directory. -/
  | directory

/-- The files and directories of a file system, as somebody sees them who works in one of the
directories. -/
structure FileTree where
  /-- What stands where; the root itself is not listed. -/
  nodes : List (Place × FileNode) := []
  /-- The directory that one works in. -/
  working : Place := []

/-- Why a file operation failed. -/
inductive FileError where
  /-- Something on the way, or the file itself, does not exist. -/
  | notFound
  /-- Any other refusal. -/
  | refused
deriving DecidableEq, Repr

/-- A path as it is written. -/
structure FilePath where
  /-- The names on the way, `..` leading back to the directory above. -/
  names : List String
  /-- Whether the way begins at the root, and not in the directory that one works in. -/
  isAbsolute : Bool := false
  /-- Whether the path can only mean a directory. -/
  isDirectory : Bool := false

namespace FilePath

/-- Whether a part of a path leads nowhere but to where one already is. -/
def isIdle (part : String) : Bool := part = "" || part = "."

/-- Read a path: names are divided by slashes, and `.` stands for the directory one is in. -/
def parse (text : String) : FilePath :=
  let parts := (text.toList.splitOn '/').map String.ofList
  { names := parts.filter fun part => !isIdle part
    isAbsolute := text.toList.head? = some '/'
    isDirectory := isIdle (parts.getLast?.getD "") }

/-- The path of a name in the directory of a path. -/
def child (p : FilePath) (name : String) : FilePath :=
  { p with names := p.names ++ [name], isDirectory := false }

/-- Whether there is a NUL in the path, which no file system takes. -/
def hasNul (p : FilePath) : Bool := p.names.any fun name => name.toList.contains '\x00'

/-- The path as a text, without parts that lead nowhere. -/
def text (p : FilePath) : String :=
  (if p.isAbsolute then "/" else "") ++ String.intercalate "/" p.names

end FilePath

namespace FileTree

/-- The tree with nothing but its root, in which one works. -/
def empty : FileTree := {}

instance : Inhabited FileTree := ⟨empty⟩

/-- The most bytes a name may have. -/
def longestName : Nat := 255

/-- Whether a name can stand in a directory. -/
def isName (name : String) : Bool := name.utf8ByteSize ≤ longestName

/-- Where a path begins. -/
def origin (t : FileTree) (path : FilePath) : Place := if path.isAbsolute then [] else t.working

/-- What stands at a place; the root is a directory. -/
def lookup (t : FileTree) (place : Place) : Option FileNode :=
  if place = [] then some .directory
  else (t.nodes.find? fun entry => entry.1 = place).map Prod.snd

/-- Take away what stands at a place. -/
def remove (t : FileTree) (place : Place) : FileTree :=
  { t with nodes := t.nodes.filter fun entry => entry.1 ≠ place }

/-- Put something at a place. -/
def put (t : FileTree) (place : Place) (node : FileNode) : FileTree :=
  { t with nodes := (place, node) :: (t.remove place).nodes }

@[simp]
theorem working_remove (t : FileTree) (place : Place) : (t.remove place).working = t.working := rfl

@[simp]
theorem working_put (t : FileTree) (place : Place) (node : FileNode) :
    (t.put place node).working = t.working := rfl

theorem lookup_remove (t : FileTree) (place other : Place) (h : other ≠ []) :
    (t.remove place).lookup other = if other = place then none else t.lookup other := by
  simp only [lookup, remove, h, if_false]
  split
  · next same =>
    subst same
    rw [List.find?_eq_none.mpr]
    · rfl
    · intro entry mem
      simpa using (List.mem_filter.mp mem).2
  · next distinct =>
    rw [List.find?_filter]
    congr 2
    funext entry
    by_cases at_ : entry.1 = other
    · simp [at_, distinct]
    · simp [at_]

theorem lookup_put (t : FileTree) (place other : Place) (node : FileNode) (h : other ≠ []) :
    (t.put place node).lookup other = if other = place then some node else t.lookup other := by
  have rest := lookup_remove t place other h
  simp only [lookup, put, h, if_false, List.find?_cons] at rest ⊢
  by_cases same : place = other
  · simp [same]
  · have different : other ≠ place := fun e => same e.symm
    simp only [same, different, if_false] at rest ⊢
    simpa using rest

/-- The directory that names lead to, from a directory. The root lies in itself. -/
def follow (t : FileTree) (here : Place) : List String → Except FileError Place
  | [] => .ok here
  | name :: rest =>
    if name = ".." then t.follow here.dropLast rest
    else if !isName name then .error .refused
    else match t.lookup (here ++ [name]) with
      | some .directory => t.follow (here ++ [name]) rest
      | some (.file _) => .error .refused
      | none => .error .notFound

/-- The place a path stands for: all but its last name lead through directories. -/
def locate (t : FileTree) (path : FilePath) : Except FileError Place :=
  if path.hasNul then .error .refused
  else match path.names.getLast? with
    | none => .ok (t.origin path)
    | some name => do
      let directory ← t.follow (t.origin path) path.names.dropLast
      if name = ".." then pure directory.dropLast
      else if isName name then pure (directory ++ [name])
      else throw .refused

/-- The content of a file. -/
def readFile (t : FileTree) (path : FilePath) : Except FileError ByteArray :=
  match t.locate path with
  | .error e => .error e
  | .ok place =>
    match t.lookup place with
    | none => .error .notFound
    | some .directory => .error .refused
    | some (.file content) => if path.isDirectory then .error .refused else .ok content

/-- Whether something stands where a path leads. -/
def exists? (t : FileTree) (path : FilePath) : Bool :=
  match t.locate path with
  | .error _ => false
  | .ok place => (t.lookup place).isSome

/-- Write a file anew; its directory has to exist. -/
def writeFile (t : FileTree) (path : FilePath) (content : ByteArray) :
    Except FileError FileTree :=
  match t.locate path with
  | .error e => .error e
  | .ok place =>
    match t.lookup place with
    | some .directory => .error .refused
    | _ => .ok (t.put place (.file content))

/-- Give a file another name, replacing a file that has this name. -/
def rename (t : FileTree) (source target : FilePath) : Except FileError FileTree :=
  match t.locate source, t.locate target with
  | .ok source, .ok target =>
    match t.lookup source, t.lookup target with
    | none, _ => .error .notFound
    | some (.file content), some (.file _) | some (.file content), none =>
      .ok ((t.remove source).put target (.file content))
    | _, _ => .error .refused
  | .error e, _ => .error e
  | _, .error e => .error e

/-- Make the directories that names lead to where they are missing. What has been made stays even
if a later one is refused. -/
def makeAlong (t : FileTree) (here : Place) : List String → FileTree × Except FileError Unit
  | [] => (t, .ok ())
  | name :: rest =>
    if name = ".." then t.makeAlong here.dropLast rest
    else if !isName name then (t, .error .refused)
    else match t.lookup (here ++ [name]) with
      | some .directory => t.makeAlong (here ++ [name]) rest
      | some (.file _) => (t, .error .refused)
      | none => (t.put (here ++ [name]) .directory).makeAlong (here ++ [name]) rest

/-- Make a directory and those it lies in where they are missing. -/
def makeDirectories (t : FileTree) (path : FilePath) : FileTree × Except FileError Unit :=
  if path.hasNul then (t, .error .refused) else t.makeAlong (t.origin path) path.names

/-- Write a file and make the directories it lies in. -/
def create (t : FileTree) (path : FilePath) (content : ByteArray) :
    FileTree × Except FileError Unit :=
  match t.makeDirectories { path with names := path.names.dropLast } with
  | (t, .error e) => (t, .error e)
  | (t, .ok ()) =>
    match t.writeFile path content with
    | .ok t => (t, .ok ())
    | .error e => (t, .error e)

/-- The tree with a file written, if it can be. -/
def plant (t : FileTree) (path : FilePath) (content : ByteArray) : FileTree :=
  (t.create path content).1

/-- Put a text at its place among ascending texts. -/
def placeText (text : String) : List String → List String
  | [] => [text]
  | other :: rest => if other < text then other :: placeText text rest else text :: other :: rest

/-- Texts in ascending order. -/
def ascendingTexts (texts : List String) : List String := texts.foldr placeText []

/-- How a place is listed: names joined by slashes, with a slash behind a directory. -/
def listed (entry : Place × FileNode) : String :=
  String.intercalate "/" entry.1 ++ match entry.2 with
    | .directory => "/"
    | .file _ => ""

/-- Everything below the directory that one works in, in ascending order. -/
def listing (t : FileTree) : List String :=
  ascendingTexts <| t.nodes.filterMap fun entry =>
    match t.working.isPrefixOf? entry.1 with
    | none | some [] => none
    | some place => some (listed (place, entry.2))

/-- The names in a directory in ascending order; nothing if it is not a directory. -/
def namesIn (t : FileTree) (path : FilePath) : Option (List String) :=
  match t.follow (t.origin path) path.names with
  | .error _ => none
  | .ok directory =>
    some <| ascendingTexts <| t.nodes.filterMap fun entry =>
      if entry.1.dropLast = directory then entry.1.getLast? else none

end FileTree

end TaskWatch
