import TaskWatch.Proofs.Storage.Place
import TaskWatch.Storage.Basic

/-!
# What a storage holds

Under each key a storage holds some bytes or nothing. A write that succeeds replaces them by the
text; one that fails leaves them alone, and so does everything that is written under another key,
unless the two keys have one file. A text that is in its place can be read, once it has been
written.

## Main definitions

* `Storage.content` — the bytes that are stored under a key.
* `Storage.keyPlace`, `Storage.draftPlace` — the places of a key's file and of its draft.
* `Storage.Aliases` — two keys stand for the same place.
* `Storage.Keeps` — what is stored under a key stays as it is.
* `Storage.Filing` — how far a write of a file gets.

## Main results

* `Storage.Filing.content_eq` — a write of a file touches the file and its draft only.
* `Storage.content_write` — a write that succeeds replaces what is stored under its key.
* `Storage.keeps_write_error`, `Storage.keeps_write`, `Storage.keeps_seed` — everything else stays.
-/

namespace TaskWatch

namespace Storage

variable {s s' : Storage} {tree tree' : FileTree} {directory : FilePath}
  {key other value text : String} {bytes : ByteArray}

/-- The place of a key's file. -/
def keyPlace (tree : FileTree) (directory : FilePath) (key : String) : Place :=
  tree.home directory ++ [fileName key]

/-- The place of the draft for a key's file. -/
def draftPlace (tree : FileTree) (directory : FilePath) (key : String) : Place :=
  tree.home directory ++ [draftName key]

/-- The bytes that are stored under a key, whether reads are answered or not. -/
def content (s : Storage) (key : String) : Option ByteArray :=
  match s with
  | .memory _ entries => (entries.find? key).map String.toUTF8
  | .files tree directory => tree.content (keyPlace tree directory key)
  | .absent => none
  | .unreliable state => (state.entries.find? key).map String.toUTF8

/-- Two keys stand for the same place, since they have one file, or are the same. -/
def Aliases (s : Storage) (key other : String) : Prop :=
  match s with
  | .files _ _ => fileName key = fileName other
  | _ => key = other

/-- Whether reads are answered. -/
def answers : Storage → Bool
  | .unreliable state => state.answersReads
  | _ => true

/-- If reads are answered, a text that is stored under a key can be read. -/
def Shows (s : Storage) (key : String) : Prop :=
  s.answers = true → ∀ text : String, s.content key = some text.toUTF8 → s.text? key = some text

/-- What is stored under a key stays as it is. -/
structure Keeps (s s' : Storage) (key : String) : Prop where
  content : s'.content key = s.content key
  shows : s.Shows key → s'.Shows key

/-! ### Names of files -/

theorem last_fileName (key : String) : (fileName key).toList.getLast? = some 'n' := by
  simp [fileName]

theorem last_draftName (key : String) : (draftName key).toList.getLast? = some 'p' := by
  simp [draftName, List.getLast?_cons]

theorem fileName_ne_back (key : String) : fileName key ≠ ".." := fun same => by
  have last := last_fileName key
  simp [same] at last

theorem draftName_ne_back (key : String) : draftName key ≠ ".." := fun same => by
  have last := last_draftName key
  simp [same] at last

/-- No key has the file to which a text is written first. -/
theorem fileName_ne_draftName (key other : String) : fileName key ≠ draftName other := fun same => by
  have last := last_fileName key
  simp [same, last_draftName] at last

/-- What replaces a character in the name of a file is safe. -/
theorem isSafe_of_mem_stem {c : Char} (mem : c ∈ (stem key).toList) : isSafe c = true := by
  rw [stem, String.toList_ofList] at mem
  obtain ⟨original, -, rfl⟩ := List.mem_map.mp mem
  split
  · assumption
  · decide

/-- So is everything else in the name. -/
theorem isSafe_of_mem_fileName {c : Char} (mem : c ∈ (fileName key).toList) : isSafe c = true := by
  have ending : ".json".toList.all isSafe = true := rfl
  rw [fileName, String.toList_append, List.mem_append] at mem
  rcases mem with mem | mem
  · exact isSafe_of_mem_stem mem
  · exact List.all_eq_true.mp ending c mem

/-- A key's file is refused for a NUL only if there is one in the path to its directory. -/
theorem hasNul_fileName (directory : FilePath) (key : String) :
    (directory.child (fileName key)).hasNul = directory.hasNul := by
  have absent_ : '\x00' ∉ (fileName key).toList := fun mem =>
    absurd (isSafe_of_mem_fileName mem) (by decide)
  have clean : (fileName key).toList.contains '\x00' = false := by simpa using absent_
  rw [FileTree.hasNul_child, clean, Bool.or_false]

theorem keyPlace_ne_root (tree : FileTree) (directory : FilePath) (key : String) :
    keyPlace tree directory key ≠ [] := by
  simp [keyPlace]

theorem keyPlace_ne_draftPlace (tree : FileTree) (directory : FilePath) (key other : String) :
    keyPlace tree directory other ≠ draftPlace tree directory key := fun same => by
  simp [keyPlace, draftPlace, fileName_ne_draftName] at same

/-- A key's file keeps its place where no directory goes. -/
theorem keyPlace_of_extends (grows : tree.Extends tree') (directory : FilePath) (key : String) :
    keyPlace tree' directory key = keyPlace tree directory key := by
  rw [keyPlace, keyPlace, grows.home]

/-! ### Reading -/

theorem fromUTF8?_toUTF8 (text : String) : String.fromUTF8? text.toUTF8 = some text := by
  rw [String.toUTF8_eq_toByteArray, String.fromUTF8?, dif_pos text.isValidUTF8]
  rfl

private theorem toUTF8_of_fromUTF8? (decoded : String.fromUTF8? bytes = some text) :
    text.toUTF8 = bytes := by
  rw [String.fromUTF8?] at decoded
  split at decoded
  · rw [← Option.some.inj decoded]
    rfl
  · simp at decoded

private theorem text?_files {tree : FileTree} {directory : FilePath} :
    (Storage.files tree directory).text? key = some text ↔
      tree.readFile (directory.child (fileName key)) = .ok text.toUTF8 := by
  rw [text?, Storage.read, readKeyFile]
  cases tree.readFile (directory.child (fileName key)) with
  | error e => cases e <;> simp
  | ok bytes =>
    cases decoded : String.fromUTF8? bytes with
    | none =>
      have other : (.ok bytes : Except FileError ByteArray) ≠ .ok text.toUTF8 := fun same => by
        rw [Except.ok.inj same, fromUTF8?_toUTF8] at decoded
        exact absurd decoded (Option.some_ne_none _)
      exact iff_of_false (by simp [decoded]) other
    | some found =>
      obtain rfl := toUTF8_of_fromUTF8? decoded
      simp only [decoded, Option.some.injEq, Except.ok.injEq]
      exact String.toByteArray_inj.symm

/-- In memory everything is shown. -/
private theorem shows_of_find? {entries : Dictionary String}
    (content : s.content key = (entries.find? key).map String.toUTF8)
    (read : s.answers = true → s.text? key = entries.find? key) : s.Shows key := by
  intro answers text stored
  rw [read answers]
  rw [content] at stored
  obtain ⟨found, there, same⟩ := Option.map_eq_some_iff.mp stored
  rw [there, String.toByteArray_inj.mp same]

theorem shows_memory (limit : Option Nat) (entries : Dictionary String) (key : String) :
    (Storage.memory limit entries).Shows key :=
  shows_of_find? rfl fun _ => rfl

theorem shows_unreliable (state : Unreliable) (key : String) :
    (Storage.unreliable state).Shows key := by
  refine shows_of_find? rfl fun answers => ?_
  have read : (Storage.unreliable state).read key = .ok (state.entries.find? key) := if_pos answers
  rw [text?, read]

/-- A file that can be reached is shown. -/
private theorem shows_files {tree : FileTree} {directory : FilePath}
    (located : tree.content (keyPlace tree directory key) ≠ none →
      tree.locate (directory.child (fileName key)) = .ok (keyPlace tree directory key)) :
    (Storage.files tree directory).Shows key := by
  intro _ text stored
  have there : tree.content (keyPlace tree directory key) = some text.toUTF8 := stored
  refine text?_files.mpr (FileTree.readFile_child_eq_ok.mpr ⟨_, located ?_, there⟩)
  simp [there]

/-- Where no directory goes and a file stays as it is, it is shown as before. -/
private theorem keeps_files {tree tree' : FileTree} {directory : FilePath}
    (grows : tree.Extends tree')
    (same : tree'.content (keyPlace tree directory key) =
      tree.content (keyPlace tree directory key)) :
    (Storage.files tree directory).Keeps (.files tree' directory) key := by
  have moved : (Storage.files tree' directory).content key =
      (Storage.files tree directory).content key := by
    rw [content, content, keyPlace_of_extends grows, same]
  refine ⟨moved, fun shows answers text stored => ?_⟩
  have there : tree.content (keyPlace tree directory key) = some text.toUTF8 := moved.symm.trans stored
  obtain ⟨place, located, found⟩ :=
    FileTree.readFile_child_eq_ok.mp (text?_files.mp (shows answers text there))
  obtain ⟨_, _, _, rfl⟩ := (FileTree.locate_child_eq_ok (fileName_ne_back key)).mp located
  refine text?_files.mpr (FileTree.readFile_child_eq_ok.mpr ⟨_, ?_, same.trans there⟩)
  exact grows.locate (fileName_ne_back key) located

/-! ### How far a write of a file gets -/

/-- How far a set gets: the directory, the draft or the renaming is refused, or the text is filed. -/
inductive Filing (tree : FileTree) (directory : FilePath) (key value : String) :
    FileTree → Except StorageError Unit → Prop
  /-- The directory is refused. -/
  | homeless {tree₁ : FileTree} {e : FileError}
      (refused : tree.makeDirectories directory = (tree₁, .error e)) :
      Filing tree directory key value tree₁ (.error .io)
  /-- The draft is refused. -/
  | undrafted {tree₁ : FileTree} {e : FileError}
      (made : tree.makeDirectories directory = (tree₁, .ok ()))
      (refused : tree₁.writeFile (directory.child (draftName key)) value.toUTF8 = .error e) :
      Filing tree directory key value tree₁ (.error .io)
  /-- The draft stays behind. -/
  | unnamed {tree₁ tree₂ : FileTree} {e : FileError}
      (made : tree.makeDirectories directory = (tree₁, .ok ()))
      (drafted : tree₁.writeFile (directory.child (draftName key)) value.toUTF8 = .ok tree₂)
      (refused : tree₂.rename (directory.child (draftName key)) (directory.child (fileName key)) =
        .error e) :
      Filing tree directory key value tree₂ (.error .io)
  /-- The draft has become the key's file. -/
  | filed {tree₁ tree₂ tree₃ : FileTree}
      (made : tree.makeDirectories directory = (tree₁, .ok ()))
      (drafted : tree₁.writeFile (directory.child (draftName key)) value.toUTF8 = .ok tree₂)
      (renamed : tree₂.rename (directory.child (draftName key)) (directory.child (fileName key)) =
        .ok tree₃) :
      Filing tree directory key value tree₃ (.ok ())

theorem filing (tree : FileTree) (directory : FilePath) (key value : String) :
    Filing tree directory key value (writeKeyFile tree directory key value).1
      (writeKeyFile tree directory key value).2 := by
  rw [writeKeyFile]
  split
  · next refused => exact .homeless refused
  · next made =>
    dsimp only
    split
    · next refused => exact .undrafted made refused
    · next drafted =>
      split
      · next refused => exact .unnamed made drafted refused
      · next renamed => exact .filed made drafted renamed

/-- However far a write gets, directories stay. -/
theorem Filing.extends {outcome : Except StorageError Unit}
    (filing : Filing tree directory key value tree' outcome) : tree.Extends tree' := by
  have first := (tree.makeDirectories_keeps directory).1
  cases filing with
  | homeless refused => rwa [refused] at first
  | undrafted made => rwa [made] at first
  | unnamed made drafted =>
    rw [made] at first
    exact first.trans (FileTree.writeFile_child (draftName_ne_back key) drafted).1
  | filed made drafted renamed =>
    rw [made] at first
    exact (first.trans (FileTree.writeFile_child (draftName_ne_back key) drafted).1).trans
      (FileTree.rename_child (fileName_ne_back key) (draftName_ne_back key) renamed).1

/-- However far a set gets, it changes no file but the draft and, if it is done, the key's. -/
theorem Filing.content_eq {outcome : Except StorageError Unit}
    (filing : Filing tree directory key value tree' outcome) {place : Place}
    (beside : place ≠ draftPlace tree directory key)
    (aside : outcome = .ok () → place ≠ keyPlace tree directory key) :
    tree'.content place = tree.content place := by
  by_cases root : place = []
  · subst root
    rfl
  obtain ⟨grows, same⟩ := tree.makeDirectories_keeps directory
  have first := congrFun same place
  have home := grows.home directory
  have second : ∀ {tree₁ tree₂ : FileTree}, tree₁.home directory = tree.home directory →
      tree₁.writeFile (directory.child (draftName key)) value.toUTF8 = .ok tree₂ →
        tree₂.home directory = tree.home directory ∧ tree₂.content place = tree₁.content place := by
    intro tree₁ tree₂ home drafted
    obtain ⟨grows, changed⟩ := FileTree.writeFile_child (draftName_ne_back key) drafted
    refine ⟨(grows.home directory).trans home, (changed place root).trans (if_neg ?_)⟩
    rwa [home]
  cases filing with
  | homeless refused => rwa [refused] at first
  | undrafted made => rwa [made] at first
  | unnamed made drafted =>
    rw [made] at first home
    exact (second home drafted).2.trans first
  | @filed tree₁ tree₂ _ made drafted renamed =>
    rw [made] at first home
    obtain ⟨home', written⟩ := second home drafted
    have third := (FileTree.rename_child (fileName_ne_back key) (draftName_ne_back key) renamed).2.2
    rw [home'] at third
    calc tree'.content place = tree₂.content place :=
          ((third place root).trans (if_neg (aside rfl))).trans (if_neg beside)
      _ = tree₁.content place := written
      _ = tree.content place := first

/-- A text that is filed is in its place. -/
theorem Filing.filed_content (filing : Filing tree directory key value tree' (.ok ())) :
    tree'.locate (directory.child (fileName key)) = .ok (keyPlace tree' directory key) ∧
      tree'.content (keyPlace tree' directory key) = some value.toUTF8 := by
  cases filing with
  | filed made drafted renamed =>
    obtain ⟨grows, located, moved⟩ :=
      FileTree.rename_child (fileName_ne_back key) (draftName_ne_back key) renamed
    obtain ⟨grows', written⟩ := FileTree.writeFile_child (draftName_ne_back key) drafted
    rw [keyPlace_of_extends grows]
    refine ⟨located, (moved _ (keyPlace_ne_root _ _ _)).trans ?_⟩
    rw [keyPlace, if_pos rfl, written _ (by simp), grows'.home, if_pos rfl]

/-! ### Writing -/

/-- A write fails and leaves everything alone, or it replaces what is stored under its key. -/
private theorem write_cases (s : Storage) (key value : String) :
    (∃ e, (s.write key value).2 = .error e) ∧ (∀ other, s.Keeps (s.write key value).1 other) ∨
      (s.write key value).2 = .ok () ∧
        (s.write key value).1.content key = some value.toUTF8 ∧ (s.write key value).1.Shows key ∧
        ∀ other, ¬s.Aliases key other → s.Keeps (s.write key value).1 other := by
  have inserted : ∀ (entries : Dictionary String) (other : String),
      (Dictionary.find? (entries.insert key value) other).map String.toUTF8 =
        if other = key then some value.toUTF8 else (entries.find? other).map String.toUTF8 := by
    intro entries other
    rw [Dictionary.find?_insert]
    split <;> rfl
  cases s with
  | memory limit entries =>
    have replaces : ∀ limit : Option Nat,
        (Storage.memory limit (entries.insert key value)).content key = some value.toUTF8 ∧
          (Storage.memory limit (entries.insert key value)).Shows key ∧
          ∀ other, ¬(Storage.memory limit entries).Aliases key other →
            (Storage.memory limit entries).Keeps (.memory limit (entries.insert key value)) other :=
      fun limit => ⟨(inserted entries key).trans (if_pos rfl), shows_memory _ _ _, fun other free =>
        ⟨(inserted entries other).trans (if_neg fun same => free same.symm),
          fun _ => shows_memory _ _ _⟩⟩
    cases limit with
    | none => exact .inr ⟨rfl, replaces none⟩
    | some limit =>
      rw [write]
      split
      · exact .inl ⟨⟨_, rfl⟩, fun _ => ⟨rfl, id⟩⟩
      · exact .inr ⟨rfl, replaces (some limit)⟩
  | files tree directory =>
    have filing := filing tree directory key value
    have kept : ∀ other, ((writeKeyFile tree directory key value).2 = .ok () →
        fileName key ≠ fileName other) →
          (files tree directory).Keeps (files (writeKeyFile tree directory key value).1 directory)
            other := fun other free =>
      keeps_files filing.extends (filing.content_eq (keyPlace_ne_draftPlace tree directory key other)
        fun done same => free done (by simpa [keyPlace] using same.symm))
    cases outcome : (writeKeyFile tree directory key value).2 with
    | error e => exact .inl ⟨⟨e, outcome⟩, fun other => kept other (by simp [outcome])⟩
    | ok _ =>
      rw [outcome] at filing
      obtain ⟨located, stored⟩ := filing.filed_content
      exact .inr ⟨outcome, stored, shows_files fun _ => located, fun other free =>
        kept other fun _ => free⟩
  | absent => exact .inl ⟨⟨_, rfl⟩, fun _ => ⟨rfl, id⟩⟩
  | unreliable state =>
    rw [write]
    split
    · refine .inr ⟨rfl, (inserted state.entries key).trans (if_pos rfl), shows_unreliable _ _, ?_⟩
      exact fun other free => ⟨(inserted state.entries other).trans
        (if_neg fun same => free same.symm), fun _ => shows_unreliable _ _⟩
    · exact .inl ⟨⟨_, rfl⟩, fun _ => ⟨rfl, fun _ => shows_unreliable _ _⟩⟩

/-- A write that succeeds replaces what is stored under its key, and this is shown. -/
theorem content_write (succeeds : (s.write key value).2 = .ok ()) :
    (s.write key value).1.content key = some value.toUTF8 ∧ (s.write key value).1.Shows key := by
  obtain ⟨⟨e, fails⟩, _⟩ | ⟨_, there, shows, _⟩ := s.write_cases key value
  · simp [succeeds] at fails
  · exact ⟨there, shows⟩

/-- A write that fails leaves everything alone. -/
theorem keeps_write_error {e : StorageError} (fails : (s.write key value).2 = .error e)
    (other : String) : s.Keeps (s.write key value).1 other := by
  obtain ⟨_, kept⟩ | ⟨succeeds, _⟩ := s.write_cases key value
  · exact kept other
  · simp [succeeds] at fails

/-- A write leaves alone what is stored under other keys. -/
theorem keeps_write (value : String) (other_ : ¬s.Aliases key other) :
    s.Keeps (s.write key value).1 other := by
  obtain ⟨_, kept⟩ | ⟨_, _, _, kept⟩ := s.write_cases key value
  · exact kept other
  · exact kept other other_

/-- So does somebody who puts bytes there. -/
theorem keeps_seed (bytes : ByteArray) (other_ : ¬s.Aliases key other) :
    s.Keeps (s.seed key bytes) other := by
  cases s with
  | memory limit entries =>
    rw [seed]
    split
    · refine ⟨?_, fun _ => shows_memory _ _ _⟩
      rw [content, content, Dictionary.find?_insert, if_neg fun same => other_ same.symm]
    · exact ⟨rfl, id⟩
  | files tree directory =>
    obtain ⟨grows, same⟩ : tree.Extends (tree.plant (directory.child (fileName key)) bytes) ∧
        (tree.plant (directory.child (fileName key)) bytes).content
            (keyPlace tree directory other) = tree.content (keyPlace tree directory other) := by
      rw [FileTree.plant, FileTree.create]
      obtain ⟨grows, same⟩ := tree.makeDirectories_keeps
        { directory.child (fileName key) with names := (directory.child (fileName key)).names.dropLast }
      split
      · next made =>
        rw [made] at grows same
        exact ⟨grows, congrFun same _⟩
      · next made =>
        rw [made] at grows same
        split
        · next written =>
          obtain ⟨grows', changed⟩ := FileTree.writeFile_child (fileName_ne_back key) written
          refine ⟨grows.trans grows', ?_⟩
          have home := grows.home directory
          rw [changed _ (keyPlace_ne_root _ _ _), home, if_neg]
          · exact congrFun same _
          · intro here
            have same : fileName other = fileName key := by simpa [keyPlace] using here
            exact other_ same.symm
        · exact ⟨grows, congrFun same _⟩
    exact keeps_files grows same
  | absent => exact ⟨rfl, id⟩
  | unreliable state => exact ⟨rfl, id⟩

end Storage

end TaskWatch
