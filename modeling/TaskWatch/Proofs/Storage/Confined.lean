import TaskWatch.Proofs.Storage.Content
import TaskWatch.Proofs.Storage.Rooted

/-!
# What a set does to the files

A set makes the directory, writes a draft and renames it. Each of the three may be refused, and then
no key's file has changed; the draft may be left behind. Every key can be read as before, too, unless
the directory was missing and can only be made in part: then a key that could not be found may have
become one that cannot be reached, or one that has been there all along. A set that gets to its end
has changed two files, the key's and its draft. These lie in the directory itself, whatever the key
is.

## Main definitions

* `Storage.IsPlain` — a name for something in a directory itself.
* `Storage.IsDone`, `Storage.IsRefused` — what is true after a set.

## Main results

* `Storage.isPlain_fileName`, `Storage.isPlain_draftName` — the names for all keys are plain.
* `Storage.write_confined` — a set is done, or has not changed any key's file.
* `Storage.read_refused_after_write` — but a key that was missing may be refused afterwards.
-/

namespace TaskWatch

namespace Storage

variable {tree tree' : FileTree} {directory : FilePath} {key value other : String}

/-! ### The names of the files -/

/-- A name for something that lies in a directory itself: read as a path it is a single name, and
does not lead back. -/
def IsPlain (name : String) : Prop := FilePath.parse name = { names := [name] } ∧ name ≠ ".."

/-- A name of safe characters that is not one of the names for directories is plain. -/
theorem isPlain_of_safe {name : String} (safe : ∀ c ∈ name.toList, isSafe c = true)
    (some_ : name ≠ "") (other_ : name ≠ ".") (onward : name ≠ "..") : IsPlain name := by
  have whole : '/' ∉ name.toList := fun mem => absurd (safe _ mem) (by decide)
  have parts : (name.toList.splitOn '/').map String.ofList = [name] := by
    rw [List.splitOn_eq_singleton whole, List.map_singleton, String.ofList_toList]
  have busy : FilePath.isIdle name = false := by
    simp [FilePath.isIdle, some_, other_]
  have relative : name.toList.head? ≠ some '/' := fun first => whole (List.mem_of_head? first)
  refine ⟨?_, onward⟩
  simp only [FilePath.parse, parts]
  simp [busy, relative]

theorem isPlain_fileName (key : String) : IsPlain (fileName key) := by
  have last := last_fileName key
  refine isPlain_of_safe (fun c => isSafe_of_mem_fileName) ?_ ?_ (fileName_ne_back key)
  all_goals
    intro same
    simp [same] at last

theorem isPlain_draftName (key : String) : IsPlain (draftName key) := by
  have last := last_draftName key
  have beginning : ".".toList.all isSafe = true := rfl
  have ending : ".json.tmp".toList.all isSafe = true := rfl
  refine isPlain_of_safe (fun c mem => ?_) ?_ ?_ (draftName_ne_back key)
  · rw [draftName, String.toList_append, String.toList_append, List.mem_append,
      List.mem_append] at mem
    rcases mem with (mem | mem) | mem
    · exact List.all_eq_true.mp beginning c mem
    · exact isSafe_of_mem_stem mem
    · exact List.all_eq_true.mp ending c mem
  all_goals
    intro same
    simp [same] at last

/-- A plain name stands directly in the directory. -/
theorem IsPlain.locate {name : String} {place : Place} (plain : IsPlain name)
    (located : tree.locate (directory.child name) = .ok place) :
    ∃ home, tree.follow (tree.origin directory) directory.names = .ok home ∧
      place = home ++ [name] := by
  obtain ⟨_, leads, _, rfl⟩ := (FileTree.locate_child_eq_ok plain.2).mp located
  exact ⟨_, leads, rfl⟩

/-! ### What a set leaves alone -/

/-- However far a set gets, it leaves a tree rooted. -/
theorem Filing.isRooted {outcome : Except StorageError Unit} (rooted : tree.IsRooted)
    (filing : Filing tree directory key value tree' outcome) : tree'.IsRooted := by
  have first := rooted.makeDirectories directory
  cases filing with
  | homeless refused => rwa [refused] at first
  | undrafted made => rwa [made] at first
  | unnamed made drafted =>
    rw [made] at first
    exact first.writeFile drafted
  | filed made drafted renamed =>
    rw [made] at first
    exact (first.writeFile drafted).rename renamed

/-- However far a set gets, every other key's file is read as before, provided that the path to the
directory goes straight; and so is the key's own, if the set is not done. -/
theorem Filing.readKeyFile_eq {outcome : Except StorageError Unit}
    (filing : Filing tree directory key value tree' outcome) (rooted : tree.IsRooted)
    (straight : tree.leadsStraight directory = true)
    (legal : FileTree.isName (fileName other) = true)
    (aside : outcome = .ok () → fileName other ≠ fileName key) :
    readKeyFile tree' directory other = readKeyFile tree directory other := by
  have ordinary := fileName_ne_back other
  have beside := fileName_ne_draftName other key
  have first := rooted.readFile_makeDirectories ordinary legal straight
  have second : ∀ {tree₁ tree₂ : FileTree},
      tree₁.writeFile (directory.child (draftName key)) value.toUTF8 = .ok tree₂ →
        tree₂.readFile (directory.child (fileName other)) =
          tree₁.readFile (directory.child (fileName other)) :=
    FileTree.readFile_writeFile (draftName_ne_back key) ordinary beside
  suffices same : tree'.readFile (directory.child (fileName other)) =
      tree.readFile (directory.child (fileName other)) by
    rw [readKeyFile, readKeyFile, same]
  cases filing with
  | homeless refused => rwa [refused] at first
  | undrafted made => rwa [made] at first
  | unnamed made drafted =>
    rw [made] at first
    exact (second drafted).trans first
  | filed made drafted renamed =>
    rw [made] at first
    exact (FileTree.readFile_rename (draftName_ne_back key) (fileName_ne_back key) ordinary beside
      (aside rfl) renamed).trans ((second drafted).trans first)

/-- Where something is read, or something is in the way, the path goes straight. -/
theorem leadsStraight_of_readKeyFile (found : readKeyFile tree directory key ≠ .ok none) :
    tree.leadsStraight directory = true := by
  refine FileTree.leadsStraight_of_ne_notFound (fileName_ne_back key)
    (hasNul_fileName directory key) fun missing => found ?_
  rw [readKeyFile, missing]

/-- A set that is done has used its draft up, in a directory that is there. -/
theorem Filing.lookup_draftPlace (filing : Filing tree directory key value tree' (.ok ())) :
    tree'.lookup (draftPlace tree directory key) = none := by
  have home := filing.extends.home directory
  rw [draftPlace, ← home]
  cases filing with
  | filed made drafted renamed =>
    have home := (FileTree.rename_child (fileName_ne_back key) (draftName_ne_back key) renamed).1.home
      directory
    obtain ⟨_, _, _, located, located', _, _, rfl⟩ := FileTree.rename_cases renamed
    obtain ⟨_, _, _, rfl⟩ := (FileTree.locate_child_eq_ok (draftName_ne_back key)).mp located
    obtain ⟨_, _, _, rfl⟩ := (FileTree.locate_child_eq_ok (fileName_ne_back key)).mp located'
    have beside := (fileName_ne_draftName key key).symm
    rw [home, FileTree.lookup_put _ _ _ _ (by simp), if_neg (by simpa using beside),
      FileTree.lookup_remove _ _ _ (by simp), if_pos rfl]

/-! ### What can be said of every set -/

/-- What is written can be read. -/
theorem read_write {s : Storage} (succeeds : (s.write key value).2 = .ok ())
    (answers : (s.write key value).1.answers = true) :
    (s.write key value).1.read key = .ok (some value) := by
  obtain ⟨stored, shows⟩ := content_write succeeds
  have shown := shows answers value stored
  rw [text?] at shown
  split at shown
  · next read => rw [read, shown]
  · simp at shown

/-- What is true after a set that is done: the text can be read, the draft is gone, and every file
but these two is as it was. -/
structure IsDone (tree tree' : FileTree) (directory : FilePath) (key value : String) : Prop where
  shown : (files tree' directory).read key = .ok (some value)
  tidy : tree'.lookup (draftPlace tree directory key) = none
  aside : ∀ place, place ≠ keyPlace tree directory key → place ≠ draftPlace tree directory key →
    tree'.content place = tree.content place

/-- What is true after a set that is refused: every file but the draft is as it was. Every key is
read as before, provided that the path to the directory, from where it breaks off, can be made to
its end and goes straight there; and if not, then still every key for which there was an answer. -/
structure IsRefused (tree tree' : FileTree) (directory : FilePath) (key : String) : Prop where
  aside : ∀ place, place ≠ draftPlace tree directory key →
    tree'.content place = tree.content place
  shown : ∀ other, FileTree.isName (fileName other) = true →
    (tree.leadsStraight directory = true ∨
      (files tree directory).read other ≠ .ok none) →
    (files tree' directory).read other = (files tree directory).read other

/-- A set is done, or it is refused and has changed nothing but its draft. Its two files lie in the
directory itself, whatever the key is, and the draft is no key's file. -/
theorem write_confined (rooted : tree.IsRooted) (directory : FilePath) (key value : String) :
    (∃ tree', (files tree directory).write key value = (files tree' directory, .ok ()) ∧
          IsDone tree tree' directory key value ∨
        (files tree directory).write key value = (files tree' directory, .error .io) ∧
          IsRefused tree tree' directory key) ∧
      (∀ name, name = fileName key ∨ name = draftName key →
        IsPlain name ∧ ∀ place, tree.locate (directory.child name) = .ok place →
          ∃ home, tree.follow (tree.origin directory) directory.names = .ok home ∧
            place = home ++ [name]) ∧
      ∀ other, fileName other ≠ draftName key := by
  refine ⟨?_, fun name among => ?_, fun other => fileName_ne_draftName other key⟩
  · have written : (files tree directory).write key value =
        (files (writeKeyFile tree directory key value).1 directory,
          (writeKeyFile tree directory key value).2) := rfl
    have filing := filing tree directory key value
    generalize (writeKeyFile tree directory key value).1 = tree' at written filing
    refine ⟨tree', ?_⟩
    cases outcome : (writeKeyFile tree directory key value).2 with
    | ok _ =>
      rw [outcome] at written filing
      have shown := read_write (s := files tree directory) (by rw [written]) (by rw [written]; rfl)
      rw [written] at shown
      exact .inl ⟨written, shown, filing.lookup_draftPlace,
        fun place aside beside => filing.content_eq beside fun _ => aside⟩
    | error e =>
      rw [outcome] at written filing
      have failed : (.error e : Except StorageError Unit) ≠ .ok () := by simp
      obtain rfl : e = .io := by cases filing <;> rfl
      refine .inr ⟨written, fun place beside => filing.content_eq beside (absurd · failed), ?_⟩
      intro other legal known
      have straight := known.elim id leadsStraight_of_readKeyFile
      exact filing.readKeyFile_eq rooted straight legal (absurd · failed)
  · have plain : IsPlain name := by
      rcases among with rfl | rfl
      · exact isPlain_fileName key
      · exact isPlain_draftName key
    exact ⟨plain, fun place located => plain.locate located⟩

/-- Somebody works in a directory with a file in it, and sets a text under a key that reads like a
way out of a directory: first in a directory that is given by an absolute path, then in one that is
given by a relative path. If the file is in the place of the directory, the set is refused. -/
theorem write_confined_outward :
    let tree := (FileTree.empty.plant (.parse "/home/notes") .empty).seenFrom ["home"]
    (∃ tree', (files tree (.parse "/var/lib/jobs")).write "../notes" "text" =
        (files tree' (.parse "/var/lib/jobs"), .ok ()) ∧
      IsDone tree tree' (.parse "/var/lib/jobs") "../notes" "text") ∧
    (∃ tree', (files tree (.parse "state/jobs")).write "../notes" "text" =
        (files tree' (.parse "state/jobs"), .ok ()) ∧
      IsDone tree tree' (.parse "state/jobs") "../notes" "text") ∧
    ∃ tree', (files tree (.parse "notes")).write "../notes" "text" =
        (files tree' (.parse "notes"), .error .io) ∧
      IsRefused tree tree' (.parse "notes") "../notes" := by
  intro tree
  have rooted : tree.IsRooted :=
    (FileTree.isRooted_empty.plant (.parse "/home/notes") .empty).seenFrom rfl
  have distinct : (.ok () : Except StorageError Unit) ≠ .error .io := by simp
  refine ⟨?_, ?_, ?_⟩
  · obtain ⟨⟨tree', done | refused⟩, -⟩ :=
      write_confined rooted (.parse "/var/lib/jobs") "../notes" "text"
    · exact ⟨tree', done⟩
    · exact absurd (congrArg Prod.snd refused.1) distinct
  · obtain ⟨⟨tree', done | refused⟩, -⟩ :=
      write_confined rooted (.parse "state/jobs") "../notes" "text"
    · exact ⟨tree', done⟩
    · exact absurd (congrArg Prod.snd refused.1) distinct
  · obtain ⟨⟨tree', done | refused⟩, -⟩ := write_confined rooted (.parse "notes") "../notes" "text"
    · exact absurd (congrArg Prod.snd done.1).symm distinct
    · exact ⟨tree', refused⟩

/-- A file is in the place of the directory, and the path to it leads through one that is missing.
Before the set there is no answer for the key; the set makes the missing directory and is refused;
then the key is refused, too. -/
theorem read_refused_after_write :
    let s := files (FileTree.empty.plant (.parse "f") .empty) (.parse "a/../f")
    FileTree.isName (fileName "k") = true ∧ s.read "k" = .ok none ∧
      (s.write "k" "v").2 = .error .io ∧ (s.write "k" "v").1.read "k" = .error .io :=
  ⟨by decide, rfl, rfl, rfl⟩

end Storage

end TaskWatch
