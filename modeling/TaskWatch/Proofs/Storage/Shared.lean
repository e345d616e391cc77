import Mathlib.Data.List.Forall2
import TaskWatch.Proofs.Storage.Confined

/-!
# Keys that share a file

A file is named after its key, but every character that is not safe in a name becomes an underscore.
So two keys have one file if they differ in such characters only, and then a set of one of them is a
set of the other. Apart from this a set leaves all other keys alone: after some sets that have been
accepted, a key is answered with the last text that was set under a key with its file. In memory it
is the last text that was set under the key itself.

## Main definitions

* `Storage.writeAll`, `Storage.AcceptsAll` — some sets, one after another.
* `Storage.lastSet` — the text that was set last under one of some keys.
* `Storage.Blurs` — two characters that are the same in the name of a file.

## Main results

* `Storage.fileName_eq_iff` — which keys share a file.
* `Storage.read_writeAll` — what is read after some sets, of any storage.
* `Storage.sets_by_file` — a storage in files keeps one text for each file.
* `Storage.shared_file` — two keys that memory keeps apart and files do not.
-/

namespace TaskWatch

namespace Storage

variable {s : Storage} {tree tree' : FileTree} {directory : FilePath} {key value other : String}
  {sets : List (String × String)}

/-! ### Keys with one file -/

/-- Two characters are the same in the name of a file: they are the same, or each of them is an
underscore or is replaced by one. -/
def Blurs (c d : Char) : Prop := c = d ∨ (isSafe c = false ∨ c = '_') ∧ (isSafe d = false ∨ d = '_')

/-- The names of two files are the same if they are the same character by character. -/
theorem fileName_eq_iff :
    fileName other = fileName key ↔ List.Forall₂ Blurs other.toList key.toList := by
  have blurs : ∀ c d : Char,
      ((if isSafe c then c else '_') = if isSafe d then d else '_') ↔ Blurs c d := by
    intro c d
    have underscore : isSafe '_' = true := by decide
    rw [Blurs]
    split <;> split <;> grind
  rw [fileName, fileName, String.append_left_inj, stem, stem, ← String.toList_inj,
    String.toList_ofList, String.toList_ofList, ← List.forall₂_eq_eq_eq, List.forall₂_map_left_iff,
    List.forall₂_map_right_iff]
  simp only [blurs]

/-- What can be read under two keys with one file is the same. -/
theorem read_files_of_fileName (same : fileName other = fileName key)
    (found : (files tree directory).read other = .ok (some value)) :
    (files tree directory).read key = .ok (some value) := by
  simp only [read, readKeyFile, same] at found ⊢
  split at found
  · split at found <;> simp_all
  · simp at found
  · simp at found

/-! ### Some sets -/

/-- A storage after some sets. -/
def writeAll (s : Storage) : List (String × String) → Storage
  | [] => s
  | set :: rest => (s.write set.1 set.2).1.writeAll rest

/-- All of some sets are accepted. -/
def AcceptsAll (s : Storage) : List (String × String) → Prop
  | [] => True
  | set :: rest => (s.write set.1 set.2).2 = .ok () ∧ (s.write set.1 set.2).1.AcceptsAll rest

/-- The text that was set last under one of some keys. -/
def lastSet (concerns : String → Bool) : List (String × String) → Option String
  | [] => none
  | set :: rest => (lastSet concerns rest).or (if concerns set.1 then some set.2 else none)

/-- If an accepted set changes what is read of a key in certain cases only, and always to the new
text, then after some sets the last one of these cases is read. -/
theorem read_writeAll (Holds : Storage → Prop) {concerns : String → Bool}
    (step : ∀ {s : Storage} (other value : String), Holds s → (s.write other value).2 = .ok () →
      Holds (s.write other value).1 ∧ (s.write other value).1.read key =
        if concerns other then .ok (some value) else s.read key)
    (holds : Holds s) (accepted : s.AcceptsAll sets) :
    (s.writeAll sets).read key = match lastSet concerns sets with
      | some value => .ok (some value)
      | none => s.read key := by
  induction sets generalizing s with
  | nil => rfl
  | cons set rest ih =>
    obtain ⟨first, others⟩ := accepted
    obtain ⟨holds', read⟩ := step set.1 set.2 holds first
    rw [writeAll, ih holds' others, read, lastSet]
    cases lastSet concerns rest with
    | some value => rfl
    | none => cases concerns set.1 <;> rfl

/-- In memory without a limit every set is accepted. -/
theorem acceptsAll_memory (entries : Dictionary String) (sets : List (String × String)) :
    (memory none entries).AcceptsAll sets := by
  induction sets generalizing entries with
  | nil => trivial
  | cons set rest ih => exact ⟨rfl, ih _⟩

/-- In memory without a limit a set changes what is read of its own key. -/
theorem read_write_memory (entries : Dictionary String) (key other value : String) :
    ((memory none entries).write other value).1.read key =
      if decide (other = key) then .ok (some value) else (memory none entries).read key := by
  simp only [write, read, Dictionary.find?_insert, decide_eq_true_eq, eq_comm (a := key)]
  split <;> rfl

/-! ### Sets in files -/

/-- A set that is done leaves a path to the directory that goes straight. -/
theorem Filing.leadsStraight (filing : Filing tree directory key value tree' (.ok ())) :
    tree'.leadsStraight directory = true := by
  obtain ⟨located, stored⟩ := filing.filed_content
  refine FileTree.leadsStraight_of_ne_notFound (fileName_ne_back key)
    (hasNul_fileName directory key) ?_
  rw [FileTree.readFile_child_eq_ok.mpr ⟨_, located, stored⟩]
  simp

/-- In files a set leaves alone what is read of every key that has another file. -/
theorem read_write_of_fileName_ne (rooted : tree.IsRooted)
    (straight : tree.leadsStraight directory = true)
    (legal : FileTree.isName (fileName key) = true) (aside : fileName other ≠ fileName key) :
    ((files tree directory).write other value).1.read key = (files tree directory).read key :=
  (filing tree directory other value).readKeyFile_eq rooted straight legal fun _ => aside.symm

/-- A storage in files whose directory is there or can be made. -/
def IsInPlace (directory : FilePath) (s : Storage) : Prop :=
  ∃ tree : FileTree, s = files tree directory ∧ tree.IsRooted ∧
    tree.leadsStraight directory = true

/-- An accepted set replaces what is read of the keys that have its file. -/
theorem IsInPlace.read_write (place : IsInPlace directory s)
    (legal : FileTree.isName (fileName key) = true) (other value : String)
    (accepted : (s.write other value).2 = .ok ()) :
    IsInPlace directory (s.write other value).1 ∧ (s.write other value).1.read key =
      if decide (fileName other = fileName key) then .ok (some value) else s.read key := by
  obtain ⟨tree, rfl, rooted, straight⟩ := place
  have filing := filing tree directory other value
  have done : (writeKeyFile tree directory other value).2 = .ok () := accepted
  rw [done] at filing
  refine ⟨⟨_, rfl, filing.isRooted rooted, filing.leadsStraight⟩, ?_⟩
  by_cases same : fileName other = fileName key
  · rw [if_pos (decide_eq_true same)]
    exact read_files_of_fileName same (Storage.read_write accepted rfl)
  · rw [if_neg (by simpa using same)]
    exact read_write_of_fileName_ne rooted straight legal same

/-- A storage in files keeps one text for each file. A set leaves the keys with other files alone,
whether it is accepted or not; after some sets that are accepted, a key is answered with the last
text that was set under a key with its file. Memory without a limit takes all sets and goes by the
key itself. So the two agree as long as no other key with the same file is set, and two keys have the
same file if they differ only in characters that are replaced. -/
theorem sets_by_file (rooted : tree.IsRooted) (straight : tree.leadsStraight directory = true)
    (legal : FileTree.isName (fileName key) = true) :
    (∀ other value, fileName other ≠ fileName key →
      ((files tree directory).write other value).1.read key = (files tree directory).read key) ∧
    (∀ sets, (files tree directory).AcceptsAll sets →
      ((files tree directory).writeAll sets).read key =
        match lastSet (fun other => fileName other = fileName key) sets with
        | some value => .ok (some value)
        | none => (files tree directory).read key) ∧
    (∀ entries sets, (memory none entries).AcceptsAll sets ∧
      ((memory none entries).writeAll sets).read key =
        match lastSet (fun other => other = key) sets with
        | some value => .ok (some value)
        | none => (memory none entries).read key) ∧
    ∀ other, fileName other = fileName key ↔ List.Forall₂ Blurs other.toList key.toList := by
  refine ⟨fun other value => read_write_of_fileName_ne rooted straight legal, fun sets accepted => ?_,
    fun entries sets => ⟨acceptsAll_memory entries sets, ?_⟩, fun other => fileName_eq_iff⟩
  · refine read_writeAll (IsInPlace directory) ?_ ⟨tree, rfl, rooted, straight⟩ accepted
    exact fun other value place => place.read_write legal other value
  · refine read_writeAll (fun s => ∃ entries, s = memory none entries) ?_ ⟨entries, rfl⟩
      (acceptsAll_memory entries sets)
    rintro _ other value ⟨entries, rfl⟩ -
    exact ⟨⟨_, rfl⟩, read_write_memory entries key other value⟩

/-- Of three texts the second one is read under the key of the first one. -/
theorem sets_by_file_three :
    ((files .empty (.parse "state/jobs")).writeAll
      [("tenant/a", "1"), ("tenant:a", "2"), ("tenant-a", "3")]).read "tenant/a" =
        .ok (some "2") ∧
      fileName "tenant-a" ≠ fileName "tenant/a" := by
  have straight : FileTree.empty.leadsStraight (.parse "state/jobs") = true := by decide
  have legal : FileTree.isName (fileName "tenant/a") = true := by decide
  obtain ⟨-, several, -, -⟩ := sets_by_file FileTree.isRooted_empty straight legal
  exact ⟨several _ ⟨rfl, rfl, rfl, trivial⟩, by decide⟩

/-- A text is set under a key, and another one under a key that differs in one character. Both sets
are accepted. In memory the first text is read under the first key; in files it is the second one. -/
theorem shared_file :
    let sets := [("a/b", "1"), ("a:b", "2")]
    let s := files .empty (.parse "state")
    s.AcceptsAll sets ∧ (inMemory.writeAll sets).read "a/b" = .ok (some "1") ∧
      (s.writeAll sets).read "a/b" = .ok (some "2") :=
  ⟨⟨rfl, rfl, trivial⟩, rfl, rfl⟩

end Storage

end TaskWatch
