import TaskWatch.Command.Run
import TaskWatch.Proofs.Storage.Confined
import TaskWatch.Proofs.Store.Change
import TaskWatch.Proofs.Store.Hydration
import TaskWatch.Proofs.Store.Listed

/-!
# Listing and clearing persisted tasks

What the commands find under the configured key can be told from the bytes of one file: all records
of its payload, or none if it is missing, no text, or no payload of the current version. Listing
changes no file. Clearing changes no file either, unless one of the records is terminal; so a file
that cannot be read is never written over. Otherwise the file is rewritten without the terminal
records, and what has been written is read back: from then on listing shows what was active before,
and there is nothing left to clear.

## Main definitions

* `Collection.ofBytes?` — the records in the bytes of a file.
* `Storage.Reaches` — a key's file is reached once its directory is made.
* `Site.stateFile`, `Site.records` — the file with the persisted tasks, and its records.
* `Site.Accepts` — any text can be stored under the configured key.
* `Site.after` — a working directory after some commands.

## Main results

* `Collection.list_clearTerminal` — what is left is listed as what was active.
* `Site.execute_list`, `Site.execute_clear` — what the two commands do.
* `Site.keepsFiles_after` — where no record is terminal, they change no file.
* `Site.clear_keeps_active` — listing and clearing lose nothing but the terminal records.
-/

namespace TaskWatch

/-! ### What is left of a collection -/

namespace Collection

variable {tasks : Collection}

/-- Deleting the terminal records keeps all others, also if there is nothing to delete. -/
theorem tasks_clearTerminal (tasks : Collection) :
    tasks.clearTerminal.tasks = tasks.filter fun entry => !entry.2.isTerminal := by
  refine Dictionary.ext_find? fun id => ?_
  rw [find?_clearTerminal, Dictionary.find?_filter]

theorem values_clearTerminal (tasks : Collection) :
    tasks.clearTerminal.tasks.values = tasks.values.filter fun task => !task.isTerminal := by
  rw [tasks_clearTerminal, Dictionary.values, Dictionary.values, List.filter_map]
  rfl

/-- What is left is listed as what was active. -/
theorem list_clearTerminal (tasks : Collection) :
    tasks.clearTerminal.tasks.list = tasks.active := by
  have all : ∀ given : List Task, (given.filter fun _ => true) = given := fun given =>
    List.filter_eq_self.mpr fun _ _ => rfl
  rw [list, active, listed, listed, all, values_clearTerminal]

/-- As many identifiers are returned as there are terminal records. -/
theorem length_clearTerminal (tasks : Collection) :
    tasks.clearTerminal.answer.length = tasks.values.countP Task.isTerminal := by
  have answer : tasks.clearTerminal.answer = tasks.terminalIds := by
    rw [clearTerminal]
    split
    · next none_ => exact none_.symm
    · rfl
  rw [answer, terminalIds, Dictionary.keys, List.length_map, Dictionary.values, List.countP_map,
    List.countP_eq_length_filter]
  rfl

/-- Nothing terminal is left. -/
theorem countP_clearTerminal (tasks : Collection) :
    tasks.clearTerminal.tasks.values.countP Task.isTerminal = 0 := by
  rw [values_clearTerminal, List.countP_eq_zero]
  intro task mem
  simpa using (List.mem_filter.mp mem).2

/-- Where nothing is terminal, everything is left. -/
theorem tasks_clearTerminal_of_countP_eq_zero (none_ : tasks.values.countP Task.isTerminal = 0) :
    tasks.clearTerminal.tasks = tasks := by
  refine Dictionary.ext_find? fun id => ?_
  rw [find?_clearTerminal]
  cases found : tasks.find? id with
  | none => rfl
  | some task =>
    have active := List.countP_eq_zero.mp none_ task ((tasks.mem_values).mpr ⟨id, found⟩)
    simp [Option.filter, active]

/-- So everything is active. -/
theorem active_of_countP_eq_zero (none_ : tasks.values.countP Task.isTerminal = 0) :
    tasks.active = tasks.list := by
  rw [← list_clearTerminal, tasks_clearTerminal_of_countP_eq_zero none_]

/-- The records in the bytes of a file, if these are a payload of the current version. -/
def ofBytes? (bytes : ByteArray) : Option Collection := (String.fromUTF8? bytes).bind decode?

end Collection

/-! ### The way to a key's file -/

/-- Where a name is reached in a directory, the directory is there and need not be made. -/
theorem FileTree.makeDirectories_of_locate {t : FileTree} {path : FilePath} {name : String}
    {place : Place} (ordinary : name ≠ "..") (located : t.locate (path.child name) = .ok place) :
    t.makeDirectories path = (t, .ok ()) := by
  obtain ⟨clean, leads, -, -⟩ := (locate_child_eq_ok ordinary).mp located
  rw [hasNul_child, Bool.or_eq_false_iff] at clean
  rw [makeDirectories, clean.1, if_neg Bool.false_ne_true,
    makeAlong_of_ne_notFound (by simp [leads]), leads]
  rfl

namespace Storage

variable {tree tree' : FileTree} {directory : FilePath} {key value : String}

/-- A key's file, whether it exists or not, is reached once its directory is made, which can be
done. -/
structure Reaches (tree : FileTree) (directory : FilePath) (key : String) : Prop where
  made : (tree.makeDirectories directory).2 = .ok ()
  located : (tree.makeDirectories directory).1.locate (directory.child (fileName key)) =
    .ok (keyPlace tree directory key)

theorem reaches_of_locate
    (located : tree.locate (directory.child (fileName key)) = .ok (keyPlace tree directory key)) :
    Reaches tree directory key := by
  have made := FileTree.makeDirectories_of_locate (fileName_ne_back key) located
  exact ⟨by rw [made], by rwa [made]⟩

/-- The directory need not be made again. -/
theorem Reaches.makeDirectories (reaches : Reaches tree directory key) :
    (tree.makeDirectories directory).1.makeDirectories directory =
      ((tree.makeDirectories directory).1, .ok ()) :=
  FileTree.makeDirectories_of_locate (fileName_ne_back key) reaches.located

/-- So it does not matter whether it is made before something is written. -/
theorem Reaches.writeKeyFile (reaches : Reaches tree directory key) (value : String) :
    Storage.writeKeyFile (tree.makeDirectories directory).1 directory key value =
      Storage.writeKeyFile tree directory key value := by
  have made : tree.makeDirectories directory = ((tree.makeDirectories directory).1, .ok ()) :=
    Prod.ext rfl reaches.made
  rw [Storage.writeKeyFile, Storage.writeKeyFile, reaches.makeDirectories, made]

/-- What is read under the key is the text of the file in its place. -/
theorem Reaches.text? (reaches : Reaches tree directory key) :
    (files (tree.makeDirectories directory).1 directory).text? key =
      (tree.content (keyPlace tree directory key)).bind String.fromUTF8? := by
  have same := congrFun (tree.makeDirectories_keeps directory).2 (keyPlace tree directory key)
  have plain : (directory.child (fileName key)).isDirectory = false := rfl
  rw [← same, FileTree.content, Storage.text?, Storage.read, readKeyFile, FileTree.readFile,
    reaches.located]
  dsimp only
  rw [plain]
  cases (tree.makeDirectories directory).1.lookup (keyPlace tree directory key) with
  | none => rfl
  | some node =>
    cases node with
    | directory => rfl
    | file bytes =>
      simp only [Option.bind_some, FileNode.bytes?, Bool.false_eq_true, if_false]
      cases String.fromUTF8? bytes <;> rfl

/-- Where something has been filed, the key's file was reached. -/
theorem Filing.reaches (filing : Filing tree directory key value tree' (.ok ())) :
    Reaches tree directory key := by
  cases filing with
  | filed made drafted renamed =>
    have grows := (tree.makeDirectories_keeps directory).1
    rw [made] at grows
    obtain ⟨_, located, _, rfl⟩ := FileTree.writeFile_cases drafted
    obtain ⟨_, _, _, _, located', _, _, _⟩ := FileTree.rename_cases renamed
    obtain ⟨-, leads, -, -⟩ := (FileTree.locate_child_eq_ok (draftName_ne_back key)).mp located
    obtain ⟨clean, -, legal, -⟩ := (FileTree.locate_child_eq_ok (fileName_ne_back key)).mp located'
    refine ⟨by rw [made], ?_⟩
    rw [made, keyPlace, ← grows.home]
    exact (FileTree.locate_child_eq_ok (fileName_ne_back key)).mpr ⟨clean, leads, legal, rfl⟩

end Storage

/-! ### The file with the persisted tasks -/

/-- The directory of the persisted tasks. -/
def Configuration.directory (c : Configuration) : FilePath := FilePath.parse c.stateDirectory

namespace Site

variable {s s' : Site} {c : Configuration}

/-- The bytes of the file with the persisted tasks, if it is there. -/
def stateFile (s : Site) (c : Configuration) : Option ByteArray :=
  s.tree.content (Storage.keyPlace s.tree c.directory c.key)

/-- The records in this file; none if it is missing or cannot be read. -/
def records (s : Site) (c : Configuration) : Collection :=
  ((s.stateFile c).bind Collection.ofBytes?).getD .empty

/-- Any text can be stored under the configured key. -/
def Accepts (s : Site) (c : Configuration) : Prop :=
  ∀ text, ((Storage.files s.tree c.directory).write c.key text).2 = .ok ()

/-- The file with the persisted tasks is reached. -/
def Reaches (s : Site) (c : Configuration) : Prop := Storage.Reaches s.tree c.directory c.key

/-- Every file stays as it is, and none is added; and commands are run in the same directory. -/
structure KeepsFiles (s s' : Site) : Prop where
  content : ∀ place, s'.tree.content place = s.tree.content place
  working : s'.tree.working = s.tree.working

/-- The working directory with the directory of the persisted tasks in it. -/
def opened (s : Site) (c : Configuration) : Site :=
  { s with tree := (s.tree.makeDirectories c.directory).1 }

theorem KeepsFiles.records (keeps : s.KeepsFiles s') : s'.records c = s.records c := by
  have place : Storage.keyPlace s'.tree c.directory c.key =
      Storage.keyPlace s.tree c.directory c.key := by
    rw [Storage.keyPlace, Storage.keyPlace, FileTree.home_congr keeps.working]
  rw [Site.records, Site.records, stateFile, stateFile, place, keeps.content]

theorem KeepsFiles.trans {s₁ : Site} (first : s.KeepsFiles s₁) (second : s₁.KeepsFiles s') :
    s.KeepsFiles s' :=
  ⟨fun place => (second.content place).trans (first.content place),
    second.working.trans first.working⟩

theorem keepsFiles_opened (s : Site) (c : Configuration) : s.KeepsFiles (s.opened c) :=
  have keeps := s.tree.makeDirectories_keeps c.directory
  ⟨congrFun keeps.2, keeps.1.working⟩

theorem Reaches.opened (reaches : s.Reaches c) : (s.opened c).Reaches c := by
  have same : Storage.keyPlace (s.opened c).tree c.directory c.key =
      Storage.keyPlace s.tree c.directory c.key :=
    Storage.keyPlace_of_extends (s.tree.makeDirectories_keeps c.directory).1 _ _
  exact Storage.reaches_of_locate (reaches.located.trans (by rw [same]))

/-- A set that is accepted is done. -/
theorem Accepts.filing (accepts : s.Accepts c) (text : String) :
    Storage.Filing s.tree c.directory c.key text
      (Storage.writeKeyFile s.tree c.directory c.key text).1 (.ok ()) := by
  have filing := Storage.filing s.tree c.directory c.key text
  have done : (Storage.writeKeyFile s.tree c.directory c.key text).2 = .ok () := accepts text
  rwa [done] at filing

theorem Accepts.reaches (accepts : s.Accepts c) : s.Reaches c := (accepts.filing "").reaches

/-- A store is opened on the records of the file. -/
theorem Reaches.hydrate (reaches : s.Reaches c) :
    Collection.hydrate (.files (s.opened c).tree c.directory) c.key = s.records c := by
  have text := Storage.Reaches.text? reaches
  rw [Collection.hydrate, Site.opened, text, Site.records, ← stateFile]
  cases s.stateFile c with
  | none => rfl
  | some bytes =>
    rw [Option.bind_some, Option.bind_some, Collection.ofBytes?]
    cases String.fromUTF8? bytes <;> rfl

theorem Reaches.withStorage (reaches : s.Reaches c)
    (use : Site → Storage → CommandOutcome × Site) :
    s.withStorage c use = use (s.opened c) (.files (s.opened c).tree c.directory) := by
  have made : s.tree.makeDirectories (FilePath.parse c.stateDirectory) =
      ((s.opened c).tree, .ok ()) := Prod.ext rfl reaches.made
  rw [Site.withStorage, storage?, made]
  rfl

/-! ### What the two commands do -/

/-- Listing prints the records and makes the directory. -/
theorem execute_list (reaches : s.Reaches c) (asJson onlyActive : Bool) :
    s.execute c (.list asJson onlyActive) =
      (.success (Listing.render
        (if onlyActive then (s.records c).active else (s.records c).list) asJson), s.opened c) := by
  rw [execute, reaches.withStorage, Command.tasks, reaches.hydrate]

/-- What is stored by clearing. -/
private theorem snd_cleared (storage : Storage) (key : String) :
    (Command.cleared storage key).2 =
      if (Collection.hydrate storage key).values.countP Task.isTerminal = 0 then storage
      else (storage.write key (Collection.hydrate storage key).clearTerminal.tasks.encode).1 := by
  have counted := (Collection.hydrate storage key).length_clearTerminal
  rw [Command.cleared, Store.apply, Store.ofStorage, ← counted, Collection.clearTerminal]
  split
  · rfl
  · next first =>
    rw [if_neg (by simpa using first)]
    simp only [Store.commit, Store.persist]
    rw [if_neg (by simp)]
    split <;> next written => rw [written]

/-- Clearing reports how many records are terminal. It stores what is left of the records, if there
is a terminal one. -/
theorem execute_clear (reaches : s.Reaches c) :
    s.execute c .clear =
      (.success ("Removed " ++ toString ((s.records c).values.countP Task.isTerminal) ++
          " finished task(s)\n"),
        if (s.records c).values.countP Task.isTerminal = 0 then s.opened c
        else { s with tree := (Storage.writeKeyFile s.tree c.directory c.key
          (s.records c).clearTerminal.tasks.encode).1 }) := by
  have stored := snd_cleared (.files (s.opened c).tree c.directory) c.key
  rw [reaches.hydrate] at stored
  rw [execute, reaches.withStorage]
  refine Prod.ext ?_ ?_
  · have counted := (s.records c).length_clearTerminal
    rw [← counted, ← reaches.hydrate]
    rfl
  · dsimp only
    rw [stored]
    split
    · rfl
    · rw [Storage.write, ← reaches.writeKeyFile]
      rfl

/-- What is left of the records can be read back, if there are no binary64 numbers in their
metadata. -/
theorem Reaches.decode?_encode (reaches : s.Reaches c)
    (exact_ : ∀ task ∈ (s.records c).active, task.isExact = true) :
    Collection.decode? (s.records c).clearTerminal.tasks.encode =
      some (s.records c).clearTerminal.tasks := by
  have found := reaches.hydrate
  have keyed : (s.records c).Keyed := found ▸ Collection.keyed_hydrate _ _
  have proper : ∀ task ∈ (s.records c).values, task.IsProper ∧ task.depth ≤ 123 :=
    found ▸ Collection.proper_hydrate _ _
  have kept : ∀ task ∈ (s.records c).clearTerminal.tasks.values,
      task ∈ (s.records c).values ∧ task.isExact = true := by
    intro task mem
    rw [Collection.values_clearTerminal, List.mem_filter] at mem
    obtain ⟨id, there⟩ := (Dictionary.mem_values _).mp mem.1
    exact ⟨mem.1, exact_ task ((Collection.mem_listed keyed).mpr ⟨keyed there ▸ there, mem.2⟩)⟩
  have exact_' : (s.records c).clearTerminal.tasks.isExact = true :=
    List.all_eq_true.mpr fun task mem => (kept task mem).2
  have shallow : (s.records c).clearTerminal.tasks.values.all (·.depth ≤ 123) = true :=
    List.all_eq_true.mpr fun task mem => decide_eq_true (proper task (kept task mem).1).2
  rw [Collection.decode?_encode keyed.clearTerminal exact_'
    fun task mem => (proper task (kept task mem).1).1, if_pos shallow]

/-- After clearing, the records are what is left of them. -/
theorem Accepts.cleared (accepts : s.Accepts c)
    (exact_ : ∀ task ∈ (s.records c).active, task.isExact = true) :
    (s.execute c .clear).2.Reaches c ∧
      (s.execute c .clear).2.records c = (s.records c).clearTerminal.tasks := by
  rw [execute_clear accepts.reaches]
  dsimp only
  split
  · next none_ =>
    refine ⟨accepts.reaches.opened, ?_⟩
    rw [(s.keepsFiles_opened c).records, Collection.tasks_clearTerminal_of_countP_eq_zero none_]
  · obtain ⟨located, stored⟩ :=
      (accepts.filing (s.records c).clearTerminal.tasks.encode).filed_content
    refine ⟨Storage.reaches_of_locate located, ?_⟩
    rw [Site.records, stateFile, stored, Option.bind_some, Collection.ofBytes?,
      Storage.fromUTF8?_toUTF8, Option.bind_some, accepts.reaches.decode?_encode exact_]
    rfl

/-! ### Runs -/

/-- Run commands one after the other, all with one configuration. -/
def after (s : Site) (c : Configuration) : List Command → Site
  | [] => s
  | command :: rest => (s.execute c command).2.after c rest

end Site

/-- Whether a command lists or clears. -/
def Command.tends : Command → Bool
  | list _ _ | clear => true
  | simulate _ _ _ _ _ => false

namespace Site

variable {s s' : Site} {c : Configuration}

/-- Where no record is terminal, a command that lists or clears makes the directory, and no more. -/
theorem execute_of_countP_eq_zero (reaches : s.Reaches c)
    (none_ : (s.records c).values.countP Task.isTerminal = 0) {command : Command}
    (tends : command.tends = true) :
    (s.execute c command).2 = s.opened c := by
  cases command with
  | simulate => exact absurd tends Bool.false_ne_true
  | list asJson onlyActive => rw [execute_list reaches]
  | clear => rw [execute_clear reaches, if_pos none_]

/-- So any number of them change no file. -/
theorem keepsFiles_after {commands : List Command} (reaches : s.Reaches c)
    (none_ : (s.records c).values.countP Task.isTerminal = 0)
    (tend : ∀ command ∈ commands, command.tends = true) :
    s.KeepsFiles (s.after c commands) ∧ (s.after c commands).Reaches c := by
  induction commands generalizing s with
  | nil => exact ⟨⟨fun _ => rfl, rfl⟩, reaches⟩
  | cons command rest ih =>
    have keeps := s.keepsFiles_opened c
    rw [after, execute_of_countP_eq_zero reaches none_ (tend command List.mem_cons_self)]
    obtain ⟨keeps', reaches'⟩ := ih reaches.opened (by rwa [keeps.records])
      fun later mem => tend later (List.mem_cons_of_mem _ mem)
    exact ⟨keeps.trans keeps', reaches'⟩

/-- Where any text can be stored under the configured key, whatever stands in the file with the
persisted tasks, to list them prints its records and changes no file. To clear them reports how many
records are terminal. It changes no file if there are none, which is so if the file is missing or
cannot be read, and never any other file than this one and its draft. From then on, if there are no
binary64 numbers in the metadata of the active records, listing prints what the list of the active
records was before, in both forms; nothing is left to clear, and no file is changed any more. -/
theorem clear_keeps_active (accepts : s.Accepts c) :
    let records := s.records c
    let finished := records.values.countP Task.isTerminal
    let cleared := (s.execute c .clear).2
    (∀ asJson onlyActive,
      (s.execute c (.list asJson onlyActive)).1 =
          .success (Listing.render (if onlyActive then records.active else records.list) asJson) ∧
        s.KeepsFiles (s.execute c (.list asJson onlyActive)).2) ∧
    (s.execute c .clear).1 =
      .success ("Removed " ++ toString finished ++ " finished task(s)\n") ∧
    (finished = 0 ∨ (s.stateFile c).bind Collection.ofBytes? = none → s.KeepsFiles cleared) ∧
    (∀ place, place ≠ Storage.keyPlace s.tree c.directory c.key →
      place ≠ Storage.draftPlace s.tree c.directory c.key →
        cleared.tree.content place = s.tree.content place) ∧
    ((∀ task ∈ records.active, task.isExact = true) →
      ∀ later : List Command, (∀ command ∈ later, command.tends = true) →
        cleared.KeepsFiles (cleared.after c later) ∧
        (∀ asJson onlyActive, ((cleared.after c later).execute c (.list asJson onlyActive)).1 =
          (s.execute c (.list asJson true)).1) ∧
        ((cleared.after c later).execute c .clear).1 =
          .success "Removed 0 finished task(s)\n") := by
  intro records finished cleared
  have reaches := accepts.reaches
  have unread : (s.stateFile c).bind Collection.ofBytes? = none → finished = 0 := fun none_ => by
    simp only [finished, records, Site.records, none_]
    rfl
  refine ⟨fun asJson onlyActive => ?_, ?_, fun nothing => ?_, fun place aside beside => ?_, ?_⟩
  · rw [execute_list reaches]
    exact ⟨rfl, s.keepsFiles_opened c⟩
  · rw [execute_clear reaches]
  · have none_ : finished = 0 := nothing.elim id unread
    have same : cleared = s.opened c := execute_of_countP_eq_zero reaches none_ rfl
    exact same ▸ s.keepsFiles_opened c
  · simp only [cleared, execute_clear reaches]
    split
    · exact (s.keepsFiles_opened c).content place
    · exact (accepts.filing _).content_eq beside fun _ => aside
  · intro exact_ later tend
    obtain ⟨again, left⟩ := accepts.cleared exact_
    have none_ : (cleared.records c).values.countP Task.isTerminal = 0 :=
      left ▸ records.countP_clearTerminal
    obtain ⟨keeps, reached⟩ := keepsFiles_after again none_ tend
    have found : (cleared.after c later).records c = records.clearTerminal.tasks :=
      keeps.records.trans left
    have all : records.clearTerminal.tasks.active = records.clearTerminal.tasks.list :=
      Collection.active_of_countP_eq_zero records.countP_clearTerminal
    refine ⟨keeps, fun asJson onlyActive => ?_, ?_⟩
    · rw [execute_list reached, execute_list reaches, found, all, ite_self, if_pos rfl,
        Collection.list_clearTerminal]
    · rw [execute_clear reached, found, Collection.countP_clearTerminal]
      rfl

/-- A configuration with an absolute directory for the persisted tasks. -/
def served : Configuration := { stateDirectory := "/var/lib/jobtrack" }

/-- A directory with two tasks, of which the first one has failed. -/
def halfDone : Site where
  tree := FileTree.empty.plant (.parse "/var/lib/jobtrack/background-tasks.json") <| String.toUTF8
    "[1,[[\"a\",\"analysis\",\"failed\",\x7b\x7d,\"2020-1-1t0:0:0z\"],
      [\"b\",\"analysis\",\"queued\",\x7b\x7d,\"2020-1-1t0:0:1z\"]]]"

/-- There the failed one is cleared, and then the other one is listed, however often. -/
theorem clear_keeps_active_half_done :
    let cleared := (halfDone.execute served .clear).2
    halfDone.Accepts served ∧
      (∀ task ∈ (halfDone.records served).active, task.isExact = true) ∧
      (halfDone.execute served .clear).1 = .success "Removed 1 finished task(s)\n" ∧
      (cleared.execute served (.list false false)).1 = (halfDone.execute served (.list false true)).1 ∧
      cleared.KeepsFiles (cleared.execute served .clear).2 := by
  intro cleared
  have accepts : halfDone.Accepts served := fun _ => rfl
  have evaluated : (halfDone.records served).values.countP Task.isTerminal = 1 ∧
      ∀ task ∈ (halfDone.records served).active, task.isExact = true := by decide +kernel
  obtain ⟨-, reports, -, -, settles⟩ := clear_keeps_active accepts
  rw [evaluated.1] at reports
  have tend : ∀ command ∈ [Command.clear], command.tends = true := by simp [Command.tends]
  exact ⟨accepts, evaluated.2, reports, (settles evaluated.2 [] (by simp)).2.1 false false,
    (settles evaluated.2 [.clear] tend).1⟩

end Site

end TaskWatch
