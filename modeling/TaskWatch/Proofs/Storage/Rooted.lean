import Mathlib.Data.List.Induction
import TaskWatch.Proofs.Storage.Place

/-!
# Ways that can be made

In a file tree whatever stands somewhere stands in a directory, one works in a directory, and no
operation changes this. So nothing stands below a place where nothing stands. When the directories on a way are made, nothing
happens if the way leads to a directory or is refused; if it breaks off, it is made to its end,
provided that it goes straight on from there: a name that is too long stops it half way, and a step
back may lead it to a directory that was there before.

## Main definitions

* `FileTree.IsRooted` — whatever stands somewhere stands in a directory.
* `FileTree.goesStraight`, `FileTree.leadsStraight` — what is missing of a way, or of a path, goes
  straight on.

## Main results

* `FileTree.IsRooted.create`, `FileTree.IsRooted.rename` — operations leave a tree rooted.
* `FileTree.IsRooted.makeAlong_of_notFound` — a straight way that breaks off is made, and its end
  is empty.
* `FileTree.IsRooted.readFile_makeDirectories` — making directories along a straight path does not
  change what is read in them.
-/

namespace TaskWatch.FileTree

variable {t t' : FileTree} {path : FilePath} {name : String} {place here : Place} {bytes : ByteArray}

/-! ### Rooted trees -/

/-- Whatever stands somewhere stands in a directory, and one works in a directory. -/
structure IsRooted (t : FileTree) : Prop where
  inside : ∀ place name, t.lookup (place ++ [name]) ≠ none → t.lookup place = some .directory
  working : t.lookup t.working = some .directory

theorem isRooted_empty : empty.IsRooted where
  inside := fun place name there => by simp [lookup, empty] at there
  working := rfl

/-- A path begins at a directory. -/
theorem IsRooted.origin (rooted : t.IsRooted) (path : FilePath) :
    t.lookup (t.origin path) = some .directory := by
  rw [FileTree.origin]
  split
  · rfl
  · exact rooted.working

/-- A directory lies in a directory; the root lies in itself. -/
theorem IsRooted.dropLast (rooted : t.IsRooted) (there : t.lookup here = some .directory) :
    t.lookup here.dropLast = some .directory := by
  rcases List.eq_nil_or_concat here with rfl | ⟨outer, name, rfl⟩
  · exact there
  · rw [List.concat_eq_append] at there ⊢
    rw [List.dropLast_concat]
    exact rooted.inside outer name (by simp [there])

/-- Nothing stands below a place where nothing stands. -/
theorem IsRooted.lookup_below (rooted : t.IsRooted) (free : t.lookup place = none)
    (below : List String) : t.lookup (place ++ below) = none := by
  induction below using List.reverseRecOn with
  | nil => rwa [List.append_nil]
  | append_singleton below name ih =>
    rw [← List.append_assoc]
    by_cases there : t.lookup (place ++ below ++ [name]) = none
    · exact there
    · have inside := rooted.inside _ name there
      rw [ih] at inside
      simp at inside

/-- What is put in a directory, and not in the place of another directory, leaves a tree rooted. -/
theorem IsRooted.put (rooted : t.IsRooted) {node : FileNode}
    (inside : t.lookup place = some .directory)
    (free : t.lookup (place ++ [name]) ≠ some .directory) : (t.put (place ++ [name]) node).IsRooted := by
  refine ⟨fun outer other there => ?_, (extends_put free).keeps _ rooted.working⟩
  have outer_ : t.lookup outer = some .directory := by
    rw [lookup_put t _ _ _ (by simp)] at there
    split at there
    · next same =>
      obtain ⟨rfl, -⟩ := List.append_inj' same rfl
      exact inside
    · exact rooted.inside outer other there
  exact (extends_put free).keeps outer outer_

/-- A file can be taken away. -/
theorem IsRooted.remove (rooted : t.IsRooted) (file : t.lookup place = some (.file bytes)) :
    (t.remove place).IsRooted := by
  have grows := extends_remove file
  refine ⟨fun outer other there => ?_, grows.keeps _ rooted.working⟩
  rw [lookup_remove t _ _ (by simp)] at there
  split at there
  · exact absurd rfl there
  · exact grows.keeps _ (rooted.inside outer other there)

/-- Names lead from a directory to a directory. -/
theorem IsRooted.follow (rooted : t.IsRooted) {names : List String}
    (from_ : t.lookup here = some .directory) (leads : t.follow here names = .ok place) :
    t.lookup place = some .directory := by
  induction names generalizing here with
  | nil => exact Except.ok.inj leads ▸ from_
  | cons name rest ih =>
    rw [FileTree.follow] at leads
    split at leads
    · exact ih (rooted.dropLast from_) leads
    · split at leads
      · simp at leads
      · split at leads
        · next there => exact ih there leads
        · simp at leads
        · simp at leads

/-- A path stands for a directory or for a place in one. -/
theorem IsRooted.locate (rooted : t.IsRooted) (located : t.locate path = .ok place) :
    t.lookup place = some .directory ∨
      ∃ outer name, place = outer ++ [name] ∧ t.lookup outer = some .directory := by
  rw [FileTree.locate] at located
  split at located
  · simp at located
  · split at located
    · exact .inl (Except.ok.inj located ▸ rooted.origin path)
    · next name _ =>
      cases followed : t.follow (t.origin path) path.names.dropLast with
      | error e => simp [followed, bind, Except.bind] at located
      | ok outer =>
        have inside := rooted.follow (rooted.origin path) followed
        simp only [followed, bind, Except.bind, pure, Except.pure] at located
        split at located
        · exact .inl (Except.ok.inj located ▸ rooted.dropLast inside)
        · split at located
          · exact .inr ⟨outer, name, (Except.ok.inj located).symm, inside⟩
          · simp [throw, throwThe, MonadExceptOf.throw] at located

theorem IsRooted.makeAlong (rooted : t.IsRooted) (from_ : t.lookup here = some .directory)
    (names : List String) : (t.makeAlong here names).1.IsRooted := by
  induction names generalizing t here with
  | nil => exact rooted
  | cons name rest ih =>
    rw [FileTree.makeAlong]
    split
    · exact ih rooted (rooted.dropLast from_)
    · split
      · exact rooted
      · split
        · next there => exact ih rooted there
        · exact rooted
        · next free =>
          refine ih (rooted.put from_ (by simp [free])) ?_
          rw [lookup_put t _ _ _ (by simp), if_pos rfl]

theorem IsRooted.makeDirectories (rooted : t.IsRooted) (path : FilePath) :
    (t.makeDirectories path).1.IsRooted := by
  rw [FileTree.makeDirectories]
  split
  · exact rooted
  · exact rooted.makeAlong (rooted.origin path) _

theorem IsRooted.writeFile (rooted : t.IsRooted) (written : t.writeFile path bytes = .ok t') :
    t'.IsRooted := by
  obtain ⟨place, located, free, rfl⟩ := writeFile_cases written
  rcases rooted.locate located with there | ⟨outer, name, rfl, inside⟩
  · exact absurd there free
  · exact rooted.put inside free

theorem IsRooted.create (rooted : t.IsRooted) (path : FilePath) (bytes : ByteArray) :
    (t.create path bytes).1.IsRooted := by
  rw [FileTree.create]
  have made := rooted.makeDirectories { path with names := path.names.dropLast }
  split
  · next same => rwa [same] at made
  · next same =>
    rw [same] at made
    split
    · next written => exact made.writeFile written
    · exact made

theorem IsRooted.plant (rooted : t.IsRooted) (path : FilePath) (bytes : ByteArray) :
    (t.plant path bytes).IsRooted :=
  rooted.create path bytes

theorem IsRooted.rename (rooted : t.IsRooted) {source target : FilePath}
    (renamed : t.rename source target = .ok t') : t'.IsRooted := by
  obtain ⟨place, aim, bytes, located, located', there, free, rfl⟩ := rename_cases renamed
  have removed : (t.remove place).IsRooted := rooted.remove there
  rcases rooted.locate located' with inside | ⟨outer, name, rfl, inside⟩
  · exact absurd inside free
  · refine removed.put ((extends_remove there).keeps _ inside) ?_
    rw [lookup_remove t _ _ (by simp)]
    split
    · simp
    · exact free

/-! ### Working elsewhere -/

/-- The tree as somebody sees it who works in another directory. -/
def seenFrom (t : FileTree) (place : Place) : FileTree := { t with working := place }

theorem IsRooted.seenFrom (rooted : t.IsRooted) (there : t.lookup place = some .directory) :
    (t.seenFrom place).IsRooted :=
  ⟨rooted.inside, there⟩

theorem follow_seenFrom (t : FileTree) (place here : Place) (names : List String) :
    (t.seenFrom place).follow here names = t.follow here names := by
  have same : ∀ other, (t.seenFrom place).lookup other = t.lookup other := fun _ => rfl
  induction names generalizing here with
  | nil => rfl
  | cons name rest ih =>
    rw [FileTree.follow, FileTree.follow, same, ih]
    split
    · rfl
    · split
      · rfl
      · split
        · exact ih _
        · rfl
        · rfl

/-- What is read at an absolute path does not depend on where one works. -/
theorem readFile_seenFrom (t : FileTree) (place : Place) (absolute : path.isAbsolute = true) :
    (t.seenFrom place).readFile path = t.readFile path := by
  have begin_ : (t.seenFrom place).origin path = t.origin path := by
    rw [FileTree.origin, FileTree.origin, if_pos absolute, if_pos absolute]
  have located : (t.seenFrom place).locate path = t.locate path := by
    rw [FileTree.locate, FileTree.locate, begin_]
    simp only [follow_seenFrom]
  rw [readFile, readFile, located]
  rfl

/-! ### Ways that break off -/

/-- Whether a way, behind the first of its names at which nothing stands, goes straight on: there is
no way back, and no name that cannot stand in a directory. -/
def goesStraight (t : FileTree) (here : Place) : List String → Bool
  | [] => true
  | name :: rest =>
    if name = ".." then t.goesStraight here.dropLast rest
    else if !isName name then true
    else match t.lookup (here ++ [name]) with
      | some .directory => t.goesStraight (here ++ [name]) rest
      | some (.file _) => true
      | none => rest.all fun other => isName other && other != ".."

/-- A way that does not break off goes straight. -/
theorem goesStraight_of_ne_notFound {names : List String}
    (leads : t.follow here names ≠ .error .notFound) : t.goesStraight here names = true := by
  induction names generalizing here with
  | nil => rfl
  | cons name rest ih =>
    rw [FileTree.follow] at leads
    rw [goesStraight]
    split
    · next back => exact ih (by rwa [if_pos back] at leads)
    · next onward =>
      rw [if_neg onward] at leads
      split
      · rfl
      · next valid =>
        rw [if_neg valid] at leads
        cases there : t.lookup (here ++ [name]) with
        | none => simp [there] at leads
        | some node =>
          cases node with
          | directory => exact ih (by simpa [there] using leads)
          | file bytes => rfl

/-- Where nothing is missing nothing is made: a way that leads to a directory is there, and one that
is refused stays refused. -/
theorem makeAlong_of_ne_notFound {names : List String}
    (leads : t.follow here names ≠ .error .notFound) :
    t.makeAlong here names = (t, (t.follow here names).map fun _ => ()) := by
  induction names generalizing here with
  | nil => rfl
  | cons name rest ih =>
    rw [FileTree.follow] at leads ⊢
    rw [makeAlong]
    split
    · next back => exact ih (by rwa [if_pos back] at leads)
    · next onward =>
      rw [if_neg onward] at leads
      split
      · rfl
      · next valid =>
        rw [if_neg valid] at leads
        cases there : t.lookup (here ++ [name]) with
        | none => simp [there] at leads
        | some node =>
          cases node with
          | directory => exact ih (by simpa [there] using leads)
          | file bytes => rfl

/-- What is made of a way stays there while more of it is made. -/
private theorem lookup_makeAlong {names : List String}
    (made : (t.put place .directory).makeAlong here names = (t', .ok ())) (inside : place ≠ []) :
    t'.lookup place = some .directory := by
  have grows := (makeAlong_keeps names (t.put place .directory) here).1
  rw [made] at grows
  exact grows.keeps _ (by rw [lookup_put t _ _ _ inside, if_pos rfl])

/-- In an empty directory a straight way is made to its end, and nothing is put there. -/
private theorem makeAlong_onward {names : List String}
    (free : ∀ below ≠ [], t.lookup (here ++ below) = none)
    (straight : ∀ name ∈ names, isName name = true ∧ name ≠ "..") :
    ∃ t', t.makeAlong here names = (t', .ok ()) ∧ t'.follow here names = .ok (here ++ names) ∧
      ∀ below ≠ [], t'.lookup (here ++ names ++ below) = none := by
  induction names generalizing t here with
  | nil => exact ⟨t, rfl, by rw [FileTree.follow, List.append_nil], by simpa using free⟩
  | cons name rest ih =>
    obtain ⟨valid, onward⟩ := straight name List.mem_cons_self
    have vacant : t.lookup (here ++ [name]) = none := free [name] (by simp)
    have empty : ∀ below ≠ [],
        (t.put (here ++ [name]) .directory).lookup (here ++ [name] ++ below) = none := by
      intro below more
      rw [lookup_put t _ _ _ (by simp), if_neg (by simpa using more), List.append_assoc]
      exact free _ (by simp)
    obtain ⟨t', made, leads, unmade⟩ :=
      ih empty fun other mem => straight other (List.mem_cons_of_mem _ mem)
    have there := lookup_makeAlong made (by simp)
    rw [List.append_assoc, List.singleton_append] at leads unmade
    refine ⟨t', ?_, ?_, unmade⟩
    · simpa only [FileTree.makeAlong, if_neg onward, valid, Bool.not_true, Bool.false_eq_true,
        if_false, vacant] using made
    · simpa only [FileTree.follow, if_neg onward, valid, Bool.not_true, Bool.false_eq_true, if_false,
        there] using leads

/-- A straight way that breaks off is made to its end, where nothing stood and nothing is put. -/
theorem IsRooted.makeAlong_of_notFound (rooted : t.IsRooted) {names : List String}
    (leads : t.follow here names = .error .notFound) (straight : t.goesStraight here names = true) :
    ∃ t' aim, t.makeAlong here names = (t', .ok ()) ∧ t'.follow here names = .ok aim ∧
      ∀ below ≠ [], t.lookup (aim ++ below) = none ∧ t'.lookup (aim ++ below) = none := by
  induction names generalizing here with
  | nil => simp [FileTree.follow] at leads
  | cons name rest ih =>
    rw [FileTree.follow] at leads
    rw [goesStraight] at straight
    by_cases back : name = ".."
    · rw [if_pos back] at leads straight
      simp only [FileTree.makeAlong, FileTree.follow, if_pos back]
      exact ih leads straight
    · rw [if_neg back] at leads straight
      by_cases invalid : (!isName name) = true
      · simp [invalid] at leads
      · rw [if_neg invalid] at leads straight
        simp only [FileTree.makeAlong, FileTree.follow, if_neg back, if_neg invalid]
        cases there : t.lookup (here ++ [name]) with
        | some node =>
          cases node with
          | directory =>
            simp only [there] at leads straight
            obtain ⟨t', aim, made, followed, empty⟩ := ih leads straight
            have grows := (makeAlong_keeps rest t (here ++ [name])).1.keeps _ there
            rw [made] at grows
            exact ⟨t', aim, made, by rw [grows]; exact followed, empty⟩
          | file bytes => simp [there] at leads
        | none =>
          simp only [there, List.all_eq_true, Bool.and_eq_true, bne_iff_ne] at straight
          have empty : ∀ below ≠ [],
              (t.put (here ++ [name]) .directory).lookup (here ++ [name] ++ below) = none := by
            intro below more
            rw [lookup_put t _ _ _ (by simp), if_neg (by simpa using more)]
            exact rooted.lookup_below there below
          obtain ⟨t', made, followed, unmade⟩ := makeAlong_onward empty straight
          refine ⟨t', _, made, ?_, fun below more => ⟨?_, unmade below more⟩⟩
          · rw [lookup_makeAlong made (by simp)]
            exact followed
          · rw [List.append_assoc]
            exact rooted.lookup_below there _

/-! ### Reading where directories are made -/

/-- What is read in a directory can be told from where the path leads and from what stands there. -/
theorem readFile_child_congr (ordinary : name ≠ "..")
    (leads : t'.follow (t'.origin path) path.names = t.follow (t.origin path) path.names)
    (same : ∀ home, t.follow (t.origin path) path.names = .ok home →
      t'.lookup (home ++ [name]) = t.lookup (home ++ [name])) :
    t'.readFile (path.child name) = t.readFile (path.child name) := by
  rw [readFile, readFile, locate_child ordinary, locate_child ordinary, leads]
  cases (path.child name).hasNul with
  | true => rfl
  | false =>
    cases followed : t.follow (t.origin path) path.names with
    | error e => rfl
    | ok home =>
      cases isName name with
      | true => simp only [Bool.false_eq_true, if_false, if_true, same home followed]
      | false => rfl

/-- A path with a NUL in it is refused. -/
theorem readFile_child_of_hasNul (nul : (path.child name).hasNul = true) :
    t.readFile (path.child name) = .error .refused := by
  rw [readFile, locate, nul]
  rfl

/-- Nothing is read where the directory is missing. -/
theorem readFile_child_of_notFound (ordinary : name ≠ "..")
    (clean : (path.child name).hasNul = false)
    (leads : t.follow (t.origin path) path.names = .error .notFound) :
    t.readFile (path.child name) = .error .notFound := by
  rw [readFile, locate_child ordinary, clean, leads]
  rfl

/-- Nothing is read in a directory where nothing has the name. -/
theorem readFile_child_of_vacant (ordinary : name ≠ "..") (legal : isName name = true)
    (clean : (path.child name).hasNul = false)
    (leads : t.follow (t.origin path) path.names = .ok here)
    (vacant : t.lookup (here ++ [name]) = none) :
    t.readFile (path.child name) = .error .notFound := by
  rw [readFile, locate_child ordinary, clean, leads]
  simp only [Bool.false_eq_true, if_false, if_pos legal, vacant]

/-- A path is refused as a whole, or what is missing of it goes straight on. -/
def leadsStraight (t : FileTree) (path : FilePath) : Bool :=
  path.hasNul || t.goesStraight (t.origin path) path.names

/-- Where something is read, or something is in the way, the path goes straight. -/
theorem leadsStraight_of_ne_notFound (ordinary : name ≠ "..")
    (clean : (path.child name).hasNul = path.hasNul)
    (found : t.readFile (path.child name) ≠ .error .notFound) : t.leadsStraight path = true := by
  rw [leadsStraight]
  cases nul : path.hasNul with
  | true => rfl
  | false =>
    refine goesStraight_of_ne_notFound fun leads => found ?_
    exact readFile_child_of_notFound ordinary (clean.trans nul) leads

/-- If a path goes straight, making its directories does not change what is read there. -/
theorem IsRooted.readFile_makeDirectories (rooted : t.IsRooted) (ordinary : name ≠ "..")
    (legal : isName name = true) (straight : t.leadsStraight path = true) :
    (t.makeDirectories path).1.readFile (path.child name) = t.readFile (path.child name) := by
  rw [FileTree.makeDirectories]
  split
  · rfl
  · next clean =>
    by_cases leads : t.follow (t.origin path) path.names = .error .notFound
    · rw [leadsStraight, (Bool.not_eq_true _).mp clean, Bool.false_or] at straight
      obtain ⟨t', aim, made, leads', free⟩ := rooted.makeAlong_of_notFound leads straight
      have same : t'.origin path = t.origin path := by
        have grows := (makeAlong_keeps path.names t (t.origin path)).1.origin path
        rwa [made] at grows
      rw [← same] at leads'
      rw [made]
      cases nul : (path.child name).hasNul with
      | true => rw [readFile_child_of_hasNul nul, readFile_child_of_hasNul nul]
      | false =>
        rw [readFile_child_of_notFound ordinary nul leads]
        exact readFile_child_of_vacant ordinary legal nul leads' (free [name] (by simp)).2
    · rw [makeAlong_of_ne_notFound leads]

/-- A file that is written beside another one does not change what is read of that. -/
theorem readFile_writeFile {draft : String} (passing : draft ≠ "..") (ordinary : name ≠ "..")
    (beside : name ≠ draft) (written : t.writeFile (path.child draft) bytes = .ok t') :
    t'.readFile (path.child name) = t.readFile (path.child name) := by
  obtain ⟨place, located, free, rfl⟩ := writeFile_cases written
  obtain ⟨_, leads, _, rfl⟩ := (locate_child_eq_ok passing).mp located
  refine readFile_child_congr ordinary ?_ fun home leads' => ?_
  · rw [leads]
    exact (extends_put free).follow leads
  · rw [leads] at leads'
    obtain rfl := Except.ok.inj leads'
    rw [lookup_put t _ _ _ (by simp), if_neg (by simpa using beside)]

/-- A file that is given another name does not change what is read of a third one. -/
theorem readFile_rename {draft final : String} (passing : draft ≠ "..") (lasting : final ≠ "..")
    (ordinary : name ≠ "..") (beside : name ≠ draft) (aside : name ≠ final)
    (renamed : t.rename (path.child draft) (path.child final) = .ok t') :
    t'.readFile (path.child name) = t.readFile (path.child name) := by
  obtain ⟨source, aim, bytes, located, located', there, free, rfl⟩ := rename_cases renamed
  obtain ⟨_, leads, _, rfl⟩ := (locate_child_eq_ok passing).mp located
  obtain ⟨_, _, _, rfl⟩ := (locate_child_eq_ok lasting).mp located'
  refine readFile_child_congr ordinary ?_ fun home leads' => ?_
  · rw [leads]
    exact (rename_child lasting passing renamed).1.follow leads
  · rw [leads] at leads'
    obtain rfl := Except.ok.inj leads'
    rw [lookup_put _ _ _ _ (by simp), if_neg (by simpa using aside),
      lookup_remove t _ _ (by simp), if_neg (by simpa using beside)]

end TaskWatch.FileTree
