import Mathlib.Logic.Relation
import TaskWatch.Proofs.Session.Facet

/-!
# How a world shows a task

A world shows a task with its record and its session, and with the settings of its tracker. What the
session of another task does to the world changes nothing of this.

## Main definitions

* `World.Bears`, `World.Shows`, `World.Runs` — the world is as a task by itself is said to be: but for
  the session, between two turns of it, and in a turn of it.
* `World.Tidy` — records are kept under their own identifiers, serial numbers are new, and all
  sessions belong to one tracker.
* `World.Undergoes`, `World.Goes` — deeds are done one after the other; the sessions of some tasks come,
  go, are suspended and write statuses.

## Main results

* `World.Goes.tidy`, `World.Goes.shows` — what this leaves alone.
-/

namespace TaskWatch

variable {κ : Type}

/-- Something that is done to a task in the course of a session: the session comes, goes or is
suspended, or writes a status. -/
def Deed.IsSessional (number : Nat) (ids : TaskId → Prop) : Deed κ → Prop
  | nothing => True
  | patched k id patch => k = number ∧ ids id ∧ ∃ status, patch = .ofStatus status
  | began k id | ended k id => k = number ∧ ids id
  | paused entry => entry.task.tracker = number ∧ ids entry.task.id
  | _ => False

/-- Where a session is suspended. -/
def SessionName.places (S : SessionName) (suspended : List (Suspended κ)) :
    List (Stint κ × Pause) :=
  (suspended.filter fun entry => entry.task.name = S).map fun entry =>
    (entry.task.stint, entry.pause)

theorem SessionName.places_append (S : SessionName) (suspended more : List (Suspended κ)) :
    S.places (suspended ++ more) = S.places suspended ++ S.places more := by
  rw [places, List.filter_append, List.map_append, places, places]

theorem SessionName.places_eq_nil {S : SessionName} {suspended : List (Suspended κ)} :
    S.places suspended = [] ↔ ∀ entry ∈ suspended, entry.task.name ≠ S := by
  simp [places, List.filter_eq_nil_iff]

theorem SessionTask.places (s : SessionTask κ) (pause : Pause) :
    s.name.places [⟨s, pause⟩] = [(s.stint, pause)] := by
  simp [SessionName.places]

theorem Deed.IsSessional.mono {number : Nat} {ids ids' : TaskId → Prop} {d : Deed κ}
    (within : d.IsSessional number ids) (implies : ∀ id, ids id → ids' id) :
    d.IsSessional number ids' := by
  cases d with
  | nothing => trivial
  | patched k id patch => exact ⟨within.1, implies id within.2.1, within.2.2⟩
  | began k id => exact ⟨within.1, implies id within.2⟩
  | ended k id => exact ⟨within.1, implies id within.2⟩
  | paused entry => exact ⟨within.1, implies _ within.2⟩
  | _ => exact within.elim

namespace World

/-- The session of a task, if there is one, and where it is suspended, if it is. -/
def seat (w : World κ) (number : Nat) (id : TaskId) : Option (List (Stint κ × Pause)) :=
  ((w.tracker number).sessions.find? id).map fun serial =>
    SessionName.places ⟨number, id, serial⟩ w.suspended

/-- The world is as a task is said to be, its session apart. -/
structure Bears (w : World κ) (number : Nat) (id : TaskId) (F : Facet κ) : Prop where
  clock : w.clock = F.clock
  settings : (w.tracker number).settings = F.settings
  record : w.record number id = F.record

/-- The world is as a task is said to be, between two turns of its session. -/
structure Shows (w : World κ) (number : Nat) (id : TaskId) (F : Facet κ) : Prop
    extends w.Bears number id F where
  seat : w.seat number id = F.session.map fun s => [s]

/-- The world is as a task is said to be, in a turn of its session. -/
structure Runs (w : World κ) (S : SessionName) (F : Facet κ) : Prop
    extends w.Bears S.tracker S.id F where
  lives : w.lives S = true
  awake : ∀ entry ∈ w.suspended, entry.task.name ≠ S

/-- Records are kept under their own identifiers, serial numbers have not been given before, and all
sessions belong to one tracker. -/
structure Tidy (w : World κ) (number : Nat) : Prop where
  inside : number < w.trackers.length
  keyed : w.Keyed
  executor : w.hasExecutor = true
  below : ∀ entry ∈ w.suspended, entry.task.serial < w.nextSerial
  given : ∀ S, w.lives S → S.serial < w.nextSerial
  sole : ∀ S, w.lives S → S.tracker = number

/-- Some deeds are done one after the other. Only sessions that live are suspended. -/
def Undergoes (allowed : Deed κ → Prop) : World κ → World κ → Prop :=
  Relation.ReflTransGen fun w w' =>
    ∃ d, allowed d ∧ (∀ entry, d = .paused entry → w.lives entry.task.name) ∧ w.Does d w'

/-- Things are done in the course of the sessions of some tasks. -/
abbrev Goes (number : Nat) (ids : TaskId → Prop) : World κ → World κ → Prop :=
  Undergoes (Deed.IsSessional number ids)

variable {w w' w'' : World κ} {number : Nat} {id : TaskId} {ids : TaskId → Prop} {F : Facet κ}
  {S : SessionName} {d : Deed κ}

/-! ### Tidy worlds -/

theorem Tidy.does (tidy : w.Tidy number) (does : w.Does d w')
    (begun : ∀ k id, d = .began k id → k = number)
    (paused : ∀ entry, d = .paused entry → w.lives entry.task.name) : w'.Tidy number where
  inside := does.inside tidy.inside
  keyed := does.keyed tidy.keyed
  executor := does.hasExecutor.trans tidy.executor
  below entry mem := by
    refine Nat.lt_of_lt_of_le ?_ does.succeeds.serials
    rw [does.suspended] at mem
    rcases List.mem_append.mp mem with old | new
    · exact tidy.below entry old
    · cases d with
      | paused entry' =>
        obtain rfl := List.mem_singleton.mp new
        exact tidy.given _ (paused _ rfl)
      | _ => exact absurd new List.not_mem_nil
  given S lives := by
    rcases does.succeeds.lives S lives with old | ⟨_, new⟩
    · exact Nat.lt_of_lt_of_le (tidy.given S old) does.succeeds.serials
    · exact new
  sole S lives := by
    obtain ⟨w₁, near, rfl, _⟩ := does
    have old : w.lives S = true → S.tracker = number := tidy.sole S
    rw [← near.lives S, lives_iff] at old
    rw [lives_iff, sessions_after] at lives
    cases d with
    | began k other =>
      dsimp only at lives
      split at lives
      · next here => exact here.1 ▸ begun k other rfl
      · exact old lives
    | ended k other =>
      dsimp only at lives
      split at lives
      · rw [Dictionary.find?_erase] at lives
        split at lives
        · simp at lives
        · exact old lives
      · exact old lives
    | _ => exact old lives

theorem Tidy.near (tidy : w.Tidy number) (near : w.Near w') : w'.Tidy number :=
  tidy.does near.does nofun nofun

variable {allowed allowed' : Deed κ → Prop}

theorem Undergoes.refl (w : World κ) : w.Undergoes allowed w := Relation.ReflTransGen.refl

theorem Undergoes.trans (goes : w.Undergoes allowed w') (further : w'.Undergoes allowed w'') :
    w.Undergoes allowed w'' :=
  Relation.ReflTransGen.trans goes further

theorem Undergoes.single (does : w.Does d w') (within : allowed d)
    (paused : ∀ entry, d = .paused entry → w.lives entry.task.name) : w.Undergoes allowed w' :=
  Relation.ReflTransGen.single ⟨d, within, paused, does⟩

theorem Near.undergoes (near : w.Near w') (nothing : allowed .nothing) : w.Undergoes allowed w' :=
  .single near.does nothing nofun

theorem Near.goes (near : w.Near w') : w.Goes number ids w' := near.undergoes trivial

theorem Undergoes.mono (goes : w.Undergoes allowed w') (implies : ∀ d, allowed d → allowed' d) :
    w.Undergoes allowed' w' := by
  induction goes with
  | refl => exact .refl _
  | tail _ act ih =>
    obtain ⟨d, within, paused, does⟩ := act
    exact ih.trans (.single does (implies d within) paused)

theorem Undergoes.tidy (goes : w.Undergoes allowed w') (tidy : w.Tidy number)
    (begun : ∀ k id, allowed (.began k id) → k = number) : w'.Tidy number := by
  induction goes with
  | refl => exact tidy
  | tail _ act ih =>
    obtain ⟨d, within, paused, does⟩ := act
    exact ih.does does (fun k id same => begun k id (same ▸ within)) paused

theorem Goes.tidy (goes : w.Goes number ids w') (tidy : w.Tidy number) : w'.Tidy number :=
  Undergoes.tidy goes tidy fun _ _ within => within.1

/-! ### What is shown -/

theorem Near.bears (near : w.Near w') (bears : w.Bears number id F) : w'.Bears number id F :=
  ⟨near.clock.trans bears.clock, (near.settings number).trans bears.settings,
    (near.record number id).trans bears.record⟩

theorem Near.seat (near : w.Near w') (number : Nat) (id : TaskId) :
    w'.seat number id = w.seat number id := by
  rw [World.seat, World.seat, near.sessions, near.suspended]

theorem Near.shows (near : w.Near w') (shows : w.Shows number id F) : w'.Shows number id F :=
  ⟨near.bears shows.toBears, (near.seat number id).trans shows.seat⟩

theorem Near.runs (near : w.Near w') (runs : w.Runs S F) : w'.Runs S F :=
  ⟨near.bears runs.toBears, (near.lives S).trans runs.lives, near.suspended ▸ runs.awake⟩

/-- A session of another task does nothing to this one. -/
private theorem Does.shows (does : w.Does d w') (within : d.IsSessional number (· = id))
    (tidy : w.Tidy number) {other : TaskId} (elsewhere : other ≠ id)
    (shows : w.Shows number other F) : w'.Shows number other F := by
  have sees : Sees number other w w' := does.sees tidy.inside tidy.keyed <| by
    cases d with
    | patched k id' patch => exact fun here => elsewhere (here.2.symm.trans within.2.1)
    | ended k id' => exact fun here => elsewhere (here.2.symm.trans within.2)
    | nothing => trivial
    | began k id' => trivial
    | paused entry => trivial
    | _ => exact within.elim
  have sessions : (w'.tracker number).sessions.find? other =
      (w.tracker number).sessions.find? other := by
    obtain ⟨w₁, near, rfl, _⟩ := does
    rw [← near.sessions, sessions_after]
    cases d with
    | began k id' =>
      dsimp only
      split
      · rw [Dictionary.find?_insert, if_neg (within.2 ▸ elsewhere)]
      · rfl
    | ended k id' =>
      dsimp only
      split
      · rw [Dictionary.find?_erase, if_neg (within.2 ▸ elsewhere)]
      · rfl
    | _ => rfl
  have seat : w'.seat number other = w.seat number other := by
    rw [World.seat, World.seat, sessions, does.suspended]
    refine congrArg (Option.map · _) (funext fun serial => ?_)
    have nowhere : SessionName.places ⟨number, other, serial⟩ d.suspends = [] := by
      refine SessionName.places_eq_nil.mpr fun entry mem same => ?_
      cases d with
      | paused entry' =>
        obtain rfl := List.mem_singleton.mp mem
        exact elsewhere ((congrArg SessionName.id same).symm.trans within.2)
      | _ => exact absurd mem List.not_mem_nil
    rw [SessionName.places_append, nowhere, List.append_nil]
  exact ⟨⟨does.clock.trans shows.clock, sees.settings.trans shows.settings,
    sees.record.trans shows.record⟩, seat.trans shows.seat⟩

theorem Goes.shows (goes : w.Goes number (· = id) w') (tidy : w.Tidy number) {other : TaskId}
    (elsewhere : other ≠ id) (shows : w.Shows number other F) : w'.Shows number other F := by
  induction goes with
  | refl => exact shows
  | tail goes act ih =>
    obtain ⟨d, within, _, does⟩ := act
    exact does.shows within (Goes.tidy goes tidy) elsewhere ih

/-- A task without a session has none that lives. -/
theorem Shows.isPolling (shows : w.Shows number id F) :
    (w.tracker number).isPolling id = F.session.isSome := by
  have seat := congrArg Option.isSome shows.seat
  rwa [World.seat, Option.isSome_map, Option.isSome_map] at seat

theorem Shows.not_lives (shows : w.Shows number id F) (none : F.session = none) (serial : Serial) :
    w.lives ⟨number, id, serial⟩ = false := by
  refine Bool.eq_false_iff.mpr fun lives => ?_
  have seat := shows.seat
  rw [World.seat, lives_iff.mp lives, none] at seat
  simp at seat

/-! ### What a session does to its own task -/

/-- A session that is suspended after a turn. -/
theorem Runs.paused {s : SessionTask κ} {pause : Pause} (runs : w.Runs s.name F)
    (does : w.Does (.paused ⟨s, pause⟩) w') :
    w'.Shows s.tracker s.id (F.paused s.stint pause).1 := by
  obtain ⟨w₁, near, rfl, _⟩ := does
  obtain ⟨bears, lives, awake⟩ := near.runs runs
  refine ⟨⟨bears.clock, bears.settings, bears.record⟩, ?_⟩
  have found : (w₁.tracker s.tracker).sessions.find? s.id = some s.serial := lives_iff.mp lives
  have alone : s.name.places (w₁.suspended ++ [⟨s, pause⟩]) = [(s.stint, pause)] := by
    rw [SessionName.places_append, SessionName.places_eq_nil.mpr awake, s.places]
    rfl
  show ((w₁.tracker s.tracker).sessions.find? s.id).map _ = _
  rw [found]
  exact congrArg some alone

/-- A session that ends. -/
theorem Bears.ended (bears : w.Bears number id F) (inside : number < w.trackers.length)
    (does : w.Does (.ended number id) w') : w'.Shows number id { F with session := none } := by
  obtain ⟨w₁, near, rfl, _⟩ := does
  obtain ⟨clock, settings, record⟩ := near.bears bears
  refine ⟨⟨clock, (settings_after _ _ _).trans settings, ?_⟩, ?_⟩
  · rw [World.record, tasks_after]
    exact record
  · rw [World.seat, sessions_after]
    dsimp only
    rw [if_pos ⟨rfl, near.count ▸ inside⟩, Dictionary.find?_erase, if_pos rfl]
    rfl

/-- A session that writes a status. -/
theorem Runs.patched {patch : Patch} (runs : w.Runs S F)
    (does : w.Does (.patched S.tracker S.id patch) w') :
    w'.Runs S { F with record := w'.record S.tracker S.id } := by
  obtain ⟨w₁, near, rfl, _⟩ := does
  obtain ⟨bears, lives, awake⟩ := near.runs runs
  refine ⟨⟨bears.clock, (settings_after _ _ _).trans bears.settings, rfl⟩, ?_, awake⟩
  rw [lives_iff, sessions_after]
  exact lives_iff.mp lives

/-- A session that is created. -/
theorem Shows.began (shows : w.Shows number id F) (tidy : w.Tidy number)
    (does : w.Does (.began number id) w') : w'.Runs ⟨number, id, w.nextSerial⟩ F := by
  obtain ⟨w₁, near, rfl, _⟩ := does
  obtain ⟨⟨clock, settings, record⟩, _⟩ := near.shows shows
  have inside : number < w₁.trackers.length := near.count ▸ tidy.inside
  refine ⟨⟨clock, (settings_after _ _ _).trans settings, ?_⟩, ?_, fun entry mem same => ?_⟩
  · rw [World.record, tasks_after]
    exact record
  · rw [lives_iff, sessions_after]
    dsimp only
    rw [if_pos ⟨rfl, inside⟩, Dictionary.find?_insert, if_pos rfl, near.nextSerial]
  · have below := tidy.below entry (near.suspended ▸ mem)
    have equal : entry.task.serial = w.nextSerial := congrArg SessionName.serial same
    exact absurd equal (Nat.ne_of_lt below)

/-! ### A session gets its turn -/

section Taken

variable {before after : List (Suspended κ)} {entry : Suspended κ}

theorem Tidy.without (tidy : w.Tidy number) (listed : w.suspended = before ++ entry :: after) :
    ({ w with suspended := before ++ after } : World κ).Tidy number where
  inside := tidy.inside
  keyed := tidy.keyed
  executor := tidy.executor
  below other mem := by
    refine tidy.below other (listed ▸ ?_)
    rcases List.mem_append.mp mem with mem | mem
    · exact List.mem_append_left _ mem
    · exact List.mem_append_right _ (List.mem_cons_of_mem _ mem)
  given := tidy.given
  sole := tidy.sole

/-- The session whose turn it is was suspended, and is not suspended any more. -/
theorem Shows.taken (shows : w.Shows entry.task.tracker entry.task.id F)
    (listed : w.suspended = before ++ entry :: after) (lives : w.lives entry.task.name = true) :
    F.session = some (entry.task.stint, entry.pause) ∧
      ({ w with suspended := before ++ after } : World κ).Runs entry.task.name F := by
  have found : (w.tracker entry.task.tracker).sessions.find? entry.task.id =
      some entry.task.serial := lives_iff.mp lives
  have places : entry.task.name.places w.suspended =
      entry.task.name.places before ++ ((entry.task.stint, entry.pause) ::
        entry.task.name.places after) := by
    rw [listed, ← List.singleton_append, SessionName.places_append, SessionName.places_append,
      entry.task.places]
    rfl
  have seat : some (entry.task.name.places w.suspended) = F.session.map fun s => [s] := by
    rw [← shows.seat, World.seat, found]
    rfl
  rw [places] at seat
  cases session : F.session with
  | none => simp [session] at seat
  | some s =>
    rw [session, Option.map_some, Option.some.injEq, List.append_eq_singleton_iff] at seat
    rcases seat with ⟨first, single⟩ | ⟨_, empty⟩
    · obtain ⟨rfl, last⟩ := List.cons.inj single
      refine ⟨rfl, ⟨shows.clock, shows.settings, shows.record⟩, lives, fun other mem => ?_⟩
      rcases List.mem_append.mp mem with mem | mem
      · exact SessionName.places_eq_nil.mp first other mem
      · exact SessionName.places_eq_nil.mp last other mem
    · simp at empty

/-- The turn of one session is nothing to the task of another one. -/
theorem Shows.without (shows : w.Shows number id F) (listed : w.suspended = before ++ entry :: after)
    (other : ∀ serial, w.lives ⟨number, id, serial⟩ → entry.task.name ≠ ⟨number, id, serial⟩) :
    ({ w with suspended := before ++ after } : World κ).Shows number id F := by
  have same : ∀ serial, (w.tracker number).sessions.find? id = some serial →
      SessionName.places ⟨number, id, serial⟩ (before ++ after) =
        SessionName.places ⟨number, id, serial⟩ w.suspended := fun serial found => by
    have apart := other serial (lives_iff.mpr found)
    have nowhere : SessionName.places ⟨number, id, serial⟩ [entry] = [] :=
      SessionName.places_eq_nil.mpr fun e mem => List.mem_singleton.mp mem ▸ apart
    rw [listed, ← List.singleton_append, SessionName.places_append, SessionName.places_append,
      SessionName.places_append, nowhere, List.nil_append]
  refine ⟨⟨shows.clock, shows.settings, shows.record⟩, Eq.trans ?_ shows.seat⟩
  show ((w.tracker number).sessions.find? id).map _ = ((w.tracker number).sessions.find? id).map _
  cases found : (w.tracker number).sessions.find? id with
  | none => rfl
  | some serial => exact congrArg some (same serial found)

end Taken

end World

end TaskWatch
