import TaskWatch.Proofs.Session.Affair
import TaskWatch.Proofs.Store.Listed

/-!
# What comes of a call

When callbacks and listeners only observe, a call on a tracker does to each task what it does to the
task by itself, whatever other tasks there are. A call that goes through several tasks, one after the
other, comes to each of them once.

## Main definitions

* `Call.IsOn` — calls on one tracker that say of new records when they were made.
* `Call.Causes` — the deeds that such a call causes.
* `Unfolds` — what becomes of every task, and what is seen of it.

## Main results

* `Machine.perform_lands`, `Machine.call_unfolds` — what comes of a call.
-/

namespace TaskWatch

variable {σ κ : Type}

/-- A call on a tracker, or one that concerns none. It says of a new record when it was made, and it
opens no further tracker. -/
def Call.IsOn (number : Nat) : Call κ → Prop
  | .add k draft | .track k draft _ => k = number ∧ draft.createdAt.isSome
  | .update k _ _ | .remove k _ | .clearTerminal k | .subscribeStore k _ | .subscribeSessions k _
  | .start k _ _ | .stop k _ | .stopAll k | .configure k _ | .resume k _ | .forget k _ => k = number
  | .release _ | .openView _ _ | .watch _ _ | .snapshot _ | .seed _ _ => True
  | .openTracker _ _ => False

/-- The deeds that a call on a tracker causes: its own, and those of sessions that it starts and
stops. -/
def Call.Causes (number : Nat) (request : Call κ) (d : Deed κ) : Prop :=
  d.IsSessional number (fun _ => True) ∨ match request with
    | .add _ draft | .track _ draft _ => d = .kept number (draft.stamped .epoch)
    | .update _ id patch => d = .patched number id patch
    | .remove _ id | .forget _ id => d = .dropped number id
    | .clearTerminal _ => d = .cleared number
    | .configure _ _ => ∃ settings, d = .configured number settings
    | .seed key content => d = .seeded key content
    | _ => False

/-- Deeds are done that leave the world tidy. What becomes of every task, and what is seen of it, is
given. -/
structure Unfolds (number : Nat) (allowed : Deed κ → Prop) (w : World κ)
    (next : TaskId → Facet κ → Facet.Next κ) (seen : TaskId → List (Glimpse κ)) (w' : World κ) :
    Prop where
  undergoes : w.Undergoes allowed w'
  tidy : w'.Tidy number
  shows : ∀ id F, w.Shows number id F →
    w'.Shows number id (next id F).1 ∧ seen id = (next id F).2

variable {number : Nat} {allowed allowed' : Deed κ → Prop} {w w₁ w' : World κ}
  {next next' : TaskId → Facet κ → Facet.Next κ} {seen seen' : TaskId → List (Glimpse κ)}
  {F : Facet κ} {id : TaskId}

theorem Unfolds.mono (unfolds : Unfolds number allowed w next seen w')
    (implies : ∀ d, allowed d → allowed' d) : Unfolds number allowed' w next seen w' :=
  ⟨unfolds.undergoes.mono implies, unfolds.tidy, unfolds.shows⟩

/-- It is enough to say what becomes of the tasks as they are. -/
theorem Unfolds.congr (unfolds : Unfolds number allowed w next seen w')
    (same : ∀ id F, w.Shows number id F → next id F = next' id F) :
    Unfolds number allowed w next' seen w' :=
  ⟨unfolds.undergoes, unfolds.tidy, fun id F shows => same id F shows ▸ unfolds.shows id F shows⟩

theorem Unfolds.trans (unfolds : Unfolds number allowed w next seen w₁)
    (further : Unfolds number allowed w₁ next' seen' w') :
    Unfolds number allowed w (fun id F => (next' id (next id F).1).after (next id F).2)
      (fun id => seen id ++ seen' id) w' where
  undergoes := unfolds.undergoes.trans further.undergoes
  tidy := further.tidy
  shows id F shows := by
    obtain ⟨shows₁, same⟩ := unfolds.shows id F shows
    obtain ⟨shows₂, same'⟩ := further.shows id _ shows₁
    exact ⟨shows₂, congrArg₂ _ same same'⟩

/-- A tidy world in which no session has its turn. -/
structure World.Settled (w : World κ) (number : Nat) : Prop extends w.Tidy number where
  shown : ∀ id, ∃ F, w.Shows number id F

theorem Unfolds.settled (unfolds : Unfolds number allowed w next seen w')
    (settled : w.Settled number) : w'.Settled number where
  toTidy := unfolds.tidy
  shown id := by
    obtain ⟨F, shows⟩ := settled.shown id
    exact ⟨_, (unfolds.shows id F shows).1⟩

/-- Nobody notices anything. -/
theorem Unfolds.of_near (tidy : w.Tidy number) (near : w.Near w') (nothing : allowed .nothing)
    (silent : ∀ id, seen id = []) : Unfolds number allowed w (fun _ F => F.still) seen w' :=
  ⟨near.undergoes nothing, tidy.near near, fun id _ shows => ⟨near.shows shows, silent id⟩⟩

/-- What a world shows of a task is determined. -/
theorem World.Shows.unique {F F' : Facet κ} (shows : w.Shows number id F)
    (shows' : w.Shows number id F') : F' = F := by
  obtain ⟨⟨clock, settings, record⟩, seat⟩ := shows
  obtain ⟨⟨clock', settings', record'⟩, seat'⟩ := shows'
  have session : F'.session = F.session :=
    Option.map_injective (fun _ _ same => List.singleton_injective same) (seat'.symm.trans seat)
  cases F
  cases F'
  simp_all

/-- What a task is now, it has come to be from what it was before. -/
theorem Unfolds.before {F' : Facet κ} (unfolds : Unfolds number allowed w next seen w')
    (settled : w.Settled number) (shows' : w'.Shows number id F') :
    ∃ F, w.Shows number id F ∧ F' = (next id F).1 ∧ seen id = (next id F).2 := by
  obtain ⟨F, shows⟩ := settled.shown id
  obtain ⟨shows₁, same⟩ := unfolds.shows id F shows
  exact ⟨F, shows, shows₁.unique shows', same⟩

/-- An affair of one task is nothing to the others. -/
theorem Affair.unfolds {after : Facet.Next κ} (affair : Affair number id w after seen w')
    (tidy : w.Tidy number) (shows : w.Shows number id F) (become : Facet κ → Facet.Next κ)
    (same : after = become F) (sessional : ∀ d, d.IsSessional number (· = id) → allowed d) :
    Unfolds number allowed w (fun other G => if other = id then become G else G.still) seen w' where
  undergoes := World.Undergoes.mono affair.goes sessional
  tidy := World.Goes.tidy affair.goes tidy
  shows other G showsG := by
    split
    · next here =>
      subst here
      obtain rfl := shows.unique showsG
      exact same ▸ ⟨affair.shows, affair.own⟩
    · next elsewhere =>
      exact ⟨affair.goes.shows tidy elsewhere showsG, affair.others other elsewhere⟩

/-! ### Changes of a collection -/

/-- What listeners are told of a task when a collection is changed. -/
def Mutation.told {α : Type} (mutation : Mutation α) (id : TaskId) : List Notice :=
  mutation.event.toList.flatMap fun event => (Notice.store event).of id

/-- What a change of a collection does to a task. -/
noncomputable def Facet.changed {α : Type} (F : Facet κ) (mutation : Mutation α) (id : TaskId) :
    Facet.Next κ :=
  F.mutated (mutation.tasks.find? id) (mutation.told id)

theorem World.Shows.mutate {α : Type} (shows : w.Shows number id F)
    (inside : number < w.trackers.length) (mutation : Mutation α) :
    (w.mutate number mutation).Shows number id { F with record := mutation.tasks.find? id } := by
  have tracker := w.tracker_mutate number number mutation
  rw [if_pos ⟨rfl, inside⟩] at tracker
  refine ⟨⟨shows.clock, ?_, ?_⟩, ?_⟩
  · rw [tracker]
    exact shows.settings
  · rw [World.record, tracker]
    exact congrArg (Dictionary.find? · id) (Store.tasks_apply _ _ _)
  · rw [World.seat, tracker]
    exact shows.seat

theorem World.Shows.change {record : Option Task} (shows : w.Shows number id F)
    (shows' : w'.Shows number id { F with record }) :
    World.change number id w w' = F.keeps record := by
  have before : w.record number id = F.record := shows.record
  have after : w'.record number id = record := shows'.record
  have clock : w'.clock = F.clock := shows'.clock
  rw [World.change, Facet.keeps, before, after, clock]

theorem World.tells_eq (clock : w.clock = F.clock) (n : Notice) (id : TaskId) :
    w.tells n id = (n.of id).flatMap F.tells := by
  rw [World.tells, List.map_eq_flatMap, clock]
  rfl

section Changed

variable {tasks : Collection} (record : tasks.find? id = F.record)

include record

/-- A change that leaves the record of a task alone and is not about it is nothing to the task. -/
private theorem changed_still {α : Type} {mutation : Mutation α}
    (same : mutation.tasks.find? id = tasks.find? id) (untold : mutation.told id = []) :
    F.changed mutation id = F.still := by
  have keeps : F.keeps F.record = [] := if_pos rfl
  rw [Facet.changed, same, record, untold, Facet.mutated, keeps]
  rfl

theorem changed_add (task : Task) :
    F.changed (tasks.add task) id = if task.id = id then F.added id task else F.still := by
  split
  · next here =>
    rw [Facet.changed, Facet.added, Collection.find?_add, if_pos here.symm, Mutation.told,
      Collection.add, here, record]
    cases F.record with
    | none => simp [Notice.of, StoreEvent.affects]
    | some previous =>
      cases same : previous == task with
      | true => simp [same]
      | false => simp [same, Notice.of, StoreEvent.affects]
  · next elsewhere =>
    refine changed_still record ?_ ?_
    · rw [Collection.find?_add, if_neg fun same => elsewhere same.symm]
    · rw [Mutation.told, Collection.add]
      dsimp only
      split
      · split <;> simp [Notice.of, StoreEvent.affects, elsewhere]
      · simp [Notice.of, StoreEvent.affects, elsewhere]

theorem changed_update (keyed : tasks.Keyed) (other : TaskId) (patch : Patch) :
    F.changed (tasks.update other patch) id = if other = id then F.updated id patch else F.still := by
  obtain ⟨absent, ended⟩ | ⟨task, found, rest⟩ := tasks.update_cases other patch
  · have still : F.changed (tasks.update other patch) id = F.still :=
      changed_still record (by rw [ended]) (by rw [ended]; rfl)
    rw [still]
    split
    · next here =>
      rw [here, record] at absent
      rw [Facet.updated, absent]
    · rfl
  obtain ⟨error, refused, ended⟩ | ⟨fine, same, ended⟩ | ⟨fine, differs, ended⟩ := rest
  · have still : F.changed (tasks.update other patch) id = F.still :=
      changed_still record (by rw [ended]) (by rw [ended]; rfl)
    rw [still]
    split
    · next here =>
      rw [here, record] at found
      simp [Facet.updated, found, refused]
    · rfl
  · have still : F.changed (tasks.update other patch) id = F.still :=
      changed_still record (by rw [ended]) (by rw [ended]; rfl)
    rw [still]
    split
    · next here =>
      rw [here, record] at found
      simp [Facet.updated, found, same]
    · rfl
  · have own : task.id = other := keyed found
    split
    · next here =>
      rw [here] at own
      rw [here, record] at found
      simp [Facet.updated, Facet.changed, Mutation.told, ended, found, fine, differs, own,
        Dictionary.find?_insert, Notice.of, StoreEvent.affects]
    · next elsewhere =>
      refine changed_still record ?_ ?_
      · rw [ended, Dictionary.find?_insert, own, if_neg fun same => elsewhere same.symm]
      · rw [Mutation.told, ended, own]
        simp [Notice.of, StoreEvent.affects, elsewhere]

theorem changed_remove (keyed : tasks.Keyed) (other : TaskId) :
    F.changed (tasks.remove other) id = if other = id then F.removed id else F.still := by
  split
  · next here =>
    subst here
    cases found : F.record with
    | none =>
      have ended : tasks.remove other = ⟨none, tasks, none⟩ := by
        simp [Collection.remove, record.trans found]
      rw [Facet.removed, found, Option.isSome_none, if_neg Bool.false_ne_true]
      exact changed_still record (by rw [ended]) (by rw [ended]; rfl)
    | some task =>
      have own : task.id = other := keyed (record.trans found)
      rw [Facet.changed, Facet.removed, Collection.find?_remove, if_pos rfl, Mutation.told,
        Collection.remove, record, found]
      simp [Notice.of, StoreEvent.affects, own]
  · next elsewhere =>
    refine changed_still record ?_ ?_
    · rw [Collection.find?_remove, if_neg fun same => elsewhere same.symm]
    · rw [Mutation.told, Collection.remove]
      split
      · rfl
      · next task found => simp [Notice.of, StoreEvent.affects, keyed found, elsewhere]

theorem changed_clearTerminal : F.changed tasks.clearTerminal id = F.cleared id := by
  have told : tasks.clearTerminal.told id =
      if id ∈ tasks.terminalIds then [.store (.cleared [id])] else [] := by
    rw [Mutation.told, Collection.clearTerminal]
    split
    · next nobody => simp [nobody]
    · simp [Notice.of]
  have terminal : id ∈ tasks.terminalIds ↔ F.record.any Task.isTerminal = true := by
    rw [Collection.mem_terminalIds, record]
    cases F.record <;> simp
  rw [Facet.cleared]
  split
  · next ended =>
    rw [Facet.changed, told, if_pos (terminal.mpr ended), Collection.find?_clearTerminal, record]
    cases found : F.record with
    | none => simp [found] at ended
    | some task =>
      have finished : task.isTerminal = true := by simpa [found] using ended
      simp [Option.filter, finished]
  · next going =>
    refine changed_still record ?_ (told.trans (if_neg fun mem => going (terminal.mp mem)))
    rw [Collection.find?_clearTerminal, record]
    cases found : F.record with
    | none => rfl
    | some task =>
      have active : task.isTerminal = false := by simpa [found] using going
      simp [Option.filter, active]

end Changed

/-! ### Fetchers that a factory may make -/

namespace Facet

/-- A session is started if there is a fetcher for it. -/
def startedWith (F : Facet κ) (id : TaskId) : Option κ → Next κ
  | none => F.still
  | some fetcher => F.started id fetcher

/-- A record that is not terminal is offered to the factory. -/
theorem resumed_eq (F : Facet κ) (b : Backend κ) (id : TaskId) (factory : κ) :
    F.resumed b id factory =
      F.startedWith id ((F.record.filter fun task => !task.isTerminal).bind (b.supply factory)) := by
  rw [resumed]
  cases F.record with
  | none => rfl
  | some task =>
    cases terminal : task.isTerminal with
    | true => simp [Option.filter, terminal, startedWith]
    | false =>
      simp only [Option.filter, terminal]
      cases supplied : b.supply factory task <;> simp [supplied, startedWith]

/-- The first task is offered, and then the others are. -/
theorem startedWith_cons {task : Task} {rest : List Task}
    (absent : rest.find? (fun other => other.id = task.id) = none) (supply : Task → Option κ)
    (F : Facet κ) (id : TaskId) :
    let first := F.startedWith id (if id = task.id then supply task else none)
    (first.1.startedWith id ((rest.find? fun other => other.id = id).bind supply)).after first.2 =
      F.startedWith id (((task :: rest).find? fun other => other.id = id).bind supply) := by
  by_cases here : id = task.id
  · subst here
    simp [absent, startedWith, still, Next.after]
  · simp [here, Ne.symm here, startedWith, still, Next.after]

end Facet

namespace Machine

variable {c : Consumer σ κ} {b : Backend κ} {m : Machine σ κ}

/-- A collection is changed, and listeners are told if there is something to report. -/
theorem lands_mutate (obeys : c.Obeys b) (tidy : m.world.Tidy number) {α : Type}
    {mutation : Mutation α} {d : Deed κ} (does : m.world.Does d (m.world.mutate number mutation))
    (begun : ∀ k id, d ≠ .began k id) (paused : ∀ entry, d ≠ .paused entry)
    (here : allowed d) (nothing : allowed .nothing) (r : Reply) :
    Lands c number m.world (m.mutate number mutation r) m.stack fun seen reply after =>
      reply = r ∧ Unfolds number allowed m.world (fun id F => F.changed mutation id) seen after := by
  obtain ⟨w, mutated⟩ : ∃ w, w = m.world.mutate number mutation := ⟨_, rfl⟩
  have shows : ∀ {id F}, m.world.Shows number id F →
      w.Shows number id { F with record := mutation.tasks.find? id } :=
    fun shows => mutated ▸ shows.mutate tidy.inside mutation
  rw [← mutated] at does
  have tidy' : w.Tidy number := tidy.does does (fun k id same => absurd same (begun k id))
    fun entry same => absurd same (paused entry)
  have undergoes : m.world.Undergoes allowed w :=
    .single does here fun entry same => absurd same (paused entry)
  rw [Machine.mutate, ← mutated]
  cases event : mutation.event with
  | none =>
    refine .reply (m := m.withWorld w) rfl ⟨rfl, undergoes, tidy', fun id F shown => ⟨shows shown, ?_⟩⟩
    rw [Facet.changed, Mutation.told, event]
    exact (shown.change (shows shown)).trans (List.append_nil _).symm
  | some event' =>
    refine .tell (f := .answering r) obeys rfl fun after memory near => ?_
    refine .reply (m := ⟨memory, after, .returned .unit, m.stack⟩) rfl
      ⟨rfl, undergoes.trans (near.undergoes nothing), tidy'.near near, fun id F shown =>
        ⟨near.shows (shows shown), ?_⟩⟩
    have told : w.tells (.store event') id = ((Notice.store event').of id).flatMap F.tells :=
      World.tells_eq (F := F) (shows shown).clock _ _
    show World.change number id m.world w ++ w.tells (.store event') id ++
      World.change number id after after = _
    rw [Facet.changed, Mutation.told, event, World.change_self, List.append_nil,
      shown.change (shows shown), told]
    simp [Facet.mutated]

/-! ### One task after the other -/

/-- Something that begins in a world comes to what becomes of every task. -/
abbrev Calls (c : Consumer σ κ) (number : Nat) (allowed : Deed κ → Prop) (before : World κ)
    (m : Machine σ κ) (base : List (Frame σ κ)) (next : TaskId → Facet κ → Facet.Next κ) : Prop :=
  Lands c number before m base fun seen _ after => Unfolds number allowed before next seen after

section Sessions

variable (obeys : c.Obeys b) (sessional : ∀ d, d.IsSessional number (fun _ => True) → allowed d)

include sessional

private theorem allowed_of_one {d : Deed κ} (within : d.IsSessional number (· = id)) : allowed d :=
  sessional d (within.mono fun _ _ => trivial)

/-- There is a reply at once, and nobody notices anything. -/
theorem calls_reply (tidy : m.world.Tidy number) {w : World κ} (near : m.world.Near w) (r : Reply) :
    Calls c number allowed m.world ((m.withWorld w).reply r) m.stack fun _ F => F.still :=
  .reply rfl <| .of_near tidy near (sessional .nothing trivial) fun id =>
    World.change_of_eq (near.record number id)

include obeys

theorem calls_startSession (settled : m.world.Settled number) (id : TaskId) (fetcher : κ) :
    Calls c number allowed m.world (m.startSession number id fetcher) m.stack
      fun other F => if other = id then F.started id fetcher else F.still := by
  obtain ⟨F, shows⟩ := settled.shown id
  refine (lands_startSession obeys settled.toTidy shows fetcher).mono ?_
  rintro seen reply after ⟨_, affair⟩
  exact affair.unfolds settled.toTidy shows (·.started id fetcher) rfl fun d =>
    allowed_of_one sessional

theorem calls_stopSession (settled : m.world.Settled number) (id : TaskId) :
    Calls c number allowed m.world (m.stopSession number id none .requested) m.stack
      fun other F => if other = id then F.halted id else F.still := by
  obtain ⟨F, shows⟩ := settled.shown id
  have seat := shows.seat
  rw [World.seat] at seat
  cases found : (m.world.tracker number).sessions.find? id with
  | none =>
    have nobody : F.session = none := by simpa [found] using seat.symm
    have same : m.stopSession number id none .requested = (m.withWorld m.world).reply (.flag false) := by
      rw [stopSession, tracker, found]
      rfl
    rw [same]
    refine (calls_reply sessional settled.toTidy (.refl _) (.flag false)).mono ?_
    intro seen reply after unfolds
    refine unfolds.congr fun other G shown => ?_
    split
    · next here =>
      subst here
      obtain rfl := shows.unique shown
      rw [Facet.halted, nobody]
      rfl
    · rfl
  | some serial =>
    obtain ⟨s, session⟩ : ∃ s, F.session = some s := by
      cases session : F.session with
      | none => simp [found, session] at seat
      | some s => exact ⟨s, rfl⟩
    refine (lands_stopSession obeys settled.toTidy shows.toBears found rfl).mono ?_
    rintro seen reply after ⟨_, affair⟩
    refine affair.unfolds settled.toTidy shows (·.halted id) ?_ fun d =>
      allowed_of_one sessional
    rw [Facet.halted, session]
    rfl

/-- Sessions are stopped one after the other. -/
theorem calls_stopEach {ids : List TaskId} (distinct : ids.Nodup) (settled : m.world.Settled number)
    (count : Nat) :
    Calls c number allowed m.world (m.stopEach number count ids) m.stack
      fun id F => if id ∈ ids then F.halted id else F.still := by
  induction ids generalizing m count with
  | nil =>
    refine (calls_reply sessional settled.toTidy (.refl _) (.count count)).mono ?_
    intro seen reply after unfolds
    exact unfolds.congr fun id F _ => (if_neg List.not_mem_nil).symm
  | cons id rest ih =>
    obtain ⟨new, distinct⟩ := List.nodup_cons.mp distinct
    have first := calls_stopSession (m := m.push (.stopping number rest count)) obeys sessional settled id
    refine first.bind ?_
    intro seen reply after memory unfolds
    refine (ih (m := ⟨memory, after, .returned reply, m.stack⟩) distinct
      (unfolds.settled settled) _).mono ?_
    intro seen' reply' after' further
    refine (unfolds.trans further).congr fun other F _ => ?_
    by_cases here : other = id
    · subst here
      simp [new, Facet.still, Facet.Next.after]
    · simp [here, Facet.still, Facet.Next.after]

/-- Tasks are offered to a factory one after the other. -/
theorem calls_resumeEach {offered : List Task} (distinct : offered.Pairwise fun a c => c.id ≠ a.id)
    (settled : m.world.Settled number) (factory : κ) (count : Nat) :
    Calls c number allowed m.world (m.resumeEach number factory count offered) m.stack fun id F =>
      F.startedWith id ((offered.find? fun task => task.id = id).bind (b.supply factory)) := by
  induction offered generalizing m count with
  | nil => exact calls_reply sessional settled.toTidy (.refl _) (.count count)
  | cons task rest ih =>
    obtain ⟨new, distinct⟩ := List.pairwise_cons.mp distinct
    have absent : rest.find? (fun other => other.id = task.id) = none := by
      simpa [List.find?_eq_none] using new
    -- Once this task has been dealt with, the others are offered.
    have others : ∀ {w : World κ} {seen : TaskId → List (Glimpse κ)} (memory : σ) (r : Reply)
        (further : Nat), Unfolds number allowed m.world
          (fun id F => F.startedWith id (if id = task.id then b.supply factory task else none)) seen w →
        Lands c number w
          (resumeEach ⟨memory, w, .returned r, m.stack⟩ number factory further rest) m.stack
          fun seen' _ after => Unfolds number allowed m.world (fun id F => F.startedWith id
            (((task :: rest).find? fun task => task.id = id).bind (b.supply factory)))
            (fun id => seen id ++ seen' id) after := by
      intro w seen memory r further unfolds
      have next := ih (m := ⟨memory, w, .returned r, m.stack⟩) distinct (unfolds.settled settled) further
      refine next.mono fun seen' reply after unfolds' => ?_
      exact (unfolds.trans unfolds').congr fun id F _ => F.startedWith_cons absent _ id
    have ends := obeys.callback factory (.offered task) rfl (by simp)
    refine .invoke (f := .offering number factory task rest count) ends rfl fun memory => ?_
    have silent : ∀ id, World.change number id m.world m.world ++
        m.world.calls factory (.offered task) id = [] := fun id => by
      simp [World.change_self, World.calls, Occasion.subject?]
    simp only [world_push, silent, List.nil_append]
    rw [resume, obeys.supply]
    cases supplied : b.supply factory task with
    | none =>
      have still : Unfolds number allowed m.world
          (fun id F => F.startedWith id (if id = task.id then b.supply factory task else none))
          (fun _ => []) m.world :=
        (Unfolds.of_near settled.toTidy (.refl _) (sessional .nothing trivial) fun _ => rfl).congr
          fun id F _ => by simp [supplied, Facet.startedWith]
      simpa using others memory .unit count still
    | some fetcher =>
      have started := calls_startSession (m := ⟨memory, m.world, .returned .unit,
        .resuming number factory rest count :: m.stack⟩) obeys sessional settled task.id fetcher
      refine started.bind ?_
      intro seen reply after memory' unfolds
      refine others memory' reply _ (unfolds.congr fun id F _ => ?_)
      split
      · next here => simp [supplied, here, Facet.startedWith]
      · rfl

end Sessions

/-! ### Calls -/

theorem stampDraft_given {draft : Draft} (given : draft.createdAt.isSome = true) (w : World κ) :
    w.stampDraft draft = (draft.stamped .epoch, w) := by
  rw [World.stampDraft]
  cases made : draft.createdAt with
  | none => simp [made] at given
  | some time => rfl

/-- What is offered for a task when sessions are resumed. -/
theorem find?_active {tasks : Collection} (keyed : tasks.Keyed) (id : TaskId) :
    tasks.active.find? (fun task => task.id = id) =
      (tasks.find? id).filter fun task => !task.isTerminal := by
  have offered : ∀ task, task ∈ tasks.active ↔
      tasks.find? task.id = some task ∧ (!task.isTerminal) = true := fun task =>
    Collection.mem_listed keyed
  cases found : tasks.active.find? (fun task => task.id = id) with
  | none =>
    symm
    rw [Option.filter_eq_none_iff]
    intro task there active
    have own : task.id = id := keyed there
    have mem := (offered task).mpr ⟨own ▸ there, active⟩
    simpa [own] using List.find?_eq_none.mp found task mem
  | some task =>
    have own : task.id = id := by simpa using List.find?_some found
    obtain ⟨there, active⟩ := (offered task).mp (List.mem_of_find?_eq_some found)
    rw [← own, there]
    simp only [Option.filter, active, if_true]

/-- The settings of a tracker are replaced. -/
private theorem calls_configured (tidy : m.world.Tidy number) {settings : Settings κ}
    (here : allowed (.configured number settings)) :
    Calls c number allowed m.world
      ((m.withWorld (m.world.after (.configured number settings))).reply .unit) m.stack
      fun _ F => ({ F with settings }, []) := by
  have does : m.world.Does (.configured number settings)
    (m.world.after (.configured number settings)) := World.does_after _ rfl
  have record : ∀ id, (m.world.after (.configured number settings)).record number id =
      m.world.record number id := fun id => by rw [World.record, World.tasks_after, World.record]
  refine .reply rfl ⟨.single does here (by simp), tidy.does does (by simp) (by simp), fun id F shows => ?_⟩
  refine ⟨⟨⟨shows.clock, ?_, (record id).trans shows.record⟩, ?_⟩, World.change_of_eq (record id)⟩
  · exact (World.settings_after _ _ _).trans (if_pos ⟨rfl, tidy.inside⟩)
  · rw [world_withWorld, World.seat, World.sessions_after]
    exact shows.seat

/-- A text is written to the storage, which none of the collections reads any more. -/
private theorem calls_seed (tidy : m.world.Tidy number) {key : String} {content : ByteArray}
    (here : allowed (.seeded key content)) :
    Calls c number allowed m.world (m.perform (.seed key content)) m.stack fun _ F => F.still := by
  have does : m.world.Does (.seeded key content) (m.world.after (.seeded key content)) :=
    World.does_after _ rfl
  exact .reply (m := m.withWorld (m.world.after (.seeded key content))) rfl
    ⟨.single does here (by simp), tidy.does does (by simp) (by simp), fun id F shows =>
      ⟨⟨⟨shows.clock, shows.settings, shows.record⟩, shows.seat⟩, World.change_of_eq rfl⟩⟩

/-- A call that concerns a single task does nothing to the others. -/
private theorem Calls.about {request : Call κ} {m' : Machine σ κ} {id : TaskId}
    (next : TaskId → Facet κ → Facet.Next κ) (subject : request.subject? = some id)
    (calls : Calls c number allowed m.world m' m.stack fun other F =>
      if other = id then next other F else F.still)
    (same : ∀ F : Facet κ, next id F = F.called b id request) :
    Calls c number allowed m.world m' m.stack fun other F => F.called b other request := by
  refine Lands.mono calls fun seen reply after unfolds => unfolds.congr fun other F _ => ?_
  split
  · next here => rw [here, same]
  · next elsewhere => exact (F.called_of_elsewhere b other subject (Ne.symm elsewhere)).symm

section Calls

variable (obeys : c.Obeys b) (sessional : ∀ d, d.IsSessional number (fun _ => True) → allowed d)

include sessional obeys

/-- A change of a collection that a call makes. -/
private theorem calls_mutate (tidy : m.world.Tidy number) {α : Type} {mutation : Mutation α}
    {d : Deed κ} (does : m.world.Does d (m.world.mutate number mutation))
    (begun : ∀ k id, d ≠ .began k id) (paused : ∀ entry, d ≠ .paused entry) (here : allowed d)
    (r : Reply) (same : ∀ id F, m.world.Shows number id F → F.changed mutation id = next id F) :
    Calls c number allowed m.world (m.mutate number mutation r) m.stack next := by
  have nothing : allowed .nothing := sessional _ trivial
  refine (lands_mutate obeys tidy does begun paused here nothing r).mono ?_
  rintro seen reply after ⟨_, unfolds⟩
  exact unfolds.congr same

/-- A record is kept and polled for. -/
private theorem calls_track (settled : m.world.Settled number) {draft : Draft}
    (given : draft.createdAt.isSome = true) (here : allowed (.kept number (draft.stamped .epoch)))
    (fetcher : κ) :
    Calls c number allowed m.world (m.perform (.track number draft fetcher)) m.stack fun id F =>
      if draft.id = id then F.tracked id (draft.stamped .epoch) fetcher else F.still := by
  obtain ⟨task, made⟩ : ∃ task, task = draft.stamped .epoch := ⟨_, rfl⟩
  have own : task.id = draft.id := by rw [made]; rfl
  have keeps : Calls c number allowed m.world
      ((m.push (.tracking number task fetcher)).mutate number
        ((m.world.tracker number).store.tasks.add task) .unit)
      (.tracking number task fetcher :: m.stack)
      fun id F => if task.id = id then F.added id task else F.still :=
    calls_mutate (m := m.push (.tracking number task fetcher)) obeys sessional settled.toTidy
      (World.does_after _ rfl : m.world.Does (.kept number task) _) (by simp) (by simp) (made ▸ here) .unit
      fun id F shows => changed_add shows.record task
  rw [perform, stampDraft_given given, ← made]
  refine Lands.bind keeps ?_
  intro seen reply after memory unfolds
  rw [resume]
  cases terminal : task.isTerminal with
  | true =>
    rw [if_pos rfl]
    refine (calls_reply (c := c) (m := ⟨memory, after, .returned reply, m.stack⟩) sessional
      unfolds.tidy (.refl _) (.task task)).mono ?_
    intro seen' reply' after' further
    refine (unfolds.trans further).congr fun id F _ => ?_
    rw [← own, Facet.tracked, terminal]
    split <;> simp [Facet.still, Facet.Next.after]
  | false =>
    rw [if_neg Bool.false_ne_true]
    have started := calls_startSession (m := ⟨memory, after, .returned reply,
      .answering (.task task) :: m.stack⟩) obeys sessional (unfolds.settled settled) task.id fetcher
    refine started.bind ?_
    intro seen' reply' after' memory' further
    refine (calls_reply (c := c) (m := ⟨memory', after', .returned reply', m.stack⟩) sessional
      further.tidy (.refl _) (.task task)).mono ?_
    intro seen'' reply'' after'' nothing
    have whole := (unfolds.trans further).trans nothing
    simp only [List.append_assoc] at whole
    refine whole.congr fun id F _ => ?_
    rw [← own, Facet.tracked, terminal]
    by_cases here : task.id = id
    · simp [here, Facet.still, Facet.Next.after]
    · simp [here, Ne.symm here, Facet.still, Facet.Next.after]

/-- A session is stopped, and the record is deleted. -/
private theorem calls_forget (settled : m.world.Settled number) {id : TaskId}
    (here : allowed (.dropped number id)) :
    Calls c number allowed m.world (m.perform (.forget number id)) m.stack fun other F =>
      if other = id then F.forgotten id else F.still := by
  have stops := calls_stopSession (m := m.push (.forgetting number id)) obeys sessional settled id
  refine stops.bind ?_
  intro seen reply after memory unfolds
  have drops := calls_mutate (c := c) (m := ⟨memory, after, .returned reply, m.stack⟩) obeys sessional
    unfolds.tidy (World.does_after _ rfl : after.Does (.dropped number id) _) (by simp) (by simp) here
    (.removed ((after.tracker number).store.tasks.remove id).answer)
    fun other F shows => changed_remove shows.record (unfolds.tidy.keyed number) id
  refine drops.mono ?_
  intro seen' reply' after' further
  refine (unfolds.trans further).congr fun other F _ => ?_
  by_cases here : other = id
  · subst here
    simp [Facet.forgotten]
  · simp [here, Ne.symm here, Facet.still, Facet.Next.after]

/-- All sessions of a tracker are stopped. -/
private theorem calls_stopAll (settled : m.world.Settled number) :
    Calls c number allowed m.world (m.perform (.stopAll number)) m.stack fun id F => F.halted id := by
  refine (calls_stopEach obeys sessional (m.world.tracker number).sessions.nodup_keys settled 0).mono ?_
  intro seen reply after unfolds
  refine unfolds.congr fun id F shows => ?_
  have seat := shows.seat
  rw [World.seat] at seat
  simp only [Dictionary.mem_keys]
  cases found : (m.world.tracker number).sessions.find? id with
  | none =>
    have nobody : F.session = none := by simpa [found] using seat.symm
    simp [Facet.halted, nobody]
  | some serial => rfl

/-- Sessions are resumed. -/
private theorem calls_resume (settled : m.world.Settled number) (factory : κ) :
    Calls c number allowed m.world (m.perform (.resume number factory)) m.stack
      fun id F => F.resumed b id factory := by
  have keyed := settled.keyed number
  have distinct : (m.tracker number).store.tasks.active.Pairwise fun a d => d.id ≠ a.id :=
    Collection.listed_distinct keyed _
  refine (calls_resumeEach obeys sessional distinct settled factory 0).mono ?_
  intro seen reply after unfolds
  refine unfolds.congr fun id F shows => ?_
  have offered : (m.tracker number).store.tasks.active.find? (fun task => task.id = id) =
      F.record.filter fun task => !task.isTerminal := by
    rw [← shows.record]
    exact find?_active keyed id
  rw [offered, Facet.resumed_eq]

omit obeys

/-- The settings of a tracker are changed, if nothing is wrong with the patch. -/
private theorem calls_configure (tidy : m.world.Tidy number) (patch : SettingsPatch κ)
    (here : ∀ settings, allowed (.configured number settings)) :
    Calls c number allowed m.world (m.perform (.configure number patch)) m.stack
      fun _ F => F.configured patch := by
  cases patched : (m.world.tracker number).settings.patched patch with
  | error e =>
    have same : m.perform (.configure number patch) = (m.withWorld m.world).reply (.refused e) := by
      rw [perform, tracker, patched]
      rfl
    rw [same]
    refine (calls_reply sessional tidy (.refl _) (.refused e)).mono ?_
    intro seen reply after unfolds
    refine unfolds.congr fun id F shows => ?_
    rw [shows.settings] at patched
    rw [Facet.configured, patched]
  | ok settings =>
    have same : m.perform (.configure number patch) =
        (m.withWorld (m.world.after (.configured number settings))).reply .unit := by
      rw [perform, tracker, patched]
      rfl
    rw [same]
    refine (calls_configured tidy (here settings)).mono ?_
    intro seen reply after unfolds
    refine unfolds.congr fun id F shows => ?_
    rw [shows.settings] at patched
    rw [Facet.configured, patched]

end Calls

/-- A call on a tracker does to each task what it does to the task by itself. -/
theorem perform_lands (obeys : c.Obeys b) (settled : m.world.Settled number) {request : Call κ}
    (on : request.IsOn number) :
    Calls c number (request.Causes number) m.world (m.perform request) m.stack
      fun id F => F.called b id request := by
  have sessional : ∀ d : Deed κ, d.IsSessional number (fun _ => True) → request.Causes number d :=
    fun d within => .inl within
  have tidy := settled.toTidy
  have keyed := settled.keyed number
  cases request with
  | openTracker key cadence => exact on.elim
  | add k draft =>
    obtain ⟨rfl, given⟩ := on
    rw [perform, stampDraft_given given]
    refine Calls.about (fun id F => F.added id (draft.stamped .epoch)) rfl ?_ fun F => ?_
    · refine calls_mutate obeys sessional tidy
        (World.does_after _ rfl : m.world.Does (.kept k (draft.stamped .epoch)) _) (by simp) (by simp)
        (.inr rfl) _ fun id F shows => ?_
      rw [changed_add shows.record]
      simp only [Draft.stamped, eq_comm]
    · simp [Facet.called, Call.subject?]
  | update k other patch =>
    obtain rfl := on
    refine Calls.about (fun id F => F.updated id patch) rfl ?_ fun F => ?_
    · refine calls_mutate obeys sessional tidy
        (World.does_after _ rfl : m.world.Does (.patched k other patch) _) (by simp) (by simp) (.inr rfl) _
        fun id F shows => ?_
      rw [changed_update shows.record keyed]
      simp only [eq_comm]
    · simp [Facet.called, Call.subject?]
  | remove k other =>
    obtain rfl := on
    refine Calls.about (fun id F => F.removed id) rfl ?_ fun F => ?_
    · refine calls_mutate obeys sessional tidy
        (World.does_after _ rfl : m.world.Does (.dropped k other) _) (by simp) (by simp) (.inr rfl) _
        fun id F shows => ?_
      rw [changed_remove shows.record keyed]
      simp only [eq_comm]
    · simp [Facet.called, Call.subject?]
  | clearTerminal k =>
    obtain rfl := on
    exact calls_mutate obeys sessional tidy (World.does_after _ rfl : m.world.Does (.cleared k) _) (by simp)
      (by simp) (.inr rfl) _ fun id F shows => changed_clearTerminal shows.record
  | subscribeStore k label => exact calls_reply sessional tidy (m.world.near_subscribeStore _ _) _
  | subscribeSessions k label => exact calls_reply sessional tidy (m.world.near_subscribeSessions _ _) _
  | release subscription => exact calls_reply sessional tidy (m.world.near_release subscription) _
  | start k other fetcher =>
    obtain rfl := on
    refine Calls.about (fun _ F => F.started other fetcher) rfl
      (calls_startSession obeys sessional settled other fetcher) fun F => ?_
    simp [Facet.called, Call.subject?]
  | stop k other =>
    obtain rfl := on
    refine Calls.about (fun _ F => F.halted other) rfl
      (calls_stopSession obeys sessional settled other) fun F => ?_
    simp [Facet.called, Call.subject?]
  | stopAll k =>
    obtain rfl := on
    exact calls_stopAll obeys sessional settled
  | configure k patch =>
    obtain rfl := on
    exact calls_configure sessional tidy patch fun settings => .inr ⟨settings, rfl⟩
  | track k draft fetcher =>
    obtain ⟨rfl, given⟩ := on
    refine Calls.about (fun id F => F.tracked id (draft.stamped .epoch) fetcher) rfl ?_ fun F => ?_
    · simpa only [eq_comm] using calls_track obeys sessional settled given (.inr rfl) fetcher
    · simp [Facet.called, Call.subject?]
  | resume k factory =>
    obtain rfl := on
    exact calls_resume obeys sessional settled factory
  | forget k other =>
    obtain rfl := on
    refine Calls.about (fun _ F => F.forgotten other) rfl
      (calls_forget obeys sessional settled (.inr rfl)) fun F => ?_
    simp [Facet.called, Call.subject?]
  | openView source kind => exact calls_reply sessional tidy (m.world.near_aside _ _ _) _
  | watch view label => exact calls_reply sessional tidy (m.world.near_watch view label) _
  | snapshot view => exact calls_reply sessional tidy (m.world.near_snapshot view) _
  | seed key content => exact calls_seed tidy (.inr rfl)

/-- The same for a call that is made outside all turns: afterwards there is nothing left to do. -/
theorem call_unfolds (obeys : c.Obeys b) (settled : m.world.Settled number) (idle : m.isIdle = true)
    {request : Call κ} (on : request.IsOn number) :
    ∃ states m', Path c (m.code (.call request fun _ => .done)) states m' ∧ m'.isIdle = true ∧
      Unfolds number (request.Causes number) m.world (fun id F => F.called b id request)
        (fun id => glimpses number id m (m.code (.call request fun _ => .done) :: states))
        m'.world := by
  obtain ⟨memory, w, control, stack⟩ := m
  obtain rfl : stack = [] := stack_of_isIdle idle
  -- The call returns to the code that has made it, and the code is at its end.
  obtain ⟨states, memory', r, after, path, unfolds⟩ :=
    perform_lands (m := ⟨memory, w, .code (.call request fun _ => .done), [.awaiting fun _ => .done]⟩)
      obeys settled on
  have returns : Path c ⟨memory', after, .returned r, [.awaiting fun _ => .done]⟩
      [⟨memory', after, .code .done, []⟩, ⟨memory', after, .returned .unit, []⟩]
      ⟨memory', after, .returned .unit, []⟩ :=
    .step rfl (.step rfl (.stay _))
  refine ⟨_, _, .step (busy_of_code _) (path.append returns), rfl, unfolds.undergoes, unfolds.tidy,
    fun id F shows => ?_⟩
  obtain ⟨shows', seen⟩ := unfolds.shows id F shows
  refine ⟨shows', Eq.trans ?_ seen⟩
  have called : step c ⟨memory, w, .code (.call request fun _ => .done), []⟩ =
      perform ⟨memory, w, .code (.call request fun _ => .done), [.awaiting fun _ => .done]⟩ request :=
    rfl
  rw [glimpses, shown_of_isIdle idle]
  simp [glimpses, path.glimpses_append, called, shown, Control.shows, World.change_self, code]

end Machine

end TaskWatch
