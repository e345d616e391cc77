import TaskWatch.Proofs.Run.Turn

/-!
# What is done on whose behalf

Records are added and deleted, sessions are ended, and bytes are put into the storage, only when
somebody asks for it: a call of the consumer, the rest of a call that waits in a frame, or a session
that stops itself. Each function of the machine has one lemma that says on whose behalf it does its
deed. When a session is ended, the state shows the reason: the callback for stopped sessions is
about to be called with it, or the listeners are about to be told.

## Main definitions

* `Warrant` — what may be done; `Call.warrant`, `Frame.warrant`, `Machine.warrant` — on whose
  behalf.
* `Machine.farewell?` — the end of a session that is about to be made known.
* `Machine.Warranted` — one deed is done, and it may be done.
* `Machine.Backs` — records are changed on behalf of what is going on.

## Main results

* `Machine.Turn.warranted` — in its turn a session may end itself.
* `Machine.step_warranted` — what a step does it may do.
* `Machine.Move.backed` — a move does one deed, on behalf of what is going on.
-/

namespace TaskWatch

variable {σ κ : Type}

/-- Whose records may be added and deleted, which sessions may be ended, and where somebody else may
write. -/
structure Warrant where
  /-- A record may be added for the task of a tracker. -/
  adds : Nat → TaskId → Prop := fun _ _ => False
  /-- Its record may be deleted. -/
  removes : Nat → TaskId → Prop := fun _ _ => False
  /-- All terminal records of a tracker may be deleted. -/
  clears : Nat → Prop := fun _ => False
  /-- A session may be ended for a reason. -/
  stops : SessionName → StopReason → Prop := fun _ _ => False
  /-- Bytes may be put into the storage under a key. -/
  seeds : String → Prop := fun _ => False

/-- What may be done on behalf of a call. -/
def Call.warrant (w : World κ) : Call κ → Warrant
  | .add number draft | .track number draft _ =>
    { adds := fun k id => number = k ∧ draft.id = id }
  | .remove number id => { removes := fun k other => number = k ∧ id = other }
  | .clearTerminal number => { clears := fun k => number = k }
  | .stop number id | .forget number id =>
    { stops := fun S reason => (S.tracker = number ∧ S.id = id) ∧ reason = .requested }
  | .stopAll number =>
    { stops := fun S reason => (S.tracker = number ∧
        (w.tracker number).activeIds.head? = some S.id) ∧ reason = .requested }
  | .seed key _ => { seeds := fun other => key = other }
  | _ => {}

/-- What may be done on behalf of what waits in a frame. -/
def Frame.warrant : Frame σ κ → Warrant
  | .stopping number rest _ =>
    { stops := fun S reason => (S.tracker = number ∧ rest.head? = some S.id) ∧
        reason = .requested }
  | .forgetting number id => { removes := fun k other => number = k ∧ id = other }
  | .session s _ => { stops := fun S _ => S = s.name }
  | _ => {}

namespace Machine

variable {m m' : Machine σ κ} {may : Warrant}

/-- What may be done on behalf of what is going on. A panic ends what waits in a frame, so only a
session may still end itself. -/
def warrant (m : Machine σ κ) : Warrant :=
  match m.control, m.stack with
  | .code (.call request _), _ => request.warrant m.world
  | .returned _, f :: _ => f.warrant
  | .unwinding, .session s _ :: _ => { stops := fun S _ => S = s.name }
  | _, _ => {}

/-- The end of a session that is about to be made known, to the callback for stopped sessions or to
the listeners: the tracker, the task and the reason. -/
def farewell? (m : Machine σ κ) : Option (Nat × TaskId × StopReason) :=
  match m.control, m.stack with
  | .telling number (.session (.stopped id reason)), _ => some (number, id, reason)
  | .calling _ (.stopped id reason), .announcing number _ _ :: _ => some (number, id, reason)
  | _, _ => none

/-- A deed between two states may be done. A session that is ended has lived, and its end is about
to be made known. -/
def Covers (may : Warrant) (m m' : Machine σ κ) : Deed κ → Prop
  | .kept number task => may.adds number task.id
  | .dropped number id => may.removes number id
  | .cleared number => may.clears number
  | .ended number id => ∃ S reason, S.tracker = number ∧ S.id = id ∧ m.world.lives S = true ∧
      m'.farewell? = some (S.tracker, S.id, reason) ∧ may.stops S reason
  | .seeded key _ => may.seeds key
  | _ => True

/-- One deed is done, and it may be done. -/
def Warranted (may : Warrant) (m m' : Machine σ κ) : Prop :=
  ∃ d, m.world.Does d m'.world ∧ Covers may m m' d

theorem warranted_of_near (near : m.world.Near m'.world) : Warranted may m m' :=
  ⟨.nothing, near.does, trivial⟩

theorem Warranted.of_near {w : World κ} (near : m.world.Near w)
    (further : Warranted may (m.withWorld w) m') : Warranted may m m' := by
  obtain ⟨d, does, covers⟩ := further
  refine ⟨d, near.and_does does, ?_⟩
  cases d with
  | ended number id =>
    obtain ⟨S, reason, tracker, same, lived, farewell, stops⟩ := covers
    exact ⟨S, reason, tracker, same, (near.lives S).symm.trans lived, farewell, stops⟩
  | _ => exact covers

theorem Warranted.of_stops {stops : SessionName → StopReason → Prop}
    (further : Warranted { stops } m m')
    (implies : ∀ S reason, stops S reason → may.stops S reason) : Warranted may m m' := by
  obtain ⟨d, does, covers⟩ := further
  refine ⟨d, does, ?_⟩
  cases d with
  | ended number id =>
    obtain ⟨S, reason, tracker, same, lived, farewell, stopped⟩ := covers
    exact ⟨S, reason, tracker, same, lived, farewell, implies S reason stopped⟩
  | kept number task => exact covers.elim
  | dropped number id => exact covers.elim
  | cleared number => exact covers.elim
  | seeded key content => exact covers.elim
  | _ => trivial

/-! ### Functions of the library -/

theorem deliver_warranted (m : Machine σ κ) (n : Notice) (audience : List (Audience κ)) :
    Warranted may m (m.deliver n audience) := warranted_of_near (m.near_deliver n audience)

theorem mutate_warranted {α : Type} {number : Nat} {mutation : Mutation α} {d : Deed κ}
    (does : m.world.Does d (m.world.mutate number mutation))
    (covers : ∀ m', Covers may m m' d) (r : Reply) :
    Warranted may m (m.mutate number mutation r) := by
  rw [mutate]
  split
  · exact ⟨d, does, covers _⟩
  · exact ⟨d, does, covers _⟩

theorem stopSession_warranted (m : Machine σ κ) (number : Nat) (id : TaskId) (only : Option Serial)
    (reason : StopReason) :
    Warranted
      { stops := fun S reason' => (S.tracker = number ∧ S.id = id ∧ only.all (· = S.serial)) ∧
          reason' = reason }
      m (m.stopSession number id only reason) := by
  obtain still | ⟨serial, ⟨found, meant⟩, ended⟩ := m.stopSession_cases number id only reason
  · rw [still]
    exact warranted_of_near (.refl _)
  · have lived : m.world.lives ⟨number, id, serial⟩ = true := World.lives_iff.mpr found
    have does : m.world.Does (.ended number id) (m.world.after (.ended number id)) :=
      World.does_after _ rfl
    obtain ended | ⟨label, ended⟩ := ended
    · rw [ended]
      exact ⟨_, does, ⟨number, id, serial⟩, reason, rfl, rfl, lived, rfl, ⟨rfl, rfl, meant⟩, rfl⟩
    · rw [ended]
      exact ⟨_, does, ⟨number, id, serial⟩, reason, rfl, rfl, lived, rfl, ⟨rfl, rfl, meant⟩, rfl⟩

theorem stopEach_warranted (m : Machine σ κ) (number count : Nat) (ids : List TaskId) :
    Warranted
      { stops := fun S reason => (S.tracker = number ∧ ids.head? = some S.id) ∧
          reason = .requested }
      m (m.stopEach number count ids) := by
  match ids with
  | [] => exact warranted_of_near (.refl _)
  | id :: rest =>
    refine .of_stops ((m.push (.stopping number rest count)).stopSession_warranted number id none
      .requested) ?_
    rintro S reason ⟨⟨tracker, same, _⟩, requested⟩
    exact ⟨⟨tracker, congrArg some same.symm⟩, requested⟩

theorem startSession_warranted (m : Machine σ κ) (number : Nat) (id : TaskId) (fetcher : κ) :
    Warranted may m (m.startSession number id fetcher) := by
  obtain still | ⟨⟨_, free⟩, begun⟩ := m.startSession_cases number id fetcher
  · rw [still]
    exact warranted_of_near (.refl _)
  · rw [begun]
    exact ⟨.began number id, World.does_began free, trivial⟩

theorem resumeEach_warranted (m : Machine σ κ) (number : Nat) (factory : κ) (count : Nat)
    (offered : List Task) : Warranted may m (m.resumeEach number factory count offered) := by
  match offered with
  | [] => exact warranted_of_near (.refl _)
  | task :: rest => exact warranted_of_near (.refl _)

theorem perform_warranted (m : Machine σ κ) (request : Call κ) :
    Warranted (request.warrant m.world) m (m.perform request) := by
  cases request with
  | openTracker key cadence =>
    rw [perform]
    split
    · exact warranted_of_near (.refl _)
    · exact ⟨.opened key cadence, (World.does_after _ rfl), trivial⟩
  | add number draft =>
    refine .of_near (m.world.near_stampDraft draft) (mutate_warranted
      (d := .kept number (m.world.stampDraft draft).1) (World.does_after _ rfl) (fun _ => ?_) _)
    exact And.intro rfl (m.world.id_stampDraft draft).symm
  | update number id patch =>
    exact mutate_warranted (d := .patched number id patch) (World.does_after _ rfl)
      (fun _ => trivial) _
  | remove number id =>
    refine mutate_warranted (d := .dropped number id) (World.does_after _ rfl) (fun _ => ?_) _
    exact And.intro rfl rfl
  | clearTerminal number =>
    refine mutate_warranted (d := .cleared number) (World.does_after _ rfl) (fun _ => ?_) _
    exact Eq.refl number
  | subscribeStore number label =>
    exact warranted_of_near (m.world.near_subscribeStore number (.callback label))
  | subscribeSessions number label =>
    exact warranted_of_near (m.world.near_subscribeSessions number (.callback label))
  | release subscription => exact warranted_of_near (m.world.near_release subscription)
  | start number id fetcher => exact m.startSession_warranted number id fetcher
  | stop number id =>
    refine .of_stops (m.stopSession_warranted number id none .requested) ?_
    rintro S reason ⟨⟨tracker, same, _⟩, requested⟩
    exact ⟨⟨tracker, same⟩, requested⟩
  | stopAll number => exact m.stopEach_warranted number 0 _
  | configure number patch =>
    rw [perform]
    split
    · exact warranted_of_near (.refl _)
    · next settings _ => exact ⟨.configured number settings, (World.does_after _ rfl), trivial⟩
  | track number draft fetcher =>
    let pushed := (m.withWorld (m.world.stampDraft draft).2).push
      (.tracking number (m.world.stampDraft draft).1 fetcher)
    refine .of_near (m.world.near_stampDraft draft) (mutate_warranted (m := pushed)
      (d := .kept number (m.world.stampDraft draft).1) (World.does_after _ rfl) (fun _ => ?_) _)
    exact And.intro rfl (m.world.id_stampDraft draft).symm
  | resume number factory => exact m.resumeEach_warranted number factory 0 _
  | forget number id =>
    refine .of_stops ((m.push (.forgetting number id)).stopSession_warranted number id none
      .requested) ?_
    rintro S reason ⟨⟨tracker, same, _⟩, requested⟩
    exact ⟨⟨tracker, same⟩, requested⟩
  | openView source kind => exact warranted_of_near (m.world.near_aside _ _ _)
  | watch view label => exact warranted_of_near (m.world.near_watch view label)
  | snapshot view => exact warranted_of_near (m.world.near_snapshot view)
  | seed key content => exact ⟨.seeded key content, (World.does_after _ rfl), rfl⟩

/-- A session that goes on may end itself. -/
theorem Turn.warranted {g : Grounds κ} {S : SessionName} (turn : Turn g S m m') :
    Warranted { stops := fun T _ => T = S } m m' := by
  have stopped : ∀ {s : SessionTask κ} (f : Frame σ κ) (reason : StopReason), s.name = S →
      Warranted { stops := fun T _ => T = S } m
        ((m.push f).stopSession s.tracker s.id (some s.serial) reason) := by
    rintro s f reason rfl
    refine .of_stops ((m.push f).stopSession_warranted s.tracker s.id (some s.serial) reason) ?_
    rintro ⟨k, id, serial⟩ _ ⟨⟨rfl, rfl, meant⟩, _⟩
    have same : serial = s.serial := by simpa [eq_comm] using meant
    rw [same]
    rfl
  cases turn with
  | rests own pause => exact ⟨.paused ⟨_, pause⟩, (World.does_after _ rfl), trivial⟩
  | @writes s report hooks event own reported counted =>
    exact ⟨.patched s.tracker s.id (.ofStatus report.status), (World.does_after _ rfl), trivial⟩
  | @concludes s reason own ends => exact stopped (.session s .ending) reason own
  | @aborts s own lives breaks => exact stopped (.session s .aborting) .aborted own
  | _ => exact warranted_of_near (.refl _)

/-! ### Steps -/

theorem resume_warranted (m : Machine σ κ) (c : Consumer σ κ) (r : Reply) (f : Frame σ κ) :
    Warranted f.warrant m (m.resume c r f) := by
  cases f with
  | awaiting next => exact warranted_of_near (.refl _)
  | delivering n rest => exact m.deliver_warranted n rest
  | answering reply => exact warranted_of_near (.refl _)
  | announcing number id reason => exact warranted_of_near (.refl _)
  | stopping number rest count => exact m.stopEach_warranted number _ rest
  | spawning s => exact ⟨.paused ⟨s, .fresh⟩, (World.does_after _ rfl), trivial⟩
  | tracking number task fetcher =>
    rw [resume]
    split
    · exact warranted_of_near (.refl _)
    · exact (m.push (.answering (.task task))).startSession_warranted number task.id fetcher
  | offering number factory task rest count =>
    rw [resume]
    split
    · exact m.resumeEach_warranted number factory count rest
    · exact (m.push (.resuming number factory rest count)).startSession_warranted number task.id _
  | resuming number factory rest count => exact m.resumeEach_warranted number factory _ rest
  | forgetting number id =>
    refine mutate_warranted (d := .dropped number id) (World.does_after _ rfl) (fun _ => ?_) _
    exact And.intro rfl rfl
  | session s point => exact (m.continueSession_turn c s point).warranted

/-- What a step does it may do. -/
theorem step_warranted (m : Machine σ κ) (c : Consumer σ κ) :
    Warranted m.warrant m.below (m.step c) := by
  obtain ⟨memory, world, control, stack⟩ := m
  cases control with
  | code p =>
    cases p with
    | call request next =>
      exact Machine.perform_warranted (push ⟨memory, world, _, stack⟩ (.awaiting next)) request
    | _ => exact warranted_of_near (.refl _)
  | calling label occasion => exact warranted_of_near (.refl _)
  | telling number n => exact deliver_warranted _ n _
  | returned r =>
    cases stack with
    | nil => exact warranted_of_near (.refl _)
    | cons f rest => exact resume_warranted ⟨memory, world, .returned r, rest⟩ c r f
  | unwinding =>
    cases stack with
    | nil => exact warranted_of_near (.refl _)
    | cons f rest =>
      cases f with
      | delivering n others => exact deliver_warranted ⟨memory, world, .unwinding, rest⟩ n others
      | session s point =>
        change Warranted _ _ (unwind ⟨memory, world, .unwinding, rest⟩ (.session s point))
        rw [unwind_session]
        exact (finish_turn (g := { breaks := True }) rfl fun _ => trivial).warranted
      | _ => exact warranted_of_near (.refl _)

/-! ### Moves -/

/-- Records are added and deleted, and bytes are put into the storage, on behalf of what is going
on. -/
def Backs (m : Machine σ κ) : Deed κ → Prop
  | .kept number task => m.warrant.adds number task.id
  | .dropped number id => m.warrant.removes number id
  | .cleared number => m.warrant.clears number
  | .seeded key _ => m.warrant.seeds key
  | _ => True

private theorem Covers.backs {stops : SessionName → StopReason → Prop} {m₁ : Machine σ κ} {d : Deed κ}
    (covers : Covers { m.warrant with stops } m₁ m' d) : m.Backs d := by
  cases d with
  | ended number id => trivial
  | _ => exact covers

private theorem backs_of_turn {g : Grounds κ} {S : SessionName} {m₁ : Machine σ κ}
    (turn : Turn g S m₁ m') : ∃ d, m₁.world.Does d m'.world ∧ m.Backs d := by
  have warranted : Warranted { m.warrant with stops := fun T _ => T = S } m₁ m' :=
    turn.warranted.of_stops fun _ _ => id
  obtain ⟨d, does, covers⟩ := warranted
  exact ⟨d, does, covers.backs⟩

/-- In a move one deed is done to trackers and storage, on behalf of what is going on. -/
theorem Move.backed {c : Consumer σ κ} {given : Code σ κ → Prop} (move : Move c given m m') :
    ∃ (w w' : World κ) (d : Deed κ), w.trackers = m.world.trackers ∧ w.storage = m.world.storage ∧
      w'.trackers = m'.world.trackers ∧ w'.storage = m'.world.storage ∧ w.Does d w' ∧
      m.Backs d := by
  cases move.happens with
  | step busy =>
    obtain ⟨d, does, covers⟩ := m.step_warranted c
    exact ⟨m.world, _, d, rfl, rfl, rfl, rfl, m.world_below ▸ does, covers.backs⟩
  | wake idle listed ready =>
    obtain ⟨d, does, backs⟩ := backs_of_turn (wake_turn (m.withWorld _) _)
    exact ⟨_, _, d, by rfl, by rfl, rfl, rfl, does, backs⟩
  | @abandon before entry after idle closed listed =>
    let w := { m.world with suspended := before ++ after }
    obtain ⟨d, does, backs⟩ := backs_of_turn (abandon_turn (m := m.withWorld w) closed entry)
    exact ⟨w, _, d, rfl, rfl, rfl, rfl, does, backs⟩
  | idles idles => exact ⟨m.world, _, .nothing, rfl, rfl, by rfl, by rfl, idles.near.does, trivial⟩

/-- Records are added on behalf of a call. -/
theorem adds_of_warrant {k : Nat} {id : TaskId} (adds : m.warrant.adds k id) : m.Adds k id := by
  obtain ⟨memory, world, control, stack⟩ := m
  cases control with
  | code p =>
    cases p with
    | call request next =>
      refine ⟨request, next, rfl, ?_⟩
      cases request <;> exact adds
    | _ => exact adds.elim
  | returned r =>
    cases stack with
    | nil => exact adds.elim
    | cons f rest => cases f <;> exact adds.elim
  | unwinding =>
    cases stack with
    | nil => exact adds.elim
    | cons f rest => cases f <;> exact adds.elim
  | _ => exact adds.elim

end Machine

end TaskWatch
