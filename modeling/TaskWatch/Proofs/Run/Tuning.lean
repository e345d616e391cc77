import TaskWatch.Proofs.Run.Stir

/-!
# Who changes settings

The settings of a tracker are set when it is opened, and changed when somebody configures it.
Nothing else touches them. A tracker is opened with intervals that have been checked, and it is
configured with a patch that has been accepted. Each function of the machine has one lemma that says
so.

## Main definitions

* `World.Untuned` — all settings are the same in two worlds.
* `World.Tunes` — what happens to settings.

## Main results

* `Machine.Move.tunes` — what a move does to settings.
* `Machine.step_openTracker`, `Machine.step_configure` — what the two calls do that set settings.
-/

namespace TaskWatch

variable {σ κ : Type}

namespace World

/-- All settings are the same in two worlds. -/
def Untuned (w w' : World κ) : Prop := ∀ k, (w'.tracker k).settings = (w.tracker k).settings

/-- What happens to settings. A tracker is opened or configured because somebody asks for it. -/
inductive Tunes (asked : Option (Call κ)) (w : World κ) : World κ → Prop
  /-- They stay as they are. -/
  | keeps {w'} (same : w.Untuned w') : Tunes asked w w'
  /-- A tracker is opened with intervals that have been checked. -/
  | opened {key cadence} (call : asked = some (.openTracker key cadence))
      (checked : cadence.check = .ok ()) : Tunes asked w (w.after (.opened key cadence))
  /-- A tracker is configured with a patch that has been accepted. -/
  | configured {number patch settings} (call : asked = some (.configure number patch))
      (accepted : (w.tracker number).settings.patched patch = .ok settings) :
      Tunes asked w (w.after (.configured number settings))

variable {w w₁ w' : World κ}

theorem Untuned.refl (w : World κ) : w.Untuned w := fun _ => rfl

theorem Untuned.trans (h : w.Untuned w₁) (h' : w₁.Untuned w') : w.Untuned w' := fun k =>
  (h' k).trans (h k)

theorem Untuned.of_trackers (same : w'.trackers = w.trackers) : w.Untuned w' := fun k => by
  rw [tracker, same, tracker]

/-- A change of a tracker that leaves its settings alone. -/
theorem untuned_beside (w : World κ) (number : Nat) {f : Tracker κ → Tracker κ}
    (same : ∀ t, (f t).settings = t.settings) : w.Untuned (w.modifyTracker number f) :=
  w.proj_tracker_modifyTracker Tracker.settings same number

theorem untuned_mutate {α : Type} (w : World κ) (number : Nat) (change : Mutation α) :
    w.Untuned (w.mutate number change) := fun k => by
  rw [tracker_mutate]
  split <;> rfl

end World

namespace Machine

variable {m m' : Machine σ κ}

/-! ### Functions of the library -/

theorem mutate_untuned {α : Type} (m : Machine σ κ) (number : Nat) (change : Mutation α)
    (r : Reply) : m.world.Untuned (m.mutate number change r).world := by
  rw [mutate]
  split
  · exact m.world.untuned_mutate number change
  · exact m.world.untuned_mutate number change

theorem stopSession_untuned (m : Machine σ κ) (number : Nat) (id : TaskId) (only : Option Serial)
    (reason : StopReason) : m.world.Untuned (m.stopSession number id only reason).world := by
  have beside : m.world.Untuned (m.world.after (.ended number id)) :=
    m.world.untuned_beside number fun _ => rfl
  obtain still | ⟨serial, _, ended | ⟨label, ended⟩⟩ := m.stopSession_cases number id only reason
  · rw [still]
    exact .refl _
  · rw [ended]
    exact beside
  · rw [ended]
    exact beside

theorem stopEach_untuned (m : Machine σ κ) (number count : Nat) (ids : List TaskId) :
    m.world.Untuned (m.stopEach number count ids).world := by
  match ids with
  | [] => exact .refl _
  | id :: rest => exact (m.push (.stopping number rest count)).stopSession_untuned number id none _

theorem startSession_untuned (m : Machine σ κ) (number : Nat) (id : TaskId) (fetcher : κ) :
    m.world.Untuned (m.startSession number id fetcher).world := by
  obtain still | ⟨_, begun⟩ := m.startSession_cases number id fetcher
  · rw [still]
    exact .refl _
  · rw [begun]
    exact m.world.untuned_beside number
      (f := fun t => { t with sessions := t.sessions.insert id m.world.nextSerial }) fun _ => rfl

theorem resumeEach_untuned (m : Machine σ κ) (number : Nat) (factory : κ) (count : Nat)
    (offered : List Task) : m.world.Untuned (m.resumeEach number factory count offered).world := by
  match offered with
  | [] => exact .refl _
  | task :: rest => exact .refl _

/-- A session that goes on leaves the settings alone. -/
theorem Turn.untuned {g : Grounds κ} {S : SessionName} (turn : Turn g S m m') :
    m.world.Untuned m'.world := by
  cases turn with
  | rests own pause => exact .of_trackers rfl
  | writes own reported counted => exact m.world.untuned_mutate _ _
  | @concludes s reason own ends => exact (m.push (.session s .ending)).stopSession_untuned _ _ _ _
  | @aborts s own lives breaks => exact (m.push (.session s .aborting)).stopSession_untuned _ _ _ _
  | _ => exact .refl _

theorem resume_untuned (m : Machine σ κ) (c : Consumer σ κ) (r : Reply) (f : Frame σ κ) :
    m.world.Untuned (m.resume c r f).world := by
  cases f with
  | awaiting next => exact .refl _
  | delivering n rest => exact (m.near_deliver n rest).settings
  | answering reply => exact .refl _
  | announcing number id reason => exact .refl _
  | stopping number rest count => exact m.stopEach_untuned number _ rest
  | spawning s => exact .of_trackers rfl
  | tracking number task fetcher =>
    rw [resume]
    split
    · exact .refl _
    · exact (m.push (.answering (.task task))).startSession_untuned number task.id fetcher
  | offering number factory task rest count =>
    rw [resume]
    split
    · exact m.resumeEach_untuned number factory count rest
    · exact (m.push (.resuming number factory rest count)).startSession_untuned number task.id _
  | resuming number factory rest count => exact m.resumeEach_untuned number factory _ rest
  | forgetting number id => exact m.mutate_untuned number _ _
  | session s point => exact (m.continueSession_turn c s point).untuned

theorem unwind_untuned (m : Machine σ κ) (f : Frame σ κ) : m.world.Untuned (m.unwind f).world := by
  cases f with
  | delivering n rest => exact (m.near_deliver n rest).settings
  | session s point =>
    rw [unwind_session]
    exact (finish_turn (g := { breaks := True }) rfl fun _ => trivial).untuned
  | _ => exact .refl _

/-- Of all calls, only those that open or configure a tracker set settings. -/
theorem perform_tunes (m : Machine σ κ) (request : Call κ) :
    m.world.Tunes (some request) (m.perform request).world := by
  cases request with
  | openTracker key cadence =>
    rw [perform]
    split
    · exact .keeps (.refl _)
    · next checked => exact .opened rfl checked
  | add number draft =>
    have stamped : m.world.Untuned _ := (m.world.near_stampDraft draft).settings
    exact .keeps (stamped.trans (mutate_untuned (m.withWorld _) number _ _))
  | update number id patch => exact .keeps (m.mutate_untuned number _ _)
  | remove number id => exact .keeps (m.mutate_untuned number _ _)
  | clearTerminal number => exact .keeps (m.mutate_untuned number _ _)
  | subscribeStore number label => exact .keeps (m.world.near_subscribeStore number _).settings
  | subscribeSessions number label =>
    exact .keeps (m.world.near_subscribeSessions number _).settings
  | release subscription => exact .keeps (m.world.near_release subscription).settings
  | start number id fetcher => exact .keeps (m.startSession_untuned number id fetcher)
  | stop number id => exact .keeps (m.stopSession_untuned number id none _)
  | stopAll number => exact .keeps (m.stopEach_untuned number 0 _)
  | configure number patch =>
    rw [perform]
    split
    · exact .keeps (.refl _)
    · next accepted => exact .configured rfl accepted
  | track number draft fetcher =>
    have stamped : m.world.Untuned _ := (m.world.near_stampDraft draft).settings
    exact .keeps (stamped.trans
      (mutate_untuned ((m.withWorld _).push (.tracking number _ fetcher)) number _ _))
  | resume number factory => exact .keeps (m.resumeEach_untuned number factory 0 _)
  | forget number id =>
    exact .keeps ((m.push (.forgetting number id)).stopSession_untuned number id none _)
  | openView source kind => exact .keeps (.of_trackers rfl)
  | watch view label => exact .keeps (m.world.near_watch view label).settings
  | snapshot view => exact .keeps (m.world.near_snapshot view).settings
  | seed key content => exact .keeps (.of_trackers rfl)

/-! ### Steps and moves -/

theorem step_tunes (m : Machine σ κ) (c : Consumer σ κ) :
    m.world.Tunes m.request? (m.step c).world := by
  obtain ⟨memory, world, control, stack⟩ := m
  cases control with
  | code p =>
    cases p with
    | call request next =>
      exact Machine.perform_tunes (push ⟨memory, world, _, stack⟩ (.awaiting next)) request
    | _ => exact .keeps (.refl _)
  | calling label occasion => exact .keeps (.refl _)
  | telling number n => exact .keeps (near_deliver _ n _).settings
  | returned r =>
    cases stack with
    | nil => exact .keeps (.refl _)
    | cons f rest => exact .keeps (resume_untuned ⟨memory, world, .returned r, rest⟩ c r f)
  | unwinding =>
    cases stack with
    | nil => exact .keeps (.refl _)
    | cons f rest => exact .keeps (unwind_untuned ⟨memory, world, .unwinding, rest⟩ f)

variable {c : Consumer σ κ} {given : Code σ κ → Prop}

/-- Settings are set when a tracker is opened and changed when it is configured, by consumer code
that asks for it, wherever it runs. -/
theorem Move.tunes (move : Move c given m m') : m.world.Tunes m.request? m'.world := by
  cases move.happens with
  | step busy => exact m.step_tunes c
  | @wake before entry after idle listed ready =>
    let w := { m.world with suspended := before ++ after }
    have beside : m.world.Untuned w := .of_trackers rfl
    exact .keeps (beside.trans (wake_turn (m.withWorld w) entry).untuned)
  | @abandon before entry after idle closed listed =>
    let w := { m.world with suspended := before ++ after }
    have beside : m.world.Untuned w := .of_trackers rfl
    exact .keeps (beside.trans (abandon_turn (m := m.withWorld w) closed entry).untuned)
  | idles idles => exact .keeps idles.near.settings

/-- A call that opens a tracker is refused, and nothing happens but that the consumer is told, or
there is one more tracker. -/
theorem step_openTracker {key : String} {cadence : Cadence} {next : Option Reply → Code σ κ}
    (control : m.control = .code (.call (.openTracker key cadence) next)) (c : Consumer σ κ) :
    m.step c =
      match cadence.check with
      | .error e => (m.push (.awaiting next)).reply (.refused e)
      | .ok () =>
        ((m.push (.awaiting next)).withWorld (m.world.after (.opened key cadence))).reply
          (.number m.world.trackers.length) := by
  obtain ⟨memory, world, control', stack⟩ := m
  subst control
  rfl

/-- A call that configures a tracker is refused, and nothing happens but that the consumer is told,
or the settings of the tracker are replaced. -/
theorem step_configure {number : Nat} {patch : SettingsPatch κ} {next : Option Reply → Code σ κ}
    (control : m.control = .code (.call (.configure number patch) next)) (c : Consumer σ κ) :
    m.step c =
      match (m.tracker number).settings.patched patch with
      | .error e => (m.push (.awaiting next)).reply (.refused e)
      | .ok settings =>
        ((m.push (.awaiting next)).withWorld (m.world.after (.configured number settings))).reply
          .unit := by
  obtain ⟨memory, world, control', stack⟩ := m
  subst control
  rfl

end Machine

end TaskWatch
