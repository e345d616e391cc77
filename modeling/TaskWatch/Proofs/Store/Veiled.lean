import Mathlib.Data.List.Forall2
import TaskWatch.Proofs.Store.Durable

/-!
# Writes are invisible

Whether a write to the storage succeeds makes no difference to anybody who does not look at the
storage. Two worlds may differ in their storages, in the marks that stores keep of what has been
written, and in their wall clocks. Consumer code that looks at none of these, opens no further
tracker and says of each record when it was made cannot tell such worlds apart. So whatever it does
in the one it does in the other, step by step: it gets the same replies, the same callbacks are
called in the same order, and all collections and their versions are the same.

## Main definitions

* `World.Alike`, `Machine.Alike` — worlds and machines that are the same but for what depends on
  writes.
* `Code.IsBlind`, `Consumer.IsBlind` — code that does not look at what depends on writes.

## Main results

* `Machine.Alike.step` — machines that are alike take steps that are alike.
* `Machine.Run.alike` — beside a run of the one there is a run of the other.
* `Machine.writes_invisible` — stores opened on two storages that hold the same collection.
-/

namespace TaskWatch

variable {σ κ : Type}

/-! ### Worlds -/

/-- Two trackers are the same but for the mark of what has been written. -/
structure Tracker.Alike (t t' : Tracker κ) : Prop where
  key : t'.store.key = t.store.key
  tasks : t'.store.tasks = t.store.tasks
  version : t'.store.version = t.store.version
  listeners : t'.store.listeners = t.store.listeners
  sessions : t'.sessions = t.sessions
  settings : t'.settings = t.settings
  watchers : t'.watchers = t.watchers

/-- A change that is counted leads to the same collection and the same version, whether it can be
written or not. -/
theorem Tracker.Alike.apply {t t' : Tracker κ} (h : t.Alike t') {α : Type} (m : Mutation α)
    (storage storage' : Storage) :
    Tracker.Alike { t with store := (t.store.apply storage m).1 }
      { t' with store := (t'.store.apply storage' m).1 } := by
  have written : ∀ (s : Store (Audience κ)) (storage : Storage),
      ∃ persisted, (s.persist storage).1 = { s with persisted } := by
    intro s storage
    rw [Store.persist]
    split
    · exact ⟨_, rfl⟩
    · split <;> exact ⟨_, rfl⟩
  simp only [Store.apply]
  cases m.event with
  | none => exact ⟨h.key, rfl, h.version, h.listeners, h.sessions, h.settings, h.watchers⟩
  | some event =>
    obtain ⟨p, same⟩ := written { t.store with tasks := m.tasks, version := t.store.version + 1 } storage
    obtain ⟨p', same'⟩ :=
      written { t'.store with tasks := m.tasks, version := t'.store.version + 1 } storage'
    dsimp only [Store.commit]
    rw [same, same']
    exact ⟨h.key, rfl, congrArg (· + 1) h.version, h.listeners, h.sessions, h.settings, h.watchers⟩

namespace World

/-- Two worlds are the same but for their storages, the marks of what has been written, and the wall
clocks. -/
structure Alike (w w' : World κ) : Prop where
  count : w'.trackers.length = w.trackers.length
  trackers : ∀ k, (w.tracker k).Alike (w'.tracker k)
  suspended : w'.suspended = w.suspended
  views : w'.views = w.views
  waits : w'.waits = w.waits
  clock : w'.clock = w.clock
  nextSerial : w'.nextSerial = w.nextSerial
  hasExecutor : w'.hasExecutor = w.hasExecutor

namespace Alike

variable {w w' : World κ}

theorem isPolling (h : w.Alike w') (k : Nat) (id : TaskId) :
    (w'.tracker k).isPolling id = (w.tracker k).isPolling id := by
  rw [Tracker.isPolling, (h.trackers k).sessions, Tracker.isPolling]

theorem isLive (h : w.Alike w') (s : SessionTask κ) : w'.isLive s = w.isLive s := by
  rw [World.isLive, Tracker.isLive, (h.trackers _).sessions, World.isLive, Tracker.isLive]

theorem isReady (h : w.Alike w') (entry : Suspended κ) : w'.isReady entry = w.isReady entry := by
  rw [World.isReady, h.isLive, h.clock, World.isReady]

theorem audience (h : w.Alike w') (k : Nat) (n : Notice) : w'.audience k n = w.audience k n := by
  cases n with
  | store event => exact congrArg Registry.listeners (h.trackers k).listeners
  | session event => exact congrArg Registry.listeners (h.trackers k).watchers

theorem modifyTracker (h : w.Alike w') (number : Nat) {f g : Tracker κ → Tracker κ}
    (same : (f (w.tracker number)).Alike (g (w'.tracker number))) :
    (w.modifyTracker number f).Alike (w'.modifyTracker number g) where
  count := by
    rw [World.modifyTracker, World.modifyTracker, List.length_modify, List.length_modify, h.count]
  trackers k := by
    rw [tracker_modifyTracker, tracker_modifyTracker, h.count]
    split
    · next here => exact here.1 ▸ same
    · exact h.trackers k
  suspended := h.suspended
  views := h.views
  waits := h.waits
  clock := h.clock
  nextSerial := h.nextSerial
  hasExecutor := h.hasExecutor

theorem refl (w : World κ) : w.Alike w :=
  ⟨rfl, fun _ => ⟨rfl, rfl, rfl, rfl, rfl, rfl, rfl⟩, rfl, rfl, rfl, rfl, rfl, rfl⟩

/-- Storages and wall clocks do not matter. -/
theorem aside (h : w.Alike w') (storage storage' : Storage) (wallClock wallClock' : Nat) :
    Alike { w with storage, wallClock } { w' with storage := storage', wallClock := wallClock' } :=
  ⟨h.count, h.trackers, h.suspended, h.views, h.waits, h.clock, h.nextSerial, h.hasExecutor⟩

theorem mutate {α : Type} (h : w.Alike w') (number : Nat) (m : Mutation α) :
    (w.mutate number m).Alike (w'.mutate number m) := by
  have changed := h.modifyTracker number (f := fun t =>
    { t with store := ((w.tracker number).store.apply w.storage m).1 }) (g := fun t =>
    { t with store := ((w'.tracker number).store.apply w'.storage m).1 })
    ((h.trackers number).apply m w.storage w'.storage)
  exact changed.aside _ _ _ _

theorem withSuspended (h : w.Alike w') (suspended : List (Suspended κ)) :
    Alike { w with suspended } { w' with suspended } :=
  ⟨h.count, h.trackers, rfl, h.views, h.waits, h.clock, h.nextSerial, h.hasExecutor⟩

theorem withViews (h : w.Alike w') (views : List View) : Alike { w with views } { w' with views } :=
  ⟨h.count, h.trackers, h.suspended, rfl, h.waits, h.clock, h.nextSerial, h.hasExecutor⟩

theorem withWaits (h : w.Alike w') (waits : List Wait) : Alike { w with waits } { w' with waits } :=
  ⟨h.count, h.trackers, h.suspended, h.views, rfl, h.clock, h.nextSerial, h.hasExecutor⟩

theorem withClock (h : w.Alike w') (clock : Nat) : Alike { w with clock } { w' with clock } :=
  ⟨h.count, h.trackers, h.suspended, h.views, h.waits, rfl, h.nextSerial, h.hasExecutor⟩

theorem withNextSerial (h : w.Alike w') (nextSerial : Serial) :
    Alike { w with nextSerial } { w' with nextSerial } :=
  ⟨h.count, h.trackers, h.suspended, h.views, h.waits, h.clock, rfl, h.hasExecutor⟩

theorem subscribeStore (h : w.Alike w') (number : Nat) (a : Audience κ) :
    (w'.subscribeStore number a).1 = (w.subscribeStore number a).1 ∧
      (w.subscribeStore number a).2.Alike (w'.subscribeStore number a).2 := by
  have t := h.trackers number
  simp only [World.subscribeStore, t.listeners, Registry.subscribe]
  exact ⟨trivial, h.modifyTracker number
    ⟨t.key, t.tasks, t.version, rfl, t.sessions, t.settings, t.watchers⟩⟩

theorem subscribeSessions (h : w.Alike w') (number : Nat) (a : Audience κ) :
    (w'.subscribeSessions number a).1 = (w.subscribeSessions number a).1 ∧
      (w.subscribeSessions number a).2.Alike (w'.subscribeSessions number a).2 := by
  have t := h.trackers number
  simp only [World.subscribeSessions, t.watchers, Registry.subscribe]
  exact ⟨trivial, h.modifyTracker number
    ⟨t.key, t.tasks, t.version, t.listeners, t.sessions, t.settings, rfl⟩⟩

theorem release (h : w.Alike w') (subscription : Subscription) :
    (w.release subscription).Alike (w'.release subscription) := by
  cases subscription with
  | inert => exact h
  | store number listener =>
    have t := h.trackers number
    exact h.modifyTracker number ⟨t.key, t.tasks, t.version,
      congrArg (·.unsubscribe listener) t.listeners, t.sessions, t.settings, t.watchers⟩
  | sessions number listener =>
    have t := h.trackers number
    exact h.modifyTracker number ⟨t.key, t.tasks, t.version, t.listeners, t.sessions, t.settings,
      congrArg (·.unsubscribe listener) t.watchers⟩

theorem watch (h : w.Alike w') (view : Nat) (label : κ) :
    (w'.watch view label).1 = (w.watch view label).1 ∧
      (w.watch view label).2.Alike (w'.watch view label).2 := by
  simp only [World.watch, h.views]
  split
  · exact ⟨rfl, h⟩
  · split
    · exact h.subscribeStore _ _
    · exact h.subscribeSessions _ _

theorem snapshot (h : w.Alike w') (view : Nat) :
    (w'.snapshot view).1 = (w.snapshot view).1 ∧
      (w.snapshot view).2.Alike (w'.snapshot view).2 := by
  have read : ∀ (kind : ViewKind) (k : Nat), kind.read (w'.tracker k) = kind.read (w.tracker k) := by
    intro kind k
    cases kind <;>
      simp only [ViewKind.read, Tracker.activeIds, h.isPolling, (h.trackers k).tasks,
        (h.trackers k).sessions]
  have refresh : ∀ (v : View) (k : Nat),
      v.refresh (some (w'.tracker k)) = v.refresh (some (w.tracker k)) := by
    intro v k
    simp only [View.refresh, read, (h.trackers k).version]
  simp only [World.snapshot, h.views]
  cases source : (w.views.getD view default).source with
  | none => exact ⟨rfl, h.withViews _⟩
  | some k =>
    simp only [Option.map_some, refresh]
    exact ⟨trivial, h.withViews _⟩

theorem tellWait (h : w.Alike w') (number : Nat) (n : Notice) :
    (w.tellWait number n).Alike (w'.tellWait number n) := by
  rw [World.tellWait, World.tellWait, h.waits]
  exact h.withWaits _

theorem beginWait (h : w.Alike w') {number wait : Nat} {id : TaskId} {world : World κ}
    (begun : w.beginWait number id = some (wait, world)) :
    ∃ world', w'.beginWait number id = some (wait, world') ∧ world.Alike world' := by
  have t := h.trackers number
  rw [World.beginWait] at begun
  split at begun
  · next polling =>
    obtain ⟨rfl, rfl⟩ := Prod.mk.inj (Option.some.inj begun)
    have subscribed := h.modifyTracker number
      (f := fun t => { t with watchers := ((w.tracker number).watchers.subscribe
        (.wait w.waits.length)).2 })
      (g := fun t => { t with watchers := ((w.tracker number).watchers.subscribe
        (.wait w.waits.length)).2 })
      ⟨t.key, t.tasks, t.version, t.listeners, t.sessions, t.settings, rfl⟩
    rw [World.beginWait, h.isPolling, if_pos polling, t.watchers, h.waits]
    refine ⟨_, rfl, ?_⟩
    have begins := subscribed.withWaits
      (w.waits ++ [⟨number, id, (w.tracker number).watchers.next, none⟩])
    simpa only [World.modifyTracker, Registry.subscribe, h.waits] using begins
  · simp at begun

theorem endWait (h : w.Alike w') (wait : Nat) : (w.endWait wait).Alike (w'.endWait wait) := by
  rw [World.endWait, World.endWait, h.waits]
  split
  · exact h
  · exact h.release _

end Alike

end World

/-! ### Code that does not look -/

/-- A call neither opens a tracker nor makes a record without a time. -/
def Call.IsBlind : Call κ → Prop
  | .openTracker _ _ => False
  | .add _ draft | .track _ draft _ => draft.createdAt.isSome
  | _ => True

/-- Code makes blind calls only, and what it does on a look at the world does not depend on writes. -/
def Code.IsBlind : Code σ κ → Prop
  | .done | .panic => True
  | .look next =>
    (∀ scene scene' memory, scene.world.Alike scene'.world → scene'.turnOf = scene.turnOf →
      next scene' memory = next scene memory) ∧ ∀ scene memory, IsBlind (next scene memory)
  | .note _ next => IsBlind next
  | .call request next => request.IsBlind ∧ ∀ reply, IsBlind (next reply)

/-- The callbacks, fetchers and factories of the consumer do not look at what depends on writes. -/
def Consumer.IsBlind (c : Consumer σ κ) : Prop :=
  ∀ label occasion, Code.IsBlind (c.react label occasion)

/-- What is being done does not depend on writes. -/
def Control.IsBlind : Control σ κ → Prop
  | .code p => Code.IsBlind p
  | _ => True

/-- Nor does what waits for it. -/
def Frame.IsBlind : Frame σ κ → Prop
  | .awaiting next => ∀ reply, Code.IsBlind (next reply)
  | _ => True

namespace Machine

/-- Two machines are the same but for what depends on writes, and do not look at that. -/
structure Alike (m m' : Machine σ κ) : Prop where
  memory : m'.memory = m.memory
  control : m'.control = m.control
  stack : m'.stack = m.stack
  world : m.world.Alike m'.world
  /-- What is being done does not depend on writes. -/
  blind : m.control.IsBlind
  /-- Nor does what waits for it. -/
  frames : ∀ f ∈ m.stack, f.IsBlind

namespace Alike

variable {c : Consumer σ κ} {m m' : Machine σ κ}

theorem reply (h : m.Alike m') (r : Reply) : (m.reply r).Alike (m'.reply r) :=
  ⟨h.memory, rfl, h.stack, h.world, trivial, h.frames⟩

theorem code (h : m.Alike m') {p : Code σ κ} (blind : p.IsBlind) : (m.code p).Alike (m'.code p) :=
  ⟨h.memory, rfl, h.stack, h.world, blind, h.frames⟩

theorem invoke (h : m.Alike m') (label : κ) (occasion : Occasion) :
    (m.invoke label occasion).Alike (m'.invoke label occasion) :=
  ⟨h.memory, rfl, h.stack, h.world, trivial, h.frames⟩

theorem tell (h : m.Alike m') (number : Nat) (n : Notice) :
    (m.tell number n).Alike (m'.tell number n) :=
  ⟨h.memory, rfl, h.stack, h.world, trivial, h.frames⟩

theorem unwinding (h : m.Alike m') :
    Alike { m with control := .unwinding } { m' with control := .unwinding } :=
  ⟨h.memory, rfl, h.stack, h.world, trivial, h.frames⟩

theorem push (h : m.Alike m') (f : Frame σ κ) (blind : f.IsBlind) :
    (m.push f).Alike (m'.push f) :=
  ⟨h.memory, h.control, congrArg (f :: ·) h.stack, h.world, h.blind,
    List.forall_mem_cons.mpr ⟨blind, h.frames⟩⟩

theorem withWorld (h : m.Alike m') {w w' : World κ} (world : w.Alike w') :
    (m.withWorld w).Alike (m'.withWorld w') :=
  ⟨h.memory, h.control, h.stack, world, h.blind, h.frames⟩

theorem isIdle (h : m.Alike m') : m'.isIdle = m.isIdle := by
  rw [Machine.isIdle, h.stack, h.control, Machine.isIdle]

theorem isQuiet (h : m.Alike m') : m'.isQuiet = m.isQuiet := by
  simp only [Machine.isQuiet, h.isIdle, h.world.suspended, h.world.isReady]

theorem turnOf (h : m.Alike m') : m'.turnOf = m.turnOf := by
  rw [Machine.turnOf, h.stack, Machine.turnOf]

theorem tracker (h : m.Alike m') (k : Nat) : (m.tracker k).Alike (m'.tracker k) := h.world.trackers k

/-! ### Functions of machines -/

theorem deliver (h : m.Alike m') (n : Notice) (audience : List (Audience κ)) :
    (m.deliver n audience).Alike (m'.deliver n audience) := by
  match audience with
  | [] => exact h.reply _
  | .callback label :: rest => exact (h.push (.delivering n rest) trivial).invoke _ _
  | .view about label :: rest =>
    simp only [Machine.deliver]
    split
    · exact (h.push (.delivering n rest) trivial).invoke _ _
    · exact (h.push (.delivering n rest) trivial).reply _
  | .wait number :: rest =>
    exact ((h.push (.delivering n rest) trivial).withWorld (h.world.tellWait number n)).reply _

theorem mutate {α : Type} (h : m.Alike m') (number : Nat) (mutation : Mutation α) (r : Reply) :
    (m.mutate number mutation r).Alike (m'.mutate number mutation r) := by
  have changed := h.withWorld (h.world.mutate number mutation)
  simp only [Machine.mutate]
  split
  · exact changed.reply _
  · exact (changed.push (.answering r) trivial).tell _ _

theorem announce (h : m.Alike m') (number : Nat) (id : TaskId) (reason : StopReason) :
    (m.announce number id reason).Alike (m'.announce number id reason) :=
  (h.push (.answering (.flag true)) trivial).tell _ _

theorem stopSession (h : m.Alike m') (number : Nat) (id : TaskId) (only : Option Serial)
    (reason : StopReason) :
    (m.stopSession number id only reason).Alike (m'.stopSession number id only reason) := by
  have t := h.tracker number
  have erased := h.withWorld (h.world.modifyTracker number
    (f := fun t => { t with sessions := t.sessions.erase id })
    (g := fun t => { t with sessions := t.sessions.erase id })
    ⟨t.key, t.tasks, t.version, t.listeners, congrArg (·.erase id) t.sessions, t.settings, t.watchers⟩)
  simp only [Machine.stopSession, t.sessions, (erased.tracker number).settings]
  split
  · exact h.reply _
  · split
    · split
      · exact erased.announce _ _ _
      · exact (erased.push (.announcing number id reason) trivial).invoke _ _
    · exact h.reply _

theorem stopEach (h : m.Alike m') (number count : Nat) (ids : List TaskId) :
    (m.stopEach number count ids).Alike (m'.stopEach number count ids) := by
  cases ids with
  | nil => exact h.reply _
  | cons id rest => exact (h.push (.stopping number rest count) trivial).stopSession _ _ _ _

theorem startSession (h : m.Alike m') (number : Nat) (id : TaskId) (fetcher : κ) :
    (m.startSession number id fetcher).Alike (m'.startSession number id fetcher) := by
  have t := h.tracker number
  simp only [Machine.startSession, h.world.hasExecutor, h.world.nextSerial]
  rw [show (m'.tracker number).isPolling id = (m.tracker number).isPolling id from
    h.world.isPolling number id]
  split
  · exact h.reply _
  · have inserted := h.world.modifyTracker number
      (f := fun t => { t with sessions := t.sessions.insert id m.world.nextSerial })
      (g := fun t => { t with sessions := t.sessions.insert id m.world.nextSerial })
      ⟨t.key, t.tasks, t.version, t.listeners, congrArg (·.insert id m.world.nextSerial) t.sessions,
        t.settings, t.watchers⟩
    exact ((h.withWorld (inserted.withNextSerial _)).push (.spawning _) trivial).tell _ _

theorem resumeEach (h : m.Alike m') (number : Nat) (factory : κ) (count : Nat) (tasks : List Task) :
    (m.resumeEach number factory count tasks).Alike (m'.resumeEach number factory count tasks) := by
  cases tasks with
  | nil => exact h.reply _
  | cons task rest => exact (h.push (.offering number factory task rest count) trivial).invoke _ _

/-- A draft that says when it was made is not stamped. -/
private theorem stampDraft (w : World κ) {draft : Draft} (dated : draft.createdAt.isSome) :
    w.stampDraft draft = (draft.stamped .epoch, w) := by
  obtain ⟨time, given⟩ := Option.isSome_iff_exists.mp dated
  rw [World.stampDraft, given]

theorem perform (h : m.Alike m') {request : Call κ} (blind : request.IsBlind) :
    (m.perform request).Alike (m'.perform request) := by
  cases request with
  | openTracker key cadence => exact blind.elim
  | add number draft =>
    simp only [Machine.perform, stampDraft _ blind, (h.world.trackers number).tasks]
    exact (h.withWorld h.world).mutate _ _ _
  | update number id patch =>
    simp only [Machine.perform, (h.tracker number).tasks]
    exact h.mutate _ _ _
  | remove number id =>
    simp only [Machine.perform, (h.tracker number).tasks]
    exact h.mutate _ _ _
  | clearTerminal number =>
    simp only [Machine.perform, (h.tracker number).tasks]
    exact h.mutate _ _ _
  | subscribeStore number label =>
    obtain ⟨handle, world⟩ := h.world.subscribeStore number (.callback label)
    simp only [Machine.perform, handle]
    exact (h.withWorld world).reply _
  | subscribeSessions number label =>
    obtain ⟨handle, world⟩ := h.world.subscribeSessions number (.callback label)
    simp only [Machine.perform, handle]
    exact (h.withWorld world).reply _
  | release subscription => exact (h.withWorld (h.world.release subscription)).reply _
  | start number id fetcher => exact h.startSession _ _ _
  | stop number id => exact h.stopSession _ _ _ _
  | stopAll number =>
    simp only [Machine.perform, Tracker.activeIds, (h.tracker number).sessions]
    exact h.stopEach _ _ _
  | configure number patch =>
    have t := h.tracker number
    simp only [Machine.perform, t.settings]
    split
    · exact h.reply _
    · exact (h.withWorld (h.world.modifyTracker number
        ⟨t.key, t.tasks, t.version, t.listeners, t.sessions, rfl, t.watchers⟩)).reply _
  | track number draft fetcher =>
    simp only [Machine.perform, stampDraft _ blind, (h.world.trackers number).tasks]
    exact ((h.withWorld h.world).push (.tracking number _ fetcher) trivial).mutate _ _ _
  | resume number factory =>
    simp only [Machine.perform, (h.tracker number).tasks]
    exact h.resumeEach _ _ _ _
  | forget number id => exact (h.push (.forgetting number id) trivial).stopSession _ _ _ _
  | openView source kind =>
    simp only [Machine.perform, h.world.views]
    exact (h.withWorld (h.world.withViews _)).reply _
  | watch view label =>
    obtain ⟨handle, world⟩ := h.world.watch view label
    simp only [Machine.perform, handle]
    exact (h.withWorld world).reply _
  | snapshot view =>
    obtain ⟨shown, world⟩ := h.world.snapshot view
    simp only [Machine.perform, shown]
    exact (h.withWorld world).reply _
  | seed key content => exact (h.withWorld (h.world.aside _ _ _ _)).reply _

/-! ### Turns of sessions -/

theorem suspend (h : m.Alike m') (s : SessionTask κ) (pause : Pause) :
    (m.suspend s pause).Alike (m'.suspend s pause) := by
  simp only [Machine.suspend, h.world.suspended]
  exact (h.withWorld (h.world.withSuspended _)).reply _

theorem request (h : m.Alike m') (s : SessionTask κ) : m'.request s = m.request s := by
  rw [Machine.request, h.world.isLive, Machine.request]

theorem finish (h : m.Alike m') (s : SessionTask κ) : (m.finish s).Alike (m'.finish s) := by
  rw [Machine.finish, Machine.finish, h.world.isLive]
  split
  · exact (h.push (.session s .aborting) trivial).stopSession _ _ _ _
  · exact h.reply _

theorem fetch (h : m.Alike m') (s : SessionTask κ) (turn : Nat) :
    (m.fetch s turn).Alike (m'.fetch s turn) := by
  rw [Machine.fetch, Machine.fetch, h.request]
  exact (h.push (.session s (.fetching turn)) trivial).invoke _ _

theorem nextRequest (h : m.Alike m') (s : SessionTask κ) :
    (m.nextRequest s).Alike (m'.nextRequest s) := by
  rw [Machine.nextRequest, Machine.nextRequest, h.world.isLive]
  split
  · exact h.fetch _ _
  · exact h.finish s

theorem sleep (h : m.Alike m') (s : SessionTask κ) (millis : Nat) :
    (m.sleep s millis).Alike (m'.sleep s millis) := by
  rw [Machine.sleep, Machine.sleep, h.world.clock]
  exact h.suspend _ _

theorem conclude (h : m.Alike m') (s : SessionTask κ) (reason : StopReason) :
    (m.conclude s reason).Alike (m'.conclude s reason) :=
  (h.push (.session s .ending) trivial).stopSession _ _ _ _

theorem afterStatus (h : m.Alike m') (s : SessionTask κ) (report : Report) (hooks : Hooks κ) :
    (m.afterStatus s report hooks).Alike (m'.afterStatus s report hooks) := by
  simp only [Machine.afterStatus, h.world.isLive, (h.tracker s.tracker).settings]
  split
  · split
    · split
      · exact h.conclude _ _
      · exact (h.push (.session s (.concluded .completed)) trivial).invoke _ _
    · split
      · exact h.conclude _ _
      · exact (h.push (.session s (.concluded .failed)) trivial).invoke _ _
    · exact h.sleep _ _
  · exact h.finish s

theorem changeStatus (h : m.Alike m') (s : SessionTask κ) (report : Report) (hooks : Hooks κ) :
    (m.changeStatus s report hooks).Alike (m'.changeStatus s report hooks) := by
  simp only [Machine.changeStatus]
  split
  · exact h.afterStatus _ _ _
  · exact (h.push (.session _ (.changed report hooks)) trivial).invoke _ _

theorem recordStatus (h : m.Alike m') (s : SessionTask κ) (report : Report) (hooks : Hooks κ) :
    (m.recordStatus s report hooks).Alike (m'.recordStatus s report hooks) := by
  simp only [Machine.recordStatus, (h.tracker s.tracker).tasks]
  split
  · have written := h.withWorld (h.world.mutate s.tracker
      ((m.tracker s.tracker).store.tasks.update s.id (.ofStatus report.status)))
    exact (written.push (.session s (.recorded report hooks)) trivial).tell _ _
  · exact h.afterStatus _ _ _
  · exact h.changeStatus _ _ _

theorem receive (h : m.Alike m') (s : SessionTask κ) (result : Except FetchError Report) :
    (m.receive s result).Alike (m'.receive s result) := by
  simp only [Machine.receive, h.world.isLive, (h.tracker s.tracker).settings]
  split
  · split
    · split
      · exact h.afterStatus _ _ _
      · exact h.recordStatus _ _ _
    · split
      · exact (h.push (.session s .failed) trivial).invoke _ _
      · exact h.sleep _ _
  · exact h.finish s

theorem continueSession (h : m.Alike m') (s : SessionTask κ) (point : Point κ) :
    (m.continueSession c s point).Alike (m'.continueSession c s point) := by
  cases point with
  | fetching turn =>
    simp only [Machine.continueSession, h.request, h.memory, h.world.clock]
    split
    · exact h.receive _ _
    · exact h.suspend _ _
    · exact h.suspend _ _
    · exact h.suspend _ _
  | recorded report hooks => exact h.changeStatus _ _ _
  | changed report hooks => exact h.afterStatus _ _ _
  | concluded reason => exact h.conclude _ _
  | failed =>
    simp only [Machine.continueSession, (h.tracker s.tracker).settings]
    exact h.sleep _ _
  | ending => exact h.finish s
  | dropping => exact h.finish s
  | aborting => exact h.reply _

theorem dropFetch (h : m.Alike m') (s : SessionTask κ) : (m.dropFetch s).Alike (m'.dropFetch s) := by
  rw [Machine.dropFetch, Machine.dropFetch, h.request]
  exact (h.push (.session s .dropping) trivial).invoke _ _

theorem wake (h : m.Alike m') (entry : Suspended κ) : (m.wake entry).Alike (m'.wake entry) := by
  simp only [Machine.wake, h.world.isLive, (h.tracker entry.task.tracker).tasks]
  split
  · exact h.nextRequest _
  · split
    · exact h.fetch _ _
    · exact h.dropFetch _
  · exact h.nextRequest _

theorem abandon (h : m.Alike m') (entry : Suspended κ) : (m.abandon entry).Alike (m'.abandon entry) := by
  rw [Machine.abandon, Machine.abandon]
  split
  · exact h.reply _
  · exact h.dropFetch _
  · exact h.finish _

/-! ### Steps -/

theorem resume (h : m.Alike m') (r : Reply) {f : Frame σ κ} (blind : f.IsBlind) :
    (m.resume c r f).Alike (m'.resume c r f) := by
  cases f with
  | awaiting next => exact h.code (blind _)
  | delivering n rest => exact h.deliver _ _
  | answering r => exact h.reply _
  | announcing number id reason => exact h.announce _ _ _
  | stopping number rest count => exact h.stopEach _ _ _
  | spawning s => exact (h.suspend s .fresh).reply _
  | tracking number task fetcher =>
    simp only [Machine.resume]
    split
    · exact h.reply _
    · exact (h.push (.answering (.task task)) trivial).startSession _ _ _
  | offering number factory task rest count =>
    simp only [Machine.resume, h.memory]
    split
    · exact h.resumeEach _ _ _ _
    · exact (h.push (.resuming number factory rest count) trivial).startSession _ _ _
  | resuming number factory rest count => exact h.resumeEach _ _ _ _
  | forgetting number id =>
    simp only [Machine.resume, (h.tracker number).tasks]
    exact h.mutate _ _ _
  | session s point => exact h.continueSession _ _

theorem unwind (h : m.Alike m') {f : Frame σ κ} (blind : f.IsBlind) :
    (m.unwind f).Alike (m'.unwind f) := by
  cases f with
  | awaiting next => exact h.code (blind _)
  | delivering n rest => exact h.deliver _ _
  | session s point => cases point <;> exact h.finish s
  | _ => exact h.unwinding

theorem stepCode (h : m.Alike m') {p : Code σ κ} (blind : p.IsBlind) :
    (m.stepCode p).Alike (m'.stepCode p) := by
  cases p with
  | done => exact h.reply _
  | panic => exact h.unwinding
  | look next =>
    have same := blind.1 ⟨m.world, m.turnOf⟩ ⟨m'.world, m'.turnOf⟩ m.memory h.world h.turnOf
    simp only [Machine.stepCode, h.memory, same]
    exact h.code (blind.2 _ _)
  | note change next =>
    exact ⟨congrArg change h.memory, rfl, h.stack, h.world, blind, h.frames⟩
  | call request next => exact (h.push (.awaiting next) blind.2).perform blind.1

/-- Machines that are alike take steps that are alike. -/
theorem step (h : m.Alike m') (blind : c.IsBlind) : (m.step c).Alike (m'.step c) := by
  obtain ⟨_, w, _, _⟩ := m
  obtain ⟨μ, w', control₀, stack₀⟩ := m'
  obtain ⟨rfl, rfl, rfl, alike, looks, frames⟩ := h
  have whole : Alike (⟨μ, w, control₀, stack₀⟩ : Machine σ κ) ⟨μ, w', control₀, stack₀⟩ :=
    ⟨rfl, rfl, rfl, alike, looks, frames⟩
  have popped : ∀ f rest, stack₀ = f :: rest → f.IsBlind ∧
      Alike (⟨μ, w, control₀, rest⟩ : Machine σ κ) ⟨μ, w', control₀, rest⟩ := by
    rintro f rest rfl
    obtain ⟨first, others⟩ := List.forall_mem_cons.mp frames
    exact ⟨first, rfl, rfl, rfl, alike, looks, others⟩
  cases control₀ with
  | code p => exact whole.stepCode looks
  | calling label occasion => exact whole.code (blind label occasion)
  | telling number n =>
    simp only [Machine.step, alike.audience]
    exact whole.deliver _ _
  | returned r =>
    cases stack₀ with
    | nil => exact whole
    | cons f rest => exact (popped f rest rfl).2.resume r (popped f rest rfl).1
  | unwinding =>
    cases stack₀ with
    | nil => exact whole
    | cons f rest => exact (popped f rest rfl).2.unwind (popped f rest rfl).1

end Alike

/-! ### Runs -/

variable {c : Consumer σ κ} {m m' m₁ m₁' : Machine σ κ}

/-- Whatever move one machine makes, another one that is alike can make, too. -/
theorem Alike.move (h : m.Alike m') (blind : c.IsBlind) (move : Move c Code.IsBlind m m₁) :
    ∃ m₁', Move c Code.IsBlind m' m₁' ∧ m₁.Alike m₁' := by
  cases move with
  | step busy => exact ⟨_, .step (h.isIdle.trans busy), h.step blind⟩
  | code idle allowed => exact ⟨_, .code (h.isIdle.trans idle) allowed, h.code allowed⟩
  | remember idle memory =>
    exact ⟨_, .remember (h.isIdle.trans idle) memory,
      rfl, h.control, h.stack, h.world, h.blind, h.frames⟩
  | wake idle listed ready =>
    refine ⟨_, .wake (h.isIdle.trans idle) (h.world.suspended.trans listed)
      ((h.world.isReady _).trans ready), ?_⟩
    exact (h.withWorld (h.world.withSuspended _)).wake _
  | tick quiet later due =>
    refine ⟨_, .tick (h.isQuiet.trans quiet) (h.world.clock ▸ later) (h.world.suspended ▸ due), ?_⟩
    exact h.withWorld (h.world.withClock _)
  | await idle begun =>
    obtain ⟨world', begun', alike⟩ := h.world.beginWait begun
    exact ⟨_, .await (h.isIdle.trans idle) begun', h.withWorld alike⟩
  | endWait idle wait =>
    exact ⟨_, .endWait (h.isIdle.trans idle) wait, h.withWorld (h.world.endWait wait)⟩
  | close idle same =>
    refine ⟨_, .close (h.isIdle.trans idle) (h.world.suspended ▸ same), h.withWorld ?_⟩
    obtain ⟨count, trackers, -, views, waits, clock, nextSerial, -⟩ := h.world
    exact ⟨count, trackers, rfl, views, waits, clock, nextSerial, rfl⟩
  | abandon idle closed listed =>
    refine ⟨_, .abandon (h.isIdle.trans idle) (h.world.hasExecutor.trans closed)
      (h.world.suspended.trans listed), ?_⟩
    exact (h.withWorld (h.world.withSuspended _)).abandon _

/-- Beside a run of one machine there is a run of another one that is alike. -/
theorem Run.alike {states : List (Machine σ κ)} (run : Run c Code.IsBlind m states m₁)
    (h : m.Alike m') (blind : c.IsBlind) :
    ∃ states' m₁', Run c Code.IsBlind m' states' m₁' ∧ m₁.Alike m₁' ∧
      List.Forall₂ Alike states states' := by
  induction run with
  | start => exact ⟨[], m', .start, h, .nil⟩
  | move run next ih =>
    obtain ⟨states', m₁', run', alike, all⟩ := ih
    obtain ⟨m₂', next', alike'⟩ := alike.move blind next
    exact ⟨_, m₂', run'.move next', alike', List.rel_append all (.cons alike' .nil)⟩

/-- A tracker has been opened on a storage, and nothing else has happened. -/
def opened (memory : σ) (storage : Storage) (key : String) (cadence : Cadence) (wallClock : Nat)
    (hasExecutor : Bool) : Machine σ κ :=
  idle memory { storage, trackers := [.ofStorage storage key cadence], wallClock, hasExecutor }

/-- Trackers that have been opened on storages with the same collection are alike. -/
theorem opened_alike {storage storage' : Storage} {key : String}
    (same : Collection.hydrate storage' key = Collection.hydrate storage key) (memory : σ)
    (cadence : Cadence) (wallClock wallClock' : Nat) (hasExecutor : Bool) :
    Alike (opened memory storage key cadence wallClock hasExecutor : Machine σ κ)
      (opened memory storage' key cadence wallClock' hasExecutor) := by
  have tracker : (Tracker.ofStorage storage' key cadence : Tracker κ) =
      .ofStorage storage key cadence := by
    rw [Tracker.ofStorage, Tracker.ofStorage, Store.ofStorage, Store.ofStorage, same]
  have world := World.Alike.refl
    ({ storage, trackers := [.ofStorage storage key cadence], wallClock, hasExecutor } : World κ)
  rw [opened, opened, tracker]
  exact ⟨rfl, rfl, rfl, world.aside storage storage' wallClock wallClock', trivial,
    fun _ mem => absurd mem List.not_mem_nil⟩

/-- Two trackers are opened on storages that hold the same collection. Whatever the consumer and its
listeners then do with the one they do with the other, and whichever writes succeed there and here:
all replies, callbacks and events, all collections and their versions are the same, step by step. The
consumer does not look at the storages and says of each record when it was made. -/
theorem writes_invisible (blind : c.IsBlind) {storage storage' : Storage} {key : String}
    (same : Collection.hydrate storage' key = Collection.hydrate storage key) (memory : σ)
    (cadence : Cadence) (wallClock wallClock' : Nat) (hasExecutor : Bool)
    {states : List (Machine σ κ)}
    (run : Run c Code.IsBlind (opened memory storage key cadence wallClock hasExecutor) states m) :
    ∃ states' m',
      Run c Code.IsBlind (opened memory storage' key cadence wallClock' hasExecutor) states' m' ∧
        m.Alike m' ∧ List.Forall₂ Alike states states' :=
  run.alike (opened_alike same memory cadence wallClock wallClock' hasExecutor) blind

/-- Two records are about to be added to a store whose listener deletes them as soon as it is told. -/
def tidied (storage : Storage) : Machine Unit Nat :=
  (opened () storage "tasks" .default 0 true).code <|
    .call (.subscribeStore 0 7) fun _ =>
    .call (.add 0 { id := "a", kind := .analysis, createdAt := some .epoch }) fun _ =>
    .call (.add 0 { id := "b", kind := .analysis, createdAt := some .epoch }) fun _ => .done

/-- One storage refuses the second of four writes, the other one all of them. -/
theorem writes_invisible_refused :
    (stepTimes sweeper 31 (tidied hesitant)).isIdle = true ∧
      (stepTimes sweeper 31 (tidied hesitant)).world.storage.text? "tasks" ≠ none ∧
      ∃ states' m', Run sweeper Code.IsBlind (opened () .absent "tasks" .default 5 true) states' m' ∧
        (stepTimes sweeper 31 (tidied hesitant)).Alike m' ∧
        List.Forall₂ Alike (tidied hesitant :: trail sweeper 31 (tidied hesitant)) states' := by
  have blind : Consumer.IsBlind sweeper := by
    intro label occasion
    rw [sweeper]
    dsimp only
    split
    · exact ⟨trivial, fun _ => trivial⟩
    · trivial
  have allowed : Code.IsBlind (σ := Unit) (κ := Nat) <|
      .call (.subscribeStore 0 7) fun _ =>
      .call (.add 0 { id := "a", kind := .analysis, createdAt := some .epoch }) fun _ =>
      .call (.add 0 { id := "b", kind := .analysis, createdAt := some .epoch }) fun _ => .done :=
    ⟨trivial, fun _ => ⟨rfl, fun _ => ⟨rfl, fun _ => trivial⟩⟩⟩
  have same : Collection.hydrate .absent "tasks" = Collection.hydrate hesitant "tasks" := rfl
  have run : Run sweeper Code.IsBlind (opened () hesitant "tasks" .default 0 true)
      ([tidied hesitant] ++ trail sweeper 31 (tidied hesitant))
      (stepTimes sweeper 31 (tidied hesitant)) :=
    (Run.start.move (.code rfl allowed)).append (run_steps (by decide +kernel))
  exact ⟨by decide +kernel, by decide +kernel,
    writes_invisible blind same () .default 0 5 true run⟩

end Machine

end TaskWatch
