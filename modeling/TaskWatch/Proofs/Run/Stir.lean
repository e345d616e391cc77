import TaskWatch.Proofs.Store.Change

/-!
# What stores and views notice

Of all that a move does, stores and views notice one thing at most: a tracker or a view is opened, a
view is read, somebody else writes to the storage, or a collection is changed. Besides, listeners
may come and go. When a collection is changed and there is something to report, the listeners are about
to be told, and at no other time are they.

Listeners are called by deliveries alone. A move goes on with a delivery, or it leaves alone those
that are under way and calls nobody to whom something is reported. Each function of the machine has
one lemma that says so.

## Main definitions

* `World.Calm`, `World.Stir` — what stores and views notice.
* `Machine.report?` — what listeners of a store are about to be told.
* `Machine.serving?` — the delivery with which a step goes on.
* `Machine.Stirs` — a move that goes on with no delivery.

## Main results

* `Machine.Move.serves_or_stirs` — every move goes on with a delivery, or is of this form.
* `Machine.Move.stir` — what stores and views notice of a move.
* `Machine.Reachable.enrolled` — listeners of a store have different numbers.
-/

namespace TaskWatch

variable {σ κ : Type}

/-- Whether somebody is being called to whom something is reported. -/
def Control.isHearing : Control σ κ → Bool
  | calling _ (.notice _) | calling _ .viewChanged => true
  | _ => false

/-- What is being delivered in a frame, and to whom it is still to be. -/
def Frame.delivery? : Frame σ κ → Option (Notice × List (Audience κ))
  | delivering n rest => some (n, rest)
  | _ => none

/-- Whether something is being delivered. -/
def Frame.isDelivery : Frame σ κ → Bool
  | delivering _ _ => true
  | _ => false

namespace World

/-- Nothing happens to stores, views and the storage but that listeners come and go. -/
structure Calm (w w' : World κ) : Prop where
  count : w'.trackers.length = w.trackers.length
  /-- Nothing but the listeners of a store changes, and they keep their numbers. -/
  stores : ∀ k, ∃ listeners, (w'.tracker k).store = { (w.tracker k).store with listeners } ∧
    ((w.tracker k).store.listeners.Sound → listeners.Sound)
  views : w'.views = w.views
  storage : w'.storage = w.storage

/-- What stores and views notice, and what is to be reported then. Trackers and views are opened,
views are read and others write to the storage because somebody asks for it. -/
inductive Stir (asked : Option (Call κ)) (w : World κ) : World κ → Option (Nat × StoreEvent) → Prop
  /-- Nothing. -/
  | calm {w'} (calm : w.Calm w') : Stir asked w w' none
  /-- A tracker is opened. -/
  | opened {key cadence} (call : asked = some (.openTracker key cadence)) :
      Stir asked w (w.after (.opened key cadence)) none
  /-- Bytes are put into the storage behind everyone's back. -/
  | seeded {key content} (call : asked = some (.seed key content)) :
      Stir asked w (w.after (.seeded key content)) none
  /-- A view is opened. -/
  | viewed {source kind} (call : asked = some (.openView source kind)) :
      Stir asked w { w with views := w.views ++ [.make source kind] } none
  /-- A view is read. -/
  | read {view} (call : asked = some (.snapshot view)) : Stir asked w (w.snapshot view).2 none
  /-- A collection is changed. -/
  | changed {w₁ number} {α : Type} {change : Mutation α} (calm : w.Calm w₁)
      (made : Collection.Change (w₁.tracker number).store.tasks change) :
      Stir asked w (w₁.mutate number change) (change.event.map (number, ·))

variable {w w₁ w' : World κ} {asked : Option (Call κ)} {news : Option (Nat × StoreEvent)}

/-! ### What nobody notices -/

/-- Sessions, those who wait and the clocks are no concern of stores and views. -/
theorem Calm.of_eq (trackers : w'.trackers = w.trackers) (views : w'.views = w.views)
    (storage : w'.storage = w.storage) : w.Calm w' where
  count := congrArg List.length trackers
  stores k := ⟨_, by rw [World.tracker, trackers]; rfl, id⟩
  views := views
  storage := storage

theorem Calm.refl (w : World κ) : w.Calm w := .of_eq rfl rfl rfl

theorem Calm.trans (h : w.Calm w₁) (h' : w₁.Calm w') : w.Calm w' where
  count := h'.count.trans h.count
  stores k := by
    obtain ⟨_, first, keeps⟩ := h.stores k
    obtain ⟨listeners, second, keeps'⟩ := h'.stores k
    rw [first] at second keeps'
    exact ⟨listeners, second, fun sound => keeps' (keeps sound)⟩
  views := h'.views.trans h.views
  storage := h'.storage.trans h.storage

theorem Calm.tasks (calm : w.Calm w') (k : Nat) :
    (w'.tracker k).store.tasks = (w.tracker k).store.tasks := by
  obtain ⟨listeners, store, _⟩ := calm.stores k
  rw [store]

theorem calm_modifyTracker (w : World κ) (number : Nat) {f : Tracker κ → Tracker κ}
    (stores : ∀ t, ∃ listeners, (f t).store = { t.store with listeners } ∧
      (t.store.listeners.Sound → listeners.Sound)) : w.Calm (w.modifyTracker number f) where
  count := List.length_modify _ _ _
  stores k := by
    rw [tracker_modifyTracker]
    split
    · exact stores _
    · exact ⟨_, rfl, id⟩
  views := rfl
  storage := rfl

/-- A change of a tracker that leaves its store alone. -/
theorem calm_beside (w : World κ) (number : Nat) {f : Tracker κ → Tracker κ}
    (same : ∀ t, (f t).store = t.store) : w.Calm (w.modifyTracker number f) :=
  w.calm_modifyTracker number fun t => ⟨_, same t, id⟩

theorem calm_stampDraft (w : World κ) (draft : Draft) : w.Calm (w.stampDraft draft).2 := by
  rw [stampDraft]
  split
  · exact .refl w
  · exact .of_eq rfl rfl rfl

theorem calm_subscribeStore (w : World κ) (number : Nat) (a : Audience κ) :
    w.Calm (w.subscribeStore number a).2 := by
  -- The listener is numbered by the store to which it is added.
  have calm : w.Calm (w.modifyTracker number fun t =>
      { t with store := { t.store with listeners := (t.store.listeners.subscribe a).2 } }) :=
    w.calm_modifyTracker number fun _ => ⟨_, rfl, fun sound => sound.subscribe a⟩
  have same : (w.subscribeStore number a).2 = w.modifyTracker number fun t =>
      { t with store := { t.store with listeners := (t.store.listeners.subscribe a).2 } } := by
    simp only [subscribeStore, modifyTracker]
    congr 1
    refine List.ext_getElem? fun k => ?_
    rw [List.getElem?_modify, List.getElem?_modify]
    split
    · next here =>
      subst here
      cases found : w.trackers[number]? with
      | none => rfl
      | some t => simp [tracker, List.getD_eq_getElem?_getD, found]
    · rfl
  exact same ▸ calm

theorem calm_subscribeSessions (w : World κ) (number : Nat) (a : Audience κ) :
    w.Calm (w.subscribeSessions number a).2 :=
  w.calm_beside number fun _ => rfl

theorem calm_release (w : World κ) (subscription : Subscription) :
    w.Calm (w.release subscription) := by
  cases subscription with
  | inert => exact .refl w
  | store number listener =>
    exact w.calm_modifyTracker number fun _ => ⟨_, rfl, fun sound => sound.unsubscribe listener⟩
  | sessions number listener => exact w.calm_beside number fun _ => rfl

theorem calm_watch (w : World κ) (view : Nat) (label : κ) : w.Calm (w.watch view label).2 := by
  simp only [watch]
  split
  · exact .refl w
  · split
    · exact w.calm_subscribeStore _ _
    · exact w.calm_subscribeSessions _ _

theorem calm_endWait (w : World κ) (wait : Nat) : w.Calm (w.endWait wait) := by
  rw [endWait]
  split
  · exact .refl w
  · exact w.calm_release _

theorem calm_beginWait {number wait : Nat} {id : TaskId}
    (begun : w.beginWait number id = some (wait, w')) : w.Calm w' := by
  rw [beginWait] at begun
  split at begun
  · obtain ⟨_, rfl⟩ := Prod.mk.inj (Option.some.inj begun)
    exact (w.calm_subscribeSessions number (.wait w.waits.length)).trans (.of_eq rfl rfl rfl)
  · simp at begun

/-- Something that nobody notices happens first. What is not asked for is a change at most. -/
theorem Calm.stir (calm : w.Calm w₁) (stir : w₁.Stir none w' news) : w.Stir asked w' news := by
  cases stir with
  | calm calm' => exact .calm (calm.trans calm')
  | changed calm' made => exact .changed (calm.trans calm') made
  | opened call => simp at call
  | seeded call => simp at call
  | viewed call => simp at call
  | read call => simp at call

end World

namespace Machine

variable {m m' : Machine σ κ} {asked : Option (Call κ)}

/-- What the listeners of a store are about to be told. -/
def report? (m : Machine σ κ) : Option (Nat × StoreEvent) :=
  match m.control with
  | .telling number (.store event) => some (number, event)
  | _ => none

/-- The call that is about to be made. -/
def request? (m : Machine σ κ) : Option (Call κ) :=
  match m.control with
  | .code (.call request _) => some request
  | _ => none

/-- The delivery with which a step goes on: what is delivered, and to whom. -/
def serving? (m : Machine σ κ) : Option (Notice × List (Audience κ)) :=
  match m.control, m.stack with
  | .telling number n, _ => some (n, m.world.audience number n)
  | .returned _, .delivering n rest :: _ | .unwinding, .delivering n rest :: _ => some (n, rest)
  | _, _ => none

/-- What stores and views notice of a move that goes on with no delivery. -/
structure Stirs (asked : Option (Call κ)) (m m' : Machine σ κ) : Prop where
  /-- Deliveries that are under way are left alone, and none is begun yet. -/
  stack : ∃ new, m'.stack = new ++ m.stack ∧ ∀ f ∈ new, f.isDelivery = false
  /-- Nobody is called to whom something is reported. -/
  unheard : m'.control.isHearing = false
  stir : m.world.Stir asked m'.world m'.report?

namespace Stirs

/-- Nothing is pushed. -/
theorem stay {memory : σ} {w : World κ} {control : Control σ κ}
    (unheard : control.isHearing = false)
    (stir : m.world.Stir asked w (Machine.mk memory w control m.stack).report?) :
    Stirs asked m ⟨memory, w, control, m.stack⟩ :=
  ⟨⟨[], rfl, by simp⟩, unheard, stir⟩

/-- Nothing is pushed, and nobody notices anything. -/
theorem pass {memory : σ} {w : World κ} {control : Control σ κ} (calm : m.world.Calm w)
    (unheard : control.isHearing = false)
    (silent : (Machine.mk memory w control m.stack).report? = none) :
    Stirs asked m ⟨memory, w, control, m.stack⟩ :=
  stay unheard (silent ▸ .calm calm)

/-- One frame is pushed, and nobody notices anything. -/
theorem push {w : World κ} {control : Control σ κ} {f : Frame σ κ} (calm : m.world.Calm w)
    (plain : f.isDelivery = false) (unheard : control.isHearing = false)
    (silent : (Machine.mk m.memory w control (f :: m.stack)).report? = none) :
    Stirs asked m ⟨m.memory, w, control, f :: m.stack⟩ :=
  ⟨⟨[f], rfl, by simpa using plain⟩, unheard, silent ▸ .calm calm⟩

/-- A frame is pushed first. -/
theorem of_push {f : Frame σ κ} (plain : f.isDelivery = false)
    (further : Stirs asked (m.push f) m') : Stirs asked m m' := by
  obtain ⟨⟨new, stack, others⟩, unheard, stir⟩ := further
  refine ⟨⟨new ++ [f], by rw [stack, Machine.push, List.append_assoc]; rfl, fun g mem => ?_⟩,
    unheard, stir⟩
  rcases List.mem_append.mp mem with mem | mem
  · exact others g mem
  · exact List.mem_singleton.mp mem ▸ plain

/-- Something that nobody notices happens first. -/
theorem of_calm {w : World κ} (calm : m.world.Calm w) (further : Stirs none (m.withWorld w) m') :
    Stirs asked m m' :=
  ⟨further.stack, further.unheard, calm.stir further.stir⟩

end Stirs

/-! ### Functions of the library -/

theorem reply_stirs (m : Machine σ κ) (r : Reply) : Stirs asked m (m.reply r) :=
  .pass (.refl _) rfl rfl

/-- Something happens that nobody notices, and there is a reply. -/
theorem reply_stirs_of_calm {w : World κ} (calm : m.world.Calm w) (r : Reply) :
    Stirs asked m ((m.withWorld w).reply r) :=
  .pass calm rfl rfl

theorem mutate_stirs {w : World κ} (calm : m.world.Calm w) {number : Nat} {α : Type}
    {change : Mutation α} (made : Collection.Change (w.tracker number).store.tasks change)
    (r : Reply) : Stirs asked m ((m.withWorld w).mutate number change r) := by
  have stir : m.world.Stir asked (w.mutate number change) (change.event.map (number, ·)) :=
    .changed calm made
  rw [mutate]
  cases event : change.event with
  | none => exact .stay rfl (by rw [event] at stir; exact stir)
  | some e => exact ⟨⟨[.answering r], rfl, by simp [Frame.isDelivery]⟩, rfl, by rwa [event] at stir⟩

theorem announce_stirs (m : Machine σ κ) (number : Nat) (id : TaskId) (reason : StopReason) :
    Stirs asked m (m.announce number id reason) :=
  .push (.refl _) rfl rfl rfl

theorem stopSession_stirs (m : Machine σ κ) (number : Nat) (id : TaskId) (only : Option Serial)
    (reason : StopReason) : Stirs asked m (m.stopSession number id only reason) := by
  have calm : m.world.Calm (m.world.after (.ended number id)) :=
    m.world.calm_beside number fun _ => rfl
  obtain still | ⟨serial, _, ended | ⟨label, ended⟩⟩ := m.stopSession_cases number id only reason
  · rw [still]
    exact m.reply_stirs _
  · rw [ended]
    exact .push calm rfl rfl rfl
  · rw [ended]
    exact .push calm rfl rfl rfl

theorem stopEach_stirs (m : Machine σ κ) (number count : Nat) (ids : List TaskId) :
    Stirs asked m (m.stopEach number count ids) := by
  match ids with
  | [] => exact m.reply_stirs _
  | id :: rest =>
    exact .of_push (f := .stopping number rest count) rfl (stopSession_stirs _ number id none _)

theorem startSession_stirs (m : Machine σ κ) (number : Nat) (id : TaskId) (fetcher : κ) :
    Stirs asked m (m.startSession number id fetcher) := by
  obtain still | ⟨_, begun⟩ := m.startSession_cases number id fetcher
  · rw [still]
    exact m.reply_stirs _
  · have beside : m.world.Calm (m.world.modifyTracker number fun t =>
        { t with sessions := t.sessions.insert id m.world.nextSerial }) :=
      m.world.calm_beside number fun _ => rfl
    have calm : m.world.Calm (m.world.after (.began number id)) :=
      beside.trans (.of_eq rfl rfl rfl)
    rw [begun]
    exact .push (f := .spawning { tracker := number, id, serial := m.world.nextSerial, fetcher })
      calm rfl rfl rfl

theorem resumeEach_stirs (m : Machine σ κ) (number : Nat) (factory : κ) (count : Nat)
    (offered : List Task) : Stirs asked m (m.resumeEach number factory count offered) := by
  match offered with
  | [] => exact m.reply_stirs _
  | task :: rest => exact .push (.refl _) rfl rfl rfl

theorem perform_stirs (m : Machine σ κ) (request : Call κ) :
    Stirs (some request) m (m.perform request) := by
  cases request with
  | openTracker key cadence =>
    rw [perform]
    split
    · exact m.reply_stirs _
    · exact .stay rfl (.opened rfl)
  | add number draft => exact mutate_stirs (m.world.calm_stampDraft draft) (.add _) _
  | update number id patch => exact mutate_stirs (.refl m.world) (.update id patch) _
  | remove number id => exact mutate_stirs (.refl m.world) (.remove id) _
  | clearTerminal number => exact mutate_stirs (.refl m.world) .clearTerminal _
  | subscribeStore number label => exact reply_stirs_of_calm (m.world.calm_subscribeStore _ _) _
  | subscribeSessions number label =>
    exact reply_stirs_of_calm (m.world.calm_subscribeSessions _ _) _
  | release subscription => exact reply_stirs_of_calm (m.world.calm_release subscription) _
  | start number id fetcher => exact m.startSession_stirs number id fetcher
  | stop number id => exact m.stopSession_stirs number id none _
  | stopAll number => exact m.stopEach_stirs number 0 _
  | configure number patch =>
    rw [perform]
    split
    · exact m.reply_stirs _
    · next settings _ =>
      have calm : m.world.Calm (m.world.modifyTracker number fun t => { t with settings }) :=
        m.world.calm_beside number fun _ => rfl
      exact reply_stirs_of_calm calm _
  | track number draft fetcher =>
    let pushed := m.push (.tracking number (m.world.stampDraft draft).1 fetcher)
    have calm : pushed.world.Calm (m.world.stampDraft draft).2 := m.world.calm_stampDraft draft
    exact .of_push (f := .tracking number (m.world.stampDraft draft).1 fetcher) rfl
      (mutate_stirs (m := pushed) calm (.add _) _)
  | resume number factory => exact m.resumeEach_stirs number factory 0 _
  | forget number id =>
    exact .of_push (f := .forgetting number id) rfl (stopSession_stirs _ number id none _)
  | openView source kind => exact .stay rfl (.viewed rfl)
  | watch view label => exact reply_stirs_of_calm (m.world.calm_watch view label) _
  | snapshot view => exact .stay rfl (.read rfl)
  | seed key content => exact .stay rfl (.seeded rfl)

/-- A session that goes on writes to the store at most. -/
theorem Turn.stirs {g : Grounds κ} {S : SessionName} (turn : Turn g S m m') : Stirs asked m m' := by
  cases turn with
  | ends => exact m.reply_stirs _
  | rests own pause => exact .pass (.of_eq rfl rfl rfl) rfl rfl
  | asks own turn => exact .push (.refl _) rfl rfl rfl
  | drops own idle => exact .push (.refl _) rfl rfl rfl
  | @writes s report hooks event own reported counted =>
    let update := (m.tracker s.tracker).store.tasks.update s.id (.ofStatus report.status)
    have stir : m.world.Stir asked
        (m.world.after (.patched s.tracker s.id (.ofStatus report.status)))
        (update.event.map (s.tracker, ·)) :=
      .changed (.refl _) (.update s.id (.ofStatus report.status))
    exact ⟨⟨[.session s (.recorded report hooks)], rfl, by simp [Frame.isDelivery]⟩, rfl,
      by rwa [counted] at stir⟩
  | tells own reported => exact .push (.refl _) rfl rfl rfl
  | complains own => exact .push (.refl _) rfl rfl rfl
  | @handles s report hooks label reason own reported verdict hook =>
    have unheard :
        (Control.calling label (report.conclusion s.id) : Control σ κ).isHearing = false := by
      rw [Report.conclusion]
      split <;> rfl
    exact .push (.refl _) rfl unheard rfl
  | @concludes s reason own ends =>
    exact .of_push (f := .session s .ending) rfl (stopSession_stirs _ _ _ _ _)
  | @aborts s own lives breaks =>
    exact .of_push (f := .session s .aborting) rfl (stopSession_stirs _ _ _ _ _)

/-! ### Steps -/

theorem resume_stirs (m : Machine σ κ) (c : Consumer σ κ) (r : Reply) {f : Frame σ κ}
    (plain : f.isDelivery = false) : Stirs asked m (m.resume c r f) := by
  cases f with
  | awaiting next => exact .pass (.refl _) rfl rfl
  | delivering n rest => simp [Frame.isDelivery] at plain
  | answering reply => exact m.reply_stirs _
  | announcing number id reason => exact m.announce_stirs number id reason
  | stopping number rest count => exact m.stopEach_stirs number _ rest
  | spawning s => exact .pass (.of_eq rfl rfl rfl) rfl rfl
  | tracking number task fetcher =>
    rw [resume]
    split
    · exact m.reply_stirs _
    · exact .of_push (f := .answering (.task task)) rfl
        (startSession_stirs _ number task.id fetcher)
  | offering number factory task rest count =>
    rw [resume]
    split
    · exact m.resumeEach_stirs number factory count rest
    · exact .of_push (f := .resuming number factory rest count) rfl
        (startSession_stirs _ number task.id _)
  | resuming number factory rest count => exact m.resumeEach_stirs number factory _ rest
  | forgetting number id => exact mutate_stirs (.refl m.world) (.remove id) _
  | session s point => exact (m.continueSession_turn c s point).stirs

theorem unwind_stirs (m : Machine σ κ) {f : Frame σ κ} (plain : f.isDelivery = false) :
    Stirs asked m (m.unwind f) := by
  cases f with
  | awaiting next => exact .pass (.refl _) rfl rfl
  | delivering n rest => simp [Frame.isDelivery] at plain
  | session s point =>
    rw [unwind_session]
    exact (finish_turn (g := { breaks := True }) rfl fun _ => trivial).stirs
  | _ => exact .pass (.refl _) rfl rfl

/-- A step goes on with a delivery, or it calls nobody to whom something is reported. -/
theorem step_serves_or_stirs (m : Machine σ κ) (c : Consumer σ κ) :
    (∃ n audience, m.serving? = some (n, audience) ∧ m.step c = m.below.deliver n audience) ∨
      m.serving? = none ∧ Stirs m.request? m.below (m.step c) := by
  obtain ⟨memory, world, control, stack⟩ := m
  cases control with
  | code p =>
    cases p with
    | call request next =>
      exact .inr ⟨rfl, .of_push (f := .awaiting next) rfl (perform_stirs _ request)⟩
    | _ => exact .inr ⟨rfl, .pass (.refl _) rfl rfl⟩
  | calling label occasion => exact .inr ⟨rfl, .pass (.refl _) rfl rfl⟩
  | telling number n => exact .inl ⟨n, _, rfl, rfl⟩
  | returned r =>
    cases stack with
    | nil => exact .inr ⟨rfl, .pass (.refl _) rfl rfl⟩
    | cons f rest =>
      have resumed : f.isDelivery = false → Stirs none _ _ :=
        resume_stirs ⟨memory, world, .returned r, rest⟩ c r
      cases f with
      | delivering n others => exact .inl ⟨n, others, rfl, rfl⟩
      | _ => exact .inr ⟨rfl, resumed rfl⟩
  | unwinding =>
    cases stack with
    | nil => exact .inr ⟨rfl, .pass (.refl _) rfl rfl⟩
    | cons f rest =>
      have unwound : f.isDelivery = false → Stirs none _ _ :=
        unwind_stirs ⟨memory, world, .unwinding, rest⟩
      cases f with
      | delivering n others => exact .inl ⟨n, others, rfl, rfl⟩
      | _ => exact .inr ⟨rfl, unwound rfl⟩

/-- Unless listeners are about to be told, a step goes on with the delivery in the frame that it
takes off the stack. -/
theorem serving?_of_silent (silent : ∀ number n, m.control ≠ .telling number n) :
    m.serving? = m.taken.head?.bind Frame.delivery? := by
  obtain ⟨memory, world, control, stack⟩ := m
  cases control with
  | telling number n => exact absurd rfl (silent number n)
  | _ =>
    cases stack with
    | nil => rfl
    | cons f rest => cases f <;> rfl

/-! ### Moves -/

variable {c : Consumer σ κ} {given : Code σ κ → Prop}

/-- When the machine has nothing to do, there is nothing to be delivered, and nothing is asked for.
-/
private theorem nothing_of_isIdle (idle : m.isIdle = true) :
    m.serving? = none ∧ m.request? = none ∧ m.below = m ∧ m.report? = none ∧
      m.control.isHearing = false := by
  obtain ⟨memory, world, control, stack⟩ := m
  rw [isIdle] at idle
  split at idle
  · next empty control =>
    subst empty control
    exact ⟨rfl, rfl, rfl, rfl, rfl⟩
  · next empty control =>
    subst empty control
    exact ⟨rfl, rfl, rfl, rfl, rfl⟩
  · simp at idle

/-- A move goes on with a delivery, or it calls nobody to whom something is reported. -/
theorem Move.serves_or_stirs (move : Move c given m m') :
    (∃ n audience, m.serving? = some (n, audience) ∧ m' = m.below.deliver n audience) ∨
      m.serving? = none ∧ Stirs m.request? m.below m' := by
  by_cases idle : m.isIdle = true
  · obtain ⟨none, unasked, below, silent, unheard⟩ := nothing_of_isIdle idle
    refine .inr ⟨none, ?_⟩
    rw [unasked, below]
    cases move with
    | step busy => simp [busy] at idle
    | code _ allowed => exact .pass (.refl _) rfl rfl
    | remember _ memory => exact .pass (.refl _) unheard silent
    | @wake before entry after _ listed ready =>
      let w := { m.world with suspended := before ++ after }
      exact .of_calm (w := w) (.of_eq rfl rfl rfl) (wake_turn (m.withWorld w) entry).stirs
    | tick _ later due => exact .pass (.of_eq rfl rfl rfl) unheard silent
    | await _ begun => exact .pass (World.calm_beginWait begun) unheard silent
    | endWait _ wait => exact .pass (m.world.calm_endWait wait) unheard silent
    | close _ same => exact .pass (.of_eq rfl rfl rfl) unheard silent
    | @abandon before entry after _ closed listed =>
      let w := { m.world with suspended := before ++ after }
      exact .of_calm (w := w) (.of_eq rfl rfl rfl)
        (abandon_turn (m := m.withWorld w) closed entry).stirs
  · rw [move.eq_step (Bool.eq_false_iff.mpr idle)]
    exact m.step_serves_or_stirs c

theorem calm_deliver (m : Machine σ κ) (n : Notice) (audience : List (Audience κ)) :
    m.world.Calm (m.deliver n audience).world ∧ (m.deliver n audience).report? = none := by
  match audience with
  | [] => exact ⟨.refl _, rfl⟩
  | .callback label :: rest => exact ⟨.refl _, rfl⟩
  | .view about label :: rest =>
    rw [deliver]
    split
    · exact ⟨.refl _, rfl⟩
    · exact ⟨.refl _, rfl⟩
  | .wait number :: rest => exact ⟨.of_eq rfl rfl rfl, rfl⟩

/-- What stores and views notice of a move. -/
theorem Move.stir (move : Move c given m m') :
    m.world.Stir m.request? m'.world m'.report? := by
  rcases move.serves_or_stirs with ⟨n, audience, _, rfl⟩ | ⟨_, stirs⟩
  · obtain ⟨calm, silent⟩ := m.below.calm_deliver n audience
    rw [world_below] at calm
    exact silent ▸ .calm calm
  · exact m.world_below ▸ stirs.stir

/-- Listeners of a store keep their numbers, and no two have the same. -/
theorem Move.enrolled (move : Move c given m m') {k : Nat}
    (sound : (m.tracker k).store.listeners.Sound) : (m'.tracker k).store.listeners.Sound := by
  have calm : ∀ {w : World κ}, m.world.Calm w →
      (w.tracker k).store.listeners.Sound := fun calm => by
    obtain ⟨listeners, store, keeps⟩ := calm.stores k
    rw [store]
    exact keeps sound
  have stir := move.stir
  rw [Machine.tracker]
  generalize m'.world = w', m'.report? = news at stir ⊢
  cases stir with
  | calm calm' => exact calm calm'
  | viewed call => exact sound
  | read call => exact sound
  | seeded call => exact sound
  | opened call =>
    rw [World.after, World.tracker_opened]
    split
    · exact Registry.Sound.empty
    · exact sound
  | changed calm' made =>
    rw [World.tracker_mutate]
    split
    · next here =>
      obtain ⟨rfl, _⟩ := here
      rw [Store.listeners_apply]
      exact calm calm'
    · exact calm calm'

theorem Reachable.enrolled (reach : Reachable c m) (k : Nat) :
    (m.tracker k).store.listeners.Sound :=
  reach.induction (fun _ _ _ _ => Registry.Sound.empty) fun _ _ sound move => move.enrolled sound

end Machine

end TaskWatch
