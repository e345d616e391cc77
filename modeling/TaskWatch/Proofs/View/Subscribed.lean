import TaskWatch.Proofs.Run.Docket
import TaskWatch.Proofs.Store.Reckoning

/-!
# Callbacks that are subscribed on views

A callback that is subscribed on a view of one task stands in the registry of the store or in that
of the sessions, and is passed over when something is told of another task. What it is still to be
called for can be read off the docket of changes that are being made known. Every move keeps the
account: a change that the view heeds is added to it, and a call of the callback takes one off.

## Main definitions

* `World.Subscribed` — a callback is subscribed on a view of a tracker, once, and on no other view.
* `ViewKind.heeds` — what calls the callbacks of a view.
* `Docket.awaited` — the changes for which a callback is still to be called.
* `Docket.Balances` — the account of a move.
* `Machine.alterations`, `Machine.turnovers` — how often a record has changed in a move, and how
  often a session was created or has ended.

## Main results

* `World.Subscribed.of_watch` — whoever watches a view is subscribed on it.
* `Docket.Advance.balances` — every move keeps the account.
* `Docket.Advance.alterations`, `Docket.Advance.turnovers` — what begins to be made known in a move
  is what has changed.
-/

namespace TaskWatch

variable {σ κ : Type}

/-- Whether a notice is about a store; the others are about sessions. -/
def Notice.isStore : Notice → Bool
  | store _ => true
  | session _ => false

/-- What calls the callbacks of a view of a tracker: what that tracker tells of the store or of
sessions, if it is about the task to which the view is limited. -/
def ViewKind.heeds (kind : ViewKind) (number : Nat) (news : Nat × Notice) : Bool :=
  (news.1 == number && news.2.isStore == kind.followsStore) && kind.about.all news.2.affects

theorem ViewKind.heeds_iff {kind : ViewKind} {number : Nat} {news : Nat × Notice} :
    kind.heeds number news = true ↔
      (news.1 = number ∧ news.2.isStore = kind.followsStore) ∧
        kind.about.all news.2.affects = true := by
  rw [heeds, Bool.and_eq_true, Bool.and_eq_true, beq_iff_eq, beq_iff_eq]

section Heeds

variable {number k : Nat} {id : TaskId}

theorem ViewKind.heeds_task_store {event : StoreEvent} :
    (task id).heeds number (k, .store event) = (k == number && event.affects id) := by
  simp [heeds, Notice.isStore, followsStore, about, Notice.affects]

theorem ViewKind.heeds_task_session {event : SessionEvent} :
    (task id).heeds number (k, .session event) = false := by
  simp [heeds, Notice.isStore, followsStore]

theorem ViewKind.heeds_flag_store {event : StoreEvent} :
    (flag id).heeds number (k, .store event) = false := by
  simp [heeds, Notice.isStore, followsStore]

theorem ViewKind.heeds_flag_session {event : SessionEvent} :
    (flag id).heeds number (k, .session event) = (k == number && event.taskId == id) := by
  simp [heeds, Notice.isStore, followsStore, about, Notice.affects]

end Heeds

/-- Who is told of changes of a store, or of sessions. -/
def World.registered (w : World κ) (number : Nat) (ofStore : Bool) : List (Audience κ) :=
  if ofStore then w.storeListeners number else w.sessionListeners number

/-- Nobody is told of a tracker that has not been opened. -/
theorem World.registered_outside {w : World κ} {number : Nat}
    (outside : w.trackers.length ≤ number) (ofStore : Bool) : w.registered number ofStore = [] := by
  rw [registered, storeListeners, sessionListeners, tracker_outside outside]
  cases ofStore <;> rfl

/-- Whoever watches a view is told last. -/
theorem World.registered_watch {w : World κ} {v number : Nat} {view : View}
    (opened : w.views[v]? = some view) (source : view.source = some number)
    (inside : number < w.trackers.length) (label : κ) (k : Nat) (ofStore : Bool) :
    (w.watch v label).2.registered k ofStore = w.registered k ofStore ++
      if k = number ∧ ofStore = view.kind.followsStore then [.view view.kind.about label]
      else [] := by
  have found : w.views.getD v default = view := by
    rw [List.getD_eq_getElem?_getD, opened]
    rfl
  rw [watch, found, source]
  cases follows : view.kind.followsStore with
  | true =>
    simp only [if_true, subscribeStore, registered, storeListeners, sessionListeners,
      tracker_modifyTracker]
    by_cases here : number = k
    · subst here
      cases ofStore with
      | true => simp [inside, Registry.listeners_subscribe]
      | false => simp [inside]
    · have other : ¬ k = number := fun same => here same.symm
      simp [here, other]
  | false =>
    simp only [Bool.false_eq_true, if_false, subscribeSessions, registered, storeListeners,
      sessionListeners, tracker_modifyTracker]
    by_cases here : number = k
    · subst here
      cases ofStore with
      | true => simp [inside]
      | false => simp [inside, Registry.listeners_subscribe]
    · have other : ¬ k = number := fun same => here same.symm
      simp [here, other]

theorem World.audience_eq (w : World κ) (number : Nat) (n : Notice) :
    w.audience number n = w.registered number n.isStore := by
  cases n <;> rfl

/-- Whether the callback for stopped sessions has panicked over an end that the callbacks of a view
would have been called for. -/
def Machine.forfeits (kind : ViewKind) (number : Nat) (m : Machine σ κ) : Bool :=
  match m.control, m.stack with
  | .unwinding, .announcing k id reason :: _ => kind.heeds number (k, .session (.stopped id reason))
  | _, _ => false

theorem Machine.forfeits_of_head? {m : Machine σ κ} {kind : ViewKind} {number k : Nat} {id : TaskId}
    {reason : StopReason} (control : m.control = .unwinding)
    (top : m.stack.head? = some (.announcing k id reason)) :
    m.forfeits kind number = kind.heeds number (k, .session (.stopped id reason)) := by
  obtain ⟨memory, world, _, stack⟩ := m
  obtain rfl := control
  cases stack with
  | nil => simp at top
  | cons f rest =>
    obtain rfl := Option.some.inj top
    rfl

section Label

variable [DecidableEq κ] {kind : ViewKind} {number : Nat} {label : κ}

/-- Whether a callback is told when a view may have changed. -/
def Audience.isViewer (label : κ) : Audience κ → Bool
  | view _ label' => label' = label
  | _ => false

/-- A callback is subscribed on a view of a tracker, once, and on no other view. -/
structure World.Subscribed (w : World κ) (kind : ViewKind) (number : Nat) (label : κ) : Prop where
  once : (w.registered number kind.followsStore).filter (Audience.isViewer label) =
    [.view kind.about label]
  only : ∀ k ofStore, ∀ a ∈ w.registered k ofStore, a.isViewer label = true →
    k = number ∧ ofStore = kind.followsStore

instance (w : World κ) : Decidable (w.Subscribed kind number label) :=
  decidable_of_iff
    ((w.registered number kind.followsStore).filter (Audience.isViewer label) =
        [.view kind.about label] ∧
      ∀ k < w.trackers.length, ∀ ofStore, ∀ a ∈ w.registered k ofStore, a.isViewer label = true →
        k = number ∧ ofStore = kind.followsStore)
    ⟨fun ⟨once, only⟩ => ⟨once, fun k ofStore a mem => by
      by_cases inside : k < w.trackers.length
      · exact only k inside ofStore a mem
      · rw [World.registered_outside (Nat.le_of_not_lt inside)] at mem
        exact absurd mem List.not_mem_nil⟩,
    fun subscribed => ⟨subscribed.once, fun k _ => subscribed.only k⟩⟩

namespace World.Subscribed

variable {w : World κ}

theorem eq_view (subscribed : w.Subscribed kind number label) {k : Nat} {n : Notice}
    {a : Audience κ} (mem : a ∈ w.audience k n) (viewer : a.isViewer label = true) :
    a = .view kind.about label ∧ k = number ∧ n.isStore = kind.followsStore := by
  rw [audience_eq] at mem
  obtain ⟨rfl, follows⟩ := subscribed.only k _ a mem viewer
  rw [follows] at mem
  have kept := List.mem_filter.mpr ⟨mem, viewer⟩
  rw [subscribed.once] at kept
  exact ⟨List.mem_singleton.mp kept, rfl, follows⟩

theorem inside (subscribed : w.Subscribed kind number label) : number < w.trackers.length := by
  refine Nat.lt_of_not_le fun outside => ?_
  have once := subscribed.once
  rw [registered_outside outside] at once
  exact absurd once (List.cons_ne_nil _ _).symm

/-- A callback that is used for no view yet is subscribed on the view that it is to watch. -/
theorem of_watch {v : Nat} {view : View} (opened : w.views[v]? = some view)
    (source : view.source = some number) (inside : number < w.trackers.length)
    (fresh : ∀ k ofStore, ∀ a ∈ w.registered k ofStore, ¬ a.isViewer label = true) :
    (w.watch v label).2.Subscribed view.kind number label := by
  have registered := registered_watch opened source inside label
  refine ⟨?_, fun k ofStore a mem viewer => ?_⟩
  · rw [registered, if_pos ⟨rfl, rfl⟩, List.filter_append,
      List.filter_eq_nil_iff.mpr (fresh number view.kind.followsStore), List.nil_append]
    exact List.filter_cons_of_pos (decide_eq_true rfl)
  · rw [registered] at mem
    rcases List.mem_append.mp mem with old | new
    · exact absurd viewer (fresh k ofStore a old)
    · split at new
      · next here => exact here
      · exact absurd new List.not_mem_nil

end World.Subscribed

/-- The changes for which a callback is still to be called. -/
def Matter.awaited (kind : ViewKind) (number : Nat) (label : κ) (D : Matter σ κ) : List Nat :=
  if kind.heeds number (D.tracker, D.notice) then
    match D.audience with
    | none => [D.time]
    | some audience => (audience.filter (Audience.isViewer label)).map fun _ => D.time
  else []

/-- The changes for which a callback is still to be called, for all that is being made known. -/
def Docket.awaited (kind : ViewKind) (number : Nat) (label : κ) (docket : Docket σ κ) : List Nat :=
  docket.flatMap (Matter.awaited kind number label)

/-- A callback is called for a matter only if it is subscribed on this view. -/
def Matter.IsProper (kind : ViewKind) (number : Nat) (label : κ) (D : Matter σ κ) : Prop :=
  ∀ audience, D.audience = some audience → ∀ a ∈ audience, a.isViewer label = true →
    a = .view kind.about label ∧ D.tracker = number ∧ D.notice.isStore = kind.followsStore

namespace Matter

variable {D D' : Matter σ κ} {m' : Machine σ κ}

theorem eq_time {time : Nat} (mem : time ∈ D.awaited kind number label) : time = D.time := by
  rw [awaited] at mem
  split at mem
  · split at mem
    · exact List.mem_singleton.mp mem
    · obtain ⟨_, _, same⟩ := List.mem_map.mp mem
      exact same.symm
  · exact absurd mem List.not_mem_nil

theorem awaited_of_none (waits : D.audience = none) :
    D.awaited kind number label =
      List.replicate (kind.heeds number (D.tracker, D.notice)).toNat D.time := by
  rw [awaited]
  cases kind.heeds number (D.tracker, D.notice) with
  | true => rw [waits]; rfl
  | false => rfl

/-- Who is subscribed is told once. -/
theorem awaited_of_subscribed {w : World κ} (subscribed : w.Subscribed kind number label)
    (audience : D.audience = some (w.audience D.tracker D.notice)) :
    D.awaited kind number label =
      List.replicate (kind.heeds number (D.tracker, D.notice)).toNat D.time := by
  rw [awaited]
  cases heeds : kind.heeds number (D.tracker, D.notice) with
  | true =>
    obtain ⟨⟨tracker, follows⟩, _⟩ := ViewKind.heeds_iff.mp heeds
    have tracker : D.tracker = number := tracker
    have follows : D.notice.isStore = kind.followsStore := follows
    have once : (w.audience D.tracker D.notice).filter (Audience.isViewer label) =
        [.view kind.about label] := by
      rw [World.audience_eq, tracker, follows, subscribed.once]
    simp [audience, once]
  | false => rfl

/-- The next listener is awaited if the callback is called for it. -/
theorem awaited_told {a : Audience κ} {rest : List (Audience κ)}
    (audience : D.audience = some (a :: rest)) :
    D.awaited kind number label =
      List.replicate (kind.heeds number (D.tracker, D.notice) && a.isViewer label).toNat D.time ++
        Matter.awaited kind number label { D with audience := some rest } := by
  rw [awaited, awaited, audience]
  cases kind.heeds number (D.tracker, D.notice) with
  | true =>
    cases viewer : a.isViewer label with
    | true => simp [List.filter_cons_of_pos viewer]
    | false => simp [viewer]
  | false => rfl

/-- For a matter that goes on nobody else is awaited. -/
theorem Goes.awaited_subset (goes : D.Goes m' D') :
    D'.awaited kind number label ⊆ D.awaited kind number label := by
  intro time mem
  cases goes with
  | stays => exact mem
  | told audience =>
    rw [awaited_told audience]
    exact List.mem_append_right _ mem
  | proceeds waits =>
    obtain rfl := eq_time mem
    rw [awaited_of_none waits]
    rw [awaited] at mem
    split at mem
    · next heeds =>
      rw [heeds]
      exact List.mem_singleton_self _
    · exact absurd mem List.not_mem_nil

theorem isProper_of_subscribed {w : World κ} (subscribed : w.Subscribed kind number label)
    (audience : D.audience = none ∨ D.audience = some (w.audience D.tracker D.notice)) :
    D.IsProper kind number label := by
  intro told known a mem viewer
  rcases audience with none | all
  · rw [none] at known
    exact absurd known.symm (Option.some_ne_none _)
  · obtain rfl := Option.some.inj (all.symm.trans known)
    exact subscribed.eq_view mem viewer

theorem Goes.isProper (goes : D.Goes m' D') (proper : D.IsProper kind number label)
    (subscribed : m'.world.Subscribed kind number label) : D'.IsProper kind number label := by
  cases goes with
  | stays => exact proper
  | told audience =>
    intro told known a mem viewer
    obtain rfl := Option.some.inj known
    exact proper _ audience a (List.mem_cons_of_mem _ mem) viewer
  | proceeds waits => exact isProper_of_subscribed subscribed (.inr rfl)

end Matter

/-- Whether a callback is being called because a view may have changed. -/
def Machine.callsBack (label : κ) (m : Machine σ κ) : Bool :=
  match m.control with
  | .calling label' .viewChanged => label' = label
  | _ => false

namespace Machine

variable {m m' : Machine σ κ}

theorem not_callsBack (unheard : m.control.isHearing = false) : m.callsBack label = false := by
  rw [callsBack]
  split
  · next control => simp [control, Control.isHearing] at unheard
  · rfl

/-- The callback is called when its turn comes in a delivery that its view heeds. -/
theorem callsBack_deliver (m : Machine σ κ) (n : Notice) (a : Audience κ)
    (rest : List (Audience κ)) (own : a.isViewer label = true → a = .view kind.about label) :
    (m.deliver n (a :: rest)).callsBack label =
      (a.isViewer label && kind.about.all n.affects) := by
  cases viewer : a.isViewer label with
  | true =>
    obtain rfl := own viewer
    rw [deliver]
    cases kind.about.all n.affects with
    | true => exact decide_eq_true rfl
    | false => rfl
  | false =>
    cases a with
    | callback label' => rfl
    | wait number => rfl
    | view about label' =>
      have other : ¬ label' = label := of_decide_eq_false viewer
      rw [deliver]
      split
      · exact decide_eq_false other
      · rfl

end Machine

namespace Docket

variable {docket docket' : Docket σ κ} {m m' : Machine σ κ} {news : Option (Nat × Notice)}
  {time : Nat}

theorem awaited_cons (D : Matter σ κ) (docket : Docket σ κ) :
    Docket.awaited kind number label (D :: docket) =
      D.awaited kind number label ++ docket.awaited kind number label :=
  List.flatMap_cons

/-- The account of a move: `made` are the calls of a callback, each with the time of the change that
it is made for. -/
structure Balances (kind : ViewKind) (number : Nat) (label : κ) (time : Nat) (docket : Docket σ κ)
    (news : Option (Nat × Notice)) (docket' : Docket σ κ) (m' : Machine σ κ)
    (made : List (Nat × Nat)) : Prop where
  /-- What the view heeds is added, and what the callback is called for is taken off. -/
  law : (made.map Prod.fst ++ docket'.awaited kind number label).Perm
    (docket.awaited kind number label ++
      List.replicate (news.any (kind.heeds number)).toNat time)
  calls : made.map Prod.snd = List.replicate (m'.callsBack label).toNat time
  /-- A call is part of the delivery of a matter for which it was awaited. -/
  told : ∀ e ∈ made, ∃ D ∈ docket, e.1 ∈ D.awaited kind number label ∧
    ∃ n rest, m'.stack = .delivering n rest :: D.foot

/-- The callback is not called. -/
private theorem balances_quiet (unheard : m'.callsBack label = false)
    (law : (docket'.awaited kind number label).Perm (docket.awaited kind number label ++
      List.replicate (news.any (kind.heeds number)).toNat time)) :
    ∃ made, Balances kind number label time docket news docket' m' made :=
  ⟨[], law, by rw [unheard]; rfl, fun _ mem => absurd mem List.not_mem_nil⟩

/-- Something begins to be made known, and the callback is not called. -/
private theorem balances_opened {k : Nat} {n : Notice} {audience : Option (List (Audience κ))}
    {foot : List (Frame σ κ)} (unheard : m'.control.isHearing = false)
    (subscribed : m'.world.Subscribed kind number label)
    (known : audience = none ∨ audience = some (m'.world.audience k n)) :
    ∃ made, Balances kind number label time docket (some (k, n))
      (⟨time, k, n, audience, foot⟩ :: docket) m' made := by
  have own : Matter.awaited kind number label ⟨time, k, n, audience, foot⟩ =
      List.replicate (kind.heeds number (k, n)).toNat time := by
    rcases known with rfl | rfl
    · exact Matter.awaited_of_none rfl
    · exact Matter.awaited_of_subscribed subscribed rfl
  refine balances_quiet (Machine.not_callsBack unheard) ?_
  rw [awaited_cons, own]
  exact List.perm_append_comm

/-- Every move keeps the account of the changes for which a callback is still to be called. -/
theorem Advance.balances (advance : docket.Advance time m news docket' m')
    (proper : ∀ D ∈ docket, D.IsProper kind number label)
    (subscribed : m'.world.Subscribed kind number label)
    (intact : m.forfeits kind number = false) :
    ∃ made, Balances kind number label time docket news docket' m' made := by
  cases advance with
  | still silent unheard retains =>
    exact balances_quiet (Machine.not_callsBack unheard) (by simp)
  | @told _ D a rest others first audience goes foot =>
    have own := proper D (first ▸ List.mem_cons_self) _ audience a List.mem_cons_self
    have calls : m'.callsBack label =
        (kind.heeds number (D.tracker, D.notice) && a.isViewer label) := by
      rw [goes, Machine.callsBack_deliver _ _ _ _ fun viewer => (own viewer).1]
      cases viewer : a.isViewer label with
      | true =>
        obtain ⟨_, tracker, follows⟩ := own viewer
        simp [ViewKind.heeds, tracker, follows]
      | false => simp
    refine ⟨List.replicate (m'.callsBack label).toNat (D.time, time), .of_eq ?_,
      List.map_replicate, fun e mem => ⟨D, first ▸ List.mem_cons_self, ?_, ?_⟩⟩
    · rw [first, awaited_cons, awaited_cons, Matter.awaited_told audience, calls]
      simp
    · obtain ⟨called, rfl⟩ := List.mem_replicate.mp mem
      rw [Matter.awaited_told audience, ← calls]
      exact List.mem_append_left _ (List.mem_replicate.mpr ⟨called, rfl⟩)
    · rw [goes, foot]
      exact ⟨_, _, (m.below.deliver_uncons D.notice a rest).1⟩
  | @served _ D others first audience goes =>
    refine balances_quiet (by rw [goes]; rfl) (.of_eq ?_)
    have nobody : D.awaited kind number label = [] := by
      rw [Matter.awaited, audience]
      split <;> rfl
    rw [first, awaited_cons, nobody]
    simp
  | @proceeds _ D others id reason first waits notice control world =>
    refine balances_quiet (Machine.not_callsBack (by rw [control]; rfl)) (.of_eq ?_)
    rw [first, awaited_cons, awaited_cons, Matter.awaited_of_none waits,
      Matter.awaited_of_subscribed subscribed rfl]
    simp
  | @loses _ D others id reason first waits notice control top goes =>
    refine balances_quiet (by rw [goes]; rfl) (.of_eq ?_)
    have unheeded : kind.heeds number (D.tracker, D.notice) = false := by
      rw [notice, ← Machine.forfeits_of_head? control top, intact]
    rw [first, awaited_cons, Matter.awaited_of_none waits, unheeded]
    simp
  | writes control retains =>
    exact balances_opened (by rw [control]; rfl) subscribed (.inr rfl)
  | began control begins =>
    exact balances_opened (by rw [control]; rfl) subscribed (.inr rfl)
  | ended control ends =>
    exact balances_opened (by rw [control]; rfl) subscribed (.inr rfl)
  | ending control stack ends =>
    exact balances_opened (by rw [control]; rfl) subscribed (.inl rfl)

end Docket

end Label

/-! ### What has changed -/

/-- Whether a tracker has a session of a task that another one does not have. -/
def Tracker.hasOther (t t' : Tracker κ) (id : TaskId) : Bool :=
  (t.sessions.find? id).any fun serial => !t'.isLive id serial

namespace Machine

/-- How often the record of a task has been inserted, altered or deleted in a move. -/
def alterations (number : Nat) (id : TaskId) (p : Machine σ κ × Machine σ κ) : Nat :=
  ((p.1.tracker number).store.tasks.alters (p.2.tracker number).store.tasks id).toNat

/-- How many sessions of a task have been created in a move. -/
def creations (number : Nat) (id : TaskId) (p : Machine σ κ × Machine σ κ) : Nat :=
  ((p.2.tracker number).hasOther (p.1.tracker number) id).toNat

/-- How many sessions of a task have ended in a move. -/
def endings (number : Nat) (id : TaskId) (p : Machine σ κ × Machine σ κ) : Nat :=
  ((p.1.tracker number).hasOther (p.2.tracker number) id).toNat

/-- How many sessions of a task have been created or have ended in a move. -/
def turnovers (number : Nat) (id : TaskId) (p : Machine σ κ × Machine σ κ) : Nat :=
  creations number id p + endings number id p

variable {m m' : Machine σ κ} {number : Nat} {id : TaskId}

theorem turnovers_eq (m m' : Machine σ κ) (number : Nat) (id : TaskId) :
    turnovers number id (m, m') =
      (((m'.tracker number).sessions.find? id).any fun serial =>
        !(m.tracker number).sessions.find? id == some serial).toNat +
      (((m.tracker number).sessions.find? id).any fun serial =>
        !(m'.tracker number).sessions.find? id == some serial).toNat :=
  rfl

theorem turnovers_of_same
    (same : (m'.tracker number).sessions.find? id = (m.tracker number).sessions.find? id) :
    turnovers number id (m, m') = 0 := by
  rw [turnovers_eq, same]
  cases (m.tracker number).sessions.find? id with
  | none => rfl
  | some serial => simp

theorem turnovers_of_begins {S : SessionName} (begins : m.world.Begins S m'.world)
    (inside : number < m.world.trackers.length) :
    turnovers number id (m, m') = (S.tracker == number && S.id == id).toNat := by
  have after := begins.sessions number id
  cases here : S.tracker == number && S.id == id with
  | true =>
    obtain ⟨rfl, rfl⟩ : S.tracker = number ∧ S.id = id := by simpa using here
    rw [if_pos ⟨⟨rfl, rfl⟩, inside⟩] at after
    rw [turnovers_eq, tracker, tracker, after, begins.fresh]
    rfl
  | false =>
    have other : ¬ ((number = S.tracker ∧ id = S.id) ∧ number < m.world.trackers.length) := by
      rintro ⟨⟨rfl, rfl⟩, _⟩
      simp at here
    rw [if_neg other] at after
    exact turnovers_of_same after

theorem turnovers_of_ends {S : SessionName} (ends : m.world.Ends S m'.world) :
    turnovers number id (m, m') = (S.tracker == number && S.id == id).toNat := by
  have after := ends.sessions number id
  cases here : S.tracker == number && S.id == id with
  | true =>
    obtain ⟨rfl, rfl⟩ : S.tracker = number ∧ S.id = id := by simpa using here
    rw [if_pos ⟨rfl, rfl⟩] at after
    rw [turnovers_eq, tracker, tracker, after, World.lives_iff.mp ends.lived]
    rfl
  | false =>
    have other : ¬ (number = S.tracker ∧ id = S.id) := by
      rintro ⟨rfl, rfl⟩
      simp at here
    rw [if_neg other] at after
    exact turnovers_of_same after

end Machine

namespace Docket

variable {docket docket' : Docket σ κ} {m m' : Machine σ κ} {news : Option (Nat × Notice)}
  {time number : Nat} {id : TaskId}

/-- What listeners of a store are about to be told begins to be made known. -/
theorem Advance.any_report (advance : docket.Advance time m news docket' m') (number : Nat)
    (id : TaskId) :
    (m'.report?.any fun told => told.1 == number && told.2.affects id) =
      news.any ((ViewKind.task id).heeds number) := by
  -- What is told of sessions does not concern the listeners of a store.
  have silent : ∀ {k : Nat} {event : SessionEvent}, m'.control = .telling k (.session event) →
      m'.report? = none := fun control => by rw [Machine.report?, control]
  cases advance with
  | still silent' unheard retains => rw [silent']; rfl
  | told first audience goes foot => rw [goes, (m.below.calm_deliver _ _).2]; rfl
  | served first audience goes => rw [goes]; rfl
  | proceeds first waits notice control world => rw [silent (notice ▸ control)]; rfl
  | loses first waits notice control top goes => rw [goes]; rfl
  | @writes _ k event control retains =>
    have report : m'.report? = some (k, event) := by rw [Machine.report?, control]
    rw [report, Option.any_some, Option.any_some, ViewKind.heeds_task_store]
  | began control begins => rw [silent control, Option.any_some, ViewKind.heeds_task_session]; rfl
  | ended control ends => rw [silent control, Option.any_some, ViewKind.heeds_task_session]; rfl
  | ending control stack ends =>
    have silent : m'.report? = none := by rw [Machine.report?, control]
    rw [silent, Option.any_some, ViewKind.heeds_task_session]
    rfl

/-- A record has changed in a move exactly if a change of it begins to be made known. -/
theorem Advance.alterations (advance : docket.Advance time m news docket' m')
    (reckons : m.world.Reckons number m'.world m'.report?) (id : TaskId) :
    Machine.alterations number id (m, m') = (news.any ((ViewKind.task id).heeds number)).toNat := by
  rw [← advance.any_report]
  exact congrArg Bool.toNat (reckons.affects id)

/-- When nothing begins to be made known, sessions stay as they are. -/
theorem Advance.retains (advance : docket.Advance time m none docket' m') :
    m.world.Retains m'.world := by
  have same : ∀ {w : World κ}, w = m.world → m.world.Retains w := fun same =>
    same ▸ (World.Near.refl _).retains
  cases advance with
  | still silent unheard retains => exact retains
  | told first audience goes foot =>
    rw [goes]
    have near := Machine.near_deliver m.below
    rw [m.world_below] at near
    exact (near _ _).retains
  | served first audience goes => exact same (by rw [goes]; exact m.world_below)
  | proceeds first waits notice control world => exact same world
  | loses first waits notice control top goes => exact same (by rw [goes]; exact m.world_below)

/-- A session is created or ends in a move exactly if this begins to be made known. -/
theorem Advance.turnovers (advance : docket.Advance time m news docket' m')
    (inside : number < m.world.trackers.length) (id : TaskId) :
    Machine.turnovers number id (m, m') = (news.any ((ViewKind.flag id).heeds number)).toNat := by
  cases news with
  | none => exact Machine.turnovers_of_same (advance.retains.sessions number id)
  | some told =>
    rw [Option.any_some]
    cases advance with
    | writes control retains =>
      rw [ViewKind.heeds_flag_store]
      exact Machine.turnovers_of_same (retains.sessions number id)
    | began control begins =>
      rw [ViewKind.heeds_flag_session]
      exact Machine.turnovers_of_begins begins inside
    | ended control ends =>
      rw [ViewKind.heeds_flag_session]
      exact Machine.turnovers_of_ends ends
    | ending control stack ends =>
      rw [ViewKind.heeds_flag_session]
      exact Machine.turnovers_of_ends ends

end Docket

end TaskWatch
