import TaskWatch.Proofs.Store.Reckoning

/-!
# Views are up to date

Whatever happens between the readings of a view, a snapshot shows what the tracker holds at that
moment. The list of all tasks is read again only when the version of the store has moved on, and the
version moves exactly when a record is inserted, altered or deleted; so two snapshots of the list,
one after the other, are the same object exactly if this has not happened in between. The other
views are always read, and two snapshots are the same object exactly if their values are equal.
Records are compared as the store compares them.

## Main definitions

* `ViewKind.IsCurrent` — a value is what a view is to show.
* `View.IsFaithful` — what a view remembers of its latest reading is true.
* `View.keeps` — whether a view is left as it is when it is brought up to date.

## Main results

* `View.IsFaithful.refresh_isCurrent` — a view that is brought up to date shows what it is to show.
* `World.Stir.faithful` — whatever views notice, what they remember stays true.
* `Machine.snapshot_current` — every snapshot is current, and the same object as the one before it
  exactly if nothing has changed.
-/

namespace TaskWatch

variable {σ κ : Type}

/-! ### Values -/

theorem ViewValue.beq_self (value : ViewValue) : (value == value) = true := by
  cases value with
  | tasks list => exact beq_records_iff.mpr rfl
  | task record => exact beq_record_iff.mpr rfl
  | polling ids => exact beq_self_eq_true ids
  | flag value => exact beq_self_eq_true value

namespace ViewKind

variable {kind : ViewKind} {t t' : Tracker κ} {value : ViewValue}

/-- A value is what a view of a tracker is to show. -/
def IsCurrent (t : Tracker κ) : ViewKind → ViewValue → Prop
  | .tasks, value => ∃ list, value = .tasks list ∧ (list == t.store.tasks.list) = true
  | .task id, value => ∃ record, value = .task record ∧ (record == t.store.tasks.find? id) = true
  | .polling, value => ∃ ids : List TaskId, value = .polling ids ∧ ids.Pairwise (· < ·) ∧
      ∀ id, id ∈ ids ↔ t.isPolling id = true
  | .flag id, value => value = .flag (t.isPolling id)

/-- What equals a fresh reading is current. -/
theorem isCurrent_of_beq (same : (value == kind.read t) = true) : kind.IsCurrent t value := by
  cases kind with
  | tasks =>
    cases value with
    | tasks list => exact ⟨list, rfl, same⟩
    | _ => exact absurd same Bool.false_ne_true
  | task id =>
    cases value with
    | task record => exact ⟨record, rfl, same⟩
    | _ => exact absurd same Bool.false_ne_true
  | polling =>
    cases value with
    | polling ids =>
      obtain rfl : ids = t.sessions.keys := eq_of_beq same
      exact ⟨_, rfl, t.sessions.keys_ascending, fun _ => t.sessions.mem_keys⟩
    | _ => exact absurd same Bool.false_ne_true
  | flag id =>
    cases value with
    | flag value => exact congrArg ViewValue.flag (eq_of_beq same)
    | _ => exact absurd same Bool.false_ne_true

theorem isCurrent_read (kind : ViewKind) (t : Tracker κ) : kind.IsCurrent t (kind.read t) :=
  isCurrent_of_beq (ViewValue.beq_self _)

/-- What a view is to show depends on records and sessions alone. -/
theorem IsCurrent.of_same (current : kind.IsCurrent t value)
    (tasks : t.store.tasks = t'.store.tasks) (sessions : t.sessions = t'.sessions) :
    kind.IsCurrent t' value := by
  have polling : ∀ id, t'.isPolling id = t.isPolling id := fun id => by
    rw [Tracker.isPolling, Tracker.isPolling, sessions]
  cases kind with
  | tasks => rw [IsCurrent, ← tasks]; exact current
  | task id => rw [IsCurrent, ← tasks]; exact current
  | polling => simpa only [IsCurrent, polling] using current
  | flag id => rw [IsCurrent, polling]; exact current

/-- The list of all tasks stays current as long as no record is altered. -/
theorem IsCurrent.of_alters (current : ViewKind.tasks.IsCurrent t value)
    (same : ∀ id, t.store.tasks.alters t'.store.tasks id = false) :
    ViewKind.tasks.IsCurrent t' value := by
  obtain ⟨list, rfl, equal⟩ := current
  have further := Collection.list_beq_of_alters same
  rw [beq_records_iff] at equal further
  exact ⟨list, rfl, beq_records_iff.mpr (equal.trans further)⟩

end ViewKind

/-! ### Views -/

/-- What a view remembers of its latest reading is true: its tracker has been opened, and the list
of all tasks was read at a version that the store has come to, and is current unless the store has
left that version. -/
structure View.IsFaithful (w : World κ) (v : View) : Prop where
  inside : ∀ k, v.source = some k → k < w.trackers.length
  list : v.kind = .tasks → ∀ k n, v.source = some k → v.readAt = some n →
    n ≤ (w.tracker k).store.version ∧
      (n = (w.tracker k).store.version → ViewKind.tasks.IsCurrent (w.tracker k) v.value)

namespace View

variable {w w' : World κ} {v : View} {t : Tracker κ} {k : Nat}

/-- Whether a view is left as it is when it is brought up to date. -/
def keeps (v : View) (t : Tracker κ) : Bool :=
  match v.kind with
  | .tasks => v.readAt = some t.store.version
  | _ => v.value == v.kind.read t

theorem keeps_tasks (tasks : v.kind = .tasks) (t : Tracker κ) :
    v.keeps t = decide (v.readAt = some t.store.version) := by
  rw [keeps, tasks]

theorem keeps_other (other : v.kind ≠ .tasks) (t : Tracker κ) :
    v.keeps t = (v.value == v.kind.read t) := by
  obtain ⟨source, kind, value, edition, readAt⟩ := v
  cases kind with
  | tasks => exact absurd rfl other
  | _ => rfl

theorem refresh_tasks (tasks : v.kind = .tasks) (t : Tracker κ) :
    v.refresh (some t) = if v.readAt = some t.store.version then v
      else { v.renewed (v.kind.read t) with readAt := some t.store.version } := by
  obtain ⟨source, kind, value, edition, readAt⟩ := v
  obtain rfl : kind = .tasks := tasks
  rfl

theorem refresh_other (other : v.kind ≠ .tasks) (t : Tracker κ) :
    v.refresh (some t) = if (v.value == v.kind.read t) = true then v
      else v.renewed (v.kind.read t) := by
  obtain ⟨source, kind, value, edition, readAt⟩ := v
  cases kind with
  | tasks => exact absurd rfl other
  | _ => rfl

theorem refresh_of_keeps (keeps : v.keeps t = true) : v.refresh (some t) = v := by
  by_cases tasks : v.kind = .tasks
  · rw [keeps_tasks tasks, decide_eq_true_iff] at keeps
    rw [refresh_tasks tasks, if_pos keeps]
  · rw [keeps_other tasks] at keeps
    rw [refresh_other tasks, if_pos keeps]

/-- A view that is not left as it is gets a new edition of what is read. -/
theorem refresh_of_not_keeps (renews : v.keeps t = false) :
    ∃ readAt, v.refresh (some t) = { v.renewed (v.kind.read t) with readAt } ∧
      (v.kind = .tasks → readAt = some t.store.version) := by
  by_cases tasks : v.kind = .tasks
  · rw [keeps_tasks tasks, decide_eq_false_iff_not] at renews
    exact ⟨_, by rw [refresh_tasks tasks, if_neg renews], fun _ => rfl⟩
  · rw [keeps_other tasks, ← Bool.not_eq_true] at renews
    refine ⟨v.readAt, ?_, fun now => absurd now tasks⟩
    rw [refresh_other tasks, if_neg renews]
    rfl

theorem isFaithful_make {source : Option Nat} {kind : ViewKind}
    (inside : ∀ k, source = some k → k < w.trackers.length) :
    (make source kind).IsFaithful w where
  inside := inside
  list _ _ _ _ read := by simp [make] at read

/-- The store moves on, and leaves its version only if a record is altered. -/
theorem IsFaithful.mono (faithful : v.IsFaithful w) (count : w.trackers.length ≤ w'.trackers.length)
    (moves : ∀ k < w.trackers.length,
      (w.tracker k).store.version ≤ (w'.tracker k).store.version ∧
        ((w'.tracker k).store.version = (w.tracker k).store.version →
          ∀ id, (w.tracker k).store.tasks.alters (w'.tracker k).store.tasks id = false)) :
    v.IsFaithful w' where
  inside k source := Nat.lt_of_lt_of_le (faithful.inside k source) count
  list tasks k n source read := by
    obtain ⟨before, current⟩ := faithful.list tasks k n source read
    obtain ⟨further, unaltered⟩ := moves k (faithful.inside k source)
    refine ⟨Nat.le_trans before further, fun now => ?_⟩
    have still : (w'.tracker k).store.version = (w.tracker k).store.version :=
      Nat.le_antisymm (now ▸ before) further
    exact (current (now.trans still)).of_alters (unaltered still)

/-- A view that is brought up to date shows what it is to show, if it does when it is left as it
is. -/
theorem refresh_isCurrent_of_keeps
    (current : v.keeps t = true → v.kind.IsCurrent t v.value) :
    v.kind.IsCurrent t (v.refresh (some t)).value := by
  cases keeps : v.keeps t with
  | false =>
    obtain ⟨_, renewed, _⟩ := refresh_of_not_keeps keeps
    rw [renewed]
    exact v.kind.isCurrent_read _
  | true =>
    rw [refresh_of_keeps keeps]
    exact current keeps

/-- Except for the list of all tasks, this is so whatever it remembers. -/
theorem refresh_isCurrent_of_other (other : v.kind ≠ .tasks) (t : Tracker κ) :
    v.kind.IsCurrent t (v.refresh (some t)).value :=
  refresh_isCurrent_of_keeps fun keeps =>
    ViewKind.isCurrent_of_beq ((keeps_other other t).symm.trans keeps)

/-- For the list of all tasks it is so if what it remembers is true. -/
theorem IsFaithful.refresh_isCurrent (faithful : v.IsFaithful w) (source : v.source = some k) :
    v.kind.IsCurrent (w.tracker k) (v.refresh (some (w.tracker k))).value := by
  by_cases tasks : v.kind = .tasks
  · refine refresh_isCurrent_of_keeps fun keeps => ?_
    rw [keeps_tasks tasks] at keeps
    rw [tasks]
    exact (faithful.list tasks k _ source (of_decide_eq_true keeps)).2 rfl
  · exact refresh_isCurrent_of_other tasks _

/-- What a view that is brought up to date remembers is true. -/
theorem IsFaithful.refresh (faithful : v.IsFaithful w) :
    (v.refresh (v.source.map w.tracker)).IsFaithful w := by
  cases source : v.source with
  | none => exact faithful
  | some k =>
    rw [Option.map_some]
    cases keeps : v.keeps (w.tracker k) with
    | true => rwa [refresh_of_keeps keeps]
    | false =>
      obtain ⟨readAt, renewed, read⟩ := refresh_of_not_keeps keeps
      rw [renewed]
      refine ⟨faithful.inside, fun tasks k' n source' read' => ?_⟩
      obtain rfl : k = k' := Option.some.inj (source.symm.trans source')
      obtain rfl : (w.tracker k).store.version = n :=
        Option.some.inj ((read tasks).symm.trans read')
      have tasks : v.kind = .tasks := tasks
      exact ⟨Nat.le_refl _, fun _ => tasks ▸ v.kind.isCurrent_read _⟩

theorem refresh_source (v : View) (t : Tracker κ) :
    (v.refresh (some t)).source = v.source ∧ (v.refresh (some t)).kind = v.kind := by
  cases keeps : v.keeps t with
  | true => rw [refresh_of_keeps keeps]; exact ⟨rfl, rfl⟩
  | false =>
    obtain ⟨_, renewed, _⟩ := refresh_of_not_keeps keeps
    rw [renewed]
    exact ⟨rfl, rfl⟩

theorem readAt_refresh (tasks : v.kind = .tasks) (t : Tracker κ) :
    (v.refresh (some t)).readAt = some t.store.version := by
  cases keeps : v.keeps t with
  | true =>
    rw [refresh_of_keeps keeps]
    rw [keeps_tasks tasks] at keeps
    exact of_decide_eq_true keeps
  | false =>
    obtain ⟨_, renewed, read⟩ := refresh_of_not_keeps keeps
    rw [renewed]
    exact read tasks

/-- It is the same object exactly if it is left as it is. -/
theorem edition_refresh (v : View) (t : Tracker κ) :
    (v.refresh (some t)).edition = v.edition ↔ v.keeps t = true := by
  cases keeps : v.keeps t with
  | true => simp [refresh_of_keeps keeps]
  | false =>
    obtain ⟨_, renewed, _⟩ := refresh_of_not_keeps keeps
    simp [renewed, View.renewed]

/-- Except for the list of all tasks, it is left as it is exactly if its value stays equal. -/
theorem beq_refresh (other : v.kind ≠ .tasks) (t : Tracker κ) :
    (v.value == (v.refresh (some t)).value) = true ↔ v.keeps t = true := by
  cases keeps : v.keeps t with
  | true => simp [refresh_of_keeps keeps, ViewValue.beq_self]
  | false =>
    obtain ⟨_, renewed, _⟩ := refresh_of_not_keeps keeps
    rw [keeps_other other] at keeps
    rw [renewed]
    exact Bool.eq_iff_iff.mp keeps

end View

namespace World

variable {w w' : World κ} {asked : Option (Call κ)} {news : Option (Nat × StoreEvent)}

/-- What every view remembers of its latest reading is true. -/
def IsFaithful (w : World κ) : Prop := ∀ v ∈ w.views, v.IsFaithful w

/-- Nothing happens to the views, or one of them is opened or read. -/
theorem Stir.views (stir : w.Stir asked w' news) :
    w'.views = w.views ∨
      (∃ source kind, asked = some (.openView source kind) ∧
        w' = { w with views := w.views ++ [.make source kind] }) ∨
      ∃ v, asked = some (.snapshot v) ∧ w' = (w.snapshot v).2 := by
  cases stir with
  | calm calm => exact .inl calm.views
  | opened call => exact .inl rfl
  | seeded call => exact .inl rfl
  | viewed call => exact .inr (.inl ⟨_, _, call, rfl⟩)
  | read call => exact .inr (.inr ⟨_, call, rfl⟩)
  | changed calm made => exact .inl calm.views

theorem Stir.count_le (stir : w.Stir asked w' news) : w.trackers.length ≤ w'.trackers.length := by
  cases stir with
  | calm calm => exact Nat.le_of_eq calm.count.symm
  | opened call =>
    rw [after]
    simp
  | seeded call => exact Nat.le_refl _
  | viewed call => exact Nat.le_refl _
  | read call => exact Nat.le_refl _
  | changed calm made => exact Nat.le_of_eq ((length_trackers_mutate _ _ _).trans calm.count).symm

/-- A view that is not read is left alone. -/
theorem Stir.keeps_view (stir : w.Stir asked w' news) {v : Nat} {view : View}
    (opened : w.views[v]? = some view) (unread : asked ≠ some (.snapshot v)) :
    w'.views[v]? = some view := by
  obtain same | ⟨source, kind, _, rfl⟩ | ⟨u, call, rfl⟩ := stir.views
  · rw [same, opened]
  · exact List.getElem?_append_left (List.getElem?_eq_some_iff.mp opened).1 ▸ opened
  · have other : u ≠ v := fun here => unread (here ▸ call)
    exact (List.getElem?_set_ne other).trans opened

/-- Whatever views notice, what they remember stays true, if views are opened on trackers that have
been opened. -/
theorem Stir.faithful (stir : w.Stir asked w' news) (keyed : w.Keyed) (behind : w.Behind)
    (known : ∀ k kind, asked = some (.openView (some k) kind) → k < w.trackers.length)
    (faithful : w.IsFaithful) : w'.IsFaithful := by
  have stays : ∀ v : View, v.IsFaithful w → v.IsFaithful w' := fun v before => by
    refine before.mono stir.count_le fun k inside => ?_
    have reckons := stir.reckons inside (keyed k) behind
    refine ⟨reckons.version ▸ Nat.le_add_right _ _, fun still => ?_⟩
    refine Collection.differs_eq_false_iff.mp (Bool.eq_false_iff.mpr fun differ => ?_)
    have moved := reckons.version
    rw [if_pos differ, still] at moved
    exact absurd moved (Nat.ne_of_lt (Nat.lt_succ_self _))
  obtain same | ⟨source, kind, call, rfl⟩ | ⟨u, call, rfl⟩ := stir.views
  · exact fun v mem => stays v (faithful v (same ▸ mem))
  · intro v mem
    rcases List.mem_append.mp mem with old | new
    · exact stays v (faithful v old)
    · obtain rfl := List.mem_singleton.mp new
      exact View.isFaithful_make fun k source' => known k kind (source' ▸ call)
  · intro v mem
    rcases List.mem_or_eq_of_mem_set mem with old | rfl
    · exact stays v (faithful v old)
    · refine stays _ (View.IsFaithful.refresh ?_)
      rw [List.getD_eq_getElem?_getD]
      cases found : w.views[u]? with
      | none => exact View.isFaithful_make (by simp)
      | some v => exact faithful v (List.mem_of_getElem? found)

end World

namespace Machine

variable {c : Consumer σ κ} {given : Code σ κ → Prop} {m m' m₀ : Machine σ κ} {k v : Nat}
  {view : View} {states : List (Machine σ κ)}

/-- The view that is about to be read. -/
def reads? (m : Machine σ κ) : Option Nat :=
  match m.request? with
  | some (.snapshot v) => some v
  | _ => none

theorem reads?_eq_some : m.reads? = some v ↔ m.request? = some (.snapshot v) := by
  rw [reads?]
  cases m.request? with
  | none => simp
  | some request => cases request <;> simp

/-- A view that is about to be opened on a tracker has one that has been opened. -/
def opensKnown (m : Machine σ κ) : Bool :=
  match m.request? with
  | some (.openView (some k) _) => k < m.world.trackers.length
  | _ => true

theorem isIdle_of_request? {request : Call κ} (asks : m.request? = some request) :
    m.isIdle = false := by
  obtain ⟨memory, world, control, stack⟩ := m
  cases control with
  | code p => cases stack <;> rfl
  | _ => simp [request?] at asks

theorem lt_of_opensKnown {kind : ViewKind} (known : m.opensKnown = true)
    (asks : m.request? = some (.openView (some k) kind)) : k < m.world.trackers.length := by
  rw [opensKnown, asks] at known
  exact of_decide_eq_true known

theorem Run.faithful {memory : σ} {storage : Storage} {wallClock : Nat} {hasExecutor : Bool}
    (run : Run c given (.idle memory (.blank storage wallClock hasExecutor)) states m)
    (known : ∀ s ∈ states, s.opensKnown = true) : m.world.IsFaithful := by
  induction run with
  | start => exact fun v mem => absurd mem List.not_mem_nil
  | @move states m₁ m₂ run next ih =>
    have now : Reachable c m₁ := run.reachable
    have known₁ : m₁.opensKnown = true := by
      rcases List.mem_cons.mp run.mem_cons with rfl | mem
      · rfl
      · exact known m₁ (List.mem_append_left _ mem)
    exact next.stir.faithful now.sound.keyed now.behind (fun k kind => lt_of_opensKnown known₁)
      (ih fun s mem => known s (List.mem_append_left _ mem))

/-- A view that is not read is left alone. -/
theorem Run.keeps_view (run : Run c given m₀ states m)
    (unread : ∀ p ∈ passages m₀ states, p.1.reads? ≠ some v)
    (opened : m₀.world.views[v]? = some view) : m.world.views[v]? = some view := by
  induction run with
  | start => exact opened
  | @move states m₁ m₂ run next ih =>
    rw [run.passages_move] at unread
    have last := unread (m₁, m₂) (List.mem_append_right _ List.mem_cons_self)
    exact next.stir.keeps_view (ih fun p mem => unread p (List.mem_append_left _ mem))
      fun asks => last (reads?_eq_some.mpr asks)

/-- A reader gets the value and the edition of the view that has been brought up to date. -/
theorem step_snapshot (asks : m.reads? = some v) (opened : m.world.views[v]? = some view)
    (source : view.source = some k) :
    let read := view.refresh (some (m.tracker k))
    (m.step c).control = .returned (.snapshot read.value read.edition) ∧
      (m.step c).world = { m.world with views := m.world.views.set v read } := by
  rw [reads?_eq_some] at asks
  obtain ⟨memory, world, control, stack⟩ := m
  have found : world.views.getD v default = view := by
    rw [List.getD_eq_getElem?_getD, opened]
    rfl
  have read : world.snapshot v = (view.refresh (some (world.tracker k)),
      { world with views := world.views.set v (view.refresh (some (world.tracker k))) }) := by
    rw [World.snapshot, found, source]
    rfl
  cases control with
  | code p =>
    cases p with
    | call request next =>
      obtain rfl : request = .snapshot v := Option.some.inj asks
      have stepped : (Machine.mk memory world (.code (.call (.snapshot v) next)) stack).step c =
          (((Machine.mk memory world (.code (.call (.snapshot v) next)) stack).push
            (.awaiting next)).withWorld (world.snapshot v).2).reply
              (.snapshot (world.snapshot v).1.value (world.snapshot v).1.edition) := rfl
      rw [stepped, read]
      exact ⟨rfl, rfl⟩
    | _ => simp [request?] at asks
  | _ => simp [request?] at asks

/-- Snapshots are current, whatever has happened in a run: a reader gets what the tracker holds at
that moment. When the same view is read again, the second snapshot is the same object as the first
one exactly in the following cases. For the list of all tasks, no record was inserted, altered or
deleted in between. For the other views, the two values are equal. -/
theorem snapshot_current {memory : σ} {storage : Storage} {wallClock : Nat} {hasExecutor : Bool}
    (run : Run c given (.idle memory (.blank storage wallClock hasExecutor)) states m)
    (known : ∀ s ∈ states, s.opensKnown = true) (asks : m.reads? = some v)
    (opened : m.world.views[v]? = some view) (source : view.source = some k) :
    ∃ value edition, (m.step c).control = .returned (.snapshot value edition) ∧
      view.kind.IsCurrent (m.tracker k) value ∧
      ∀ between m', Run c given (m.step c) between m' →
        (∀ s ∈ between, s.opensKnown = true) →
        (∀ p ∈ passages (m.step c) between, p.1.reads? ≠ some v) → m'.reads? = some v →
        ∃ value' edition', (m'.step c).control = .returned (.snapshot value' edition') ∧
          view.kind.IsCurrent (m'.tracker k) value' ∧
          (edition' = edition → value' = value) ∧
          (view.kind = .tasks → (edition' = edition ↔
            ∀ p ∈ passages (m.step c) between, changes k p = false)) ∧
          (view.kind ≠ .tasks → (edition' = edition ↔ (value == value') = true)) := by
  have faithful : view.IsFaithful m.world := run.faithful known view (List.mem_of_getElem? opened)
  obtain ⟨replied, world⟩ := step_snapshot (c := c) asks opened source
  refine ⟨_, _, replied, faithful.refresh_isCurrent source, ?_⟩
  intro between m' further known' unread asks'
  -- In between the view stays as the first reading has left it.
  generalize first : view.refresh (some (m.tracker k)) = read at *
  have busy : m.isIdle = false := isIdle_of_request? (reads?_eq_some.mp asks)
  have kept : read.source = some k ∧ read.kind = view.kind := by
    rw [← first]
    exact ⟨(view.refresh_source _).1.trans source, (view.refresh_source _).2⟩
  have opened₁ : (m.step c).world.views[v]? = some read := by
    rw [world]
    exact List.getElem?_set_self (List.getElem?_eq_some_iff.mp opened).1
  have opened' : m'.world.views[v]? = some read := further.keeps_view unread opened₁
  have whole := (run.move (.step busy)).append further
  have faithful' : read.IsFaithful m'.world := by
    refine whole.faithful (fun s mem => ?_) read (List.mem_of_getElem? opened')
    rcases List.mem_append.mp mem with old | new
    · rcases List.mem_append.mp old with old | last
      · exact known s old
      · rw [List.mem_singleton.mp last, opensKnown, request?, replied]
    · exact known' s new
  obtain ⟨replied', _⟩ := step_snapshot (c := c) asks' opened' kept.1
  have same := read.edition_refresh (m'.tracker k)
  refine ⟨_, _, replied', kept.2 ▸ faithful'.refresh_isCurrent kept.1, fun still => ?_,
    fun tasks => ?_, fun other => ?_⟩
  · rw [View.refresh_of_keeps (same.mp still)]
  · have readAt : read.readAt = some (m.tracker k).store.version := by
      rw [← first]
      exact View.readAt_refresh tasks _
    have start : (m.step c).tracker k = m.tracker k := by rw [tracker, world]; rfl
    have version := further.version (run.move (.step busy)).reachable k
    rw [same, View.keeps_tasks (kept.2.trans tasks), decide_eq_true_iff, readAt, version, start,
      Option.some_inj]
    simp [List.countP_eq_zero]
  · exact same.trans (read.beq_refresh (kept.2 ▸ other) _).symm

/-- A tracker is opened, and a view of all tasks. A record is kept, and the view is read; then an
equal record takes its place, a session starts, and the view is read again. -/
def reading : Code Unit Nat :=
  .call (.openTracker "tasks" .default) fun _ =>
  .call (.openView (some 0) .tasks) fun _ =>
  .call (.add 0 (balanced false)) fun _ =>
  .call (.snapshot 0) fun _ =>
  .call (.add 0 (balanced true)) fun _ =>
  .call (.start 0 "a" 8) fun _ =>
  .call (.snapshot 0) fun _ => .done

/-- The view is about to be read. -/
def firstReading : Machine Unit Nat := stepTimes onlooker 8 (blankPage.code reading)

/-- It is about to be read again. -/
def secondReading : Machine Unit Nat := stepTimes onlooker 7 (firstReading.step onlooker)

/-- The record has been replaced and a session has started, yet both snapshots are the same object.
-/
theorem snapshot_current_replaced :
    ∃ value edition,
      (firstReading.step onlooker).control = .returned (.snapshot value edition) ∧
      ViewKind.tasks.IsCurrent (firstReading.tracker 0) value ∧
      (secondReading.step onlooker).control = .returned (.snapshot value edition) ∧
      ViewKind.tasks.IsCurrent (secondReading.tracker 0) value := by
  have run : Run onlooker (fun _ => True) blankPage
      ([blankPage.code reading] ++ trail onlooker 8 (blankPage.code reading)) firstReading :=
    (Run.start.move (.code rfl trivial)).append (run_steps (by decide +kernel))
  have further : Run onlooker (fun _ => True) (firstReading.step onlooker)
      (trail onlooker 7 (firstReading.step onlooker)) secondReading :=
    run_steps (by decide +kernel)
  have only : firstReading.world.views[0]?.map (fun v => (v.kind, v.source)) =
      some (.tasks, some 0) := by decide +kernel
  obtain ⟨view, opened, same⟩ := Option.map_eq_some_iff.mp only
  obtain ⟨kind, source⟩ := Prod.mk.inj same
  obtain ⟨value, edition, replied, current, again⟩ := snapshot_current run
    (by decide +kernel) (by decide +kernel) opened source
  obtain ⟨value', edition', replied', current', same, list, _⟩ := again _ _ further
    (by decide +kernel) (by decide +kernel) (by decide +kernel)
  obtain rfl : edition' = edition := (list kind).mpr (by decide +kernel)
  obtain rfl : value' = value := same rfl
  rw [kind] at current current'
  exact ⟨value', edition', replied, current, replied', current'⟩

end Machine

end TaskWatch
