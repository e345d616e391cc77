import TaskWatch.Proofs.Run.Script
import TaskWatch.Proofs.Session.Unfolding

/-!
# What comes of time

While time passes, the executor gives turns to the sessions that are ready, in any order, and moves
its clock when none is. When callbacks and listeners only observe, this does to each task what the
passing of time does to the task by itself: its session gets its turns at the times at which they are
due, whatever other sessions do at the same time.

## Main definitions

* `World.Elapses` — sessions come and go, and time passes.
* `Machine.Turned` — a session has had its turn.
* `Machine.Elapsed` — time has passed along a run.

## Main results

* `Machine.wake_unfolds` — a turn of any session.
* `Machine.Lapses.passes` — time passes.
* `Machine.Conducts.uncons_call`, `Machine.Conducts.uncons_pass` — the first directive of a script.
-/

namespace TaskWatch

variable {σ κ : Type}

namespace World

/-- Sessions come and go and write statuses, and what is not in trackers and storages may change. -/
def Elapses (number : Nat) : World κ → World κ → Prop :=
  Relation.ReflTransGen fun w w' =>
    w.Goes number (fun _ => True) w' ∨ w'.trackers = w.trackers ∧ w'.storage = w.storage

variable {w w' w'' : World κ} {number : Nat} {id : TaskId} {F : Facet κ}

theorem Elapses.refl (w : World κ) : w.Elapses number w := Relation.ReflTransGen.refl

theorem Elapses.trans (elapses : w.Elapses number w') (further : w'.Elapses number w'') :
    w.Elapses number w'' :=
  Relation.ReflTransGen.trans elapses further

theorem Elapses.goes (goes : w.Goes number (fun _ => True) w') : w.Elapses number w' :=
  Relation.ReflTransGen.single (.inl goes)

theorem Elapses.aside (trackers : w'.trackers = w.trackers) (storage : w'.storage = w.storage) :
    w.Elapses number w' :=
  Relation.ReflTransGen.single (.inr ⟨trackers, storage⟩)

theorem Settled.near (settled : w.Settled number) (near : w.Near w') : w'.Settled number where
  toTidy := settled.toTidy.near near
  shown id := by
    obtain ⟨F, shows⟩ := settled.shown id
    exact ⟨F, near.shows shows⟩

theorem Shows.atTime (shows : w.Shows number id F) (time : Nat) :
    ({ w with clock := time } : World κ).Shows number id (F.atTime time) :=
  ⟨⟨rfl, shows.settings, shows.record⟩, shows.seat⟩

theorem Settled.atTime (settled : w.Settled number) (time : Nat) :
    ({ w with clock := time } : World κ).Settled number where
  inside := settled.inside
  keyed := settled.keyed
  executor := settled.executor
  below := settled.below
  given := settled.given
  sole := settled.sole
  shown id := by
    obtain ⟨F, shows⟩ := settled.shown id
    exact ⟨_, shows.atTime time⟩

theorem Undergoes.clock {allowed : Deed κ → Prop} (undergoes : w.Undergoes allowed w') :
    w'.clock = w.clock := by
  induction undergoes with
  | refl => rfl
  | tail _ act ih =>
    obtain ⟨_, _, _, does⟩ := act
    exact does.clock.trans ih

/-- A session that is suspended is on the list. -/
theorem Shows.exists_entry (shows : w.Shows number id F) {s : Stint κ × Pause}
    (session : F.session = some s) :
    ∃ entry ∈ w.suspended, w.lives entry.task.name = true ∧ entry.pause = s.2 ∧
      entry.task.stint = s.1 ∧ entry.task.tracker = number ∧ entry.task.id = id := by
  have seat := shows.seat
  rw [World.seat, session] at seat
  cases found : (w.tracker number).sessions.find? id with
  | none => simp [found] at seat
  | some serial =>
    rw [found] at seat
    have places : SessionName.places ⟨number, id, serial⟩ w.suspended = [s] := by simpa using seat
    have mem : s ∈ SessionName.places ⟨number, id, serial⟩ w.suspended :=
      places ▸ List.mem_singleton.mpr rfl
    obtain ⟨entry, chosen, rfl⟩ := List.mem_map.mp mem
    obtain ⟨there, named⟩ := List.mem_filter.mp chosen
    have named : entry.task.name = ⟨number, id, serial⟩ := of_decide_eq_true named
    exact ⟨entry, there, named ▸ lives_iff.mpr found, rfl, rfl,
      congrArg SessionName.tracker named, congrArg SessionName.id named⟩

/-- A session that lives and is ready is due. -/
theorem Shows.due_of_isReady {entry : Suspended κ}
    (shows : w.Shows entry.task.tracker entry.task.id F)
    (session : F.session = some (entry.task.stint, entry.pause))
    (lives : w.lives entry.task.name = true) (ready : w.isReady entry = true) :
    F.due = some F.clock := by
  have live : w.isLive entry.task = true := lives
  rw [World.isReady, live, shows.clock] at ready
  rw [Facet.due, session]
  cases pause : entry.pause with
  | fresh => simp
  | fetching turn until_ =>
    cases until_ with
    | none => simp [pause, Pause.wakeTime] at ready
    | some time =>
      have soon : time ≤ F.clock := by simpa [pause, Pause.wakeTime] using ready
      simp [Pause.wakeTime, soon]
  | sleeping time =>
    have soon : time ≤ F.clock := by simpa [pause, Pause.wakeTime] using ready
    simp [Pause.wakeTime, soon]

end World

namespace Machine

variable {c : Consumer σ κ} {b : Backend κ} {m m' : Machine σ κ} {number : Nat}
  {states : List (Machine σ κ)}

/-- A session that was ready has had its turn. This does to the task of the session what a turn does
to the task by itself, and nothing to other tasks. -/
structure Turned (b : Backend κ) (number : Nat) (m woken : Machine σ κ) (states : List (Machine σ κ))
    (m' : Machine σ κ) : Prop where
  tidy : m'.world.Tidy number
  elapses : m.world.Elapses number m'.world
  shows : ∀ id F, m.world.Shows number id F → ∃ next : Facet.Next κ,
    m'.world.Shows number id next.1 ∧
    World.change number id m.world woken.world ++ glimpses number id woken states = next.2 ∧
    (next = F.still ∨ F.due = some F.clock ∧ next = F.turn b id)

theorem Turned.settled {woken : Machine σ κ} (turned : Turned b number m woken states m')
    (settled : m.world.Settled number) : m'.world.Settled number where
  toTidy := turned.tidy
  shown id := by
    obtain ⟨F, shows⟩ := settled.shown id
    obtain ⟨next, shows', _⟩ := turned.shows id F shows
    exact ⟨next.1, shows'⟩

section Wake

variable {sooner later : List (Suspended κ)} {entry : Suspended κ}

/-- The session lives. -/
private theorem wake_unfolds_lives (obeys : c.Obeys b)
    (settled : m.world.Settled entry.task.tracker) (idle : m.isIdle = true)
    (listed : m.world.suspended = sooner ++ entry :: later) (ready : m.world.isReady entry = true)
    (lives : m.world.lives entry.task.name = true) :
    let woken := (m.withWorld { m.world with suspended := sooner ++ later }).wake entry
    ∃ first m₁, Path c woken first m₁ ∧ m₁.isIdle = true ∧
      Turned b entry.task.tracker m woken first m₁ := by
  have tidy := settled.without listed
  obtain ⟨F, shows⟩ := settled.shown entry.task.id
  obtain ⟨session, runs⟩ := shows.taken listed lives
  obtain ⟨first, memory, reply, after, path, _, affair⟩ :=
    wake_lands obeys settled.toTidy shows (stack_of_isIdle idle) listed lives
  have aside : m.world.Elapses entry.task.tracker { m.world with suspended := sooner ++ later } :=
    .aside rfl rfl
  refine ⟨first, _, path, rfl, World.Goes.tidy affair.goes tidy,
    aside.trans (.goes (affair.goes.mono fun d within => within.mono fun _ _ => trivial)),
    fun id G shown => ?_⟩
  by_cases own : id = entry.task.id
  · subst own
    obtain rfl := shows.unique shown
    exact ⟨_, affair.shows, affair.own, .inr ⟨shows.due_of_isReady session lives ready, rfl⟩⟩
  · have other : ∀ serial, m.world.lives ⟨entry.task.tracker, id, serial⟩ →
        entry.task.name ≠ ⟨entry.task.tracker, id, serial⟩ := fun serial _ same =>
      own (congrArg SessionName.id same).symm
    exact ⟨G.still, affair.goes.shows tidy own (shown.without listed other), affair.others id own,
      .inl rfl⟩

/-- The session has ended: there is nothing to do for it. -/
private theorem wake_unfolds_dead (obeys : c.Obeys b) (settled : m.world.Settled number)
    (idle : m.isIdle = true) (listed : m.world.suspended = sooner ++ entry :: later)
    (dead : m.world.lives entry.task.name = false) :
    let woken := (m.withWorld { m.world with suspended := sooner ++ later }).wake entry
    ∃ first m₁, Path c woken first m₁ ∧ m₁.isIdle = true ∧ Turned b number m woken first m₁ := by
  obtain ⟨first, memory, reply, after, path, rfl, silent⟩ :=
    wake_lands_dead (m := m.withWorld { m.world with suspended := sooner ++ later }) obeys number
      (stack_of_isIdle idle) dead
  refine ⟨first, _, path, rfl, settled.without listed, .aside rfl rfl, fun id G shown => ?_⟩
  have still : ({ m.world with suspended := sooner ++ later } : World κ).Shows number id G :=
    shown.without listed fun serial living same => by
      rw [same] at dead
      exact absurd living (Bool.eq_false_iff.mp dead)
  exact ⟨G.still, still, silent id, .inl rfl⟩

/-- A turn of any session. -/
theorem wake_unfolds (obeys : c.Obeys b) (settled : m.world.Settled number) (idle : m.isIdle = true)
    (listed : m.world.suspended = sooner ++ entry :: later) (ready : m.world.isReady entry = true) :
    let woken := (m.withWorld { m.world with suspended := sooner ++ later }).wake entry
    ∃ first m₁, Path c woken first m₁ ∧ m₁.isIdle = true ∧ Turned b number m woken first m₁ := by
  cases lives : m.world.lives entry.task.name with
  | true =>
    obtain rfl : entry.task.tracker = number := settled.sole _ lives
    exact wake_unfolds_lives obeys settled idle listed ready lives
  | false => exact wake_unfolds_dead obeys settled idle listed lives

end Wake

/-- Time has passed along a run. What becomes of every task is what becomes of it by itself. -/
structure Elapsed (b : Backend κ) (number : Nat) (m : Machine σ κ) (states : List (Machine σ κ))
    (m' : Machine σ κ) : Prop where
  settled : m'.world.Settled number
  elapses : m.world.Elapses number m'.world
  passes : ∀ id F, m.world.Shows number id F → ∃ F', m'.world.Shows number id F' ∧
    Facet.Passes b id m'.world.clock F (glimpses number id m states) F'

/-- What a task is now, it has come to be by itself from what it was before. -/
theorem Elapsed.before (elapsed : Elapsed b number m states m') (settled : m.world.Settled number)
    {id : TaskId} {F' : Facet κ} (shows' : m'.world.Shows number id F') :
    ∃ F, m.world.Shows number id F ∧
      Facet.Passes b id m'.world.clock F (glimpses number id m states) F' := by
  obtain ⟨F, shows⟩ := settled.shown id
  obtain ⟨F₁, shows₁, passes⟩ := elapsed.passes id F shows
  obtain rfl := shows₁.unique shows'
  exact ⟨F, shows, passes⟩

/-- Somebody has done something that no task notices. -/
private theorem Elapsed.near {m₁ : Machine σ κ} (rest : Elapsed b number m₁ states m')
    (idle : m.isIdle = true) (near : m.world.Near m₁.world) :
    Elapsed b number m (m₁ :: states) m' where
  settled := rest.settled
  elapses := (World.Elapses.goes near.goes).trans rest.elapses
  passes id F shows := by
    obtain ⟨F', shows', passes⟩ := rest.passes id F (near.shows shows)
    refine ⟨F', shows', ?_⟩
    rw [glimpses, shown_of_isIdle idle, World.change_of_eq (near.record number id)]
    exact passes

/-- No session is ready. -/
theorem isQuiet.waits (quiet : m.isQuiet = true) {id : TaskId} {F : Facet κ}
    (shows : m.world.Shows number id F) {s : Stint κ × Pause} (session : F.session = some s) :
    s.2 ≠ .fresh ∧ ∀ wake ∈ s.2.wakeTime, F.clock < wake := by
  obtain ⟨entry, mem, lives, pause, _⟩ := shows.exists_entry session
  have live : m.world.isLive entry.task = true := lives
  have waits := List.all_eq_true.mp (Bool.and_eq_true_iff.mp quiet).2 entry mem
  rw [World.isReady, live, pause, shows.clock] at waits
  simp only [Bool.not_true, Bool.false_or, Bool.not_or, Bool.and_eq_true, Bool.not_eq_true',
    beq_eq_false_iff_ne, Option.any_eq_false_iff_get] at waits
  refine ⟨waits.1, fun wake due => ?_⟩
  simpa [Option.mem_def.mp due] using waits.2

/-- When no session is ready, no turn is due. -/
theorem isQuiet.facet (quiet : m.isQuiet = true) {id : TaskId} {F : Facet κ}
    (shows : m.world.Shows number id F) : F.IsQuiet := by
  intro time due
  cases session : F.session with
  | none => simp [Facet.due, session] at due
  | some s =>
    obtain ⟨awake, later⟩ := isQuiet.waits quiet shows session
    obtain ⟨wake, wakes, rfl⟩ : ∃ wake, s.2.wakeTime = some wake ∧ max F.clock wake = time := by
      simpa [Facet.due, session, awake] using due
    exact Nat.lt_of_lt_of_le (later wake wakes) (Nat.le_max_right _ _)

/-- No more time has passed. -/
private theorem Elapsed.finished (settled : m.world.Settled number) : Elapsed b number m [] m where
  settled := settled
  elapses := .refl _
  passes id F shows := by
    refine ⟨F, shows, ?_⟩
    rw [shows.clock]
    exact Facet.Passes.finished fun _ due => F.clock_le_due due

/-- The clock of the executor has moved. -/
private theorem Elapsed.tick {time : Nat} (rest : Elapsed b number (m.atTime time) states m')
    (quiet : m.isQuiet = true) (later : m.world.clock ≤ time)
    (due : ∀ entry ∈ m.world.suspended, ∀ wake ∈ entry.pause.wakeTime, time ≤ wake) :
    Elapsed b number m (m.atTime time :: states) m' where
  settled := rest.settled
  elapses := by
    have aside : m.world.Elapses number (m.atTime time).world := .aside rfl rfl
    exact aside.trans rest.elapses
  passes id F shows := by
    obtain ⟨F', shows', passes⟩ := rest.passes id _ (shows.atTime time)
    refine ⟨F', shows', ?_⟩
    have same : World.change number id m.world (m.atTime time).world = [] := World.change_of_eq rfl
    rw [glimpses, shown_of_isIdle (Bool.and_eq_true_iff.mp quiet).1, same]
    refine passes.later (shows.clock ▸ later) (fun s session => (isQuiet.waits quiet shows session).1) ?_
    intro s session wake wakes
    obtain ⟨entry, mem, _, pause, _⟩ := shows.exists_entry session
    exact due entry mem wake (pause ▸ wakes)

/-- A session has had its turn. -/
private theorem Elapsed.wake (obeys : c.Obeys b) (settled : m.world.Settled number)
    (idle : m.isIdle = true) {sooner later : List (Suspended κ)} {entry : Suspended κ}
    (listed : m.world.suspended = sooner ++ entry :: later) (ready : m.world.isReady entry = true)
    (run : Run c (fun _ => False)
      ((m.withWorld { m.world with suspended := sooner ++ later }).wake entry) states m')
    (finished : m'.isIdle = true)
    (rest : ∀ {m₁ further}, further.length ≤ states.length → m₁.isIdle = true →
      m₁.world.Settled number → Run c (fun _ => False) m₁ further m' → Elapsed b number m₁ further m') :
    Elapsed b number m
      ((m.withWorld { m.world with suspended := sooner ++ later }).wake entry :: states) m' := by
  obtain ⟨first, m₁, path, idle₁, turned⟩ := wake_unfolds obeys settled idle listed ready
  have whole := run
  obtain ⟨further, rfl, run'⟩ := run.through path finished
  obtain ⟨settled', elapses', passes⟩ := rest (by simp) idle₁ (turned.settled settled) run'
  refine ⟨settled', turned.elapses.trans elapses', fun id F shows => ?_⟩
  obtain ⟨next, shows₁, seen, turned⟩ := turned.shows id F shows
  obtain ⟨F', shows', passes'⟩ := passes id _ shows₁
  refine ⟨F', shows', ?_⟩
  rw [glimpses, shown_of_isIdle idle, path.glimpses_append, List.nil_append, ← List.append_assoc, seen]
  rcases turned with rfl | ⟨due, rfl⟩
  · exact passes'
  · have clock : F.clock ≤ m'.world.clock := by
      have woken := whole.clock_le
      rw [wake_clock] at woken
      exact shows.clock ▸ woken
    exact .turn due clock passes'

/-- While time passes, each task goes through what it goes through by itself. -/
theorem Lapses.passes (lapses : Lapses c m states m') (obeys : c.Obeys b) (idle : m.isIdle = true)
    (settled : m.world.Settled number) : Elapsed b number m states m' := by
  obtain ⟨run, idle', there⟩ := lapses
  induction length : states.length using Nat.strongRecOn generalizing m states with
  | _ n ih =>
    rcases run.uncons with ⟨rfl, rfl⟩ | ⟨m₁, rest, rfl, begun, further⟩
    · exact .finished settled
    · have fewer : rest.length < n := by simp [← length]
      cases begun with
      | step busy => simp [idle] at busy
      | code _ allowed => exact allowed.elim
      | remember _ memory =>
        exact .near (ih _ fewer idle settled further rfl) idle (.refl _)
      | wake _ listed ready =>
        refine .wake obeys settled idle listed ready further idle' ?_
        intro m₂ others le idle₂ settled₂ run₂
        exact ih _ (Nat.lt_of_le_of_lt le fewer) idle₂ settled₂ run₂ rfl
      | tick quiet later due =>
        exact .tick (ih _ fewer idle (settled.atTime _) further rfl) quiet later due
      | await _ begun =>
        have near := World.near_beginWait begun
        exact .near (ih _ fewer idle (settled.near near) further rfl) idle near
      | endWait _ wait =>
        have near := m.world.near_endWait wait
        exact .near (ih _ fewer idle (settled.near near) further rfl) idle near
      | close _ same => simpa using further.hasExecutor there
      | abandon _ closed _ => exact absurd (closed.symm.trans settled.executor) Bool.false_ne_true

/-! ### Scripts -/

variable {script : List (Directive κ)}

/-- The first call of a script does to each task what it does to the task by itself. -/
theorem Conducts.uncons_call (obeys : c.Obeys b) {request : Call κ}
    (conducts : Conducts c m (.call request :: script) states m') (idle : m.isIdle = true)
    (settled : m.world.Settled number) (on : request.IsOn number) :
    ∃ first m₁ rest, states = first ++ rest ∧ Conducts c m₁ script rest m' ∧ m₁.isIdle = true ∧
      Run c (fun _ => True) m first m₁ ∧
      Unfolds number (request.Causes number) m.world (fun id F => F.called b id request)
        (fun id => glimpses number id m first) m₁.world := by
  cases conducts with
  | call path finished rest =>
    obtain ⟨first, m₁, path', finished', unfolds⟩ := call_unfolds obeys settled idle on
    obtain ⟨rfl, rfl⟩ := path.unique finished path' finished'
    exact ⟨_, _, _, rfl, rest, finished, path.run.cons (.code idle trivial), unfolds⟩

/-- While time passes at the beginning of a script, each task goes through what it goes through by
itself. -/
theorem Conducts.uncons_pass (obeys : c.Obeys b) {millis : Nat}
    (conducts : Conducts c m (.pass millis :: script) states m') (idle : m.isIdle = true)
    (settled : m.world.Settled number) :
    ∃ first m₁ rest, states = first ++ rest ∧ Conducts c m₁ script rest m' ∧ m₁.isQuiet = true ∧
      Run c (fun _ => False) m first m₁ ∧ m₁.world.clock = m.world.clock + millis ∧
      Elapsed b number m first m₁ := by
  cases conducts with
  | pass lapses quiet clock rest =>
    exact ⟨_, _, _, rfl, rest, quiet, lapses.run, clock, lapses.passes obeys idle settled⟩

end Machine

end TaskWatch
