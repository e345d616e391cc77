import TaskWatch.Proofs.Run.Attendance
import TaskWatch.Proofs.View.Current
import TaskWatch.Proofs.View.Subscribed

/-!
# What callbacks of a view of one task hear

A callback that stays subscribed on the view of the record of a task is called once for each change
of this record. One that stays subscribed on the view of its polling is called once for each session
of the task that is created and once for each that ends, unless the callback for stopped sessions
panics. Neither is called at any other time, whatever happens to other tasks. A call belongs to the
change it is made for: it is made while the listeners are told of this change, and if callbacks and
listeners leave records and sessions alone, a view that is read in it shows what the change has
made.

## Main definitions

* `Tends`, `Relays` — listeners are being told of a change, and one is called for it.
* `ShowsNew` — views that are read in a call show what has changed.
* `Machine.owes` — a callback may still be called for something that has happened before.
* `Machine.Hears` — the changes of a run and the calls of a callback belong to each other.

## Main results

* `Machine.Run.minutes` — the account of the calls and of what is awaited, along a run.
* `Machine.view_hears_own` — callbacks of a view of one task hear of all changes of it, and of
  nothing else.
-/

namespace TaskWatch

variable {σ κ : Type}

/-! ### Times -/

/-- The places of a list, each as often as its element counts. -/
def timesOf {α : Type} (count : α → Nat) (l : List α) : List Nat :=
  l.zipIdx.flatMap fun (a, time) => List.replicate (count a) time

theorem timesOf_concat {α : Type} (count : α → Nat) (l : List α) (a : α) :
    timesOf count (l ++ [a]) = timesOf count l ++ List.replicate (count a) l.length := by
  simp [timesOf, List.zipIdx_append]

/-- From one time until before another one a change is being made known above certain frames. -/
structure Tends (states : List (Machine σ κ)) (i t : Nat) (foot : List (Frame σ κ)) : Prop where
  opens : ∃ s, states[i]? = some s ∧ s.Opens foot
  deals : ∀ u s, i ≤ u → u < t → states[u]? = some s → s.Deals foot

/-- At one time a listener is told of what has changed at another one. -/
def Relays (states : List (Machine σ κ)) (i t : Nat) : Prop :=
  i < t ∧ ∃ foot, Tends states i t foot ∧
    ∃ s n rest, states[t]? = some s ∧ s.stack = .delivering n rest :: foot

/-- What is called at one time has not come to its end before another time. -/
def Lasts (states : List (Machine σ κ)) (t u : Nat) : Prop :=
  ∃ called, states[t]? = some called ∧
    ∀ w s, t ≤ w → w ≤ u → states[w]? = some s → called.stack <:+ s.stack

/-- Views of a tracker that are read in a call show what the tracker holds at another time. -/
def ShowsNew (c : Consumer σ κ) (kind : ViewKind) (number : Nat) (states : List (Machine σ κ))
    (i t : Nat) : Prop :=
  ∀ changed, states[i]? = some changed → ∀ u s, t ≤ u → states[u]? = some s → Lasts states t u →
    ∀ v view, s.reads? = some v → s.world.views[v]? = some view → view.kind = kind →
      view.source = some number →
      ∃ value edition, (s.step c).control = .returned (.snapshot value edition) ∧
        kind.IsCurrent (changed.tracker number) value

section Times

variable {states : List (Machine σ κ)} {m' : Machine σ κ} {i t : Nat} {foot : List (Frame σ κ)}

theorem Tends.concat (tends : Tends states i states.length foot) (deals : m'.Deals foot) :
    Tends (states ++ [m']) i (states ++ [m']).length foot := by
  obtain ⟨⟨s, opened, opens⟩, deals'⟩ := tends
  have before := (List.getElem?_eq_some_iff.mp opened).1
  refine ⟨⟨s, (List.getElem?_append_left before).trans opened, opens⟩, fun u s past later at_ => ?_⟩
  by_cases last : u < states.length
  · exact deals' u s past last ((List.getElem?_append_left last).symm.trans at_)
  · obtain rfl : u = states.length := by simp at later; omega
    rw [List.getElem?_concat_length] at at_
    exact Option.some.inj at_ ▸ deals

theorem Tends.begin (states : List (Machine σ κ)) (opens : m'.Opens foot) :
    Tends (states ++ [m']) states.length (states ++ [m']).length foot := by
  refine ⟨⟨m', List.getElem?_concat_length, opens⟩, fun u s past later at_ => ?_⟩
  obtain rfl : u = states.length := by simp at later; omega
  rw [List.getElem?_concat_length] at at_
  exact Option.some.inj at_ ▸ opens.deals

theorem Relays.concat (relays : Relays states i t) : Relays (states ++ [m']) i t := by
  obtain ⟨past, foot, ⟨⟨s, opened, opens⟩, deals⟩, s', n, rest, called, stack⟩ := relays
  have before := (List.getElem?_eq_some_iff.mp called).1
  refine ⟨past, foot, ⟨⟨s, ?_, opens⟩, fun u s past' later at_ => ?_⟩, s', n, rest, ?_, stack⟩
  · exact (List.getElem?_append_left (Nat.lt_trans past before)).trans opened
  · have last := Nat.lt_trans later before
    exact deals u s past' later ((List.getElem?_append_left last).symm.trans at_)
  · exact (List.getElem?_append_left before).trans called

/-- A listener is told at the end of a run. -/
theorem Tends.relays (tends : Tends states i states.length foot) {n : Notice}
    {rest : List (Audience κ)} (stack : m'.stack = .delivering n rest :: foot) :
    Relays (states ++ [m']) i states.length := by
  have tends' : Tends (states ++ [m']) i (states ++ [m']).length foot :=
    tends.concat (.delivering [] stack)
  obtain ⟨s, opened, _⟩ := tends.opens
  have before := (List.getElem?_eq_some_iff.mp opened).1
  refine ⟨before, foot, ⟨tends'.opens, fun u s past later at_ => ?_⟩, m', n, rest,
    List.getElem?_concat_length, stack⟩
  exact tends'.deals u s past (by simp; omega) at_

end Times

namespace Machine

variable {c : Consumer σ κ} {given : Code σ κ → Prop} {m m' m₀ : Machine σ κ}
  {states : List (Machine σ κ)} {kind : ViewKind} {number : Nat}

theorem length_passages (m₀ : Machine σ κ) (states : List (Machine σ κ)) :
    (passages m₀ states).length = states.length := by
  simp [passages]

/-! ### The calls of a callback -/

section Label

variable [DecidableEq κ] {label : κ}

/-- Whether a callback may still be called for something that has happened before. -/
def owes (kind : ViewKind) (number : Nat) (label : κ) (m : Machine σ κ) : Bool :=
  m.control.isTelling || m.stack.any fun
    | .delivering _ rest => rest.any (Audience.isViewer label)
    | .announcing k id reason => kind.heeds number (k, .session (.stopped id reason))
    | _ => false

/-- When nothing is owed to a callback, it is awaited by nothing that is being made known. -/
theorem settled_of_not_owes {docket : Docket σ κ} (fits : docket.Fits m)
    (settled : m.owes kind number label = false) {D : Matter σ κ} (mem : D ∈ docket) :
    D.awaited kind number label = [] ∧ D.IsProper kind number label := by
  rw [owes, Bool.or_eq_false_iff] at settled
  obtain ⟨silent, frames⟩ := settled
  have lies : docket.Lies m.stack := fits.lies fun k n telling => by
    simp [telling, Control.isTelling] at silent
  obtain ⟨above, f, below, stack, sits⟩ := lies.exists_sits mem
  have frame := List.any_eq_false.mp frames f (stack ▸ List.mem_append_right _ List.mem_cons_self)
  cases sits with
  | @announcing time k id reason below =>
    have unheeded : kind.heeds number (k, .session (.stopped id reason)) = false := by
      simpa using frame
    refine ⟨?_, fun audience known => absurd known (Option.some_ne_none _).symm⟩
    rw [Matter.awaited_of_none rfl, unheeded]
    rfl
  | @delivering time k n audience =>
    have nobody : ∀ a ∈ audience, ¬ a.isViewer label = true := by simpa using frame
    refine ⟨?_, fun audience' known a mem viewer => ?_⟩
    · rw [Matter.awaited]
      split
      · have none : audience.filter (Audience.isViewer label) = [] :=
          List.filter_eq_nil_iff.mpr nobody
        exact congrArg _ none
      · rfl
    · obtain rfl := Option.some.inj known
      exact absurd viewer (nobody a mem)

/-- The account of the calls of a callback and of what it is still to be called for. -/
structure Minutes (kind : ViewKind) (number : Nat) (label : κ)
    (count : Machine σ κ × Machine σ κ → Nat) (m₀ : Machine σ κ) (states : List (Machine σ κ))
    (m : Machine σ κ) (docket : Docket σ κ) (calls : List (Nat × Nat)) : Prop where
  fits : docket.Fits m
  proper : ∀ D ∈ docket, D.IsProper kind number label
  /-- It has been called for every change, or is still to be called for it. -/
  changes : (calls.map Prod.fst ++ docket.awaited kind number label).Perm
    (timesOf count (passages m₀ states))
  /-- These are its calls. -/
  runs : calls.map Prod.snd = timesOf (fun s => (s.callsBack label).toNat) states
  tends : ∀ D ∈ docket, ∀ i ∈ D.awaited kind number label, Tends states i states.length D.foot
  relays : ∀ e ∈ calls, Relays states e.1 e.2

/-- Every move is entered in the minutes. -/
theorem Minutes.move {count : Machine σ κ × Machine σ κ → Nat} {docket : Docket σ κ}
    {calls : List (Nat × Nat)} (run : Run c given m₀ states m)
    (minutes : Minutes kind number label count m₀ states m docket calls) (next : Move c given m m')
    (subscribed : m'.world.Subscribed kind number label)
    (intact : m.forfeits kind number = false)
    (counts : ∀ {time news} {docket' : Docket σ κ}, docket.Advance time m news docket' m' →
      count (m, m') = (news.any (kind.heeds number)).toNat) :
    ∃ docket' calls',
      Minutes kind number label count m₀ (states ++ [m']) m' docket' calls' := by
  obtain ⟨news, docket', advance, fits⟩ := next.advances minutes.fits states.length
  obtain ⟨made, law, calls', relays⟩ := advance.balances minutes.proper subscribed intact
  rw [← counts advance] at law
  refine ⟨docket', calls ++ made, fits, fun D mem => ?_, ?_, ?_, fun D mem i awaited => ?_,
    fun e mem => ?_⟩
  · rcases advance.matters mem with ⟨D₀, old, goes⟩ | ⟨_, _, audience⟩
    · exact goes.isProper (minutes.proper D₀ old) subscribed
    · exact Matter.isProper_of_subscribed subscribed audience
  · rw [run.passages_move, timesOf_concat, length_passages, List.map_append, List.append_assoc]
    refine (law.append_left _).trans ?_
    rw [← List.append_assoc]
    exact minutes.changes.append_right _
  · rw [timesOf_concat, List.map_append, minutes.runs, calls']
  · rcases advance.matters mem with ⟨D₀, old, goes⟩ | ⟨now, opens, _⟩
    · rw [goes.foot]
      refine (minutes.tends D₀ old i (goes.awaited_subset awaited)).concat ?_
      exact goes.foot ▸ fits.deals mem
    · rw [Matter.eq_time awaited, now]
      exact .begin states opens
  · rcases List.mem_append.mp mem with old | new
    · exact (minutes.relays e old).concat
    · obtain ⟨D, old, awaited, n, rest, stack⟩ := relays e new
      have now : e.2 = states.length := by
        have mem := List.mem_map_of_mem (f := Prod.snd) new
        rw [calls'] at mem
        exact List.eq_of_mem_replicate mem
      rw [now]
      exact (minutes.tends D old e.1 awaited).relays stack

/-- The account can be kept along every run. -/
theorem Run.minutes (count : Machine σ κ × Machine σ κ → Nat) (reach : Reachable c m₀)
    (run : Run c given m₀ states m) (settled : m₀.owes kind number label = false)
    (subscribed : ∀ s ∈ m₀ :: states, s.world.Subscribed kind number label)
    (intact : ∀ s ∈ m₀ :: states, s.forfeits kind number = false)
    (counts : ∀ {m m'} {time news} {docket docket' : Docket σ κ}, Reachable c m →
      m.world.Subscribed kind number label → Move c given m m' →
      docket.Advance time m news docket' m' →
      count (m, m') = (news.any (kind.heeds number)).toNat) :
    ∃ docket calls, Minutes kind number label count m₀ states m docket calls := by
  induction run with
  | start =>
    obtain ⟨docket, fits⟩ := reach.docketed
    have nothing := fun D => settled_of_not_owes fits settled (D := D)
    have awaited : docket.awaited kind number label = [] :=
      List.flatMap_eq_nil_iff.mpr fun D mem => (nothing D mem).1
    refine ⟨docket, [], fits, fun D mem => (nothing D mem).2, ?_, rfl, fun D mem i await => ?_, ?_⟩
    · rw [awaited]
      exact .refl _
    · rw [(nothing D mem).1] at await
      exact absurd await List.not_mem_nil
    · exact fun e mem => absurd mem List.not_mem_nil
  | @move states m₁ m₂ run next ih =>
    have inside : ∀ s ∈ m₀ :: states, s ∈ m₀ :: (states ++ [m₂]) := fun s mem =>
      List.mem_append_left [m₂] mem
    obtain ⟨docket, calls, minutes⟩ :=
      ih (fun s mem => subscribed s (inside s mem)) fun s mem => intact s (inside s mem)
    exact minutes.move run next (subscribed m₂ (List.mem_append_right (m₀ :: states) (by simp)))
      (intact m₁ (inside m₁ run.mem_cons))
      (counts (reach.run run) (subscribed m₁ (inside m₁ run.mem_cons)) next)

end Label

/-! ### What is read in a call -/

/-- States that follow each other in a run are connected by a move. -/
theorem Run.move_at (run : Run c given m₀ states m) {u : Nat} {s s' : Machine σ κ}
    (first : states[u]? = some s) (second : states[u + 1]? = some s') : Move c given s s' := by
  have mem : (s, s') ∈ passages m₀ states := by
    refine List.mem_of_getElem? (i := u + 1) (List.getElem?_zip_eq_some.mpr ⟨?_, second⟩)
    rw [List.getElem?_cons_succ, first]
  obtain ⟨_, _, _, move⟩ := run.passage mem
  exact move

/-- While a change is being made known, records and sessions stay as it has left them. -/
theorem Run.attends (run : Run c given m₀ states m) (looks : c.LooksOn) {i : Nat}
    {changed : Machine σ κ} {foot : List (Frame σ κ)} (start : states[i]? = some changed)
    (opens : changed.Opens foot) (later : Nat) :
    ∀ s, states[i + later]? = some s →
      (∀ w s', i ≤ w → w ≤ i + later → states[w]? = some s' → s'.Deals foot) →
      s.Attends c foot ∧ changed.world.Abides s.world := by
  induction later with
  | zero =>
    intro s now _
    obtain rfl := Option.some.inj (start.symm.trans now)
    exact ⟨opens.attends looks, .refl _⟩
  | succ later ih =>
    intro s now deals
    obtain ⟨s₁, before⟩ : ∃ s₁, states[i + later]? = some s₁ :=
      ⟨_, List.getElem?_eq_getElem
        (Nat.lt_of_succ_lt (List.getElem?_eq_some_iff.mp now).1)⟩
    obtain ⟨attends, abides⟩ := ih s₁ before fun w s' past last at_ =>
      deals w s' past (Nat.le_succ_of_le last) at_
    obtain ⟨attends', abides'⟩ := attends.move looks
      (deals _ s₁ (Nat.le_add_right _ _) (Nat.le_succ _) before) (run.move_at before now)
      (deals _ s (Nat.le_add_right _ _) (Nat.le_refl _) now)
    exact ⟨attends', abides.trans abides'⟩

/-- A view that is read in a call for a change shows what the change has made. -/
theorem Run.showsNew (run : Run c given m₀ states m) (looks : c.LooksOn) {i t : Nat}
    (relays : Relays states i t) (other : kind ≠ .tasks)
    (inside : ∀ s ∈ states, number < s.world.trackers.length) :
    ShowsNew c kind number states i t := by
  intro changed start u s later now lasts v view reads opened shows source
  obtain ⟨past, foot, ⟨⟨_, start', opens⟩, deals⟩, called, n, rest, call, stack⟩ := relays
  obtain rfl := Option.some.inj (start.symm.trans start')
  obtain ⟨_, call', above⟩ := lasts
  obtain rfl := Option.some.inj (call.symm.trans call')
  have busy : ∀ w s', i ≤ w → w ≤ u → states[w]? = some s' → s'.Deals foot := by
    intro w s' after before at_
    by_cases early : w < t
    · exact deals w s' after early at_
    · obtain ⟨new, stack'⟩ := above w s' (Nat.le_of_not_lt early) before at_
      exact .delivering new (by rw [← stack', stack])
  obtain ⟨gap, rfl⟩ : ∃ gap, u = i + gap := ⟨u - i, by omega⟩
  obtain ⟨_, abides⟩ := run.attends looks start opens gap s now busy
  have known := inside changed (List.mem_of_getElem? start)
  obtain ⟨replied, _⟩ := step_snapshot (c := c) reads opened source
  have current : kind.IsCurrent (s.tracker number) (view.refresh (some (s.tracker number))).value :=
    shows ▸ View.refresh_isCurrent_of_other (shows ▸ other) _
  exact ⟨_, _, replied,
    current.of_same (abides.tasks number known) (abides.sessions number known)⟩

section Label

variable [DecidableEq κ] {label : κ}

/-- The changes of a run and the calls of a callback belong to each other: a call is given by the
time of the change and the time at which the callback is called for it. -/
structure Hears (c : Consumer σ κ) (kind : ViewKind) (number : Nat) (label : κ)
    (count : Machine σ κ × Machine σ κ → Nat) (m₀ : Machine σ κ) (states : List (Machine σ κ))
    (m : Machine σ κ) (calls : List (Nat × Nat)) (pending : List Nat) : Prop where
  /-- Every change has one call, but for those that are pending, and no call has another change. -/
  changes : (calls.map Prod.fst ++ pending).Perm (timesOf count (passages m₀ states))
  /-- The callback is called at these times and at no others. -/
  runs : calls.map Prod.snd = timesOf (fun s => (s.callsBack label).toNat) states
  /-- When the machine has nothing to do, nothing is pending. -/
  settled : m.isIdle = true → pending = []
  /-- A call is made while the listeners are told of its change. -/
  relays : ∀ e ∈ calls, Relays states e.1 e.2
  /-- If callbacks and listeners leave records and sessions alone, a call finds what its change has
  made. -/
  shows : c.LooksOn → ∀ e ∈ calls, ShowsNew c kind number states e.1 e.2

theorem Minutes.hears {count : Machine σ κ × Machine σ κ → Nat} {docket : Docket σ κ}
    {calls : List (Nat × Nat)} (run : Run c given m₀ states m) (other : kind ≠ .tasks)
    (subscribed : ∀ s ∈ m₀ :: states, s.world.Subscribed kind number label)
    (minutes : Minutes kind number label count m₀ states m docket calls) :
    Hears c kind number label count m₀ states m calls (docket.awaited kind number label) where
  changes := minutes.changes
  runs := minutes.runs
  settled idle := by
    rw [minutes.fits.eq_nil idle]
    rfl
  relays := minutes.relays
  shows looks e mem := run.showsNew looks (minutes.relays e mem) other fun s at_ =>
    (subscribed s (List.mem_cons_of_mem _ at_)).inside

/-- Callbacks of a view of one task hear of all changes of it, and of nothing else. Along every run
in which it stays subscribed, and at whose beginning nothing is owed to it, a callback of the record
of a task is called exactly once for each change of this record; and a callback of its polling
exactly once for each session of the task that is created and for each that ends, if the callback
for stopped sessions does not panic over such an end. If callbacks and listeners leave records and
sessions alone, a view that is read in such a call shows what the change has made. -/
theorem view_hears_own (reach : Reachable c m₀) (run : Run c given m₀ states m) (number : Nat)
    (id : TaskId) (label : κ) :
    (m₀.owes (.task id) number label = false →
      (∀ s ∈ m₀ :: states, s.world.Subscribed (.task id) number label) →
      ∃ calls pending,
        Hears c (.task id) number label (alterations number id) m₀ states m calls pending) ∧
    (m₀.owes (.flag id) number label = false →
      (∀ s ∈ m₀ :: states, s.world.Subscribed (.flag id) number label) →
      (∀ s ∈ m₀ :: states, s.forfeits (.flag id) number = false) →
      ∃ calls pending,
        Hears c (.flag id) number label (turnovers number id) m₀ states m calls pending) := by
  refine ⟨fun settled subscribed => ?_, fun settled subscribed intact => ?_⟩
  · -- The end of a session is no concern of the view of a record.
    have intact : ∀ s ∈ m₀ :: states, s.forfeits (.task id) number = false := fun s _ => by
      rw [forfeits]
      split
      · exact ViewKind.heeds_task_session
      · rfl
    obtain ⟨docket, calls, minutes⟩ := run.minutes (alterations number id) reach settled
      subscribed intact fun now registered move advance => by
        have inside := registered.inside
        exact advance.alterations
          (move.stir.reckons inside (now.sound.keyed number) now.behind) id
    exact ⟨calls, _, minutes.hears run (by simp) subscribed⟩
  · obtain ⟨docket, calls, minutes⟩ := run.minutes (turnovers number id) reach settled
      subscribed intact fun _ registered _ advance => advance.turnovers registered.inside id
    exact ⟨calls, _, minutes.hears run (by simp) subscribed⟩

end Label

/-- A consumer whose callbacks read the view with their number. -/
def spectator : Consumer Unit Nat where
  react view _ := .call (.snapshot view) fun _ => .done
  proceed _ _ _ _ := .hang
  supply _ _ _ := none

/-- A view of the record of a task is opened, and one of its polling, and callbacks are subscribed
on them. Then two tasks are kept and polled for, all polling is stopped, both tasks fail, and both
records are deleted at one stroke. -/
def performance : Code Unit Nat :=
  let job (id : TaskId) : Draft := { id, kind := .analysis, createdAt := some .epoch }
  .call (.openTracker "tasks" .default) fun _ =>
  .call (.openView (some 0) (.task "a")) fun _ =>
  .call (.openView (some 0) (.flag "a")) fun _ =>
  .call (.watch 0 0) fun _ =>
  .call (.watch 1 1) fun _ =>
  .call (.add 0 (job "a")) fun _ =>
  .call (.add 0 (job "b")) fun _ =>
  .call (.start 0 "a" 8) fun _ =>
  .call (.start 0 "b" 8) fun _ =>
  .call (.stopAll 0) fun _ =>
  .call (.update 0 "a" (.ofStatus .failed)) fun _ =>
  .call (.update 0 "b" (.ofStatus .failed)) fun _ =>
  .call (.clearTerminal 0) fun _ => .done

/-- The callbacks have been subscribed. -/
def seated : Machine Unit Nat := stepTimes spectator 10 (blankPage.code performance)

/-- Everything has happened. -/
def finale : Machine Unit Nat := stepTimes spectator 66 seated

/-- The record of the task has changed three times, and its polling twice. -/
theorem view_hears_own_bulk :
    spectator.LooksOn ∧
      (∃ calls, Hears spectator (.task "a") 0 0 (alterations 0 "a") seated
        (trail spectator 66 seated) finale calls [] ∧ calls.length = 3) ∧
      ∃ calls, Hears spectator (.flag "a") 0 1 (turnovers 0 "a") seated
        (trail spectator 66 seated) finale calls [] ∧ calls.length = 2 := by
  have opening : Run spectator (fun _ => True) blankPage
      ([blankPage.code performance] ++ trail spectator 10 (blankPage.code performance)) seated :=
    (Run.start.move (.code rfl trivial)).append (run_steps (by decide +kernel))
  have run : Run spectator (fun _ => True) seated (trail spectator 66 seated) finale :=
    run_steps (by decide +kernel)
  have finished : finale.isIdle = true := by decide +kernel
  obtain ⟨calls, pending, record⟩ := (view_hears_own opening.reachable run 0 "a" 0).1
    (by decide +kernel) (by decide +kernel)
  obtain ⟨calls', pending', polling⟩ := (view_hears_own opening.reachable run 0 "a" 1).2
    (by decide +kernel) (by decide +kernel) (by decide +kernel)
  obtain rfl := record.settled finished
  obtain rfl := polling.settled finished
  have looking : ∀ label occasion, Code.IsObserving (spectator.react label occasion) :=
    fun _ _ => ⟨rfl, fun _ => trivial⟩
  refine ⟨⟨fun _ _ => looking _ _, fun _ => looking _ _, fun _ _ _ => looking _ _⟩,
    ⟨calls, record, ?_⟩, ⟨calls', polling, ?_⟩⟩
  · have length := record.changes.length_eq
    rw [List.append_nil, List.length_map] at length
    exact length.trans (by decide +kernel)
  · have length := polling.changes.length_eq
    rw [List.append_nil, List.length_map] at length
    exact length.trans (by decide +kernel)


end Machine

end TaskWatch
