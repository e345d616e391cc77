import TaskWatch.Proofs.Run.Returning
import TaskWatch.Proofs.Store.Forward
import TaskWatch.Proofs.Store.Listed

/-!
# Sessions are resumed and shut down

When sessions are resumed, every record that is not terminal is offered to a factory, and a session
is started for each one that has none and for which there is a fetcher. So what a tracker lacks is
started, in the order in which records are listed, and nothing else is touched. When a tracker is
shut down, every session is stopped.

When sessions are resumed again, a task gets a session only for a reason: the one that it had has
ended without its record being terminal, as it does when a fetcher panics; the factory had no
fetcher for it before; or its record is new. Without such a reason nothing is lacking.

## Main definitions

* `Tracker.missing` — the sessions that a tracker lacks, given the answers of a factory.
* `World.launchedAll`, `World.dismissed` — sessions have been started or ended.
* `World.Launches`, `World.Dismisses` — what this changes, and what it leaves alone.
* `World.SeesOff` — no session has ended before its record was terminal.
* `Machine.Resumes` — sessions are resumed, and the factory has these answers.

## Main results

* `Machine.returns_resumeEach`, `Machine.returns_stopEach` — what the two loops do.
* `Machine.Resumes.reason` — why a session is started when sessions are resumed again.
* `Machine.resume_starts_missing` — sessions are resumed, resumed again, and shut down.
* `Machine.resume_again_starts` — sessions are started again while the clock has not moved.
-/

namespace TaskWatch

variable {σ κ : Type}

/-! ### What is missing -/

/-- The sessions that a tracker lacks when a factory has answers for certain tasks: those of tasks
without a session for which there is a fetcher. -/
def Tracker.missing (t : Tracker κ) (answers : List (Task × Option κ)) : List (Task × κ) :=
  answers.filterMap fun offer =>
    if t.isPolling offer.1.id then none else offer.2.map fun fetcher => (offer.1, fetcher)

/-- What is seen when these tasks are offered to the factory: each of them with the answer, and a
session that is started for it if it is missing. -/
def Tracker.resumption (t : Tracker κ) (factory : κ) (answers : List (Task × Option κ)) :
    List (Sight κ) :=
  answers.flatMap fun offer => .offered factory offer.1 offer.2 ::
    (t.missing [offer]).map fun missing => .told (.started missing.1.id)

namespace Tracker

variable {t t' : Tracker κ} {task : Task} {answer : Option κ} {fetcher factory : κ}
  {rest answers : List (Task × Option κ)}

theorem missing_passed (passed : t.isPolling task.id = true ∨ answer = none) :
    t.missing ((task, answer) :: rest) = t.missing rest := by
  refine List.filterMap_cons_none ?_
  rcases passed with polled | rfl
  · exact if_pos polled
  · exact ite_self none

theorem missing_taken (vacant : t.isPolling task.id = false) :
    t.missing ((task, some fetcher) :: rest) = (task, fetcher) :: t.missing rest :=
  List.filterMap_cons_some (by rw [vacant]; rfl)

theorem missing_congr (same : ∀ offer ∈ answers, t.isPolling offer.1.id = t'.isPolling offer.1.id) :
    t.missing answers = t'.missing answers :=
  List.filterMap_congr fun offer mem => by rw [same offer mem]

theorem resumption_congr
    (same : ∀ offer ∈ answers, t.isPolling offer.1.id = t'.isPolling offer.1.id) :
    t.resumption factory answers = t'.resumption factory answers :=
  List.flatMap_congr fun offer mem => by
    have alone : t.missing [offer] = t'.missing [offer] :=
      missing_congr (List.forall_mem_singleton.mpr (same offer mem))
    rw [alone]

theorem resumption_passed (passed : t.isPolling task.id = true ∨ answer = none) :
    t.resumption factory ((task, answer) :: rest) =
      .offered factory task answer :: t.resumption factory rest := by
  rw [resumption, List.flatMap_cons, missing_passed passed]
  rfl

theorem resumption_taken (vacant : t.isPolling task.id = false) :
    t.resumption factory ((task, some fetcher) :: rest) =
      .offered factory task (some fetcher) :: .told (.started task.id) ::
        t.resumption factory rest := by
  rw [resumption, List.flatMap_cons, missing_taken vacant]
  rfl

/-- When nothing is missing, the tasks are offered, and that is all. -/
theorem resumption_of_missing_eq_nil (nothing : t.missing answers = []) :
    t.resumption factory answers =
      answers.map fun offer => .offered factory offer.1 offer.2 := by
  have none : ∀ offer ∈ answers, t.missing [offer] = [] := fun offer mem =>
    List.filterMap_eq_nil_iff.mpr <| List.forall_mem_singleton.mpr <|
      List.filterMap_eq_nil_iff.mp nothing offer mem
  rw [resumption, List.map_eq_flatMap]
  exact List.flatMap_congr fun offer mem => by rw [none offer mem, List.map_nil]

/-- The listeners are told of the sessions that are missing. -/
theorem event?_resumption :
    (t.resumption factory answers).filterMap Sight.event? =
      (t.missing answers).map fun missing => .started missing.1.id := by
  induction answers with
  | nil => rfl
  | cons offer rest ih =>
    obtain ⟨task, answer⟩ := offer
    by_cases passed : t.isPolling task.id = true ∨ answer = none
    · rw [resumption_passed passed, missing_passed passed, List.filterMap_cons_none rfl, ih]
    · obtain ⟨vacant, answered⟩ := not_or.mp passed
      obtain ⟨fetcher, rfl⟩ := Option.ne_none_iff_exists'.mp answered
      rw [resumption_taken (Bool.eq_false_iff.mpr vacant),
        missing_taken (Bool.eq_false_iff.mpr vacant)]
      exact congrArg (List.cons (SessionEvent.started task.id)) ih

theorem mem_missing : (task, fetcher) ∈ t.missing answers ↔
    (task, some fetcher) ∈ answers ∧ t.isPolling task.id = false := by
  simp only [missing, List.mem_filterMap]
  constructor
  · rintro ⟨⟨other, answer⟩, mem, lacking⟩
    split at lacking
    · simp at lacking
    · next vacant =>
      obtain ⟨found, rfl, same⟩ := Option.map_eq_some_iff.mp lacking
      obtain ⟨rfl, rfl⟩ := Prod.mk.inj same
      exact ⟨mem, Bool.eq_false_iff.mpr vacant⟩
  · rintro ⟨mem, vacant⟩
    exact ⟨_, mem, by simp [vacant]⟩

theorem map_fst_missing_sublist :
    ((t.missing answers).map Prod.fst).Sublist (answers.map Prod.fst) := by
  induction answers with
  | nil => exact .slnil
  | cons offer rest ih =>
    obtain ⟨task, answer⟩ := offer
    by_cases passed : t.isPolling task.id = true ∨ answer = none
    · rw [missing_passed passed]
      exact ih.cons _
    · obtain ⟨vacant, answered⟩ := not_or.mp passed
      obtain ⟨fetcher, rfl⟩ := Option.ne_none_iff_exists'.mp answered
      rw [missing_taken (Bool.eq_false_iff.mpr vacant)]
      exact ih.cons_cons _

end Tracker

/-! ### Sessions that have been started and ended -/

namespace World

/-- A session has been started for a task. -/
def launched (w : World κ) (number : Nat) (id : TaskId) (fetcher : κ) : World κ :=
  (w.after (.began number id)).after
    (.paused ⟨{ tracker := number, id, serial := w.nextSerial, fetcher }, .fresh⟩)

/-- Sessions have been started for tasks, one after the other. -/
def launchedAll (w : World κ) (number : Nat) (offers : List (Task × κ)) : World κ :=
  offers.foldl (fun w offer => w.launched number offer.1.id offer.2) w

/-- The sessions of tasks have been ended, one after the other. -/
def dismissed (w : World κ) (number : Nat) (ids : List TaskId) : World κ :=
  ids.foldl (fun w id => w.after (.ended number id)) w

variable {w w' : World κ} {number : Nat} {id : TaskId} {offers : List (Task × κ)}

/-- Sessions have been started for tasks. The serial numbers follow each other, none of the new
sessions has had a turn yet, and but for them everything is as before. -/
structure Launches (number : Nat) (offers : List (Task × κ)) (w w' : World κ) : Prop where
  others : ∀ k ≠ number, w'.tracker k = w.tracker k
  kept : ∃ sessions, w'.tracker number = { w.tracker number with sessions }
  sessions : ∀ id, (w'.tracker number).sessions.find? id =
    ((w.tracker number).sessions.find? id).or
      ((offers.findIdx? fun offer => offer.1.id = id).map (w.nextSerial + ·))
  suspended : w'.suspended = w.suspended ++ offers.mapIdx fun i offer =>
    ⟨{ tracker := number, id := offer.1.id, serial := w.nextSerial + i, fetcher := offer.2 },
      .fresh⟩
  storage : w'.storage = w.storage
  clock : w'.clock = w.clock

/-- The sessions of tasks have been ended, and but for them everything is as before. -/
structure Dismisses (number : Nat) (ids : List TaskId) (w w' : World κ) : Prop where
  others : ∀ k ≠ number, w'.tracker k = w.tracker k
  kept : ∃ sessions, w'.tracker number = { w.tracker number with sessions }
  sessions : ∀ id, (w'.tracker number).sessions.find? id =
    if id ∈ ids then none else (w.tracker number).sessions.find? id
  suspended : w'.suspended = w.suspended
  storage : w'.storage = w.storage
  clock : w'.clock = w.clock

theorem Launches.told (launches : Launches number offers w w') {after : World κ}
    (told : w'.Told after) : Launches number offers w after := by
  obtain ⟨waits, rfl⟩ := told
  exact ⟨launches.others, launches.kept, launches.sessions, launches.suspended, launches.storage,
    launches.clock⟩

theorem Dismisses.told {ids : List TaskId} (dismisses : Dismisses number ids w w') {after : World κ}
    (told : w'.Told after) : Dismisses number ids w after := by
  obtain ⟨waits, rfl⟩ := told
  exact ⟨dismisses.others, dismisses.kept, dismisses.sessions, dismisses.suspended,
    dismisses.storage, dismisses.clock⟩

theorem Told.launched (told : w.Told w') (number : Nat) (id : TaskId) (fetcher : κ) :
    (w.launched number id fetcher).Told (w'.launched number id fetcher) := by
  obtain ⟨waits, rfl⟩ := told
  exact ⟨waits, rfl⟩

theorem Told.launchedAll (told : w.Told w') (number : Nat) (offers : List (Task × κ)) :
    (w.launchedAll number offers).Told (w'.launchedAll number offers) := by
  induction offers generalizing w w' with
  | nil => exact told
  | cons offer rest ih => exact ih (told.launched number _ _)

theorem Told.dismissed (told : w.Told w') (number : Nat) (ids : List TaskId) :
    (w.dismissed number ids).Told (w'.dismissed number ids) := by
  induction ids generalizing w w' with
  | nil => exact told
  | cons id rest ih =>
    obtain ⟨waits, rfl⟩ := told
    exact ih ⟨waits, rfl⟩

theorem tracker_launched (w : World κ) (number : Nat) (id : TaskId) (fetcher : κ) (k : Nat) :
    (w.launched number id fetcher).tracker k =
      if number = k ∧ k < w.trackers.length then
        { w.tracker k with sessions := (w.tracker k).sessions.insert id w.nextSerial }
      else w.tracker k :=
  w.tracker_modifyTracker number k _

/-- Starting sessions changes no record. -/
theorem tasks_launchedAll (w : World κ) (number : Nat) (offers : List (Task × κ)) (k : Nat) :
    ((w.launchedAll number offers).tracker k).store.tasks = (w.tracker k).store.tasks := by
  induction offers generalizing w with
  | nil => rfl
  | cons offer rest ih =>
    refine (ih (w.launched number offer.1.id offer.2)).trans ?_
    rw [tracker_launched]
    split <;> rfl

theorem launches_all (inside : number < w.trackers.length)
    (vacant : ∀ offer ∈ offers, (w.tracker number).sessions.find? offer.1.id = none)
    (distinct : offers.Pairwise fun a d => d.1.id ≠ a.1.id) :
    Launches number offers w (w.launchedAll number offers) := by
  induction offers generalizing w with
  | nil =>
    exact ⟨fun _ _ => rfl, ⟨_, rfl⟩, fun id => by simp [launchedAll], by simp [launchedAll], rfl,
      rfl⟩
  | cons offer rest ih =>
    obtain ⟨free, vacant⟩ := List.forall_mem_cons.mp vacant
    obtain ⟨new, distinct⟩ := List.pairwise_cons.mp distinct
    obtain ⟨w₁, first⟩ : ∃ w₁, w₁ = w.launched number offer.1.id offer.2 := ⟨_, rfl⟩
    have other : ∀ k ≠ number, w₁.tracker k = w.tracker k := fun k elsewhere => by
      rw [first, tracker_launched, if_neg fun here => elsewhere here.1.symm]
    have own : w₁.tracker number = { w.tracker number with
        sessions := (w.tracker number).sessions.insert offer.1.id w.nextSerial } := by
      rw [first, tracker_launched, if_pos ⟨rfl, inside⟩]
    have found : ∀ id, (w₁.tracker number).sessions.find? id =
        if id = offer.1.id then some w.nextSerial else (w.tracker number).sessions.find? id :=
      fun id => by rw [own, Dictionary.find?_insert]
    have serial : w₁.nextSerial = w.nextSerial + 1 := by rw [first]; rfl
    have further : Launches number rest w₁ (w₁.launchedAll number rest) := by
      refine ih ?_ (fun next mem => ?_) distinct
      · rw [first]
        exact (List.length_modify _ _ _).symm ▸ inside
      · rw [found, if_neg (new next mem)]
        exact vacant next mem
    have whole : w.launchedAll number (offer :: rest) = w₁.launchedAll number rest := by
      rw [first]; rfl
    rw [whole]
    refine ⟨fun k elsewhere => (further.others k elsewhere).trans (other k elsewhere), ?_,
      fun id => ?_, ?_, further.storage.trans (by rw [first]; rfl),
      further.clock.trans (by rw [first]; rfl)⟩
    · obtain ⟨sessions, kept⟩ := further.kept
      exact ⟨sessions, by rw [kept, own]⟩
    · rw [further.sessions, found, serial, List.findIdx?_cons]
      by_cases here : id = offer.1.id
      · simp [here, free]
      · rw [if_neg here, if_neg (by simpa using Ne.symm here), Option.map_map]
        congr 2
        funext i
        exact Nat.add_right_comm _ _ _
    · rw [further.suspended, serial, List.mapIdx_cons, first]
      have next : ∀ i, w.nextSerial + 1 + i = w.nextSerial + (i + 1) := fun i =>
        Nat.add_right_comm _ _ _
      simp [launched, after, next]
      rfl

/-- No session has ended before its record was terminal, or gone. -/
def SeesOff (number : Nat) (w w' : World κ) : Prop :=
  ∀ id, (w.tracker number).isPolling id = true → (w'.tracker number).isPolling id = true ∨
    ∀ status ∈ w'.status? number id, status.isTerminal = true

/-- The new sessions are there beside the old ones. -/
theorem Launches.isPolling_iff (launches : Launches number offers w w') :
    (w'.tracker number).isPolling id = true ↔
      (w.tracker number).isPolling id = true ∨ ∃ offer ∈ offers, offer.1.id = id := by
  rw [Tracker.isPolling, Dictionary.contains, launches.sessions, Option.isSome_or, Bool.or_eq_true,
    Option.isSome_map, List.findIdx?_isSome, List.any_eq_true]
  simp only [decide_eq_true_eq]
  rfl

theorem Launches.activeIds_perm (launches : Launches number offers w w')
    (vacant : ∀ offer ∈ offers, (w.tracker number).sessions.find? offer.1.id = none)
    (distinct : offers.Pairwise fun a d => d.1.id ≠ a.1.id) :
    (w'.tracker number).activeIds.Perm
      ((w.tracker number).activeIds ++ offers.map fun offer => offer.1.id) := by
  have apart : ((w.tracker number).activeIds ++ offers.map fun offer => offer.1.id).Nodup := by
    refine List.nodup_append.mpr ⟨Dictionary.nodup_keys _, ?_, ?_⟩
    · exact List.pairwise_map.mpr (distinct.imp Ne.symm)
    · rintro id old _ new rfl
      obtain ⟨offer, mem, rfl⟩ := List.mem_map.mp new
      simp [Tracker.activeIds, Dictionary.mem_keys, vacant offer mem] at old
  refine (List.perm_ext_iff_of_nodup (Dictionary.nodup_keys _) apart).mpr fun id => ?_
  rw [Dictionary.mem_keys, List.mem_append, Tracker.activeIds, Dictionary.mem_keys, List.mem_map]
  exact launches.isPolling_iff

theorem tracker_ended (w : World κ) (number : Nat) (id : TaskId) (k : Nat) :
    (w.after (.ended number id)).tracker k =
      if number = k ∧ k < w.trackers.length then
        { w.tracker k with sessions := (w.tracker k).sessions.erase id }
      else w.tracker k :=
  w.tracker_modifyTracker number k _

private theorem dismisses_one (w : World κ) (number : Nat) (id : TaskId) :
    Dismisses number [id] w (w.after (.ended number id)) where
  others k elsewhere := by rw [tracker_ended, if_neg fun here => elsewhere here.1.symm]
  kept := by
    rw [tracker_ended]
    split <;> exact ⟨_, rfl⟩
  sessions other := by
    rw [tracker_ended]
    split
    · simpa using Dictionary.find?_erase _ _ _
    · next outside =>
      have nowhere : w.trackers.length ≤ number := Nat.not_lt.mp fun inside => outside ⟨rfl, inside⟩
      have nobody : (w.tracker number).sessions.find? other = none := by
        rw [tracker, List.getD_eq_getElem?_getD, List.getElem?_eq_none nowhere]
        rfl
      simp [nobody]
  suspended := rfl
  storage := rfl
  clock := rfl

theorem dismisses_all (w : World κ) (number : Nat) (ids : List TaskId) :
    Dismisses number ids w (w.dismissed number ids) := by
  induction ids generalizing w with
  | nil => exact ⟨fun _ _ => rfl, ⟨_, rfl⟩, fun id => by simp [dismissed], rfl, rfl, rfl⟩
  | cons id rest ih =>
    have first := w.dismisses_one number id
    have further := ih (w.after (.ended number id))
    refine ⟨fun k elsewhere => (further.others k elsewhere).trans (first.others k elsewhere), ?_,
      fun other => ?_, further.suspended, further.storage, further.clock⟩
    · obtain ⟨sessions, kept⟩ := further.kept
      obtain ⟨_, kept'⟩ := first.kept
      exact ⟨sessions, by rw [dismissed, List.foldl_cons, ← dismissed, kept, kept']⟩
    · rw [dismissed, List.foldl_cons, ← dismissed, further.sessions, first.sessions]
      by_cases here : other ∈ rest <;> simp [here]

end World

namespace Machine

variable {c : Consumer σ κ} {m m₁ m₂ m₃ : Machine σ κ} {number : Nat} {factory : κ}

/-! ### The loops -/

/-- A session is started for a task that has none. -/
theorem returns_startSession (observes : c.Observes) (executor : m.world.hasExecutor = true)
    {id : TaskId} (vacant : (m.tracker number).isPolling id = false) (fetcher : κ) :
    Returns c number (m.startSession number id fetcher) m.stack fun sights reply after =>
      sights = [.told (.started id)] ∧ reply = .flag true ∧
        (m.world.launched number id fetcher).Told after := by
  rw [startSession, executor, vacant]
  let s : SessionTask κ := { tracker := number, id, serial := m.world.nextSerial, fetcher }
  refine .tell (m := (m.withWorld (m.world.after (.began number id))).push (.spawning s)) observes
    rfl fun after memory told => ?_
  have handed : (m.world.launched number id fetcher).Told (after.after (.paused ⟨s, .fresh⟩)) := by
    obtain ⟨waits, rfl⟩ := told
    exact ⟨waits, rfl⟩
  exact .reply rfl ⟨rfl, rfl, handed⟩

/-- No session is started for a task that has one. -/
theorem returns_refused {id : TaskId} (polled : (m.tracker number).isPolling id = true)
    (fetcher : κ) :
    Returns c number (m.startSession number id fetcher) m.stack fun sights reply after =>
      sights = [] ∧ reply = .flag false ∧ after = m.world := by
  rw [startSession, polled, Bool.or_true, if_pos rfl]
  exact .reply rfl ⟨rfl, rfl, rfl⟩

/-- Tasks have been offered to a factory that has these answers, and the sessions that are missing
have been started. -/
structure Offers (number : Nat) (factory : κ) (w : World κ) (count : Nat) (offered : List Task)
    (answers : List (Task × Option κ)) (sights : List (Sight κ)) (reply : Reply) (after : World κ) :
    Prop where
  offered : answers.map Prod.fst = offered
  sights : sights = (w.tracker number).resumption factory answers
  reply : reply = .count (count + ((w.tracker number).missing answers).length)
  world : (w.launchedAll number ((w.tracker number).missing answers)).Told after

namespace Offers

variable {w w' after : World κ} {count : Nat} {task : Task} {offered : List Task}
  {answers : List (Task × Option κ)} {sights : List (Sight κ)} {reply : Reply}

/-- No session is started for a task that has one, or for which there is no fetcher. -/
theorem passed (offers : Offers number factory w count offered answers sights reply after)
    {answer : Option κ} (passed : (w.tracker number).isPolling task.id = true ∨ answer = none) :
    Offers number factory w count (task :: offered) ((task, answer) :: answers)
      (.offered factory task answer :: sights) reply after where
  offered := congrArg _ offers.offered
  sights := by rw [offers.sights, Tracker.resumption_passed passed]
  reply := by rw [offers.reply, Tracker.missing_passed passed]
  world := by
    rw [Tracker.missing_passed passed]
    exact offers.world

/-- A session has been started for a task that had none, and then further tasks are offered. -/
theorem taken {fetcher : κ}
    (offers : Offers number factory w' (count + 1) offered answers sights reply after)
    (vacant : (w.tracker number).isPolling task.id = false)
    (new : ∀ other ∈ offered, other.id ≠ task.id)
    (launched : (w.launched number task.id fetcher).Told w') :
    Offers number factory w count (task :: offered) ((task, some fetcher) :: answers)
      (.offered factory task (some fetcher) :: .told (.started task.id) :: sights) reply after := by
  have same : ∀ offer ∈ answers,
      (w'.tracker number).isPolling offer.1.id = (w.tracker number).isPolling offer.1.id := by
    intro offer mem
    have other := new offer.1 (offers.offered ▸ List.mem_map_of_mem mem)
    rw [Tracker.isPolling, launched.near.sessions, World.tracker_launched]
    split
    · rw [Dictionary.contains, Dictionary.find?_insert, if_neg other]
      rfl
    · rfl
  obtain ⟨offered, rfl, rfl, told⟩ := offers
  rw [Tracker.missing_congr same] at told ⊢
  refine ⟨congrArg _ offered, ?_, ?_, ?_⟩
  · rw [Tracker.resumption_congr same, Tracker.resumption_taken vacant]
  · rw [Tracker.missing_taken vacant, List.length_cons]
    exact congrArg Reply.count (Nat.add_right_comm _ _ _)
  · rw [Tracker.missing_taken vacant]
    exact (launched.launchedAll number _).trans told

end Offers

/-- Tasks are offered to a factory one after the other, whatever it answers. -/
theorem returns_resumeEach (observes : c.Observes) (executor : m.world.hasExecutor = true)
    {offered : List Task} (distinct : offered.Pairwise fun a d => d.id ≠ a.id) (count : Nat) :
    Returns c number (m.resumeEach number factory count offered) m.stack fun sights reply after =>
      ∃ answers, Offers number factory m.world count offered answers sights reply after := by
  induction offered generalizing m count with
  | nil => exact .reply rfl ⟨[], rfl, rfl, rfl, .refl _⟩
  | cons task rest ih =>
    obtain ⟨new, distinct⟩ := List.pairwise_cons.mp distinct
    refine .invoke (f := .offering number factory task rest count) (observes.factory factory task)
      rfl fun memory => ?_
    have sight : (Frame.offering number factory task rest count : Frame σ κ).sights c number memory =
        [.offered factory task (c.supply factory task memory)] := if_pos rfl
    rw [resume, sight]
    cases supplied : c.supply factory task memory with
    | none =>
      refine (ih (m := ⟨memory, m.world, .returned .unit, m.stack⟩) executor distinct count).mono ?_
      rintro _ _ after ⟨answers, offers⟩
      exact ⟨_, offers.passed (.inr rfl)⟩
    | some fetcher =>
      cases polled : (m.tracker number).isPolling task.id with
      | true =>
        have refused := returns_refused (c := c) (m := ⟨memory, m.world, .returned .unit,
          .resuming number factory rest count :: m.stack⟩) polled fetcher
        refine refused.bind ?_
        rintro _ _ _ memory' ⟨rfl, rfl, rfl⟩
        refine (ih (m := ⟨memory', m.world, .returned (.flag false), m.stack⟩) executor distinct
          count).mono ?_
        rintro _ _ after ⟨answers, offers⟩
        exact ⟨_, offers.passed (.inl polled)⟩
      | false =>
        have started := returns_startSession (m := ⟨memory, m.world, .returned .unit,
          .resuming number factory rest count :: m.stack⟩) observes executor polled fetcher
        refine started.bind ?_
        rintro _ _ after memory' ⟨rfl, rfl, launched⟩
        refine (ih (m := ⟨memory', after, .returned (.flag true), m.stack⟩)
          (launched.near.hasExecutor.trans executor) distinct (count + 1)).mono ?_
        rintro _ _ after' ⟨answers, offers⟩
        exact ⟨_, offers.taken polled new launched⟩

/-- A session is stopped. -/
theorem returns_stopSession (observes : c.Observes) {id : TaskId}
    (polled : (m.tracker number).isPolling id = true) :
    Returns c number (m.stopSession number id none .requested) m.stack fun sights reply after =>
      sights = [.told (.stopped id .requested)] ∧ reply = .flag true ∧
        (m.world.after (.ended number id)).Told after := by
  obtain ⟨serial, found⟩ := Option.isSome_iff_exists.mp polled
  obtain ⟨w, ended⟩ : ∃ w, w = m.world.after (.ended number id) := ⟨_, rfl⟩
  have announced : ∀ memory, Returns c number
      (announce ⟨memory, w, .returned .unit, m.stack⟩ number id .requested) m.stack
      fun sights reply after =>
        sights = [.told (.stopped id .requested)] ∧ reply = .flag true ∧ w.Told after := by
    intro memory
    refine .tell (f := .answering (.flag true)) observes rfl fun after memory' told => ?_
    exact .reply rfl ⟨rfl, rfl, told⟩
  rw [stopSession_of_found found rfl, ← ended]
  split
  · exact announced m.memory
  · next label _ =>
    exact .invoke (f := .announcing number id .requested) (observes.stopped label id .requested) rfl
      announced

/-- Sessions are stopped one after the other. -/
theorem returns_stopEach (observes : c.Observes) {ids : List TaskId} (distinct : ids.Nodup)
    (polled : ∀ id ∈ ids, (m.tracker number).isPolling id = true) (count : Nat) :
    Returns c number (m.stopEach number count ids) m.stack fun sights reply after =>
      sights = ids.map (fun id => .told (.stopped id .requested)) ∧
        reply = .count (count + ids.length) ∧ (m.world.dismissed number ids).Told after := by
  induction ids generalizing m count with
  | nil => exact .reply rfl ⟨rfl, rfl, .refl _⟩
  | cons id rest ih =>
    obtain ⟨new, distinct⟩ := List.nodup_cons.mp distinct
    obtain ⟨first, polled⟩ := List.forall_mem_cons.mp polled
    have stopped := returns_stopSession (m := m.push (.stopping number rest count)) observes first
    refine stopped.bind ?_
    rintro _ _ after memory ⟨rfl, rfl, ended⟩
    have others : ∀ other ∈ rest, (after.tracker number).isPolling other = true := by
      intro other mem
      have found := (m.world.dismisses_one number id).sessions other
      rw [if_neg (by rintro same; exact new (List.mem_singleton.mp same ▸ mem))] at found
      rw [Tracker.isPolling, Dictionary.contains, ended.near.sessions]
      exact (congrArg Option.isSome found).trans (polled other mem)
    refine (ih (m := ⟨memory, after, .returned (.flag true), m.stack⟩) distinct others
      (count + 1)).mono ?_
    rintro _ _ after' ⟨rfl, rfl, told⟩
    exact ⟨rfl, congrArg Reply.count (Nat.add_right_comm _ _ _),
      (ended.dismissed number rest).trans told⟩

/-! ### Resuming, resuming again, and shutting down -/

/-- Sessions are resumed. Every record that is not terminal is offered to the factory, the oldest one
first, and the factory has these answers. The sessions that are missing are started, nothing else
changes, and the reply is their number. -/
structure Resumes (c : Consumer σ κ) (number : Nat) (factory : κ) (m : Machine σ κ)
    (answers : List (Task × Option κ)) (m' : Machine σ κ) : Prop where
  offered : answers.map Prod.fst = (m.tracker number).store.tasks.active
  replies : Replies c number m (.resume number factory)
    ((m.tracker number).resumption factory answers)
    (.count ((m.tracker number).missing answers).length) m'
  world : (m.world.launchedAll number ((m.tracker number).missing answers)).Told m'.world

namespace Resumes

variable {answers answers₂ : List (Task × Option κ)} {task : Task} {fetcher : κ}

/-- A session is missing for every record that is not terminal, if it has none and the factory has a
fetcher for it. -/
theorem mem_missing (resumes : Resumes c number factory m answers m₁)
    (keyed : (m.tracker number).store.tasks.Keyed) :
    (task, fetcher) ∈ (m.tracker number).missing answers ↔
      ((m.tracker number).store.tasks.find? task.id = some task ∧ task.isTerminal = false) ∧
        (m.tracker number).isPolling task.id = false ∧ (task, some fetcher) ∈ answers := by
  have listed : (task, some fetcher) ∈ answers →
      (m.tracker number).store.tasks.find? task.id = some task ∧ task.isTerminal = false :=
    fun answered => by
      have active := resumes.offered ▸ List.mem_map_of_mem answered
      rwa [Collection.active, Collection.mem_listed keyed, Bool.not_eq_true'] at active
  rw [Tracker.mem_missing]
  exact ⟨fun ⟨answered, vacant⟩ => ⟨listed answered, vacant, answered⟩,
    fun ⟨_, vacant, answered⟩ => ⟨answered, vacant⟩⟩

theorem sublist (resumes : Resumes c number factory m answers m₁) :
    (((m.tracker number).missing answers).map Prod.fst).Sublist
      (m.tracker number).store.tasks.active :=
  resumes.offered ▸ Tracker.map_fst_missing_sublist

/-- They are in the order of the lists. -/
theorem ordered (resumes : Resumes c number factory m answers m₁)
    (keyed : (m.tracker number).store.tasks.Keyed) :
    ((m.tracker number).missing answers).Pairwise fun a d => a.1.Precedes d.1 :=
  List.pairwise_map.mp ((Collection.listed_ordered keyed _).sublist resumes.sublist)

theorem distinct (resumes : Resumes c number factory m answers m₁)
    (keyed : (m.tracker number).store.tasks.Keyed) :
    ((m.tracker number).missing answers).Pairwise fun a d => d.1.id ≠ a.1.id :=
  List.pairwise_map.mp ((Collection.listed_distinct keyed _).sublist resumes.sublist)

theorem vacant {offer : Task × κ} (mem : offer ∈ (m.tracker number).missing answers) :
    (m.tracker number).sessions.find? offer.1.id = none :=
  Option.isNone_iff_eq_none.mp <| Option.isSome_eq_false_iff.mp
    (Tracker.mem_missing.mp (mem : (offer.1, offer.2) ∈ _)).2

theorem launches (resumes : Resumes c number factory m answers m₁)
    (keyed : (m.tracker number).store.tasks.Keyed) (inside : number < m.world.trackers.length) :
    m.world.Launches number ((m.tracker number).missing answers) m₁.world :=
  (World.launches_all inside (fun _ => vacant) (resumes.distinct keyed)).told resumes.world

theorem activeIds_perm (resumes : Resumes c number factory m answers m₁)
    (keyed : (m.tracker number).store.tasks.Keyed) (inside : number < m.world.trackers.length) :
    (m₁.tracker number).activeIds.Perm ((m.tracker number).activeIds ++
      ((m.tracker number).missing answers).map fun offer => offer.1.id) :=
  (resumes.launches keyed inside).activeIds_perm (fun _ => vacant) (resumes.distinct keyed)

/-- Every answer is what the factory has for the task at that time. -/
theorem exists_supply (resumes : Resumes c number factory m answers m₁) {answer : Option κ}
    (answered : (task, answer) ∈ answers) : ∃ memory, answer = c.supply factory task memory := by
  obtain ⟨_, states, _, _, _, _, seen⟩ := resumes.replies
  have mem : .offered factory task answer ∈ (m.tracker number).resumption factory answers :=
    List.mem_flatMap.mpr ⟨_, answered, List.mem_cons_self⟩
  rw [← seen] at mem
  exact exists_supply_of_mem_seen mem

/-- When the code ends as soon as sessions have been resumed, the sessions that are missing are those
of which the listeners are told until there is nothing left to do. -/
theorem of_done (resumes : Resumes c number factory m answers m₁)
    (control : m.control = .code (.call (.resume number factory) fun _ => .done))
    (stack : m.stack = []) {m' : Machine σ κ} {states : List (Machine σ κ)}
    (path : Path c m states m') (idle : m'.isIdle = true) {events : List SessionEvent}
    (told : (seen c number m states).filterMap Sight.event? = events) :
    m₁ = m'.code .done ∧ m₁.step c = m' ∧
      ((m.tracker number).resumption factory answers).filterMap Sight.event? = events ∧
      ((m.tracker number).missing answers).length = events.length := by
  obtain ⟨same, ends, seen⟩ := resumes.replies.of_done control stack path idle
  rw [seen] at told
  refine ⟨same, ends, told, ?_⟩
  rw [← told, Tracker.event?_resumption, List.length_map]

/-- Resuming changes no record. -/
theorem status? (resumes : Resumes c number factory m answers m₁) (id : TaskId) :
    m₁.world.status? number id = m.world.status? number id := by
  rw [World.status?, World.status?, resumes.world.near.tasks, World.tasks_launchedAll]

/-- The reason why a session is started for a task when sessions are resumed again, at the same time
or later, and whatever has happened in between: the session that it had has ended, the factory has
declined it before, or a record has been added for it. -/
theorem reason (first : Resumes c number factory m answers m₁) (reach : Reachable c m₁)
    (keyed : (m.tracker number).store.tasks.Keyed) (inside : number < m.world.trackers.length)
    {given : Code σ κ → Prop} {states : List (Machine σ κ)} (run : Run c given m₁ states m₂)
    (again : Resumes c number factory m₂ answers₂ m₃)
    (missing : (task, fetcher) ∈ (m₂.tracker number).missing answers₂) :
    (m₁.tracker number).isPolling task.id = true ∨
      (∃ declined, (declined, none) ∈ answers ∧ declined.id = task.id) ∨
      ∃ s ∈ (m₁ :: states).dropLast, s.Adds number task.id := by
  by_cases added : ∃ s ∈ (m₁ :: states).dropLast, s.Adds number task.id
  · exact .inr (.inr added)
  -- The record goes back to one that was not terminal when sessions were resumed first.
  have launches := first.launches keyed inside
  obtain ⟨between, resuming⟩ : Leads c given m m₁ := first.replies.leads
  have follows := run.follows_last reach (resuming.inside inside) fun s mem adds =>
    added ⟨s, mem, adds⟩
  have found := ((again.mem_missing ((reach.run run).sound.keyed number)).mp missing).1
  obtain ⟨status, before, became⟩ :=
    follows task.status (Option.map_eq_some_iff.mpr ⟨task, found.1, rfl⟩)
  rw [first.status?] at before
  obtain ⟨old, present, rfl⟩ := Option.map_eq_some_iff.mp before
  have goes : old.isTerminal = false := by
    refine Bool.eq_false_iff.mpr fun terminal => ?_
    rw [Status.successors_of_isTerminal terminal] at became
    have same : task.status = old.status := became.resolve_right List.not_mem_nil
    rw [Task.isTerminal, same] at found
    exact Bool.false_ne_true (found.2.symm.trans terminal)
  have own : old.id = task.id := keyed present
  have active : old ∈ (m.tracker number).store.tasks.active :=
    (Collection.mem_listed keyed).mpr ⟨own ▸ present, by rw [goes]; rfl⟩
  rw [← first.offered] at active
  obtain ⟨⟨_, answer⟩, answered, rfl⟩ := List.mem_map.mp active
  cases polled : (m.tracker number).isPolling task.id with
  | true => exact .inl (launches.isPolling_iff.mpr (.inl polled))
  | false =>
    cases answer with
    | none => exact .inr (.inl ⟨_, answered, own⟩)
    | some fetcher =>
      have lacked := Tracker.mem_missing.mpr ⟨answered, own.symm ▸ polled⟩
      exact .inl (launches.isPolling_iff.mpr (.inr ⟨_, lacked, own⟩))

end Resumes

/-- What is missing is started. -/
theorem exists_resumes (observes : c.Observes) (executor : m.world.hasExecutor = true)
    (keyed : (m.tracker number).store.tasks.Keyed) {next : Option Reply → Code σ κ}
    (control : m.control = .code (.call (.resume number factory) next)) :
    ∃ answers m', Resumes c number factory m answers m' := by
  have resumes : Returns c number ((m.push (.awaiting next)).resumeEach number factory 0
      (m.tracker number).store.tasks.active) (.awaiting next :: m.stack) _ :=
    returns_resumeEach (m := m.push (.awaiting next)) observes executor
      (Collection.listed_distinct keyed _) 0
  obtain ⟨_, _, m', replies, answers, offered, rfl, rfl, told⟩ := Returns.replies control resumes
  exact ⟨answers, m', offered, (Nat.zero_add (List.length _)) ▸ replies, told⟩

/-- The reply, and what the listeners are told, when the code ends as soon as sessions have been
resumed. -/
theorem resume_replies (reach : Reachable c m) (observes : c.Observes)
    (executor : m.world.hasExecutor = true)
    (control : m.control = .code (.call (.resume number factory) fun _ => .done))
    (stack : m.stack = []) {m' : Machine σ κ} {states : List (Machine σ κ)}
    (path : Path c m states m') (idle : m'.isIdle = true) {events : List SessionEvent}
    (heard : (seen c number m states).filterMap Sight.event? = events) :
    ∃ sights, Replies c number m (.resume number factory) sights (.count events.length)
        (m'.code .done) ∧
      (m'.code .done).step c = m' ∧ sights.filterMap Sight.event? = events := by
  obtain ⟨answers, m₁, resumes⟩ :=
    exists_resumes observes executor (reach.sound.keyed number) control
  obtain ⟨rfl, ends, told, count⟩ := resumes.of_done control stack path idle heard
  exact ⟨_, count ▸ resumes.replies, ends, told⟩

/-- All sessions are stopped. -/
theorem stopAll_replies (observes : c.Observes) {next : Option Reply → Code σ κ}
    (control : m.control = .code (.call (.stopAll number) next)) :
    let ids := (m.tracker number).activeIds
    ∃ m', Replies c number m (.stopAll number) (ids.map fun id => .told (.stopped id .requested))
        (.count ids.length) m' ∧
      m.world.Dismisses number ids m'.world := by
  intro ids
  have stops : Returns c number ((m.push (.awaiting next)).stopEach number 0 ids)
      (.awaiting next :: m.stack) _ :=
    returns_stopEach (m := m.push (.awaiting next)) observes (m.tracker number).sessions.nodup_keys
      (fun id mem => (Dictionary.mem_keys _).mp mem) 0
  obtain ⟨_, _, m', replies, rfl, rfl, told⟩ := Returns.replies control stops
  exact ⟨m', (Nat.zero_add ids.length) ▸ replies, (World.dismisses_all _ _ _).told told⟩

/-- Whoever resumes sessions, and from wherever, and whatever the factory answers: what is missing is
started, in the order of the lists, and nothing else changes. The listeners are told so, and the
reply is the number of sessions. When sessions are resumed again, at the same time or later, there is
a reason for every session that is started. So none is started as long as no session has ended before
its record was terminal, the factory declines again what it has declined, and no record has been
added. When the tracker is shut down, all sessions are stopped, old and new ones, each of them
once. -/
theorem resume_starts_missing (reach : Reachable c m) (observes : c.Observes)
    (executor : m.world.hasExecutor = true) (inside : number < m.world.trackers.length)
    {next : Option Reply → Code σ κ}
    (control : m.control = .code (.call (.resume number factory) next)) :
    ∃ answers m₁, Resumes c number factory m answers m₁ ∧
      m.world.Launches number ((m.tracker number).missing answers) m₁.world ∧
      (∀ task fetcher, (task, fetcher) ∈ (m.tracker number).missing answers ↔
        ((m.tracker number).store.tasks.find? task.id = some task ∧ task.isTerminal = false) ∧
          (m.tracker number).isPolling task.id = false ∧ (task, some fetcher) ∈ answers) ∧
      ((m.tracker number).missing answers).Pairwise (fun a d => a.1.Precedes d.1) ∧
      (m₁.tracker number).activeIds.Perm ((m.tracker number).activeIds ++
        ((m.tracker number).missing answers).map fun offer => offer.1.id) ∧
      (m₁.tracker number).activeIds.Nodup ∧
      (∀ given states m₂ next₂, Run c given m₁ states m₂ →
        m₂.control = .code (.call (.resume number factory) next₂) →
        m₂.world.hasExecutor = true →
        ∃ answers₂ m₃, Resumes c number factory m₂ answers₂ m₃ ∧
          (∀ task fetcher, (task, fetcher) ∈ (m₂.tracker number).missing answers₂ →
            (m₁.tracker number).isPolling task.id = true ∨
              (∃ declined, (declined, none) ∈ answers ∧ declined.id = task.id) ∨
              ∃ s ∈ (m₁ :: states).dropLast, s.Adds number task.id) ∧
          (World.SeesOff number m₁.world m₂.world →
            (∀ declined, (declined, none) ∈ answers → ∀ task fetcher,
              (task, some fetcher) ∈ answers₂ → task.id ≠ declined.id) →
            (∀ s ∈ (m₁ :: states).dropLast, ∀ id, ¬ s.Adds number id) →
            Replies c number m₂ (.resume number factory)
                (answers₂.map fun offer => .offered factory offer.1 offer.2) (.count 0) m₃ ∧
              m₂.world.Told m₃.world)) ∧
      ∀ m₂ next₂, m₂.control = .code (.call (.stopAll number) next₂) →
        (m₂.tracker number).sessions = (m₁.tracker number).sessions →
        ∃ m₃, Replies c number m₂ (.stopAll number)
            ((m₁.tracker number).activeIds.map fun id => .told (.stopped id .requested))
            (.count ((m.tracker number).activeIds.length +
              ((m.tracker number).missing answers).length)) m₃ ∧
          m₂.world.Dismisses number (m₁.tracker number).activeIds m₃.world ∧
          ∀ id, (m₃.tracker number).isPolling id = false := by
  have keyed : (m.tracker number).store.tasks.Keyed := reach.sound.keyed number
  obtain ⟨answers, m₁, resumes⟩ := exists_resumes observes executor keyed control
  have perm := resumes.activeIds_perm keyed inside
  obtain ⟨between, resuming⟩ : Leads c (fun _ => True) m m₁ := resumes.replies.leads
  have reach₁ : Reachable c m₁ := reach.run resuming
  refine ⟨answers, m₁, resumes, resumes.launches keyed inside, fun _ _ => resumes.mem_missing keyed,
    resumes.ordered keyed, perm, Dictionary.nodup_keys _, ?_, ?_⟩
  · intro given states m₂ next₂ run control₂ executor₂
    have keyed₂ := (reach₁.run run).sound.keyed number
    obtain ⟨answers₂, m₃, again⟩ := exists_resumes observes executor₂ keyed₂ control₂
    refine ⟨answers₂, m₃, again, fun _ _ => resumes.reason reach₁ keyed inside run again,
      fun seesOff declines unadded => ?_⟩
    have nothing : (m₂.tracker number).missing answers₂ = [] := by
      refine List.eq_nil_iff_forall_not_mem.mpr fun ⟨task, fetcher⟩ missing => ?_
      obtain ⟨⟨found, goes⟩, vacant, answered⟩ := (again.mem_missing keyed₂).mp missing
      rcases resumes.reason reach₁ keyed inside run again missing with
        polled | ⟨declined, before, own⟩ | ⟨s, mem, adds⟩
      · rcases seesOff task.id polled with there | ended
        · exact Bool.false_ne_true (vacant.symm.trans there)
        · have terminal := ended task.status (Option.map_eq_some_iff.mpr ⟨task, found, rfl⟩)
          exact Bool.false_ne_true (goes.symm.trans terminal)
      · exact declines declined before task fetcher answered own.symm
      · exact unadded s mem task.id adds
    have replies := again.replies
    have told := again.world
    rw [Tracker.resumption_of_missing_eq_nil nothing, nothing] at replies
    rw [nothing] at told
    exact ⟨replies, told⟩
  · intro m₂ next₂ control₂ sessions
    have ids : (m₂.tracker number).activeIds = (m₁.tracker number).activeIds :=
      congrArg Dictionary.keys sessions
    obtain ⟨m₃, replies₃, dismisses⟩ := stopAll_replies observes control₂
    rw [ids] at replies₃ dismisses
    have count : (m₁.tracker number).activeIds.length = (m.tracker number).activeIds.length +
        ((m.tracker number).missing answers).length := by
      rw [perm.length_eq, List.length_append, List.length_map]
    refine ⟨m₃, count ▸ replies₃, dismisses, fun id => ?_⟩
    rw [tracker, Tracker.isPolling, Dictionary.contains, dismisses.sessions]
    split
    · rfl
    · next absent =>
      rw [← tracker, sessions]
      exact Bool.eq_false_iff.mpr fun polled => absent ((Dictionary.mem_keys _).mpr polled)

/-- A consumer that remembers one thing, and whose jobs go on. One factory never has a fetcher for the
job `b`. The other one has none for it until the consumer remembers, and its fetchers panic. -/
def reviver : Consumer Bool Nat where
  react label occasion :=
    match label, occasion with
    | 9, .fetching _ _ => .panic
    | _, _ => .done
  proceed _ _ _ _ := .answer (.ok { status := .processing })
  supply factory task remembers :=
    if task.id = "b" && !(factory == 9 && remembers) then none else some factory

theorem reviver_observes : reviver.Observes := by
  refine ⟨fun label n => ?_, fun label => ?_, fun label id reason => ?_, fun label task => ?_⟩
  all_goals
    unfold reviver
    dsimp only
    split
    · contradiction
    · first | exact trivial | rfl

theorem reviver_supply (task : Task) (remembers : Bool) :
    reviver.supply 7 task remembers = if task.id = "b" then none else some 7 := by
  simp [reviver]

/-- A job that has just been submitted, or has ended. -/
def jobOf (id : TaskId) (status : Status) : Draft :=
  { id, kind := .analysis, status, createdAt := some .epoch }

/-- Three jobs go on, one of them is polled for, and a fourth one has ended. Sessions are
resumed. -/
def reviving : Machine Bool Nat :=
  stepTimes reviver 22 <| (idle false (.blank .inMemory 0 true)).code <|
    .call (.openTracker "tasks" .default) fun _ =>
    .call (.add 0 (jobOf "a" .queued)) fun _ =>
    .call (.add 0 (jobOf "b" .queued)) fun _ =>
    .call (.add 0 (jobOf "c" .queued)) fun _ =>
    .call (.add 0 (jobOf "d" .completed)) fun _ =>
    .call (.start 0 "a" 5) fun _ =>
    .call (.resume 0 7) fun _ => .done

/-- They have been resumed. -/
def revived : Machine Bool Nat := stepTimes reviver 16 reviving

/-- The new session gets its turn, and hears that its job is processed. -/
def stirred : Machine Bool Nat :=
  (revived.withWorld { revived.world with suspended := revived.world.suspended.take 1 ++ [] }).wake
    ⟨{ tracker := 0, id := "c", serial := 2, fetcher := 7 }, .fresh⟩

/-- Sessions are about to be resumed once more, and then the consumer shuts down. -/
def recalling : Machine Bool Nat :=
  (stepTimes reviver 5 stirred).code <|
    .call (.resume 0 7) fun _ => .call (.stopAll 0) fun _ => .done

/-- One session is missing, and it is started. It has its first turn, and writes to its record. When
sessions are resumed again, at the same time, nothing is missing; and then both sessions are
stopped. -/
theorem resume_starts_missing_one :
    ∃ sights sights₂ m₃ m₄,
      Replies reviver 0 reviving (.resume 0 7) sights (.count 1) (revived.code .done) ∧
      sights.filterMap Sight.event? = [.started "c"] ∧
      ((revived.code .done).tracker 0).activeIds.Perm ["a", "c"] ∧
      Leads reviver (fun _ => True) (revived.code .done) recalling ∧
      revived.world.status? 0 "c" = some .queued ∧
      recalling.world.status? 0 "c" = some .processing ∧
      Replies reviver 0 recalling (.resume 0 7) sights₂ (.count 0) m₃ ∧
      Replies reviver 0 m₃ (.stopAll 0)
        [.told (.stopped "a" .requested), .told (.stopped "c" .requested)] (.count 2) m₄ ∧
      ∀ id, (m₄.tracker 0).isPolling id = false := by
  have reach : Reachable reviver reviving := ⟨false, .inMemory, 0, true, _,
    (Run.start.move (.code rfl trivial)).append (run_steps (by decide +kernel))⟩
  obtain ⟨answers, m₁, resumes, _, _, _, perm, _, again, shut⟩ :=
    resume_starts_missing reach reviver_observes rfl (by decide +kernel)
      (rfl : reviving.control = .code (.call (.resume 0 7) _))
  -- What comes of the first call can be computed.
  have path : Path reviver reviving (trail reviver 16 reviving) revived :=
    path_steps (by decide +kernel)
  have heard : (seen reviver 0 reviving (trail reviver 16 reviving)).filterMap Sight.event? =
      [.started "c"] := by decide +kernel
  obtain ⟨rfl, ends, told, one⟩ := resumes.of_done rfl rfl path (by decide +kernel) heard
  -- The session that has been started gets a turn.
  have wakes : Move reviver (fun _ => True) revived stirred :=
    .wake (by decide +kernel) rfl (by decide +kernel)
  have ended : Move reviver (fun _ => True) (revived.code .done) revived := by
    have step : Move reviver (fun _ => True) (revived.code .done) _ := .step rfl
    rwa [ends] at step
  have run : Run reviver (fun _ => True) (revived.code .done)
      ((([revived] ++ [stirred]) ++ trail reviver 5 stirred) ++ [recalling]) recalling :=
    (((Run.start.move ended).move wakes).append (run_steps (by decide +kernel))).move
      (.code (by decide +kernel) trivial)
  have quiet : ∀ m ∈ (revived.code .done ::
      ((([revived] ++ [stirred]) ++ trail reviver 5 stirred) ++ [recalling])).dropLast,
      m.isCalling = false := by decide +kernel
  have old : ((revived.code .done).tracker 0).activeIds = ["a", "c"] := by decide +kernel
  have seesOff : World.SeesOff 0 (revived.code .done).world recalling.world := by
    intro id polled
    have polled : id ∈ ((revived.code .done).tracker 0).activeIds :=
      (Dictionary.mem_keys _).mpr polled
    rw [old] at polled
    left
    rcases List.mem_pair.mp polled with rfl | rfl
    · decide +kernel
    · decide +kernel
  obtain ⟨answers₂, m₃, resumes₂, _, nothing⟩ := again _ _ recalling _ run rfl (by decide +kernel)
  have declines : ∀ declined, (declined, none) ∈ answers → ∀ task fetcher,
      (task, some fetcher) ∈ answers₂ → task.id ≠ declined.id := by
    intro declined before task fetcher after same
    obtain ⟨_, declines⟩ := resumes.exists_supply before
    obtain ⟨_, supplies⟩ := resumes₂.exists_supply after
    rw [reviver_supply] at declines supplies
    rw [same, ← declines] at supplies
    exact Option.some_ne_none _ supplies
  obtain ⟨replies₂, same⟩ := nothing seesOff declines fun m mem id => not_adds (quiet m mem)
  have next : m₃.control = .code (.call (.stopAll 0) fun _ => .done) := by
    obtain ⟨next, _, control, _, back, _⟩ := replies₂
    obtain ⟨_, rfl⟩ := Program.call.inj (Control.code.inj control)
    exact back
  have entries : (recalling.world.tracker 0).sessions.entries =
      ((revived.code .done).tracker 0).sessions.entries := by decide +kernel
  have sessions : (m₃.tracker 0).sessions = ((revived.code .done).tracker 0).sessions := by
    rw [tracker, same.near.sessions]
    exact (Dictionary.mk.injEq _ _ _ _).mpr entries
  obtain ⟨m₄, replies₃, _, idle⟩ := shut m₃ _ next sessions
  have replies := resumes.replies
  rw [one] at replies
  rw [one, old] at replies₃
  exact ⟨_, _, m₃, m₄, replies, told, .of_eq old, ⟨_, run⟩, by decide +kernel, by decide +kernel,
    replies₂, replies₃, idle⟩

/-- Two jobs go on. Sessions are resumed with fetchers that panic. -/
def stumbling : Machine Bool Nat :=
  stepTimes reviver 10 <| (idle false (.blank .inMemory 0 true)).code <|
    .call (.openTracker "tasks" .default) fun _ =>
    .call (.add 0 (jobOf "a" .queued)) fun _ =>
    .call (.add 0 (jobOf "b" .queued)) fun _ =>
    .call (.resume 0 9) fun _ => .done

/-- They have been resumed. -/
def stumbled : Machine Bool Nat := stepTimes reviver 12 stumbling

/-- The session that has been started gets its turn, and its fetcher panics. -/
def fallen : Machine Bool Nat :=
  (stumbled.withWorld { stumbled.world with suspended := [] ++ [] }).wake
    ⟨{ tracker := 0, id := "a", serial := 1, fetcher := 9 }, .fresh⟩

/-- The consumer remembers, and adds a record. -/
def remembering : Machine Bool Nat :=
  (stepTimes reviver 6 fallen).code <| .note (fun _ => true) <|
    .call (.add 0 (jobOf "e" .queued)) fun _ =>
    .call (.resume 0 9) fun _ => .done

/-- Sessions are about to be resumed once more. -/
def retrying : Machine Bool Nat := stepTimes reviver 5 remembering

/-- Sessions may be started when sessions are resumed again before the clock has moved: for a task
whose fetcher has panicked meanwhile, for one that the factory declined, and for a new record. -/
theorem resume_again_starts :
    ∃ sights sights₂ m₁ m₃,
      Reachable reviver stumbling ∧
      Replies reviver 0 stumbling (.resume 0 9) sights (.count 1) m₁ ∧
      sights.filterMap Sight.event? = [.started "a"] ∧
      Leads reviver (fun _ => True) m₁ retrying ∧
      retrying.world.clock = m₁.world.clock ∧ retrying.world.hasExecutor = true ∧
      Replies reviver 0 retrying (.resume 0 9) sights₂ (.count 3) m₃ ∧
      sights₂.filterMap Sight.event? = [.started "a", .started "b", .started "e"] := by
  have reach : Reachable reviver stumbling := ⟨false, .inMemory, 0, true, _,
    (Run.start.move (.code rfl trivial)).append (run_steps (by decide +kernel))⟩
  have path : Path reviver stumbling (trail reviver 12 stumbling) stumbled :=
    path_steps (by decide +kernel)
  have heard : (seen reviver 0 stumbling (trail reviver 12 stumbling)).filterMap Sight.event? =
      [.started "a"] := by decide +kernel
  obtain ⟨sights, replies, ends, told⟩ :=
    resume_replies reach reviver_observes (by decide +kernel) rfl rfl path (by decide +kernel) heard
  -- In between a fetcher panics, the consumer remembers, and a record is added.
  have ended : Move reviver (fun _ => True) (stumbled.code .done) stumbled := by
    have step : Move reviver (fun _ => True) (stumbled.code .done) _ := .step rfl
    rwa [ends] at step
  have wakes : Move reviver (fun _ => True) stumbled fallen :=
    .wake (by decide +kernel) rfl (by decide +kernel)
  have run : Run reviver (fun _ => True) (stumbled.code .done)
      (((([stumbled] ++ [fallen]) ++ trail reviver 6 fallen) ++ [remembering]) ++
        trail reviver 5 remembering) retrying :=
    ((((Run.start.move ended).move wakes).append (run_steps (by decide +kernel))).move
      (.code (by decide +kernel) trivial)).append (run_steps (by decide +kernel))
  have path₂ : Path reviver retrying (trail reviver 21 retrying) (stepTimes reviver 21 retrying) :=
    path_steps (by decide +kernel)
  have heard₂ : (seen reviver 0 retrying (trail reviver 21 retrying)).filterMap Sight.event? =
      [.started "a", .started "b", .started "e"] := by decide +kernel
  obtain ⟨between, resuming⟩ : Leads reviver (fun _ => True) stumbling (stumbled.code .done) :=
    replies.leads
  obtain ⟨sights₂, replies₂, _, told₂⟩ :=
    resume_replies ((reach.run resuming).run run) reviver_observes (by decide +kernel) rfl rfl path₂
      (by decide +kernel) heard₂
  exact ⟨sights, sights₂, _, _, reach, replies, told, ⟨_, run⟩, by decide +kernel,
    by decide +kernel, replies₂, told₂⟩

end Machine

end TaskWatch
