import TaskWatch.Proofs.Store.Forward

/-!
# Sessions keep records current

A session compares what the backend reports with the status that it has seen last, not with the
record, and writes to the record when the two differ. This keeps the record abreast of the reports,
for a record only goes forward: what is written by others besides cannot take it back behind the
status. Only a new record that is added for the task can. The session does not notice it as long as
the reports repeat the status that it has seen last, and the record stays behind.

## Main definitions

* `World.IsAbreast` — the record of a task is not behind a status.
* `Machine.memos` — the statuses that sessions have seen last.
* `Machine.Supplants` — a record is added for the task of a session that has seen a status.

## Main results

* `Machine.Move.isAbreast` — a record that is abreast of a status stays so, unless one is added.
* `Machine.Move.memos` — what a session has newly seen, its record is abreast of.
* `Machine.Run.memos` — records are abreast of what sessions have seen, unless they are supplanted.
* `Machine.record_kept_current` — after a report the record is abreast of it, unless a record was
  added for the task after the session had seen the status.
-/

namespace TaskWatch

variable {σ κ : Type}

/-! ### Records go forward -/

/-- A record that has a status, or may not take it any more, stays so when it goes forward. -/
theorem Status.abreast_of_mayBecome {status current next : Status}
    (abreast : current = status ∨ current.mayBecome status = false)
    (forward : current.mayBecome next = true) :
    next = status ∨ next.mayBecome status = false := by
  by_cases back : next.mayBecome status = true
  · left
    rcases abreast with rfl | never
    · exact Status.eq_of_mayBecome back forward
    · exact absurd (Status.mayBecome_trans forward back) (by simp [never])
  · exact .inr (Bool.eq_false_iff.mpr back)

namespace World

variable {w w' : World κ} {d : Deed κ} {k : Nat} {id : TaskId} {status : Status}

/-- The record of a task is not behind a status: it has the status or may not take it any more, or
there is no record. -/
def IsAbreast (w : World κ) (k : Nat) (id : TaskId) (status : Status) : Prop :=
  ∀ task, (w.tracker k).store.tasks.find? id = some task →
    task.status = status ∨ task.status.mayBecome status = false

instance (w : World κ) (k : Nat) (id : TaskId) (status : Status) :
    Decidable (w.IsAbreast k id status) :=
  decidable_of_iff (((w.tracker k).store.tasks.find? id).all fun task =>
      decide (task.status = status ∨ task.status.mayBecome status = false)) <| by
    simp only [Option.all_eq_true, decide_eq_true_eq]
    exact ⟨fun all task found => all task found, fun abreast task found => abreast task found⟩

theorem Near.isAbreast (near : w.Near w') (abreast : w.IsAbreast k id status) :
    w'.IsAbreast k id status := fun task found => by
  rw [near.tasks] at found
  exact abreast task found

/-- A record that is abreast of a status stays so, unless a record is added. -/
theorem Does.isAbreast (does : w.Does d w') (inside : k < w.trackers.length) (keyed : w.Keyed)
    (unadded : ∀ task, d = .kept k task → task.id ≠ id) (abreast : w.IsAbreast k id status) :
    w'.IsAbreast k id status := by
  intro task found
  obtain ⟨current, present, forward⟩ := does.forward inside keyed unadded found
  exact Status.abreast_of_mayBecome (abreast current present) forward

end World

/-! ### What sessions have seen -/

/-- The status that a session has seen last. -/
def SessionTask.memo? (s : SessionTask κ) : Option (SessionName × Status) := s.last.map (s.name, ·)

/-- The session in its turn on a frame, and the status that it has seen last. A session that has
written a status to its record has seen it, and one that is about to end goes by nothing any more.
-/
def Frame.memo? : Frame σ κ → Option (SessionName × Status)
  | .session s (.recorded report _) => some (s.name, report.status)
  | .session s (.fetching _) | .session s (.changed _ _) | .session s .failed => s.memo?
  | _ => none

/-- A suspended session, and the status that it has seen last. In its first turn it looks at its
record. -/
def Suspended.memo? (entry : Suspended κ) : Option (SessionName × Status) :=
  match entry.pause with
  | .fresh => none
  | _ => entry.task.memo?

namespace Machine

variable {c : Consumer σ κ} {given : Code σ κ → Prop} {m m' m₀ : Machine σ κ}
  {s : SessionTask κ} {k : Nat} {id : TaskId} {status : Status}

/-- The statuses that sessions have seen last. -/
def memos (m : Machine σ κ) : List (SessionName × Status) :=
  m.stack.filterMap Frame.memo? ++ m.world.suspended.filterMap Suspended.memo?

theorem Turnover.isAbreast {added : Nat → TaskId → Prop} (turnover : Turnover added m m')
    (inside : k < m.world.trackers.length) (keyed : m.world.Keyed) (unadded : ¬ added k id)
    (abreast : m.world.IsAbreast k id status) : m'.world.IsAbreast k id status := by
  obtain ⟨d, does, records⟩ := turnover.does
  refine does.isAbreast inside keyed (fun task kept other => unadded ?_) abreast
  exact other ▸ records k task kept

/-- A record that is abreast of a status stays so, unless a record is added. -/
theorem Move.isAbreast (move : Move c given m m') (inside : k < m.world.trackers.length)
    (sound : m.Sound) (unadded : ¬ m.Adds k id) (abreast : m.world.IsAbreast k id status) :
    m'.world.IsAbreast k id status := by
  cases move.happens with
  | step busy =>
    rcases m.step_near_or_turnover c with near | turnover
    · exact near.isAbreast abreast
    · rw [← m.world_below] at inside abreast
      exact turnover.isAbreast inside (m.world_below.symm ▸ sound.keyed) unadded abreast
  | wake idle listed ready =>
    exact (wake_turnover _ _).isAbreast inside sound.keyed unadded abreast
  | abandon idle closed listed =>
    exact (abandon_turnover _ _).isAbreast inside sound.keyed unadded abreast
  | idles idles => exact idles.near.isAbreast abreast

/-- What sessions have seen they had seen before, or it is one of certain things. -/
def Learns (facts : List (SessionName × Status)) (m m' : Machine σ κ) : Prop :=
  ∀ x ∈ m'.memos, x ∈ m.memos ∨ x ∈ facts

variable {facts : List (SessionName × Status)}

/-- Frames are pushed, and sessions are suspended. -/
private theorem learns (new : List (Frame σ κ)) (more : List (Suspended κ))
    (stack : m'.stack = new ++ m.stack)
    (suspended : m'.world.suspended = m.world.suspended ++ more)
    (known : ∀ x ∈ new.filterMap Frame.memo? ++ more.filterMap Suspended.memo?, x ∈ facts) :
    Learns facts m m' := by
  intro x mem
  rw [memos, stack, suspended, List.filterMap_append, List.filterMap_append] at mem
  rw [memos]
  simp only [List.mem_append] at mem known ⊢
  rcases mem with (mem | mem) | mem | mem
  · exact .inr (known x (.inl mem))
  · exact .inl (.inl mem)
  · exact .inl (.inr mem)
  · exact .inr (known x (.inr mem))

private theorem Learns.refl (m : Machine σ κ) : Learns facts m m := fun _ => .inl

theorem Learns.mono {more : List (SessionName × Status)} (learns : Learns facts m m')
    (sub : ∀ x ∈ facts, x ∈ more) : Learns more m m' := fun x mem =>
  (learns x mem).imp_right (sub x)

/-- Where nothing is learnt, whatever has been known is enough. -/
theorem Learns.of_nil (learns : Learns [] m m') : Learns facts m m' :=
  learns.mono fun _ mem => absurd mem List.not_mem_nil

theorem Learns.of_push {f : Frame σ κ} (learns : Learns facts (m.push f) m')
    (silent : f.memo? = none) : Learns facts m m' := by
  intro x mem
  have pushed := learns x mem
  rwa [memos, push, List.filterMap_cons_none silent] at pushed

/-- A frame is pushed, and something is called. -/
private theorem learns_push {w : World κ} {control : Control σ κ} (f : Frame σ κ)
    (suspended : w.suspended = m.world.suspended) :
    Learns f.memo?.toList m ⟨m.memory, w, control, f :: m.stack⟩ := by
  refine learns [f] [] rfl (suspended.trans (List.append_nil _).symm) fun x mem => ?_
  rw [List.filterMap_nil, List.append_nil] at mem
  cases memo : f.memo? <;> simp_all

/-! ### Turns of a session -/

theorem suspend_learns (m : Machine σ κ) (s : SessionTask κ) (pause : Pause) :
    Learns s.memo?.toList m (m.suspend s pause) := by
  refine learns [] [⟨s, pause⟩] rfl rfl fun x mem => ?_
  rw [List.filterMap_nil, List.nil_append] at mem
  cases pause <;> cases memo : s.memo? <;> simp_all [Suspended.memo?]

private theorem stopSession_learns (m : Machine σ κ) (number : Nat) (id : TaskId)
    (only : Option Serial) (reason : StopReason) :
    Learns facts m (m.stopSession number id only reason) := by
  obtain still | ⟨serial, _, ended | ⟨label, ended⟩⟩ := m.stopSession_cases number id only reason
  · rw [still]
    exact .refl m
  · rw [ended]
    exact (learns_push (.answering (.flag true)) rfl).of_nil
  · rw [ended]
    exact (learns_push (.announcing number id reason) rfl).of_nil

theorem conclude_learns (m : Machine σ κ) (s : SessionTask κ) (reason : StopReason) :
    Learns facts m (m.conclude s reason) :=
  .of_push (f := .session s .ending) (stopSession_learns _ _ _ _ _) rfl

theorem finish_learns (m : Machine σ κ) (s : SessionTask κ) : Learns facts m (m.finish s) := by
  rw [finish]
  split
  · exact .of_push (f := .session s .aborting) (stopSession_learns _ _ _ _ _) rfl
  · exact .refl m

/-- A session that goes on with a report goes by what it has seen last, if it goes by anything. -/
theorem Responds.learns {report : Report} {hooks : Hooks κ} {seen : List (Option Status)}
    (responds : Responds m s report hooks seen m') :
    Learns [] m m' ∨ ∃ last ∈ seen, Learns (SessionTask.memo? { s with last }).toList m m' := by
  cases responds with
  | ends ended => exact .inl (.refl m)
  | tells noted hook =>
    exact .inr ⟨_, noted, learns_push
      (.session { s with last := some report.status } (.changed report hooks)) rfl⟩
  | @sleeps last noted undecided => exact .inr ⟨last, noted, m.suspend_learns { s with last } _⟩
  | @handles last label reason noted verdict hook =>
    exact .inl (learns_push (.session { s with last } (.concluded reason)) rfl)
  | @concludes last reason noted verdict unset =>
    exact .inl (m.conclude_learns { s with last } reason)

theorem Responds.learns_last {report : Report} {hooks : Hooks κ} {last : Option Status}
    (responds : Responds m s report hooks [last] m') :
    Learns (SessionTask.memo? { s with last }).toList m m' := by
  obtain nothing | ⟨_, noted, learns⟩ := responds.learns
  · exact nothing.of_nil
  · exact List.mem_singleton.mp noted ▸ learns

/-- After a report has been compared with the record, the record is abreast of it. -/
theorem recordStatus_isAbreast (inside : s.tracker < m.world.trackers.length)
    (keyed : m.world.Keyed) (report : Report) (hooks : Hooks κ) :
    (m.recordStatus s report hooks).world.IsAbreast s.tracker s.id report.status := by
  have stays : ∀ {m'}, Turnover (fun _ _ => False) m m' →
      m.world.IsAbreast s.tracker s.id report.status →
      m'.world.IsAbreast s.tracker s.id report.status := fun turnover =>
    turnover.isAbreast inside keyed id
  rw [recordStatus]
  obtain ⟨absent, ended⟩ | ⟨current, present, ⟨error, refused, ended⟩ | ⟨_, same, ended⟩ |
      ⟨_, _, ended⟩⟩ :=
    (m.tracker s.tracker).store.tasks.update_cases s.id (.ofStatus report.status)
  · rw [ended]
    refine stays (m.changeStatus_responds s report hooks).turnover fun task found => ?_
    exact absurd (absent.symm.trans found) (by simp)
  · rw [ended]
    refine stays (m.afterStatus_responds s report hooks).turnover fun task found => ?_
    obtain rfl := Option.some.inj (present.symm.trans found)
    right
    refine Bool.eq_false_iff.mpr fun may => ?_
    rw [(Collection.refusal_ofStatus _ _).mpr may] at refused
    simp at refused
  · rw [ended]
    refine stays (m.changeStatus_responds s report hooks).turnover fun task found => ?_
    obtain rfl := Option.some.inj (present.symm.trans found)
    exact .inl (Task.status_eq_of_beq same).symm
  · have event := congrArg Mutation.event ended
    have applied := congrArg Mutation.answer ended
    simp only [event]
    intro task found
    have written : ((m.world.after (.patched s.tracker s.id (.ofStatus report.status))).tracker
        s.tracker).store.tasks.find? s.id = some task := found
    rw [World.tasks_after] at written
    dsimp only at written
    rw [if_pos ⟨rfl, inside⟩, Collection.find?_update (keyed _), if_pos ⟨rfl, applied⟩] at written
    obtain ⟨before, _, rfl⟩ := Option.map_eq_some_iff.mp written
    exact .inl rfl

/-- After a report has been received, the record is abreast of it, if it has been abreast of what
the session had seen before. -/
theorem receive_isAbreast (lives : m.world.lives s.name = true) (keyed : m.world.Keyed)
    (report : Report)
    (seen : s.last = some report.status → m.world.IsAbreast s.tracker s.id report.status) :
    (m.receive s (.ok report)).world.IsAbreast s.tracker s.id report.status := by
  have live : m.world.isLive s = true := lives
  have inside : s.tracker < m.world.trackers.length := World.inside_of_lives (S := s.name) lives
  rw [receive, if_pos live]
  dsimp only
  split
  · next same =>
    have turnover : Turnover (fun _ _ => False) m (m.afterStatus s report _) :=
      (m.afterStatus_responds s report (m.tracker s.tracker).settings.hooks).turnover
    exact turnover.isAbreast inside keyed id (seen same)
  · exact recordStatus_isAbreast inside keyed report _

/-- The record of a session is abreast of a status. -/
def Knows (m : Machine σ κ) (x : SessionName × Status) : Prop :=
  x.1.tracker < m.world.trackers.length ∧ m.world.IsAbreast x.1.tracker x.1.id x.2

/-- A session knows what it knew before, or a status that its record is abreast of. -/
def Minding (old : Option (SessionName × Status)) (S : SessionName) (m m' : Machine σ κ) : Prop :=
  Learns old.toList m m' ∨ ∃ status, Learns [(S, status)] m m' ∧ m'.Knows (S, status)

theorem Turnover.inside {added : Nat → TaskId → Prop} (turnover : Turnover added m m')
    (inside : k < m.world.trackers.length) : k < m'.world.trackers.length := by
  obtain ⟨d, does, -⟩ := turnover.does
  exact does.inside inside

/-- A session that gets an answer goes by what it knew, or by a report that its record is abreast of.
-/
theorem receive_minding (m : Machine σ κ) (s : SessionTask κ) (keyed : m.world.Keyed)
    (result : Except FetchError Report) : Minding s.memo? s.name m (m.receive s result) := by
  have receives := m.receive_receives s result
  have knows : ∀ report, result = .ok report → m.world.lives s.name = true →
      s.last ≠ some report.status → (m.receive s result).Knows (s.name, report.status) := by
    rintro report rfl lives new
    have turnover : Turnover (fun _ _ => False) m _ := receives.turnover
    exact ⟨turnover.inside (World.inside_of_lives lives),
      receive_isAbreast lives keyed report fun same => absurd same new⟩
  generalize m.receive s result = m' at receives knows ⊢
  cases receives with
  | ends ended => exact .inl (Learns.refl m)
  | @writes report event lives new counted =>
    refine .inr ⟨report.status, ?_, knows report rfl lives new⟩
    exact learns_push (.session s (.recorded report (m.tracker s.tracker).settings.hooks)) rfl
  | @responds report _ lives responds =>
    obtain nothing | ⟨last, noted, learns⟩ := responds.learns
    · exact .inl nothing.of_nil
    · by_cases new : s.last = some report.status
      · obtain rfl : last = s.last := by simpa [new] using noted
        exact .inl learns
      · obtain rfl | rfl : last = s.last ∨ last = some report.status := by simpa using noted
        · exact .inl learns
        · exact .inr ⟨report.status, learns, knows report rfl lives new⟩
  | complains lives uncancelled hook => exact .inl (learns_push (.session s .failed) rfl)
  | sleeps lives => exact .inl (m.suspend_learns s _)

/-- A session that goes on from a frame knows what it knew on it, or what its record is abreast of.
-/
theorem continueSession_minding (m : Machine σ κ) (c : Consumer σ κ) (keyed : m.world.Keyed)
    (s : SessionTask κ) (point : Point κ) :
    Minding (Frame.session s point : Frame σ κ).memo? s.name m (m.continueSession c s point) := by
  cases point with
  | fetching turn =>
    rw [continueSession]
    split
    · exact m.receive_minding s keyed _
    · exact .inl (m.suspend_learns s _)
    · exact .inl (m.suspend_learns s _)
    · exact .inl (m.suspend_learns s _)
  | recorded report hooks => exact .inl (m.changeStatus_responds s report hooks).learns_last
  | changed report hooks => exact .inl (m.afterStatus_responds s report hooks).learns_last
  | concluded reason => exact .inl (m.conclude_learns s reason)
  | failed => exact .inl (m.suspend_learns s _)
  | ending => exact .inl (m.finish_learns s)
  | dropping => exact .inl (m.finish_learns s)
  | aborting => exact .inl (.refl m)

theorem nextRequest_learns (m : Machine σ κ) (s : SessionTask κ) :
    Learns s.memo?.toList m (m.nextRequest s) := by
  rw [nextRequest]
  split
  · exact learns_push (.session { s with calls := s.calls + 1 } (.fetching 0)) rfl
  · exact m.finish_learns s

/-- In its first turn a session looks at its record. -/
theorem wake_minding (m : Machine σ κ) (entry : Suspended κ) :
    Minding entry.memo? entry.task.name m (m.wake entry) := by
  obtain ⟨s, pause⟩ := entry
  cases pause with
  | fresh =>
    rw [wake]
    dsimp only
    by_cases live : m.world.isLive s = true
    · cases found : (m.tracker s.tracker).store.tasks.find? s.id with
      | none => exact .inl (m.nextRequest_learns { s with last := none })
      | some task =>
        refine .inr ⟨task.status, m.nextRequest_learns { s with last := some task.status }, ?_⟩
        have still : m.world.isLive { s with last := some task.status } = true := live
        have stays : (m.nextRequest { s with last := some task.status }).world = m.world := by
          rw [nextRequest, if_pos still]
          rfl
        rw [Option.map_some, Knows, stays]
        refine ⟨World.inside_of_lives (S := s.name) live, fun other present => .inl ?_⟩
        exact congrArg Task.status (Option.some.inj (present.symm.trans found))
    · have dead (last : Option Status) : m.nextRequest { s with last } = m.finish { s with last } :=
        if_neg live
      rw [dead]
      exact .inl (m.finish_learns _)
  | fetching turn until_ =>
    rw [wake]
    dsimp only
    split
    · exact .inl (learns_push (.session s (.fetching (turn + 1))) rfl)
    · exact .inl ((learns_push (.session s .dropping) rfl).of_nil)
  | sleeping until_ => exact .inl (m.nextRequest_learns s)

theorem abandon_learns (m : Machine σ κ) (entry : Suspended κ) :
    Learns facts m (m.abandon entry) := by
  rw [abandon]
  split
  · exact .refl m
  · exact (learns_push (.session entry.task .dropping) rfl).of_nil
  · exact m.finish_learns _

/-! ### Moves -/

/-- Where no session goes on, no session learns anything. -/
private theorem Extends.learns {tasks : Nat → TaskId → Prop} (extends_ : Extends tasks [] m m') :
    Learns facts m m' := by
  obtain ⟨new, d, grows⟩ := extends_
  have foreign : new.filterMap Frame.memo? = [] := by
    refine List.filterMap_eq_nil_iff.mpr fun f mem => ?_
    cases f with
    | session s point => exact absurd (grows.turns s point mem) List.not_mem_nil
    | _ => rfl
  have nobody : d.suspends = [] := by
    cases d with
    | paused entry =>
      have inside := grows.names.subset (List.mem_append_right _ List.mem_cons_self)
      exact absurd inside List.not_mem_nil
    | _ => rfl
  refine Machine.learns new [] grows.stack ?_ (by simp [foreign])
  rw [grows.does.suspended, nobody]

/-- What is known below a step is known before it. -/
private theorem mem_memos_of_below {x : SessionName × Status} (mem : x ∈ m.below.memos) :
    x ∈ m.memos := by
  rw [memos, m.stack_eq, List.filterMap_append, List.append_assoc]
  rw [memos, world_below] at mem
  exact List.mem_append_right _ mem

/-- So is what the session in its turn knows. -/
private theorem mem_memos_of_taken {f : Frame σ κ} {x : SessionName × Status} (on : f ∈ m.taken)
    (memo : f.memo? = some x) : x ∈ m.memos := by
  rw [memos, m.stack_eq, List.filterMap_append, List.append_assoc]
  exact List.mem_append_left _ (List.mem_filterMap.mpr ⟨f, on, memo⟩)

/-- Unless a session goes on, no session learns anything in a step. -/
private theorem step_learns (foreign : ∀ s point, .session s point ∉ m.taken) (c : Consumer σ κ) :
    Learns facts m.below (m.step c) := by
  by_cases spawns : ∃ s, .spawning s ∈ m.taken
  · obtain ⟨s, on⟩ := spawns
    rcases step_of_mem_taken on c with ⟨r, goes⟩ | goes
    · rw [goes]
      exact learns [] [⟨s, .fresh⟩] rfl rfl nofun
    · rw [goes]
      exact .refl m.below
  · have nobody : m.taken.flatMap Frame.names = [] :=
      names_taken foreign fun s mem => spawns ⟨s, mem⟩
    have extends_ := m.step_extends_anyhow c
    rw [nobody] at extends_
    exact extends_.learns

private theorem Minding.memos {old : Option (SessionName × Status)} {S : SessionName}
    (minding : Minding old S m m') {x : SessionName × Status} (mem : x ∈ m'.memos) :
    x ∈ m.memos ∨ x ∈ old.toList ∨ m'.Knows x := by
  rcases minding with learns | ⟨status, learns, knows⟩
  · exact (learns x mem).imp_right .inl
  · refine (learns x mem).imp_right fun new => .inr ?_
    exact List.mem_singleton.mp new ▸ knows

/-- What a session has newly seen, its record is abreast of. -/
theorem step_memos (keyed : m.world.Keyed) (c : Consumer σ κ) {x : SessionName × Status}
    (mem : x ∈ (m.step c).memos) : x ∈ m.memos ∨ (m.step c).Knows x := by
  by_cases turn : ∃ s point, .session s point ∈ m.taken
  · obtain ⟨s, point, on⟩ := turn
    have known : ∀ y ∈ (Frame.session s point : Frame σ κ).memo?.toList, y ∈ m.memos :=
      fun y memo => mem_memos_of_taken on (Option.mem_toList.mp memo)
    rcases step_of_mem_taken on c with ⟨r, goes⟩ | goes
    · have minding := m.below.continueSession_minding c (m.world_below.symm ▸ keyed) s point
      rw [goes] at mem ⊢
      rcases minding.memos mem with old | own | new
      · exact .inl (mem_memos_of_below old)
      · exact .inl (known x own)
      · exact .inr new
    · have learns : Learns [] m.below (m.below.finish s) := m.below.finish_learns s
      rw [goes, unwind_session] at mem
      exact .inl (mem_memos_of_below ((learns x mem).resolve_right List.not_mem_nil))
  · have learns : Learns [] m.below (m.step c) := step_learns (fun s point on => turn ⟨s, point, on⟩) c
    exact .inl (mem_memos_of_below ((learns x mem).resolve_right List.not_mem_nil))

/-- Everything but the taken entry is known before. -/
private theorem mem_memos_of_without {before after : List (Suspended κ)} {entry : Suspended κ}
    (listed : m.world.suspended = before ++ entry :: after) {x : SessionName × Status}
    (mem : x ∈ (m.withWorld { m.world with suspended := before ++ after }).memos) :
    x ∈ m.memos := by
  simp only [Machine.memos, withWorld, listed, List.mem_append, List.mem_filterMap,
    List.mem_cons] at mem ⊢
  rcases mem with on | ⟨other, mem | mem, memo⟩
  · exact .inl on
  · exact .inr ⟨other, .inl mem, memo⟩
  · exact .inr ⟨other, .inr (.inr mem), memo⟩

/-- What a session has newly seen, its record is abreast of. -/
theorem Move.memos (move : Move c given m m') (keyed : m.world.Keyed) {x : SessionName × Status}
    (mem : x ∈ m'.memos) : x ∈ m.memos ∨ m'.Knows x := by
  cases move.happens with
  | step busy => exact step_memos keyed c mem
  | @wake before entry after idle listed ready =>
    have minding := wake_minding (m.withWorld { m.world with suspended := before ++ after }) entry
    rcases minding.memos mem with old | own | new
    · exact .inl (mem_memos_of_without listed old)
    · have taken : entry ∈ m.world.suspended := listed ▸ List.mem_append_right _ List.mem_cons_self
      have memo := Option.mem_toList.mp own
      exact .inl (List.mem_append_right _ (List.mem_filterMap.mpr ⟨entry, taken, memo⟩))
    · exact .inr new
  | idles idles =>
    rw [Machine.memos, idles.stack] at mem
    have suspended := (idles.suspended.filterMap Suspended.memo?).subset mem
    exact .inl (List.mem_append_right _ suspended)
  | @abandon before entry after idle closed listed =>
    have learns : Learns [] (m.withWorld { m.world with suspended := before ++ after }) _ :=
      abandon_learns _ entry
    exact .inl (mem_memos_of_without listed ((learns x mem).resolve_right List.not_mem_nil))

theorem Move.knows (move : Move c given m m') (sound : m.Sound) {x : SessionName × Status}
    (unadded : ¬ m.Adds x.1.tracker x.1.id) (knows : m.Knows x) : m'.Knows x :=
  ⟨move.inside knows.1, move.isAbreast knows.1 sound unadded knows.2⟩

/-! ### Runs -/

/-- A record is about to be added for the task of a session that has seen the status before. -/
def Supplants (m : Machine σ κ) (x : SessionName × Status) : Prop :=
  m.Adds x.1.tracker x.1.id ∧ x ∈ m.memos

theorem Run.knows {states : List (Machine σ κ)} (run : Run c given m states m')
    (reach : Reachable c m) {x : SessionName × Status}
    (alone : ∀ m₁ ∈ (m :: states).dropLast, ¬ m₁.Adds x.1.tracker x.1.id) (knows : m.Knows x) :
    m'.Knows x := by
  induction run with
  | start => exact knows
  | @move states m₁ m₂ run next ih =>
    have before : ∀ m₁ ∈ m :: states, ¬ m₁.Adds x.1.tracker x.1.id := by
      rwa [← List.cons_append, List.dropLast_concat] at alone
    have earlier := ih fun m₁ mem => before m₁ (List.dropLast_subset _ mem)
    exact next.knows (reach.run run).sound (before m₁ run.mem_cons) earlier

section History

variable {memory : σ} {storage : Storage} {wallClock : Nat} {hasExecutor : Bool}
  {past later : List (Machine σ κ)} {m₁ m₂ : Machine σ κ}

/-- The record of a session is abreast of the status that the session has seen last, unless it has
been supplanted. -/
theorem Run.memos (run : Run c given (.idle memory (.blank storage wallClock hasExecutor)) past m₁)
    {x : SessionName × Status} (mem : x ∈ m₁.memos) :
    m₁.Knows x ∨ ∃ m ∈ past, m.Supplants x := by
  induction run with
  | start => exact absurd mem List.not_mem_nil
  | @move states m₁ m₂ run next ih =>
    rcases next.memos run.reachable.sound.keyed mem with old | new
    · rcases ih old with knows | ⟨m, past, supplants⟩
      · by_cases adds : m₁.Adds x.1.tracker x.1.id
        · rcases List.mem_cons.mp run.mem_cons with rfl | past
          · exact absurd old List.not_mem_nil
          · exact .inr ⟨m₁, List.mem_append_left _ past, adds, old⟩
        · exact .inl (next.knows run.reachable.sound adds knows)
      · exact .inr ⟨m, List.mem_append_left _ past, supplants⟩
    · exact .inl new

/-- After a session that lives has dealt with a report, and until a record is added for its task,
the record is abreast of the report. Otherwise the session had seen the status before, and after
that a record had been added. -/
theorem record_kept_current
    (run : Run c given (.idle memory (.blank storage wallClock hasExecutor)) past m₁)
    {turn : Nat} {rest : List (Frame σ κ)} {r : Reply} {report : Report}
    (stack : m₁.stack = .session s (.fetching turn) :: rest) (control : m₁.control = .returned r)
    (lives : m₁.world.lives s.name = true)
    (answers : c.proceed s.fetcher (m₁.request s) turn m₁.memory = .answer (.ok report))
    (further : Run c given (m₁.step c) later m₂)
    (alone : ∀ m ∈ (m₁.step c :: later).dropLast, ¬ m.Adds s.tracker s.id) :
    m₂.world.IsAbreast s.tracker s.id report.status ∨
      s.last = some report.status ∧ ∃ m ∈ past, m.Supplants (s.name, report.status) := by
  have reach : Reachable c m₁ := run.reachable
  have busy : m₁.isIdle = false := isIdle_of_mem_stack (stack ▸ List.mem_cons_self)
  have goes : m₁.step c = receive { m₁ with stack := rest } s (.ok report) := by
    have answers' : c.proceed s.fetcher (Machine.request { m₁ with stack := rest } s) turn
        m₁.memory = .answer (.ok report) := answers
    rw [step_of_returned control stack, resume, continueSession, answers']
  have inside : s.tracker < m₁.world.trackers.length := World.inside_of_lives (S := s.name) lives
  have keyed : m₁.world.Keyed := reach.sound.keyed
  have move : Move c given m₁ (m₁.step c) := .step busy
  -- It is enough to look at the moment at which the report has been compared with the record.
  suffices (m₁.step c).world.IsAbreast s.tracker s.id report.status ∨
      s.last = some report.status ∧ ∃ m ∈ past, m.Supplants (s.name, report.status) from
    this.imp_left fun abreast => (further.knows (x := (s.name, report.status))
      (reach.run (Run.start.move move)) alone ⟨move.inside inside, abreast⟩).2
  rw [goes]
  by_cases supplanted : s.last = some report.status ∧ ∃ m ∈ past, m.Supplants (s.name, report.status)
  · exact .inr supplanted
  · refine .inl (receive_isAbreast (m := { m₁ with stack := rest }) lives keyed report
      fun seen => ?_)
    have memo : (Frame.session s (.fetching turn) : Frame σ κ).memo? =
        some (s.name, report.status) := congrArg (Option.map (s.name, ·)) seen
    have mem : (s.name, report.status) ∈ m₁.memos :=
      List.mem_append_left _ (List.mem_filterMap.mpr ⟨_, stack ▸ List.mem_cons_self, memo⟩)
    exact ((run.memos mem).resolve_right fun past => supplanted ⟨seen, past⟩).2

end History

/-! ### A record that is added again -/

/-- A consumer whose fetchers report every time that the job is being processed. -/
def reporter : Consumer Unit Nat where
  react _ _ := .done
  proceed _ _ _ _ := .answer (.ok { status := .processing })
  supply _ _ _ := none

/-- A job that waits is about to be tracked. -/
def tracking : Machine Unit Nat :=
  (idle () (.blank .inMemory 0 true)).code <|
    .call (.openTracker "tasks" .default) fun _ =>
    .call (.track 0 { id := "a", kind := .analysis } 0) fun _ => .done

/-- The session that polls the job. -/
def poller (last : Option Status) (calls : Nat) : SessionTask Nat :=
  { tracker := 0, id := "a", serial := 1, fetcher := 0, last, calls }

/-- The only session that is suspended gets its turn. -/
def turned (m : Machine Unit Nat) (entry : Suspended Nat) : Machine Unit Nat :=
  (m.withWorld { m.world with suspended := [] ++ [] }).wake entry

private theorem turned_move {m : Machine Unit Nat} {entry : Suspended Nat} (idle : m.isIdle = true)
    (listed : m.world.suspended = [entry]) (ready : m.world.isReady entry = true) :
    Move reporter (fun _ => True) m (turned m entry) :=
  .wake idle listed ready

/-- The session gets its first turn. -/
def polling : Machine Unit Nat := turned (stepTimes reporter 11 tracking) ⟨poller none 0, .fresh⟩

/-- The first report is there. -/
def answered : Machine Unit Nat := stepTimes reporter 2 polling

/-- The job is about to be tracked once more, after the first report has been dealt with. -/
def retracking : Machine Unit Nat :=
  (stepTimes reporter 3 answered).code <|
    .call (.track 0 { id := "a", kind := .analysis } 0) fun _ => .done

/-- The session gets its second turn. -/
def repolling : Machine Unit Nat :=
  turned ((stepTimes reporter 7 retracking).atTime 2000)
    ⟨poller (some .processing) 1, .sleeping 2000⟩

/-- What has happened before the first report. -/
def firstPoll : List (Machine Unit Nat) :=
  [tracking] ++ trail reporter 11 tracking ++ ([polling] ++ trail reporter 2 polling)

private theorem firstPoll_run :
    Run reporter (fun _ => True) (.idle () (.blank .inMemory 0 true)) firstPoll answered := by
  have wakes : Move reporter (fun _ => True) (stepTimes reporter 11 tracking) polling :=
    turned_move (by decide +kernel) rfl (by decide +kernel)
  refine ((Run.start.move (.code rfl trivial)).append (run_steps (by decide +kernel))).append ?_
  exact (Run.start.move wakes).append (run_steps (by decide +kernel))

/-- The first report is written to the record, and the record stays so until the session sleeps. -/
theorem record_kept_current_first :
    answered.world.lives (poller (some .queued) 1).name = true ∧
      (stepTimes reporter 2 (answered.step reporter)).world.IsAbreast 0 "a" .processing := by
  have further : Run reporter (fun _ => True) (answered.step reporter)
      (trail reporter 2 (answered.step reporter)) _ := run_steps (by decide +kernel)
  have quiet : ∀ m ∈ (answered.step reporter ::
      trail reporter 2 (answered.step reporter)).dropLast, m.isCalling = false := by
    decide +kernel
  have alone : ∀ m ∈ (answered.step reporter ::
      trail reporter 2 (answered.step reporter)).dropLast, ¬ m.Adds 0 "a" :=
    fun m mem => not_adds (quiet m mem)
  have lives : answered.world.lives (poller (some .queued) 1).name = true := by decide +kernel
  have kept := record_kept_current (s := poller (some .queued) 1) firstPoll_run rfl rfl lives rfl
    further alone
  exact ⟨lives, kept.resolve_right fun seen => absurd seen.1 (by decide)⟩

/-- What leads to the second report. -/
private theorem repolling_leads :
    Leads reporter (fun _ => True) (.idle () (.blank .inMemory 0 true))
      (stepTimes reporter 2 repolling) := by
  have retracks : Move reporter (fun _ => True) (stepTimes reporter 3 answered) retracking :=
    .code (by decide +kernel) trivial
  have ticks : Move reporter (fun _ => True) (stepTimes reporter 7 retracking)
      ((stepTimes reporter 7 retracking).atTime 2000) :=
    .tick (by decide +kernel) (by decide +kernel) (by decide +kernel)
  have wakes : Move reporter (fun _ => True) ((stepTimes reporter 7 retracking).atTime 2000)
      repolling :=
    turned_move (by decide +kernel) rfl (by decide +kernel)
  have dealt := (firstPoll_run.append (run_steps (by decide +kernel))).move retracks
  have slept := ((dealt.append (run_steps (by decide +kernel))).move ticks).move wakes
  exact ⟨_, slept.append (run_steps (by decide +kernel))⟩

/-- The job is tracked again while it is polled, and the record that is added is left behind: the
second report says once more that the job is being processed, and the record goes on saying that it
waits. -/
theorem readded_record_left_behind :
    ∃ (past : List (Machine Unit Nat)) (m₁ : Machine Unit Nat) (s : SessionTask Nat) (turn : Nat)
      (r : Reply) (report : Report),
      Run reporter (fun _ => True) (.idle () (.blank .inMemory 0 true)) past m₁ ∧
      m₁.stack = [.session s (.fetching turn)] ∧ m₁.control = .returned r ∧
      m₁.world.lives s.name = true ∧
      reporter.proceed s.fetcher (m₁.request s) turn m₁.memory = .answer (.ok report) ∧
      (m₁.step reporter).isIdle = true ∧
      ¬ (m₁.step reporter).world.IsAbreast s.tracker s.id report.status := by
  obtain ⟨past, run⟩ := repolling_leads
  exact ⟨past, _, poller (some .processing) 2, 0, .unit, { status := .processing }, run, rfl, rfl,
    by decide +kernel, rfl, by decide +kernel, by decide +kernel⟩

end Machine

end TaskWatch
