import TaskWatch.Proofs.Run.Landing
import TaskWatch.Proofs.Run.Turn

/-!
# Whoever waits for a session learns of its end

Whoever waits for the session of a task listens to the sessions of the tracker. Between the end of
the session and the moment at which he learns of it the news is on its way: it is about to be told,
or a frame on the stack conveys it, in which the callback for stopped sessions runs or in which
other listeners are told before him. As long as the executor works by itself, and nobody who is called
makes calls or panics, no news is lost and no session is started. So when there is nothing left to
do, those who wait have learnt of the end of a session exactly if it is not there any more.

## Main definitions

* `Consumer.IsPassive` — nobody who is called makes calls or panics.
* `Frame.Conveys`, `Control.Conveys`, `Machine.Conveys` — news is on its way.
* `World.Expects`, `Machine.Expects` — someone waits for the session of a task.
* `Machine.IsRoutine` — nothing but turns of the sessions of one tracker goes on.

## Main results

* `Machine.deliver_expects`, `Machine.stopSession_heralds`, `Machine.Turn.heralds`,
  `Machine.step_heralds` — no news is lost.
* `Machine.Executes.heralds` — nor is any while the executor works.
* `World.beginWaits_begunAll` — those who begin to wait wait for the sessions that are there.
* `Machine.Executes.learnt_iff` — they learn of the ends of all sessions, and not too early.
-/

namespace TaskWatch

variable {σ κ : Type}

/-- Whoever is called makes no calls and does not panic. -/
def Consumer.IsPassive (c : Consumer σ κ) : Prop :=
  ∀ label occasion, Code.Ends (· = false) (c.react label occasion)

/-! ### News -/

/-- A notice says that the session of a task has ended. -/
def Notice.IsEndOf (id : TaskId) : Notice → Prop
  | .session (.stopped other _) => other = id
  | _ => False

/-- A frame conveys the news that the session of a task has ended to someone who waits for it. -/
def Frame.Conveys (id : TaskId) (wait : Nat) : Frame σ κ → Prop
  | .announcing _ other _ => other = id
  | .delivering n rest => n.IsEndOf id ∧ .wait wait ∈ rest
  | _ => False

/-- The news that the session of a task has ended is about to be told. -/
def Control.Conveys (id : TaskId) : Control σ κ → Prop
  | .telling _ n => n.IsEndOf id
  | _ => False

/-- The news that the session of a task has ended is on its way to someone who waits for it. -/
def Machine.Conveys (m : Machine σ κ) (id : TaskId) (wait : Nat) : Prop :=
  m.control.Conveys id ∨ ∃ f ∈ m.stack, f.Conveys id wait

/-- Someone waits for the session of a task, and listens to the sessions of its tracker. If the
session is there he has heard nothing, and no news is on its way. If it is not there he has learnt
of its end, or the news is on its way. -/
structure World.Expects (w : World κ) (number : Nat) (id : TaskId) (wait : Nat) (news : Prop) :
    Prop where
  listed : ∃ entry, w.waits[wait]? = some entry ∧ entry.id = id
  registered : .wait wait ∈ w.sessionListeners number
  there : (w.tracker number).isPolling id = true → w.waitOutcome wait = none ∧ ¬ news
  gone : (w.tracker number).isPolling id = false → (w.waitOutcome wait).isSome = true ∨ news

/-- Someone waits for the session of a task while the machine works. -/
def Machine.Expects (m : Machine σ κ) (number : Nat) (id : TaskId) (wait : Nat) : Prop :=
  m.world.Expects number id wait (m.Conveys id wait)

variable {number : Nat} {id : TaskId} {wait : Nat}

namespace World

variable {w w' : World κ} {news news' : Prop}

/-- Only the session of the task, those who wait and the listeners count. -/
theorem Expects.congr (expects : w.Expects number id wait news) (alike : news' ↔ news)
    (waits : w'.waits = w.waits)
    (watchers : (w'.tracker number).watchers = (w.tracker number).watchers)
    (polled : (w'.tracker number).isPolling id = (w.tracker number).isPolling id) :
    w'.Expects number id wait news' := by
  have outcome : w'.waitOutcome wait = w.waitOutcome wait := by
    rw [waitOutcome, waitOutcome, waits]
  refine ⟨?_, ?_, ?_, ?_⟩
  · rw [waits]
    exact expects.listed
  · rw [sessionListeners, watchers]
    exact expects.registered
  · rw [outcome, polled, alike]
    exact expects.there
  · rw [outcome, polled, alike]
    exact expects.gone

theorem Expects.of_iff (expects : w.Expects number id wait news) (alike : news' ↔ news) :
    w.Expects number id wait news' :=
  expects.congr alike rfl rfl rfl

/-- When no news is on its way, someone who waits has learnt of the end of a session exactly if it
is not there any more. -/
theorem Expects.isSome_iff (expects : w.Expects number id wait news) (silent : ¬ news) :
    (w.waitOutcome wait).isSome = true ↔ (w.tracker number).isPolling id = false := by
  cases polled : (w.tracker number).isPolling id with
  | true => simp [(expects.there polled).1]
  | false => simpa using (expects.gone polled).resolve_right silent

/-- Being told of something by which the session of the task does not end changes nothing for
someone who waits. -/
theorem Expects.tellWait_other (expects : w.Expects number id wait news) (alike : news' ↔ news)
    {k : Nat} {n : Notice} (other : k = wait → ¬ n.IsEndOf id) :
    (w.tellWait k n).Expects number id wait news' := by
  obtain ⟨entry, listed, rfl⟩ := expects.listed
  have same : (w.tellWait k n).waits[wait]? = some entry := by
    rw [tellWait, List.getElem?_modify, listed]
    split
    · next here =>
      refine congrArg some ?_
      dsimp only
      split
      · next other' reason none => exact if_neg (other here)
      · rfl
    · rfl
  have outcome : (w.tellWait k n).waitOutcome wait = w.waitOutcome wait := by
    rw [waitOutcome, waitOutcome, same, listed]
  refine ⟨⟨entry, same, rfl⟩, expects.registered, ?_, ?_⟩
  · rw [outcome, alike]
    exact expects.there
  · rw [outcome, alike]
    exact expects.gone

/-- Someone who is told of the end of the session has learnt of it. -/
theorem Expects.tellWait_end (expects : w.Expects number id wait news) (heard : news)
    {n : Notice} (ends : n.IsEndOf id) : (w.tellWait wait n).Expects number id wait news' := by
  obtain ⟨entry, listed, rfl⟩ := expects.listed
  have learnt : ∃ entry', (w.tellWait wait n).waits[wait]? = some entry' ∧
      entry'.id = entry.id ∧ entry'.outcome.isSome = true := by
    rw [tellWait, List.getElem?_modify, listed]
    refine ⟨_, congrArg some (if_pos rfl), ?_⟩
    cases n with
    | store event => exact ends.elim
    | session event =>
      cases event with
      | started other => exact ends.elim
      | stopped other reason =>
        cases outcome : entry.outcome with
        | none => simp [show other = entry.id from ends]
        | some earlier => simp [outcome]
  obtain ⟨entry', listed', same, learnt⟩ := learnt
  refine ⟨⟨entry', listed', same⟩, expects.registered, fun polled => ?_, fun _ => ?_⟩
  · exact absurd heard (expects.there polled).2
  · left
    rw [waitOutcome, listed']
    exact learnt

/-- When a session ends, whoever waits for it is to be told. -/
theorem Expects.ended (expects : w.Expects number id wait news)
    (inside : number < w.trackers.length) (other : TaskId) :
    (w.after (.ended number other)).Expects number id wait (other = id ∨ news) := by
  have watchers : ((w.after (.ended number other)).tracker number).watchers =
      (w.tracker number).watchers := by
    refine w.proj_tracker_modifyTracker Tracker.watchers ?_ number number
    exact fun _ => rfl
  have polled : ((w.after (.ended number other)).tracker number).isPolling id =
      if id = other then false else (w.tracker number).isPolling id := by
    rw [Tracker.isPolling, sessions_after]
    dsimp only
    rw [if_pos ⟨rfl, inside⟩, Dictionary.contains, Dictionary.find?_erase]
    split <;> rfl
  by_cases same : id = other
  · rw [if_pos same] at polled
    refine ⟨expects.listed, ?_, fun there => ?_, fun _ => .inr (.inl same.symm)⟩
    · rw [sessionListeners, watchers]
      exact expects.registered
    · exact absurd (polled.symm.trans there) Bool.false_ne_true
  · rw [if_neg same] at polled
    exact expects.congr (or_iff_right (Ne.symm same)) rfl watchers polled

theorem lives_of_after_ended {S : SessionName} {other : TaskId}
    (lives : (w.after (.ended number other)).lives S = true) : w.lives S = true :=
  ((w.succeeds_after (.ended number other)).lives S lives).resolve_right fun new =>
    Nat.not_le_of_lt new.2 new.1

end World

/-! ### Turns -/

/-- A frame of a turn of a session of one tracker, above which nobody makes calls. -/
def Frame.IsRoutine (number : Nat) : Frame σ κ → Prop
  | .delivering _ _ | .answering _ | .session _ _ => True
  | .announcing k _ _ => k = number
  | _ => False

/-- What goes on in a turn of a session of one tracker, when nobody makes calls or panics. -/
def Control.IsRoutine (number : Nat) : Control σ κ → Prop
  | .code p => Code.Ends (· = false) p
  | .telling k (.session _) => k = number
  | .unwinding => False
  | _ => True

namespace Machine

variable {c : Consumer σ κ} {m m' : Machine σ κ}

/-- Only sessions of one tracker are there, and only frames of their turns. -/
structure IsSteady (number : Nat) (m : Machine σ κ) : Prop where
  frames : ∀ f ∈ m.stack, f.IsRoutine number
  sole : ∀ S, m.world.lives S = true → S.tracker = number

/-- Nothing but turns of the sessions of one tracker goes on. -/
structure IsRoutine (number : Nat) (m : Machine σ κ) : Prop extends m.IsSteady number where
  control : m.isIdle = false → m.control.IsRoutine number

theorem mute_of_isIdle (idle : m.isIdle = true) (id : TaskId) : ¬ m.control.Conveys id := by
  have passive := passive_of_isIdle idle
  cases control : m.control with
  | telling k n => simp [control, Control.isAct] at passive
  | _ => exact fun told => told

/-- Nothing is on its way when there is nothing to do. -/
theorem not_conveys_of_isIdle (idle : m.isIdle = true) (id : TaskId) (wait : Nat) :
    ¬ m.Conveys id wait := by
  rintro (told | ⟨f, mem, _⟩)
  · exact mute_of_isIdle idle id told
  · exact absurd (stack_of_isIdle idle ▸ mem) List.not_mem_nil

theorem IsSteady.isRoutine (steady : m.IsSteady number) (control : m.control.IsRoutine number) :
    m.IsRoutine number :=
  ⟨steady, fun _ => control⟩

theorem IsRoutine.of_isIdle (idle : m.isIdle = true)
    (sole : ∀ S, m.world.lives S = true → S.tracker = number) : m.IsRoutine number where
  frames _ mem := absurd (stack_of_isIdle idle ▸ mem) List.not_mem_nil
  sole := sole
  control busy := absurd idle (Bool.eq_false_iff.mp busy)

/-- Nothing but turns goes on, no session is started, and whoever waits goes on waiting, or he has
learnt of the end that he waits for. -/
structure Heralds (number : Nat) (m m' : Machine σ κ) : Prop where
  routine : m'.IsRoutine number
  lives : ∀ S, m'.world.lives S = true → m.world.lives S = true
  expects : ∀ {id wait}, m.Expects number id wait → m'.Expects number id wait

theorem Heralds.trans {m₁ : Machine σ κ} (heralds : Heralds number m m₁)
    (further : Heralds number m₁ m') : Heralds number m m' :=
  ⟨further.routine, fun S lives => heralds.lives S (further.lives S lives),
    fun expects => further.expects (heralds.expects expects)⟩

/-- News only goes up the stack, or is told. -/
theorem Expects.of_frames
    (expects : m.world.Expects number id wait (∃ f ∈ m.stack, f.Conveys id wait))
    (mute : ¬ m.control.Conveys id) : m.Expects number id wait :=
  World.Expects.of_iff expects (or_iff_right mute)

theorem Expects.frames (expects : m.Expects number id wait) (mute : ¬ m.control.Conveys id) :
    m.world.Expects number id wait (∃ f ∈ m.stack, f.Conveys id wait) :=
  World.Expects.of_iff expects (or_iff_right mute).symm

/-- Something goes on at most above a new session, and neither those who wait nor their listeners
nor the sessions change. -/
theorem IsSteady.heralds (steady : m.IsSteady number) (mute : ∀ id, ¬ m.control.Conveys id)
    {new : List (Frame σ κ)} (stack : m'.stack = new ++ m.stack)
    (turns : ∀ f ∈ new, f.isSession = true) (control : m'.control.IsRoutine number)
    (silent : ∀ id, ¬ m'.control.Conveys id) (waits : m'.world.waits = m.world.waits)
    (watchers : ∀ k, (m'.world.tracker k).watchers = (m.world.tracker k).watchers)
    (sessions : ∀ k, (m'.world.tracker k).sessions = (m.world.tracker k).sessions) :
    Heralds number m m' := by
  have lives : ∀ S, m'.world.lives S = true → m.world.lives S = true := fun S lives => by
    rwa [World.lives_iff, sessions, ← World.lives_iff] at lives
  -- A frame that has come to stand on the stack is one of a session, and conveys nothing.
  have added : ∀ f ∈ new, f.IsRoutine number ∧ ∀ id wait, ¬ f.Conveys id wait := fun f mem => by
    cases f with
    | session s point => exact ⟨trivial, fun _ _ conveys => conveys⟩
    | _ => exact absurd (turns _ mem) (by simp [Frame.isSession])
  refine ⟨IsSteady.isRoutine ⟨?_, fun S living => steady.sole S (lives S living)⟩ control, lives,
    fun {id wait} expects => .of_frames ((expects.frames (mute id)).congr ?_ waits (watchers number)
      ?_) (silent id)⟩
  · rw [stack]
    intro f mem
    exact (List.mem_append.mp mem).elim (fun new => (added f new).1) (steady.frames f)
  · rw [stack]
    constructor
    · rintro ⟨f, mem, conveys⟩
      rcases List.mem_append.mp mem with new | old
      · exact absurd conveys ((added f new).2 id wait)
      · exact ⟨f, old, conveys⟩
    · rintro ⟨f, old, conveys⟩
      exact ⟨f, List.mem_append_right _ old, conveys⟩
  · rw [Tracker.isPolling, Tracker.isPolling, sessions]

/-- Something goes on above the same frames, and nothing has changed. -/
theorem IsSteady.goesOn (steady : m.IsSteady number) (mute : ∀ id, ¬ m.control.Conveys id)
    (stack : m'.stack = m.stack) (world : m'.world = m.world)
    (control : m'.control.IsRoutine number) (silent : ∀ id, ¬ m'.control.Conveys id) :
    Heralds number m m' :=
  steady.heralds mute (stack.trans (List.nil_append _).symm) (List.forall_mem_nil _) control silent
    (world ▸ rfl) (fun _ => world ▸ rfl) fun _ => world ▸ rfl

/-- When a session is stopped, whoever waits for it is to be told. -/
theorem stopSession_heralds (steady : m.IsSteady number) (mute : ∀ id, ¬ m.control.Conveys id)
    (k : Nat) (other : TaskId) (only : Option Serial) (reason : StopReason) :
    Heralds number m (m.stopSession k other only reason) := by
  obtain still | ⟨serial, ⟨found, _⟩, ends⟩ := m.stopSession_cases k other only reason
  · rw [still]
    exact steady.goesOn mute rfl rfl trivial fun _ told => told
  · have lives : m.world.lives ⟨k, other, serial⟩ = true := World.lives_iff.mpr found
    obtain rfl : k = number := steady.sole _ lives
    have fewer : ∀ S, (m.world.after (.ended k other)).lives S = true → m.world.lives S = true :=
      fun S => World.lives_of_after_ended
    have sole : ∀ S, (m.world.after (.ended k other)).lives S = true → S.tracker = k :=
      fun S lives => steady.sole S (fewer S lives)
    have told : ∀ {id wait}, m.Expects k id wait →
        (m.world.after (.ended k other)).Expects k id wait
          (other = id ∨ ∃ f ∈ m.stack, f.Conveys id wait) :=
      fun {id _} expects => (expects.frames (mute id)).ended (World.inside_of_lives lives) other
    rcases ends with ends | ⟨label, ends⟩
    · rw [ends]
      refine ⟨IsSteady.isRoutine ⟨List.forall_mem_cons.mpr ⟨trivial, steady.frames⟩, sole⟩ rfl,
        fewer, fun expects => (told expects).of_iff (or_congr_right ?_)⟩
      rw [announce]
      simp [tell, push, withWorld, Frame.Conveys]
    · rw [ends]
      refine ⟨IsSteady.isRoutine ⟨List.forall_mem_cons.mpr ⟨rfl, steady.frames⟩, sole⟩ trivial,
        fewer, fun expects => (told expects).of_iff ?_⟩
      simp [Conveys, invoke, push, withWorld, Frame.Conveys, Control.Conveys]

theorem deliver_isRoutine (steady : m.IsSteady number) (n : Notice) (audience : List (Audience κ)) :
    (m.deliver n audience).IsRoutine number := by
  have near := m.near_deliver n audience
  have sole : ∀ S, (m.deliver n audience).world.lives S = true → S.tracker = number :=
    fun S lives => steady.sole S (near.lives S ▸ lives)
  refine IsSteady.isRoutine ⟨fun f mem => ?_, sole⟩ ?_
  · rcases m.deliver_cases n audience with ⟨stack, _⟩ | ⟨rest, stack⟩
    · exact steady.frames f (stack ▸ mem)
    · rw [stack] at mem
      rcases List.mem_cons.mp mem with rfl | old
      · trivial
      · exact steady.frames f old
  · match audience with
    | [] => trivial
    | .callback label :: rest => trivial
    | .view about label :: rest =>
      rw [deliver]
      split <;> trivial
    | .wait k :: rest => trivial

/-- Whoever is told in his turn learns of the end that he waits for; for others it is still on its
way. -/
theorem deliver_expects {n : Notice} {audience : List (Audience κ)}
    (expects : m.world.Expects number id wait
      (∃ f ∈ .delivering n audience :: m.stack, f.Conveys id wait)) :
    (m.deliver n audience).Expects number id wait := by
  match audience with
  | [] =>
    refine expects.of_iff ?_
    simp [Conveys, deliver, reply, Frame.Conveys, Control.Conveys]
  | .callback label :: rest =>
    refine expects.of_iff ?_
    simp [Conveys, deliver, invoke, push, Frame.Conveys, Control.Conveys]
  | .view about label :: rest =>
    rw [deliver]
    split
    all_goals
      refine expects.of_iff ?_
      simp [Conveys, invoke, reply, push, Frame.Conveys, Control.Conveys]
  | .wait k :: rest =>
    by_cases heard : k = wait ∧ n.IsEndOf id
    · obtain ⟨rfl, ends⟩ := heard
      exact expects.tellWait_end ⟨_, List.mem_cons_self, ends, List.mem_cons_self⟩ ends
    · refine expects.tellWait_other ?_ fun here ends => heard ⟨here, ends⟩
      have later : Audience.wait wait ∈ rest ∧ n.IsEndOf id ↔
          Audience.wait wait ∈ .wait k :: rest ∧ n.IsEndOf id :=
        and_congr_left fun ends => (List.mem_cons.trans <| or_iff_right fun here =>
          heard ⟨(Audience.wait.inj here).symm, ends⟩).symm
      rw [List.exists_mem_cons_iff]
      refine (or_iff_right fun silent => silent).trans ((List.exists_mem_cons_iff _ _ _).trans ?_)
      exact or_congr_left (and_comm.trans (later.trans and_comm))

/-- A session in its turn loses no news. -/
theorem Turn.heralds {g : Grounds κ} {S : SessionName} (turn : Turn g S m m')
    (steady : m.IsSteady number) (mute : ∀ id, ¬ m.control.Conveys id) : Heralds number m m' := by
  -- A session that stops itself waits below for the end to be announced.
  have stops : ∀ (s : SessionTask κ) (point : Point κ) (reason : StopReason), Heralds number m
      ((m.push (.session s point)).stopSession s.tracker s.id (some s.serial) reason) := by
    intro s point reason
    have steady' : (m.push (.session s point)).IsSteady number :=
      ⟨List.forall_mem_cons.mpr ⟨trivial, steady.frames⟩, steady.sole⟩
    have heralds := stopSession_heralds steady' mute s.tracker s.id (some s.serial) reason
    refine ⟨heralds.routine, heralds.lives, fun expects => heralds.expects (expects.of_iff ?_)⟩
    simp [Conveys, push, Frame.Conveys]
  cases turn with
  | ends => exact steady.goesOn mute rfl rfl trivial fun _ told => told
  | rests own pause =>
    exact steady.heralds mute (List.nil_append _).symm (List.forall_mem_nil _) trivial
      (fun _ told => told) rfl (fun _ => rfl) fun _ => rfl
  | @writes s report hooks event own reported counted =>
    let d : Deed κ := .patched s.tracker s.id (.ofStatus report.status)
    have watchers : ∀ k, ((m.world.after d).tracker k).watchers = (m.world.tracker k).watchers :=
      fun k => by
        rw [World.after, World.tracker_mutate]
        split <;> rfl
    exact steady.heralds mute (List.singleton_append).symm (by simp [Frame.isSession]) trivial
      (fun _ told => told) rfl watchers fun k => m.world.sessions_after d k
  | concludes own ends => exact stops _ _ _
  | aborts own lives breaks => exact stops _ _ _
  | _ =>
    exact steady.heralds mute (List.singleton_append).symm (by simp [Frame.isSession]) trivial
      (fun _ told => told) rfl (fun _ => rfl) fun _ => rfl

/-- Listeners are about to be told of something by the tracker that they listen to. -/
private theorem conveys_telling {k : Nat} {n : Notice} {stack : List (Frame σ κ)}
    (routine : (Control.telling k n : Control σ κ).IsRoutine number)
    (registered : .wait wait ∈ m.world.sessionListeners number) :
    (∃ f ∈ .delivering n (m.world.audience k n) :: stack, f.Conveys id wait) ↔
      n.IsEndOf id ∨ ∃ f ∈ stack, f.Conveys id wait := by
  refine (List.exists_mem_cons_iff _ _ _).trans (or_congr_left (and_iff_left_of_imp fun ends => ?_))
  cases n with
  | store event => exact ends.elim
  | session event =>
    obtain rfl : k = number := routine
    exact registered

/-- Going on with a frame loses no news, neither what the frame conveys nor what others do. -/
private theorem resume_heralds {f : Frame σ κ} (steady : m.IsSteady number)
    (mute : ∀ id, ¬ m.control.Conveys id) (routine : f.IsRoutine number) (r : Reply) :
    (m.resume c r f).IsRoutine number ∧
      (∀ S, (m.resume c r f).world.lives S = true → m.world.lives S = true) ∧
      ∀ {id wait}, m.world.Expects number id wait (∃ g ∈ f :: m.stack, g.Conveys id wait) →
        (m.resume c r f).Expects number id wait := by
  -- Below a frame that conveys nothing there is what was on its way before.
  have below : ∀ {m'}, (∀ id wait, ¬ f.Conveys id wait) → Heralds number m m' →
      m'.IsRoutine number ∧ (∀ S, m'.world.lives S = true → m.world.lives S = true) ∧
        ∀ {id wait}, m.world.Expects number id wait (∃ g ∈ f :: m.stack, g.Conveys id wait) →
          m'.Expects number id wait := fun silent heralds =>
    ⟨heralds.routine, heralds.lives, fun {id wait} expects =>
      heralds.expects (.of_frames (expects.of_iff
        ((List.exists_mem_cons_iff _ _ _).trans (or_iff_right (silent id wait))).symm) (mute id))⟩
  cases f with
  | delivering n audience =>
    have near := m.near_deliver n audience
    exact ⟨deliver_isRoutine steady n audience, fun S lives => near.lives S ▸ lives,
      deliver_expects⟩
  | answering reply =>
    exact below (fun _ _ told => told) (steady.goesOn mute rfl rfl trivial fun _ told => told)
  | announcing k other reason =>
    obtain rfl : k = number := routine
    have frames : ∀ g ∈ .answering (.flag true) :: m.stack, Frame.IsRoutine k g :=
      List.forall_mem_cons.mpr ⟨trivial, steady.frames⟩
    refine ⟨IsSteady.isRoutine ⟨frames, steady.sole⟩ rfl, fun _ lives => lives,
      fun expects => World.Expects.of_iff expects ?_⟩
    simp [Conveys, resume, announce, tell, push, Frame.Conveys, Control.Conveys, Notice.IsEndOf]
  | session s point =>
    exact below (fun _ _ told => told) ((m.continueSession_turn c s point).heralds steady mute)
  | _ => exact routine.elim

/-- No step loses news. -/
theorem step_heralds (passive : c.IsPassive) (routine : m.IsRoutine number)
    (busy : m.isIdle = false) : Heralds number m (m.step c) := by
  obtain ⟨memory, world, control, stack⟩ := m
  have steady := routine.toIsSteady
  have allowed := routine.control busy
  cases control with
  | code p =>
    cases p with
    | done => exact steady.goesOn (fun _ told => told) rfl rfl trivial fun _ told => told
    | panic => exact Bool.noConfusion (show true = false from allowed)
    | look next => exact steady.goesOn (fun _ told => told) rfl rfl (allowed _ _) fun _ told => told
    | note change next =>
      exact steady.goesOn (fun _ told => told) rfl rfl allowed fun _ told => told
    | call request next => exact False.elim allowed
  | calling label occasion =>
    exact steady.goesOn (fun _ told => told) rfl rfl (passive label occasion) fun _ told => told
  | telling k n =>
    have near := near_deliver ⟨memory, world, .telling k n, stack⟩ n (world.audience k n)
    exact ⟨deliver_isRoutine steady n _, fun S lives => near.lives S ▸ lives,
      fun expects => deliver_expects
        (World.Expects.of_iff expects (conveys_telling allowed expects.registered))⟩
  | returned r =>
    cases stack with
    | nil => exact absurd busy (by simp [isIdle])
    | cons f rest =>
      have below : (⟨memory, world, .returned r, rest⟩ : Machine σ κ).IsSteady number :=
        ⟨fun g mem => steady.frames g (List.mem_cons_of_mem _ mem), steady.sole⟩
      obtain ⟨routine', lives, expects⟩ :=
        resume_heralds (c := c) below (fun _ told => told) (steady.frames f List.mem_cons_self) r
      exact ⟨routine', lives, fun waiting => expects (waiting.frames fun told => told)⟩
  | unwinding => exact False.elim allowed

/-- While the executor works, no news is lost. -/
theorem Executes.heralds (passive : c.IsPassive) {states : List (Machine σ κ)}
    (executes : Executes c m states m') (routine : m.IsRoutine number) : Heralds number m m' := by
  induction executes with
  | start => exact ⟨routine, fun _ lives => lives, fun expects => expects⟩
  | step _ busy ih => exact ih.trans (step_heralds passive ih.routine busy)
  | @wake states m₁ before entry after _ idle listed ready ih =>
    let w := { m₁.world with suspended := before ++ after }
    have steady : (m₁.withWorld w).IsSteady number := ⟨ih.routine.frames, ih.routine.sole⟩
    have heralds := (wake_turn (m₁.withWorld w) entry).heralds steady (mute_of_isIdle idle)
    exact ih.trans ⟨heralds.routine, heralds.lives, fun expects => heralds.expects
      (World.Expects.congr expects Iff.rfl rfl rfl rfl)⟩
  | @tick states m₁ time _ quiet later due ih =>
    have steady : (m₁.atTime time).IsSteady number := ⟨ih.routine.frames, ih.routine.sole⟩
    exact ih.trans ⟨⟨steady, ih.routine.control⟩, fun _ lives => lives,
      fun expects => World.Expects.congr expects Iff.rfl rfl rfl rfl⟩

/-- When the machine has nothing to do, someone who waits has learnt of the end of a session exactly
if it is not there any more. -/
theorem Expects.isSome_iff (expects : m.Expects number id wait) (idle : m.isIdle = true) :
    (m.world.waitOutcome wait).isSome = true ↔ (m.world.tracker number).isPolling id = false :=
  World.Expects.isSome_iff expects (not_conveys_of_isIdle idle id wait)

end Machine

/-! ### Beginning to wait -/

namespace World

variable {w w' : World κ} {news : Prop}

/-- Somebody has begun to wait for the session of a task. -/
structure Begun (w : World κ) (number : Nat) (id : TaskId) (wait : Nat) (w' : World κ) : Prop where
  polled : (w.tracker number).isPolling id = true
  last : wait = w.waits.length
  waits : ∃ listener, w'.waits = w.waits ++ [{ tracker := number, id, listener }]
  told : w'.sessionListeners number = w.sessionListeners number ++ [.wait wait]
  near : w.Near w'

theorem begun_of_beginWait (begins : w.beginWait number id = some (wait, w')) :
    w.Begun number id wait w' := by
  have near := near_beginWait begins
  rw [beginWait] at begins
  split at begins
  · next polled =>
    obtain ⟨rfl, rfl⟩ := Prod.mk.inj (Option.some.inj begins)
    obtain ⟨serial, found⟩ := Option.isSome_iff_exists.mp polled
    have inside : number < w.trackers.length :=
      inside_of_lives (S := ⟨number, id, serial⟩) (lives_iff.mpr found)
    refine ⟨polled, rfl, ⟨_, rfl⟩, ?_, near⟩
    show ((w.modifyTracker number _).tracker number).watchers.listeners = _
    rw [tracker_modifyTracker, if_pos ⟨rfl, inside⟩]
    exact Registry.listeners_subscribe _ _
  · simp at begins

theorem Near.isPolling (near : w.Near w') (number : Nat) (id : TaskId) :
    (w'.tracker number).isPolling id = (w.tracker number).isPolling id := by
  rw [Tracker.isPolling, Tracker.isPolling, near.sessions]

/-- Whoever begins to wait waits for a session that is there. -/
theorem Begun.expects (begun : w.Begun number id wait w') : w'.Expects number id wait False := by
  obtain ⟨listener, waits⟩ := begun.waits
  have listed : w'.waits[wait]? = some { tracker := number, id, listener } := by
    rw [waits, begun.last]
    exact List.getElem?_concat_length
  have polled := (begun.near.isPolling number id).trans begun.polled
  refine ⟨⟨_, listed, rfl⟩, ?_, fun _ => ⟨?_, not_false⟩, fun gone => ?_⟩
  · rw [begun.told]
    exact List.mem_append_right _ (List.mem_singleton_self _)
  · rw [waitOutcome, listed]
    rfl
  · exact absurd (gone.symm.trans polled) Bool.false_ne_true

/-- Others who wait go on waiting. -/
theorem Begun.others (begun : w.Begun number id wait w') {other : TaskId} {earlier : Nat}
    (expects : w.Expects number other earlier news) : w'.Expects number other earlier news := by
  obtain ⟨entry, listed, same⟩ := expects.listed
  obtain ⟨listener, waits⟩ := begun.waits
  have listed' : w'.waits[earlier]? = some entry := by
    rw [waits, List.getElem?_append_left (List.getElem?_eq_some_iff.mp listed).1]
    exact listed
  have outcome : w'.waitOutcome earlier = w.waitOutcome earlier := by
    rw [waitOutcome, waitOutcome, listed', listed]
  refine ⟨⟨entry, listed', same⟩, ?_, ?_, ?_⟩
  · rw [begun.told]
    exact List.mem_append_left _ expects.registered
  · rw [begun.near.isPolling, outcome]
    exact expects.there
  · rw [begun.near.isPolling, outcome]
    exact expects.gone

/-- Somebody has begun to wait for the sessions of some tasks. -/
structure BegunAll (w : World κ) (number : Nat) (ids : List TaskId) (waits : List Nat)
    (w' : World κ) : Prop where
  near : w.Near w'
  /-- Everyone who waits does so for one of the tasks. -/
  meant : ∀ wait ∈ waits, ∃ id ∈ ids, w'.Expects number id wait False
  /-- Someone waits for each of the sessions that are there. -/
  polled : ∀ id ∈ ids, (w.tracker number).isPolling id = true →
    ∃ wait ∈ waits, w'.Expects number id wait False
  others : ∀ {id wait news}, w.Expects number id wait news → w'.Expects number id wait news

theorem beginWaits_begunAll (w : World κ) (number : Nat) (ids : List TaskId) :
    w.BegunAll number ids (w.beginWaits number ids).1 (w.beginWaits number ids).2 := by
  induction ids generalizing w with
  | nil => exact ⟨.refl w, nofun, nofun, fun expects => expects⟩
  | cons id rest ih =>
    rw [beginWaits]
    cases begins : w.beginWait number id with
    | none =>
      have unpolled : (w.tracker number).isPolling id ≠ true := fun polled => by
        simp [beginWait, polled] at begins
      obtain ⟨near, meant, polled, others⟩ := ih w
      refine ⟨near, fun wait mem => ?_, List.forall_mem_cons.mpr ⟨fun there => ?_, polled⟩, others⟩
      · obtain ⟨other, listed, expects⟩ := meant wait mem
        exact ⟨other, List.mem_cons_of_mem _ listed, expects⟩
      · exact absurd there unpolled
    | some begun =>
      obtain ⟨wait, w₁⟩ := begun
      have first := begun_of_beginWait begins
      obtain ⟨near, meant, polled, others⟩ := ih w₁
      have own := others first.expects
      refine ⟨first.near.trans near, List.forall_mem_cons.mpr ⟨⟨id, List.mem_cons_self, own⟩, ?_⟩,
        List.forall_mem_cons.mpr ⟨fun _ => ⟨wait, List.mem_cons_self, own⟩, ?_⟩,
        fun expects => others (first.others expects)⟩
      · intro later mem
        obtain ⟨other, listed, expects⟩ := meant later mem
        exact ⟨other, List.mem_cons_of_mem _ listed, expects⟩
      · intro other listed there
        obtain ⟨later, mem, expects⟩ := polled other listed
          ((first.near.isPolling number other).trans there)
        exact ⟨later, List.mem_cons_of_mem _ mem, expects⟩

theorem near_endWaits (w : World κ) (waits : List Nat) : w.Near (waits.foldl endWait w) := by
  induction waits generalizing w with
  | nil => exact .refl w
  | cons wait rest ih => exact (w.near_endWait wait).trans (ih _)

end World

/-- Somebody begins to wait for the sessions of some tasks, and the executor works by itself. When
nothing runs, everyone has learnt of the end that he waits for exactly if none of the tasks has a
session any more. -/
theorem Machine.Executes.learnt_iff {c : Consumer σ κ} {m m' : Machine σ κ} {ids : List TaskId}
    {states : List (Machine σ κ)} (passive : c.IsPassive) (idle : m.isIdle = true)
    (sole : ∀ S, m.world.lives S = true → S.tracker = number)
    (executes : Executes c (m.withWorld (m.world.beginWaits number ids).2) states m')
    (idle' : m'.isIdle = true) :
    (∀ wait ∈ (m.world.beginWaits number ids).1, (m'.world.waitOutcome wait).isSome = true) ↔
      ∀ id ∈ ids, (m'.world.tracker number).isPolling id = false := by
  have begun := m.world.beginWaits_begunAll number ids
  generalize (m.world.beginWaits number ids).1 = waits at begun ⊢
  generalize (m.world.beginWaits number ids).2 = w at executes begun
  have routine : (m.withWorld w).IsRoutine number :=
    .of_isIdle idle fun S lives => sole S (begun.near.lives S ▸ lives)
  have heralds := executes.heralds passive routine
  have learns : ∀ {id wait}, w.Expects number id wait False →
      ((m'.world.waitOutcome wait).isSome = true ↔
        (m'.world.tracker number).isPolling id = false) := fun {id wait} expects =>
    (heralds.expects (expects.of_iff
      (iff_false_intro (not_conveys_of_isIdle (m := m.withWorld w) idle id wait)))).isSome_iff idle'
  constructor
  · intro learnt id mem
    refine Bool.eq_false_iff.mpr fun polled => ?_
    -- The session has been there when waiting began.
    obtain ⟨serial, found⟩ := Option.isSome_iff_exists.mp polled
    have lives : m'.world.lives ⟨number, id, serial⟩ = true := World.lives_iff.mpr found
    have before : (m.world.tracker number).isPolling id = true :=
      (begun.near.isPolling number id).symm.trans (World.isPolling_of_lives (heralds.lives _ lives))
    obtain ⟨wait, waits, expects⟩ := begun.polled id mem before
    exact Bool.false_ne_true (((learns expects).mp (learnt wait waits)).symm.trans polled)
  · intro gone wait mem
    obtain ⟨id, listed, expects⟩ := begun.meant wait mem
    exact (learns expects).mpr (gone id listed)

end TaskWatch
