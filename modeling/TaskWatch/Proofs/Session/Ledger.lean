import TaskWatch.Proofs.Run.Turnover

/-!
# What listeners hear of sessions

Listeners of a tracker are told that a session was created or has ended. The machine carries the
name of the task only, and what is being announced lies in frames deep in the stack when callbacks
and listeners start and stop further sessions. A ledger is kept beside the run. It knows of each
frame which session it is about and which listeners are still to be told, and it writes down what
has been announced, who has been told of it, and which ends will never be announced, because the
callback for stopped sessions panicked.

The ledger is a function of the states of the run, and it says what the machine does: its errands
are the frames on the stack (`Ledger.Fits`).

## Main definitions

* `Tidings` — what there is to tell of a session; `Errand` — what is still to be done about it.
* `Ledger` — the errands, and what has been announced, told and lost.
* `Ledger.next`, `Ledger.after` — the ledger after a move, and after a run.
* `Ledger.Advance` — what a move can do to the ledger.

## Main results

* `Machine.Move.follows` — every move does one of these things.
* `Machine.Run.fits` — the ledger fits the machine at every time.
* `Machine.Run.notices` — what has been announced is what the machine was about to tell.
* `Machine.Run.calls` — the callbacks that have been told are those that the machine has called.
-/

namespace TaskWatch

variable {σ κ : Type}

/-! ### Tidings and errands -/

/-- What there is to tell of a session. -/
inductive Tidings where
  /-- It was created. -/
  | began (S : SessionName)
  /-- It has ended. -/
  | ended (S : SessionName) (reason : StopReason)
deriving DecidableEq, Repr

namespace Tidings

/-- The session that they are about. -/
def session : Tidings → SessionName
  | began S | ended S _ => S

/-- The event that listeners are told. -/
def event : Tidings → SessionEvent
  | began S => .started S.id
  | ended S reason => .stopped S.id reason

end Tidings

/-- The tracker whose listeners are told, and the event. -/
def Tidings.notice (t : Tidings) : Nat × SessionEvent := (t.session.tracker, t.event)

/-- A listener of the sessions of a tracker, with its number. -/
abbrev Listener (κ : Type) : Type := Nat × Audience κ

/-- What is still to be done about the coming or going of a session. -/
inductive Errand (κ : Type) where
  /-- Its end is to be announced when the callback for stopped sessions has returned. -/
  | announce (S : SessionName) (reason : StopReason)
  /-- These listeners are to be told. -/
  | tell (t : Tidings) (listeners : List (Listener κ))

/-- The frame on the stack in which an errand waits. -/
def Errand.frame : Errand κ → Frame σ κ
  | announce S reason => .announcing S.tracker S.id reason
  | tell t listeners => .delivering (.session t.event) (listeners.map Prod.snd)

/-- In new frames that have nothing to do with the coming and going of sessions no errand waits. -/
theorem filter_isErrand_of_plain {new : List (Frame σ κ)} (plain : ∀ f ∈ new, f.isNews = false) :
    new.filter Frame.isErrand = [] := by
  refine List.filter_eq_nil_iff.mpr fun f mem errand => ?_
  have news : f.isNews = true := by rw [Frame.isNews, errand, Bool.true_or]
  simp [plain f mem] at news

/-- The frames in which errands wait, the innermost first. Listeners that are about to be told count
as if they were waiting already. -/
def Machine.errandFrames (m : Machine σ κ) : List (Frame σ κ) :=
  match m.control with
  | .telling number (.session event) =>
    .delivering (.session event) (m.world.sessionListeners number) ::
      m.stack.filter Frame.isErrand
  | _ => m.stack.filter Frame.isErrand

/-- What the listeners of a tracker are about to be told of a session. -/
def Machine.emits (m : Machine σ κ) : List (Nat × SessionEvent) :=
  match m.control with
  | .telling number (.session event) => [(number, event)]
  | _ => []

/-- Whether listeners are about to be told of a session. -/
def Control.isEmission : Control σ κ → Bool
  | telling _ (.session _) => true
  | _ => false

/-- The callback that is handed an event. Those who watch a view or wait are not. -/
def Audience.label? : Audience κ → Option κ
  | callback label => some label
  | _ => none

/-- The callback that is being told of a session at this moment, and what it is told. -/
def Machine.hears (m : Machine σ κ) : List (κ × SessionEvent) :=
  match m.control with
  | .calling label (.notice (.session event)) => [(label, event)]
  | _ => []

/-! ### The ledger -/

/-- What has become of the tidings of a run. -/
structure Ledger (κ : Type) where
  /-- What is still to be done, the innermost first. -/
  errands : List (Errand κ) := []
  /-- What has been announced. -/
  announced : List Tidings := []
  /-- Which listeners have been told of what. -/
  told : List (Listener κ × Tidings) := []
  /-- The sessions whose end is never announced, since the callback for stopped sessions panicked.
  -/
  lost : List SessionName := []

namespace Ledger

/-- Something is announced to listeners. -/
def announce (l : Ledger κ) (t : Tidings) (listeners : List (Listener κ)) : Ledger κ :=
  { l with errands := .tell t listeners :: l.errands, announced := l.announced ++ [t] }

/-- The callback for stopped sessions runs first. -/
def defer (l : Ledger κ) (S : SessionName) (reason : StopReason) : Ledger κ :=
  { l with errands := .announce S reason :: l.errands }

/-- The next listener is told, if there is one. -/
def serve (l : Ledger κ) : Ledger κ :=
  match l.errands with
  | .tell t (L :: rest) :: errands =>
    { l with errands := .tell t rest :: errands, told := l.told ++ [(L, t)] }
  | .tell _ [] :: errands => { l with errands }
  | _ => l

/-- The callback for stopped sessions has returned, and the end of its session is announced. -/
def proceed (l : Ledger κ) (listeners : List (Listener κ)) : Ledger κ :=
  match l.errands with
  | .announce S reason :: errands => { l with errands }.announce (.ended S reason) listeners
  | _ => l

/-- The callback for stopped sessions has panicked. -/
def lose (l : Ledger κ) : Ledger κ :=
  match l.errands with
  | .announce S _ :: errands => { l with errands, lost := l.lost ++ [S] }
  | _ => l

/-- A move in which a session comes or goes, or none. -/
def note (l : Ledger κ) (m m' : Machine σ κ) : Ledger κ :=
  match m'.control, m'.stack with
  | .telling k (.session (.started id)), _ =>
    l.announce (.began ⟨k, id, m.world.nextSerial⟩) (m'.tracker k).watchers.entries
  | .telling k (.session (.stopped id reason)), _ =>
    match (m.tracker k).sessions.find? id with
    | some serial => l.announce (.ended ⟨k, id, serial⟩ reason) (m'.tracker k).watchers.entries
    | none => l
  | .calling _ (.stopped id reason), .announcing k _ _ :: _ =>
    match (m.tracker k).sessions.find? id with
    | some serial => l.defer ⟨k, id, serial⟩ reason
    | none => l
  | _, _ => l

/-- The ledger after a move. -/
def next (l : Ledger κ) (m m' : Machine σ κ) : Ledger κ :=
  match m.control, m.stack with
  | .telling _ (.session _), _ => l.serve
  | .returned _, .delivering (.session _) _ :: _ => l.serve
  | .unwinding, .delivering (.session _) _ :: _ => l.serve
  | .returned _, .announcing k _ _ :: _ => l.proceed (m'.tracker k).watchers.entries
  | .unwinding, .announcing _ _ _ :: _ => l.lose
  | _, _ => l.note m m'

/-- The ledger after a run that begins with an empty one. -/
def after (m : Machine σ κ) (states : List (Machine σ κ)) : Ledger κ :=
  (states.foldl (fun (l, m) m' => (l.next m m', m')) (({} : Ledger κ), m)).1

/-- What has been announced, as the listeners are told. -/
def notices (l : Ledger κ) : List (Nat × SessionEvent) := l.announced.map Tidings.notice

/-- Which callbacks have been told of what. -/
def calls (l : Ledger κ) : List (κ × SessionEvent) :=
  l.told.filterMap fun (L, t) => L.2.label?.map (·, t.event)

/-- The errands of the ledger wait in the frames of the machine. -/
def Fits (l : Ledger κ) (m : Machine σ κ) : Prop := l.errands.map Errand.frame = m.errandFrames

/-- What a move can do to the ledger. -/
inductive Advance (l : Ledger κ) (m : Machine σ κ) : Ledger κ → Machine σ κ → Prop
  /-- No session comes or goes, and nothing is told of any. -/
  | still {m'} (retains : m.world.Retains m'.world) : Advance l m l m'
  /-- The next listener is told. -/
  | told {m' t L rest errands} (first : l.errands = .tell t (L :: rest) :: errands)
      (retains : m.world.Retains m'.world)
      (goes : m' = m.below.deliver (.session t.event) (L.2 :: rest.map Prod.snd)) :
      Advance l m { l with errands := .tell t rest :: errands, told := l.told ++ [(L, t)] } m'
  /-- All listeners have been told. -/
  | served {m' t errands} (first : l.errands = .tell t [] :: errands)
      (retains : m.world.Retains m'.world) : Advance l m { l with errands } m'
  /-- The end of a session is announced after the callback for it has returned. -/
  | proceeds {m' S reason errands} (first : l.errands = .announce S reason :: errands)
      (retains : m.world.Retains m'.world) :
      Advance l m ({ l with errands }.announce (.ended S reason)
        (m'.tracker S.tracker).watchers.entries) m'
  /-- The callback for the end of a session has panicked. -/
  | loses {m' S reason errands} (first : l.errands = .announce S reason :: errands)
      (control : m.control = .unwinding)
      (top : m.stack.head? = some (.announcing S.tracker S.id reason))
      (retains : m.world.Retains m'.world) :
      Advance l m { l with errands, lost := l.lost ++ [S] } m'
  /-- A session is created, which is announced. -/
  | began {m' S} (begins : m.world.Begins S m'.world) :
      Advance l m (l.announce (.began S) (m'.tracker S.tracker).watchers.entries) m'
  /-- A session is ended, which is announced. -/
  | ended {m' S} (reason) (ends : m.world.Ends S m'.world) :
      Advance l m (l.announce (.ended S reason) (m'.tracker S.tracker).watchers.entries) m'
  /-- A session is ended, and the callback for this runs first. -/
  | ending {m' S} (reason) (ends : m.world.Ends S m'.world) :
      Advance l m (l.defer S reason) m'

/-- The ledger goes along with a move. -/
structure Follows (l : Ledger κ) (m : Machine σ κ) (l' : Ledger κ) (m' : Machine σ κ) : Prop where
  /-- It fits the machine again. -/
  fits : l'.Fits m'
  /-- It advances. -/
  advance : l.Advance m l' m'
  /-- What is announced is what the machine is about to tell. -/
  notices : l'.notices = l.notices ++ m'.emits
  /-- Callbacks that are told are called by the machine. -/
  calls : l'.calls = l.calls ++ m'.hears

end Ledger

namespace Machine

variable {c : Consumer σ κ} {given : Code σ κ → Prop} {m m' : Machine σ κ} {l : Ledger κ}

/-! ### Moves -/

theorem isEmission_of_quiet {control : Control σ κ} (quiet : control.isNews = false) :
    control.isEmission = false := by
  cases control with
  | telling number n =>
    cases n with
    | session event => simp [Control.isNews] at quiet
    | store event => rfl
  | _ => rfl

theorem errandFrames_of_quiet (quiet : m.control.isEmission = false) :
    m.errandFrames = m.stack.filter Frame.isErrand := by
  rw [errandFrames]
  split
  · next control => simp [control, Control.isEmission] at quiet
  · rfl

theorem errandFrames_of_telling {number : Nat} {event : SessionEvent}
    (control : m.control = .telling number (.session event)) :
    m.errandFrames = .delivering (.session event) (m.world.sessionListeners number) ::
      m.stack.filter Frame.isErrand := by
  rw [errandFrames, control]

theorem emits_of_quiet (quiet : m.control.isEmission = false) : m.emits = [] := by
  rw [emits]
  split
  · next control => simp [control, Control.isEmission] at quiet
  · rfl

theorem hears_of_quiet (quiet : m.control.isNews = false) : m.hears = [] := by
  rw [hears]
  split
  · next control => simp [control, Control.isNews] at quiet
  · rfl

theorem emits_of_telling {number : Nat} {event : SessionEvent}
    (control : m.control = .telling number (.session event)) : m.emits = [(number, event)] := by
  rw [emits, control]

theorem notices_announce (l : Ledger κ) (t : Tidings) (listeners : List (Listener κ)) :
    (l.announce t listeners).notices = l.notices ++ [t.notice] := by
  rw [Ledger.notices, Ledger.announce, List.map_append, List.map_singleton]
  rfl

/-- Nobody is told. -/
private theorem calls_of_hears_nil {l' : Ledger κ} (told : l'.told = l.told) (silent : m'.hears = []) :
    l'.calls = l.calls ++ m'.hears := by
  rw [Ledger.calls, Ledger.calls, told, silent, List.append_nil]

/-- The next listener is told, and the delivery waits for what becomes of it. -/
theorem deliver_cons (m : Machine σ κ) (event : SessionEvent) (a : Audience κ)
    (rest : List (Audience κ)) :
    (m.deliver (.session event) (a :: rest)).stack = .delivering (.session event) rest :: m.stack ∧
      (m.deliver (.session event) (a :: rest)).control.isEmission = false ∧
      (m.deliver (.session event) (a :: rest)).hears = (a.label?.map (·, event)).toList := by
  cases a with
  | callback label => exact ⟨rfl, rfl, rfl⟩
  | view about label =>
    rw [deliver]
    split
    · exact ⟨rfl, rfl, rfl⟩
    · exact ⟨rfl, rfl, rfl⟩
  | wait number => exact ⟨rfl, rfl, rfl⟩

/-- The next listener of the innermost errand is told, if there is one. -/
private theorem advance_serve {event : SessionEvent} {audience : List (Audience κ)}
    (fits : l.errands.map Errand.frame =
      .delivering (.session event) audience :: m.below.stack.filter Frame.isErrand)
    (goes : m' = m.below.deliver (.session event) audience) : l.Follows m l.serve m' := by
  obtain ⟨errands, announced, told, lost⟩ := l
  obtain ⟨first, errands, rfl, frame, others⟩ := List.map_eq_cons_iff.mp fits
  cases first with
  | announce S reason => simp [Errand.frame] at frame
  | tell t listeners =>
    obtain ⟨same, rfl⟩ := Frame.delivering.inj frame
    obtain rfl : t.event = event := Notice.session.inj same
    cases listeners with
    | nil =>
      have retains : m.world.Retains m'.world := by
        rw [goes, ← m.world_below]
        exact (World.Near.refl _).retains
      have silent : m'.emits = [] := by rw [goes]; rfl
      refine ⟨goes ▸ others, .served rfl retains, ?_, calls_of_hears_nil rfl (by rw [goes]; rfl)⟩
      rw [silent, List.append_nil]
      rfl
    | cons L rest =>
      rw [List.map_cons] at goes
      obtain ⟨stack, quiet, hears⟩ := m.below.deliver_cons t.event L.2 (rest.map Prod.snd)
      have near := m.below.near_deliver (.session t.event) (L.2 :: rest.map Prod.snd)
      rw [← goes] at stack quiet hears near
      rw [m.world_below] at near
      refine ⟨?_, .told rfl near.retains goes, ?_, ?_⟩
      · rw [Ledger.Fits, errandFrames_of_quiet quiet, stack]
        exact congrArg _ others
      · rw [emits_of_quiet quiet, List.append_nil]
        rfl
      · rw [hears, Ledger.calls, Ledger.calls, Ledger.serve, List.filterMap_append]
        cases label : L.2.label? with
        | none => simp [label]
        | some label => simp [label]

/-- Where the end of a session is about to be announced, this is the first errand. -/
private theorem uncons_announcing {errands : List (Errand κ)} {number : Nat} {id : TaskId}
    {reason : StopReason} {rest : List (Frame σ κ)}
    (fits : errands.map Errand.frame = .announcing number id reason :: rest) :
    ∃ S others, errands = .announce S reason :: others ∧ (S.tracker = number ∧ S.id = id) ∧
      others.map Errand.frame = rest := by
  obtain ⟨first, others, rfl, frame, below⟩ := List.map_eq_cons_iff.mp fits
  cases first with
  | tell t listeners => simp [Errand.frame] at frame
  | announce S reason' =>
    obtain ⟨tracker, same, rfl⟩ := Frame.announcing.inj frame
    exact ⟨S, others, rfl, ⟨tracker, same⟩, below⟩

/-- The callback for stopped sessions has returned. -/
private theorem advance_proceed {number : Nat} {id : TaskId} {reason : StopReason}
    (fits : l.errands.map Errand.frame =
      .announcing number id reason :: m.below.stack.filter Frame.isErrand)
    (goes : m' = m.below.announce number id reason) :
    l.Follows m (l.proceed (m'.tracker number).watchers.entries) m' := by
  obtain ⟨errands, announced, told, lost⟩ := l
  obtain ⟨S, errands, rfl, ⟨rfl, rfl⟩, others⟩ := uncons_announcing fits
  have world : m'.world = m.world := by rw [goes, ← m.world_below]; rfl
  have retains : m.world.Retains m'.world := world ▸ (World.Near.refl _).retains
  refine ⟨?_, .proceeds rfl retains, ?_, calls_of_hears_nil rfl (by rw [goes]; rfl)⟩
  · subst goes
    exact congrArg _ others
  · rw [Ledger.proceed, notices_announce, goes]
    rfl

/-- The callback for stopped sessions has panicked. -/
private theorem advance_lose {number : Nat} {id : TaskId} {reason : StopReason}
    (fits : l.errands.map Errand.frame =
      .announcing number id reason :: m.below.stack.filter Frame.isErrand)
    (control : m.control = .unwinding) (top : m.stack.head? = some (.announcing number id reason))
    (goes : m' = { m.below with control := .unwinding }) : l.Follows m l.lose m' := by
  obtain ⟨errands, announced, told, lost⟩ := l
  obtain ⟨S, errands, rfl, ⟨rfl, rfl⟩, others⟩ := uncons_announcing fits
  have world : m'.world = m.world := by rw [goes, ← m.world_below]
  have retains : m.world.Retains m'.world := world ▸ (World.Near.refl _).retains
  have silent : m'.emits = [] := by rw [goes]; rfl
  refine ⟨?_, .loses rfl control top retains, ?_, calls_of_hears_nil rfl (by rw [goes]; rfl)⟩
  · subst goes
    exact others
  · rw [silent, List.append_nil]
    rfl

/-! ### Sessions that come or go -/

theorem note_of_quiet (quiet : m'.control.isNews = false) : l.note m m' = l := by
  rw [Ledger.note]
  split
  · next control => simp [control, Control.isNews] at quiet
  · next control => simp [control, Control.isNews] at quiet
  · next control _ => simp [control, Control.isNews] at quiet
  · rfl

theorem note_of_began {S : SessionName}
    (control : m'.control = .telling S.tracker (.session (.started S.id)))
    (serial : S.serial = m.world.nextSerial) :
    l.note m m' = l.announce (.began S) (m'.tracker S.tracker).watchers.entries := by
  rw [Ledger.note, control, ← serial]

theorem note_of_ended {S : SessionName} {reason : StopReason}
    (control : m'.control = .telling S.tracker (.session (.stopped S.id reason)))
    (lived : m.world.lives S = true) :
    l.note m m' = l.announce (.ended S reason) (m'.tracker S.tracker).watchers.entries := by
  have found : (m.tracker S.tracker).sessions.find? S.id = some S.serial := World.lives_iff.mp lived
  simp only [Ledger.note, control, found]

theorem note_of_ending {S : SessionName} {reason : StopReason} {label : κ} {rest : List (Frame σ κ)}
    (control : m'.control = .calling label (.stopped S.id reason))
    (stack : m'.stack = .announcing S.tracker S.id reason :: rest)
    (lived : m.world.lives S = true) : l.note m m' = l.defer S reason := by
  have found : (m.tracker S.tracker).sessions.find? S.id = some S.serial := World.lives_iff.mp lived
  simp only [Ledger.note, control, stack, found]

/-- In a move that does not deal with earlier tidings one session at most comes or goes. -/
private theorem Turnover.advance {added : Nat → TaskId → Prop} {m₀ : Machine σ κ}
    (turnover : Turnover added m₀ m') (trackers : m₀.world.trackers = m.world.trackers)
    (same : m₀.world.nextSerial = m.world.nextSerial)
    (fits : l.errands.map Errand.frame = m₀.stack.filter Frame.isErrand) :
    l.Follows m (l.note m m') m' := by
  have tracker : ∀ k, m₀.world.tracker k = m.world.tracker k := fun k => by
    rw [World.tracker, World.tracker, trackers]
  have lives : ∀ S, m₀.world.lives S = m.world.lives S := fun S => by
    rw [World.lives, World.lives, tracker]
  have errands : ∀ {new : List (Frame σ κ)}, (∀ f ∈ new, f.isNews = false) →
      (new ++ m₀.stack).filter Frame.isErrand = l.errands.map Errand.frame := fun plain => by
    rw [List.filter_append, filter_isErrand_of_plain plain, List.nil_append, fits]
  cases turnover with
  | still new stack plain control does mild records =>
    have retains := does.retains mild
    rw [note_of_quiet control]
    have silent := isEmission_of_quiet control
    refine ⟨?_, .still ⟨fun k id => ?_, retains.serials.trans same⟩, ?_,
      calls_of_hears_nil rfl (hears_of_quiet control)⟩
    · rw [Ledger.Fits, errandFrames_of_quiet silent, stack, errands plain]
    · rw [retains.sessions, tracker]
    · rw [emits_of_quiet silent, List.append_nil]
  | @began new s stack plain control does serial =>
    have begins : m₀.world.Begins s.name m'.world := does.begins (S := s.name) serial
    rw [note_of_began (S := s.name) control (serial.trans same)]
    refine ⟨?_, .began ⟨?_, fun k id => ?_, serial.trans same, ?_⟩, ?_,
      calls_of_hears_nil rfl (by rw [hears, control])⟩
    · rw [Ledger.Fits, errandFrames_of_telling control, stack]
      exact congrArg _ (errands plain).symm
    · rw [← tracker]
      exact begins.fresh
    · rw [begins.sessions, tracker, trackers]
    · rw [begins.serials, same]
    · rw [notices_announce, emits_of_telling control]
      rfl
  | @ended new S reason stack plain control does lived =>
    have ends := does.ends lived
    rw [note_of_ended control (lives S ▸ lived)]
    refine ⟨?_, .ended reason ⟨lives S ▸ lived, fun k id => ?_, ends.serials.trans same⟩, ?_,
      calls_of_hears_nil rfl (by rw [hears, control])⟩
    · rw [Ledger.Fits, errandFrames_of_telling control, stack]
      exact congrArg _ (errands plain).symm
    · rw [ends.sessions, tracker]
    · rw [notices_announce, emits_of_telling control]
      rfl
  | @ending new S reason label stack plain control does lived =>
    have ends := does.ends lived
    rw [note_of_ending control stack (lives S ▸ lived)]
    refine ⟨?_, .ending reason ⟨lives S ▸ lived, fun k id => ?_, ends.serials.trans same⟩, ?_,
      calls_of_hears_nil rfl (by rw [hears, control])⟩
    · rw [Ledger.Fits, errandFrames, control, stack]
      exact congrArg _ (errands plain).symm
    · rw [ends.sessions, tracker]
    · rw [emits, control, List.append_nil]
      rfl

/-- The ledger notes what comes and goes unless the step deals with earlier tidings. -/
theorem next_eq_note (control : ∀ number event, m.control ≠ .telling number (.session event))
    (frames : ∀ f ∈ m.taken, f.isErrand = false) : l.next m m' = l.note m m' := by
  obtain ⟨memory, world, control', stack⟩ := m
  rw [Ledger.next]
  split
  · next told => exact absurd told (control _ _)
  · next stands => simp_all [taken, Frame.isErrand]
  · next stands => simp_all [taken, Frame.isErrand]
  · next stands => simp_all [taken, Frame.isErrand]
  · next stands => simp_all [taken, Frame.isErrand]
  · rfl

/-- When listeners are told already, the errands wait in the frames. -/
theorem errandFrames_eq (control : ∀ number event, m.control ≠ .telling number (.session event)) :
    m.errandFrames = m.taken.filter Frame.isErrand ++ m.below.stack.filter Frame.isErrand := by
  rw [← List.filter_append, ← m.stack_eq, errandFrames]
  split
  · next told => exact absurd told (control _ _)
  · rfl

/-- A step that goes on with an errand deals with it. -/
private theorem advance_errand {f : Frame σ κ} (taken : f ∈ m.taken) (errand : f.isErrand = true)
    (fits : l.errands.map Errand.frame = f :: m.below.stack.filter Frame.isErrand)
    (c : Consumer σ κ) :
    l.Follows m (l.next m (m.step c)) (m.step c) := by
  obtain ⟨memory, world, control, stack⟩ := m
  cases stack with
  | nil => cases control <;> simp [Machine.taken] at taken
  | cons g rest =>
    cases control with
    | returned r =>
      obtain rfl : f = g := List.mem_singleton.mp taken
      cases f with
      | delivering n others =>
        cases n with
        | session event => exact advance_serve fits rfl
        | store event => simp [Frame.isErrand] at errand
      | announcing number id reason => exact advance_proceed fits rfl
      | _ => simp [Frame.isErrand] at errand
    | unwinding =>
      obtain rfl : f = g := List.mem_singleton.mp taken
      cases f with
      | delivering n others =>
        cases n with
        | session event => exact advance_serve fits rfl
        | store event => simp [Frame.isErrand] at errand
      | announcing number id reason => exact advance_lose fits rfl rfl rfl
      | _ => simp [Frame.isErrand] at errand
    | _ => simp [Machine.taken] at taken

/-- Every step deals with earlier tidings, or one session at most comes or goes. -/
private theorem advance_step (fits : l.Fits m) (c : Consumer σ κ) :
    l.Follows m (l.next m (m.step c)) (m.step c) := by
  by_cases telling : ∃ number event, m.control = .telling number (.session event)
  · obtain ⟨number, event, control⟩ := telling
    obtain ⟨memory, world, _, stack⟩ := m
    subst control
    exact advance_serve fits rfl
  have control : ∀ number event, m.control ≠ .telling number (.session event) :=
    fun number event control => telling ⟨number, event, control⟩
  rw [Ledger.Fits, errandFrames_eq control] at fits
  by_cases errand : ∃ f ∈ m.taken, f.isErrand = true
  · obtain ⟨f, mem, errand⟩ := errand
    rw [(taken_of_mem mem).1, List.filter_cons_of_pos errand] at fits
    exact advance_errand mem errand fits c
  have frames : ∀ f ∈ m.taken, f.isErrand = false := fun f mem =>
    Bool.eq_false_iff.mpr fun yes => errand ⟨f, mem, yes⟩
  have none : m.taken.filter Frame.isErrand = [] :=
    List.filter_eq_nil_iff.mpr fun f mem => Bool.eq_false_iff.mp (frames f mem)
  rw [none] at fits
  rw [next_eq_note control frames]
  exact (step_turnover control frames c).advance (by rw [world_below]) (by rw [world_below]) fits

/-- In a machine that has nothing to do no news is dealt with. -/
theorem quiet_of_isIdle (idle : m.isIdle = true) : m.control.isNews = false := by
  rw [isIdle] at idle
  split at idle
  · next control => rw [control]; rfl
  · next control => rw [control]; rfl
  · simp at idle

/-- In a machine that has nothing to do no errand waits. -/
theorem errandFrames_of_isIdle (idle : m.isIdle = true) : m.errandFrames = [] := by
  rw [errandFrames_of_quiet (isEmission_of_quiet (quiet_of_isIdle idle)), stack_of_isIdle idle]
  rfl

/-- When the machine has nothing to do, one session at most comes or goes in a move. -/
private theorem advance_idle (m₀ : Machine σ κ) (idle : m.isIdle = true) (fits : l.Fits m)
    (turnover : Turnover m.Adds m₀ m') (trackers : m₀.world.trackers = m.world.trackers)
    (serial : m₀.world.nextSerial = m.world.nextSerial) (stack : m₀.stack = m.stack) :
    l.Follows m (l.next m m') m' := by
  have empty := stack_of_isIdle idle
  have quiet := quiet_of_isIdle idle
  have control : ∀ number event, m.control ≠ .telling number (.session event) := by
    intro number event control
    simp [control, Control.isNews] at quiet
  have frames : ∀ f ∈ m.taken, f.isErrand = false := by
    intro f mem
    have top := head?_of_mem_taken mem
    simp [empty] at top
  rw [next_eq_note control frames]
  refine turnover.advance trackers serial ?_
  rw [stack, empty]
  exact fits.trans (errandFrames_of_isIdle idle)

/-- When the machine has nothing to do, one session at most comes or goes in a move. The world may
have changed before in a way that sessions do not notice. -/
theorem Move.turnover (move : Move c given m m') (idle : m.isIdle = true) :
    ∃ m₀ : Machine σ κ, Turnover m.Adds m₀ m' ∧ m₀.world.trackers = m.world.trackers ∧
      m₀.world.nextSerial = m.world.nextSerial ∧ m₀.stack = m.stack := by
  have quiet := quiet_of_isIdle idle
  cases move with
  | step busy => simp [busy] at idle
  | code _ allowed => exact ⟨m, .pass rfl, rfl, rfl, rfl⟩
  | remember _ memory => exact ⟨m, .pass quiet, rfl, rfl, rfl⟩
  | wake _ listed ready => exact ⟨m.withWorld _, wake_turnover _ _, rfl, rfl, rfl⟩
  | @tick time _ later due => exact ⟨m.atTime time, .pass quiet, rfl, rfl, rfl⟩
  | await _ begun =>
    exact ⟨m, .stay (World.near_beginWait begun).does rfl nofun quiet, rfl, rfl, rfl⟩
  | endWait _ wait =>
    exact ⟨m, .stay (m.world.near_endWait wait).does rfl nofun quiet, rfl, rfl, rfl⟩
  | close _ same => exact ⟨m.withWorld _, .pass quiet, rfl, rfl, rfl⟩
  | abandon _ closed listed => exact ⟨m.withWorld _, abandon_turnover _ _, rfl, rfl, rfl⟩

/-- Every move does one of the things that a move can do to the ledger. -/
theorem Move.follows (fits : l.Fits m) (move : Move c given m m') :
    l.Follows m (l.next m m') m' := by
  by_cases idle : m.isIdle = true
  · obtain ⟨m₀, turnover, trackers, serial, stack⟩ := move.turnover idle
    exact advance_idle m₀ idle fits turnover trackers serial stack
  · rw [move.eq_step (Bool.eq_false_iff.mpr idle)]
    exact advance_step fits c

/-! ### Runs -/

/-- The ledger is kept along with the state that the run has come to. -/
theorem Run.foldl_next {m₀ m₁ : Machine σ κ} {states : List (Machine σ κ)}
    (run : Run c given m₀ states m₁) :
    states.foldl (fun (l, m) m' => (l.next m m', m')) (({} : Ledger κ), m₀) =
      (Ledger.after m₀ states, m₁) := by
  refine Prod.ext rfl ?_
  cases run with
  | start => rfl
  | move run next => rw [List.foldl_append]; rfl

theorem Run.after_move {m₀ m₁ m₂ : Machine σ κ} {states : List (Machine σ κ)}
    (run : Run c given m₀ states m₁) :
    Ledger.after m₀ (states ++ [m₂]) = (Ledger.after m₀ states).next m₁ m₂ := by
  rw [Ledger.after, List.foldl_append, run.foldl_next]
  rfl

/-- A ledger that is begun when nothing is being told fits the machine at every time. -/
theorem Run.fits {m₀ : Machine σ κ} {states : List (Machine σ κ)} (calm : m₀.errandFrames = [])
    (run : Run c given m₀ states m) : (Ledger.after m₀ states).Fits m := by
  induction run with
  | start => exact calm.symm
  | move run next ih =>
    rw [run.after_move]
    exact (next.follows ih).fits

/-- What has been announced is what listeners were about to be told in the states of the run. -/
theorem Run.notices {m₀ : Machine σ κ} {states : List (Machine σ κ)} (calm : m₀.errandFrames = [])
    (run : Run c given m₀ states m) : (Ledger.after m₀ states).notices = states.flatMap emits := by
  induction run with
  | start => rfl
  | move run next ih =>
    rw [run.after_move, (next.follows (run.fits calm)).notices, ih, List.flatMap_append,
      List.flatMap_singleton]

/-- The callbacks that have been told are those that the machine has called, in this order. -/
theorem Run.calls {m₀ : Machine σ κ} {states : List (Machine σ κ)} (calm : m₀.errandFrames = [])
    (run : Run c given m₀ states m) : (Ledger.after m₀ states).calls = states.flatMap hears := by
  induction run with
  | start => rfl
  | move run next ih =>
    rw [run.after_move, (next.follows (run.fits calm)).calls, ih, List.flatMap_append,
      List.flatMap_singleton]

/-- When the machine has nothing to do, nothing is left to be done about sessions. -/
theorem Run.errands_of_isIdle {m₀ : Machine σ κ} {states : List (Machine σ κ)}
    (calm : m₀.errandFrames = []) (run : Run c given m₀ states m) (idle : m.isIdle = true) :
    (Ledger.after m₀ states).errands = [] := by
  have fits := run.fits calm
  rw [Ledger.Fits, errandFrames_of_isIdle idle] at fits
  exact List.map_eq_nil_iff.mp fits

/-- With every further move the ledger advances. -/
theorem Run.advance {m₀ m₁ m₂ : Machine σ κ} {states : List (Machine σ κ)}
    (calm : m₀.errandFrames = []) (run : Run c given m₀ states m₁) (next : Move c given m₁ m₂) :
    (Ledger.after m₀ states).Advance m₁ (Ledger.after m₀ (states ++ [m₂])) m₂ := by
  rw [run.after_move]
  exact (next.follows (run.fits calm)).advance

end Machine

end TaskWatch
