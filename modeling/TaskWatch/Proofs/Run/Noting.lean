import TaskWatch.Proofs.Run.Path
import TaskWatch.Proofs.Run.Turn

/-!
# What callbacks note

The memory of the consumer is changed by its code alone. If code notes first what it notes, and
nobody else touches the memory, then the memory is what the calls of callbacks have come to, one
after the other, in the order in which they have been made, whoever has made them.

## Main definitions

* `Code.NotesFirst` — code that notes nothing after it has looked around or made a call.
* `Code.noted` — the memory after what it notes.
* `Machine.Unattended` — nobody runs code or touches the memory from outside.
* `Machine.calls` — what is called along a run.
* `Machine.balance` — the memory when everything has been noted that is about to be noted.

## Main results

* `Machine.Works` — the functions of the library leave the memory alone.
* `Machine.Unattended.balance` — what the memory comes to.
-/

namespace TaskWatch

variable {σ κ : Type}

/-! ### Code that notes -/

namespace Code

/-- Code notes nothing, whatever it sees. -/
def IsNoteless : Code σ κ → Prop
  | .done | .panic => True
  | .look next => ∀ scene memory, IsNoteless (next scene memory)
  | .note _ _ => False
  | .call _ next => ∀ reply, IsNoteless (next reply)

/-- Code notes nothing after it has looked around or made a call. -/
def NotesFirst : Code σ κ → Prop
  | .note _ next => NotesFirst next
  | .done | .panic => True
  | .look next => ∀ scene memory, IsNoteless (next scene memory)
  | .call _ next => ∀ reply, IsNoteless (next reply)

/-- The memory after what code notes first. -/
def noted : Code σ κ → σ → σ
  | .note change next, memory => noted next (change memory)
  | _, memory => memory

variable {p : Code σ κ}

theorem IsNoteless.notesFirst (noteless : IsNoteless p) : NotesFirst p := by
  cases p with
  | note change next => exact noteless.elim
  | done => trivial
  | panic => trivial
  | look next => exact noteless
  | call request next => exact noteless

theorem IsNoteless.noted (noteless : IsNoteless p) (memory : σ) : p.noted memory = memory := by
  cases p with
  | note change next => exact noteless.elim
  | _ => rfl

end Code

/-- Whether code of the consumer is about to run. -/
def Control.isCode : Control σ κ → Bool
  | .code _ => true
  | _ => false

/-- Whether code of the consumer waits for a reply. -/
def Frame.isAwaiting : Frame σ κ → Bool
  | .awaiting _ => true
  | _ => false

namespace Machine

/-! ### The library leaves the memory alone -/

/-- The library works: the memory of the consumer stays as it is, no code begins to run, and none
waits that has not waited before. -/
structure Works (m m' : Machine σ κ) : Prop where
  memory : m'.memory = m.memory
  control : m'.control.isCode = false
  stack : ∀ next, .awaiting next ∈ m'.stack → .awaiting next ∈ m.stack

variable {m m₁ m' : Machine σ κ} {f : Frame σ κ}

theorem Works.stay {w : World κ} {control : Control σ κ} (own : control.isCode = false) :
    Works m ⟨m.memory, w, control, m.stack⟩ :=
  ⟨rfl, own, fun _ mem => mem⟩

theorem Works.of_push (works : Works (m.push f) m') (own : f.isAwaiting = false) : Works m m' where
  memory := works.memory
  control := works.control
  stack next mem := by
    rcases List.mem_cons.mp (works.stack next mem) with rfl | old
    · exact absurd own.symm Bool.false_ne_true
    · exact old

theorem Works.push {w : World κ} {control : Control σ κ} (code : control.isCode = false)
    (own : f.isAwaiting = false) : Works m ⟨m.memory, w, control, f :: m.stack⟩ :=
  .of_push (m := m) (f := f) ⟨rfl, code, fun _ mem => mem⟩ own

theorem Works.of_withWorld {w : World κ} (works : Works (m.withWorld w) m') : Works m m' :=
  ⟨works.memory, works.control, works.stack⟩

theorem deliver_works (m : Machine σ κ) (n : Notice) (audience : List (Audience κ)) :
    Works m (m.deliver n audience) := by
  match audience with
  | [] => exact .stay rfl
  | .callback label :: rest => exact .push rfl rfl
  | .view about label :: rest =>
    rw [deliver]
    split
    · exact .push rfl rfl
    · exact .push rfl rfl
  | .wait number :: rest => exact .push rfl rfl

theorem mutate_works {α : Type} (m : Machine σ κ) (number : Nat) (mutation : Mutation α) (r : Reply) :
    Works m (m.mutate number mutation r) := by
  rw [mutate]
  split
  · exact .stay rfl
  · exact .push rfl rfl

theorem stopSession_works (m : Machine σ κ) (number : Nat) (id : TaskId) (only : Option Serial)
    (reason : StopReason) : Works m (m.stopSession number id only reason) := by
  obtain still | ⟨serial, _, ended | ⟨label, ended⟩⟩ := m.stopSession_cases number id only reason
  · rw [still]
    exact .stay rfl
  · rw [ended]
    exact .push rfl rfl
  · rw [ended]
    exact .push rfl rfl

theorem stopEach_works (m : Machine σ κ) (number count : Nat) (ids : List TaskId) :
    Works m (m.stopEach number count ids) := by
  match ids with
  | [] => exact .stay rfl
  | id :: rest => exact (stopSession_works _ number id none _).of_push rfl

theorem startSession_works (m : Machine σ κ) (number : Nat) (id : TaskId) (fetcher : κ) :
    Works m (m.startSession number id fetcher) := by
  obtain still | ⟨_, begun⟩ := m.startSession_cases number id fetcher
  · rw [still]
    exact .stay rfl
  · rw [begun]
    exact .push rfl rfl

theorem resumeEach_works (m : Machine σ κ) (number : Nat) (factory : κ) (count : Nat)
    (offered : List Task) : Works m (m.resumeEach number factory count offered) := by
  match offered with
  | [] => exact .stay rfl
  | task :: rest => exact .push rfl rfl

/-- A session that goes on leaves the memory alone. -/
theorem Turn.works {g : Grounds κ} {S : SessionName} (turn : Turn g S m m') : Works m m' := by
  cases turn with
  | ends => exact .stay rfl
  | rests own pause => exact .stay rfl
  | concludes own ends => exact (stopSession_works _ _ _ _ _).of_push rfl
  | aborts own lives breaks => exact (stopSession_works _ _ _ _ _).of_push rfl
  | _ => exact .push rfl rfl

theorem perform_works (m : Machine σ κ) (request : Call κ) : Works m (m.perform request) := by
  cases request with
  | openTracker key cadence =>
    rw [perform]
    split
    · exact .stay rfl
    · exact .stay rfl
  | add number draft => exact (mutate_works _ number _ _).of_withWorld
  | update number id patch => exact m.mutate_works number _ _
  | remove number id => exact m.mutate_works number _ _
  | clearTerminal number => exact m.mutate_works number _ _
  | start number id fetcher => exact m.startSession_works number id fetcher
  | stop number id => exact m.stopSession_works number id none _
  | stopAll number => exact m.stopEach_works number 0 _
  | configure number patch =>
    rw [perform]
    split
    · exact .stay rfl
    · exact .stay rfl
  | track number draft fetcher => exact ((mutate_works _ number _ _).of_push rfl).of_withWorld
  | resume number factory => exact m.resumeEach_works number factory 0 _
  | forget number id => exact (stopSession_works _ number id none _).of_push rfl
  | _ => exact .stay rfl

theorem resume_works (m : Machine σ κ) (c : Consumer σ κ) (r : Reply) (own : f.isAwaiting = false) :
    Works m (m.resume c r f) := by
  cases f with
  | awaiting next => exact absurd own.symm Bool.false_ne_true
  | delivering n rest => exact m.deliver_works n rest
  | answering reply => exact .stay rfl
  | announcing number id reason => exact .push rfl rfl
  | stopping number rest count => exact m.stopEach_works number _ rest
  | spawning s => exact .stay rfl
  | tracking number task fetcher =>
    rw [resume]
    split
    · exact .stay rfl
    · exact (startSession_works _ number task.id fetcher).of_push rfl
  | offering number factory task rest count =>
    rw [resume]
    split
    · exact m.resumeEach_works number factory count rest
    · exact (startSession_works _ number task.id _).of_push rfl
  | resuming number factory rest count => exact m.resumeEach_works number factory _ rest
  | forgetting number id => exact m.mutate_works number _ _
  | session s point => exact (m.continueSession_turn c s point).works

theorem unwind_works (m : Machine σ κ) (own : f.isAwaiting = false) : Works m (m.unwind f) := by
  cases f with
  | awaiting next => exact absurd own.symm Bool.false_ne_true
  | delivering n rest => exact m.deliver_works n rest
  | session s point =>
    rw [unwind_session]
    exact (finish_turn (g := { breaks := True }) rfl fun _ => trivial).works
  | _ => exact .stay rfl

/-! ### Runs that nobody attends to -/

/-- Moves one after the other, as in a run, but nobody runs code or touches the memory from outside.
-/
inductive Unattended (c : Consumer σ κ) (m : Machine σ κ) :
    List (Machine σ κ) → Machine σ κ → Prop
  /-- Nothing has happened yet. -/
  | start : Unattended c m [] m
  /-- One more move. -/
  | move {states m₁ m₂} (run : Unattended c m states m₁) (next : Move c (fun _ => False) m₁ m₂)
      (untouched : m₁.isIdle = true → m₂.memory = m₁.memory) : Unattended c m (states ++ [m₂]) m₂

variable {c : Consumer σ κ} {states further : List (Machine σ κ)}

theorem Unattended.run (unattended : Unattended c m states m') :
    Run c (fun _ => False) m states m' := by
  induction unattended with
  | start => exact .start
  | move _ next _ ih => exact ih.move next

theorem Unattended.append (unattended : Unattended c m states m₁)
    (rest : Unattended c m₁ further m') : Unattended c m (states ++ further) m' := by
  induction rest with
  | start => simpa only [List.append_nil] using unattended
  | move _ next untouched ih => simpa only [List.append_assoc] using ih.move next untouched

/-- What the executor does by itself nobody attends to. -/
theorem Executes.unattended (executes : Executes c m states m') : Unattended c m states m' := by
  induction executes with
  | start => exact .start
  | step _ busy ih =>
    exact ih.move (.step busy) fun idle => absurd (busy.symm.trans idle) Bool.false_ne_true
  | wake _ idle listed ready ih =>
    exact ih.move (.wake idle listed ready) fun _ => (wake_turn _ _).works.memory
  | tick _ quiet later due ih => exact ih.move (.tick quiet later due) fun _ => rfl

/-- Nor does anyone attend to it when somebody begins to wait for sessions to end. -/
theorem exists_awaiting (idle : m.isIdle = true) (number : Nat) (ids : List TaskId) :
    ∃ states, Unattended c m states (m.withWorld (m.world.beginWaits number ids).2) := by
  induction ids generalizing m with
  | nil => exact ⟨[], .start⟩
  | cons id rest ih =>
    rw [World.beginWaits]
    cases begun : m.world.beginWait number id with
    | none => exact ih idle
    | some begun' =>
      obtain ⟨wait, world⟩ := begun'
      obtain ⟨states, further⟩ := ih (m := m.withWorld world) idle
      exact ⟨_, (Unattended.start.move (.await idle begun) fun _ => rfl).append further⟩

/-- What is called in a state. -/
def called (m : Machine σ κ) : List (κ × Occasion) :=
  match m.control with
  | .calling label occasion => [(label, occasion)]
  | _ => []

/-- What is called along a run, in the order of the calls. -/
def calls (states : List (Machine σ κ)) : List (κ × Occasion) := states.flatMap called

theorem calls_append (states further : List (Machine σ κ)) :
    calls (states ++ further) = calls states ++ calls further :=
  List.flatMap_append

end Machine

/-! ### What the memory comes to -/

/-- Callbacks note first what they note. -/
def Consumer.NotesFirst (c : Consumer σ κ) : Prop :=
  ∀ label occasion, Code.NotesFirst (c.react label occasion)

/-- The memory after what calls come to, one after the other. -/
def Consumer.noted (c : Consumer σ κ) (memory : σ) (calls : List (κ × Occasion)) : σ :=
  calls.foldl (fun memory call => Code.noted (c.react call.1 call.2) memory) memory

theorem Consumer.noted_append (c : Consumer σ κ) (memory : σ) (calls further : List (κ × Occasion)) :
    c.noted memory (calls ++ further) = c.noted (c.noted memory calls) further :=
  List.foldl_append

namespace Machine

variable {c : Consumer σ κ} {m m₁ m' : Machine σ κ} {states : List (Machine σ κ)}

/-- Code that runs notes first what it notes, and code that waits for a reply notes nothing. -/
structure Orderly (m : Machine σ κ) : Prop where
  code : ∀ p, m.control = .code p → Code.NotesFirst p
  awaiting : ∀ next, .awaiting next ∈ m.stack → ∀ reply, Code.IsNoteless (next reply)

/-- The memory when everything has been noted that is about to be noted. -/
def balance (c : Consumer σ κ) (m : Machine σ κ) : σ :=
  match m.control with
  | .code p => Code.noted p m.memory
  | _ => c.noted m.memory m.called

theorem balance_of_isIdle (idle : m.isIdle = true) : m.balance c = m.memory := by
  rw [isIdle] at idle
  split at idle
  · next control => rw [balance, control, called, control]; rfl
  · next control => rw [balance, control, called, control]; rfl
  · simp at idle

theorem Orderly.of_isIdle (idle : m.isIdle = true) : m.Orderly where
  code p control := by simp [isIdle, control] at idle
  awaiting next mem := by simp [stack_of_isIdle idle] at mem

/-- When the library has worked, what is called is still to be noted. -/
theorem Works.balance (works : Works m m') : m'.balance c = c.noted m.memory m'.called := by
  have own := works.control
  rw [Machine.balance, ← works.memory]
  split
  · next control => simp [control, Control.isCode] at own
  · rfl

theorem Works.orderly (works : Works m m')
    (awaiting : ∀ next, .awaiting next ∈ m.stack → ∀ reply, Code.IsNoteless (next reply)) :
    m'.Orderly where
  code p control := by simpa [control, Control.isCode] using works.control
  awaiting next mem := awaiting next (works.stack next mem)

/-- Everything that is about to be noted is what has been about to be noted before, and what is called
now. -/
structure Notes (c : Consumer σ κ) (m m' : Machine σ κ) : Prop where
  orderly : m'.Orderly
  balance : m'.balance c = c.noted (m.balance c) m'.called

/-- The library works, and nothing was about to be noted. -/
private theorem Works.notes (works : Works m m₁) (same : m.memory = m'.balance c)
    (awaiting : ∀ next, .awaiting next ∈ m.stack → ∀ reply, Code.IsNoteless (next reply)) :
    Notes c m' m₁ :=
  ⟨works.orderly awaiting, same ▸ works.balance⟩

/-- Code goes on that notes nothing. -/
private theorem notes_of_noteless {memory : σ} {w : World κ} {p : Code σ κ} {stack : List (Frame σ κ)}
    (noteless : Code.IsNoteless p) (same : memory = m.balance c)
    (awaiting : ∀ next, .awaiting next ∈ stack → ∀ reply, Code.IsNoteless (next reply)) :
    Notes c m ⟨memory, w, .code p, stack⟩ where
  orderly := ⟨fun _ control => Control.code.inj control ▸ noteless.notesFirst, awaiting⟩
  balance := (noteless.noted memory).trans same

/-- Code goes on. -/
private theorem stepCode_notes {memory : σ} {w : World κ} {p : Code σ κ} {stack : List (Frame σ κ)}
    (orderly : Orderly ⟨memory, w, .code p, stack⟩) :
    Notes c ⟨memory, w, .code p, stack⟩ (stepCode ⟨memory, w, .code p, stack⟩ p) := by
  have first : Code.NotesFirst p := orderly.code p rfl
  cases p with
  | done => exact (Works.stay (m := ⟨memory, w, .code .done, stack⟩) rfl).notes rfl orderly.awaiting
  | panic => exact (Works.stay (m := ⟨memory, w, .code .panic, stack⟩) rfl).notes rfl orderly.awaiting
  | look next => exact notes_of_noteless (first _ _) rfl orderly.awaiting
  | note change next =>
    exact ⟨⟨fun _ control => Control.code.inj control ▸ first, orderly.awaiting⟩, rfl⟩
  | call request next =>
    refine (perform_works (push ⟨memory, w, _, stack⟩ (.awaiting next)) request).notes rfl ?_
    intro next' mem
    rcases List.mem_cons.mp mem with same | old
    · exact Frame.awaiting.inj same ▸ first
    · exact orderly.awaiting next' old

/-- A frame goes on: code that notes nothing, or the library. -/
private theorem notes_of_frame {memory : σ} {w : World κ} {control : Control σ κ} {f : Frame σ κ}
    {rest : List (Frame σ κ)} (orderly : Orderly ⟨memory, w, control, f :: rest⟩)
    (silent : memory = balance c ⟨memory, w, control, f :: rest⟩)
    (goesOn : ∀ next, f = .awaiting next → ∃ reply, m' = ⟨memory, w, .code (next reply), rest⟩)
    (works : f.isAwaiting = false → Works ⟨memory, w, control, rest⟩ m') :
    Notes c ⟨memory, w, control, f :: rest⟩ m' := by
  have below : ∀ next, .awaiting next ∈ rest → ∀ reply, Code.IsNoteless (next reply) :=
    fun next mem => orderly.awaiting next (List.mem_cons_of_mem _ mem)
  cases f with
  | awaiting next =>
    obtain ⟨reply, rfl⟩ := goesOn next rfl
    exact notes_of_noteless (orderly.awaiting next List.mem_cons_self reply) silent below
  | _ => exact (works rfl).notes silent below

/-- A step notes what was about to be noted. -/
theorem Orderly.step (notes : c.NotesFirst) (orderly : m.Orderly) (busy : m.isIdle = false) :
    Notes c m (m.step c) := by
  obtain ⟨memory, w, control, stack⟩ := m
  cases control with
  | code p => exact stepCode_notes orderly
  | calling label occasion =>
    exact ⟨⟨fun _ control => Control.code.inj control ▸ notes label occasion, orderly.awaiting⟩, rfl⟩
  | telling number n => exact (deliver_works _ n _).notes rfl orderly.awaiting
  | returned r =>
    cases stack with
    | nil => exact absurd busy.symm Bool.false_ne_true
    | cons f rest =>
      exact notes_of_frame orderly rfl (fun next awaits => ⟨r, awaits ▸ rfl⟩)
        (resume_works ⟨memory, w, .returned r, rest⟩ c r)
  | unwinding =>
    cases stack with
    | nil => exact absurd busy.symm Bool.false_ne_true
    | cons f rest =>
      exact notes_of_frame orderly rfl (fun next awaits => ⟨none, awaits ▸ rfl⟩)
        (unwind_works ⟨memory, w, .unwinding, rest⟩)

/-- A machine that has nothing to do has nothing to note, and neither has one that has not been
touched meanwhile. -/
private theorem notes_of_isIdle (idle : m.isIdle = true) (works : Works m m') : Notes c m m' :=
  works.notes (balance_of_isIdle idle).symm (Orderly.of_isIdle idle).awaiting

private theorem Works.of_isIdle (idle : m.isIdle = true) {memory : σ} (same : memory = m.memory)
    (w : World κ) : Works m ⟨memory, w, m.control, m.stack⟩ where
  memory := same
  control := by
    rw [isIdle] at idle
    split at idle
    · next control => rw [control]; rfl
    · next control => rw [control]; rfl
    · simp at idle
  stack _ mem := mem

/-- A move that nobody attends to notes what was about to be noted. -/
theorem Orderly.move (notes : c.NotesFirst) (orderly : m.Orderly)
    (move : Move c (fun _ => False) m m') (untouched : m.isIdle = true → m'.memory = m.memory) :
    Notes c m m' := by
  cases move with
  | step busy => exact orderly.step notes busy
  | code idle allowed => exact allowed.elim
  | remember idle memory => exact notes_of_isIdle idle (.of_isIdle idle (untouched idle) m.world)
  | wake idle listed ready =>
    exact notes_of_isIdle idle (wake_turn (m.withWorld _) _).works.of_withWorld
  | tick quiet later due =>
    have idle : m.isIdle = true := (Bool.and_eq_true_iff.mp quiet).1
    exact notes_of_isIdle idle (.of_isIdle idle rfl _)
  | await idle begun => exact notes_of_isIdle idle (.of_isIdle idle rfl _)
  | endWait idle wait => exact notes_of_isIdle idle (.of_isIdle idle rfl _)
  | close idle same => exact notes_of_isIdle idle (.of_isIdle idle rfl _)
  | @abandon before entry after idle closed listed =>
    let w := { m.world with suspended := before ++ after }
    exact notes_of_isIdle idle (abandon_turn (m := m.withWorld w) closed entry).works.of_withWorld

/-- The memory comes to what was about to be noted in the beginning, and then to what calls come to, in
the order of the calls. -/
theorem Unattended.balance (notes : c.NotesFirst) (orderly : m.Orderly)
    (unattended : Unattended c m states m') :
    m'.Orderly ∧ m'.balance c = c.noted (m.balance c) (calls states) := by
  induction unattended with
  | start => exact ⟨orderly, rfl⟩
  | move _ next untouched ih =>
    obtain ⟨orderly₁, same⟩ := ih
    obtain ⟨orderly', further⟩ := orderly₁.move notes next untouched
    refine ⟨orderly', ?_⟩
    rw [further, same, calls_append, c.noted_append]
    simp [calls]

end Machine

end TaskWatch
