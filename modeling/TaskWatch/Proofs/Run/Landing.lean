import TaskWatch.Proofs.Run.Glimpse

/-!
# Where a call lands

Callbacks and listeners that only observe make no calls of their own. What a busy machine does then
comes to an end, and one can say where: with which reply, in which world, and what has been seen of
each task meanwhile. Such statements are put together frame by frame, from what runs above a frame
and how the frame goes on.

## Main definitions

* `Code.Ends` — code that makes no calls.
* `Backend`, `Consumer.Obeys` — callbacks only observe, and fetchers answer as a backend says.
* `Backend.consumer` — a consumer that does nothing else.
* `Machine.Lands` — something runs above certain frames and comes back to them.

## Main results

* `Machine.ends_path` — code that makes no calls comes to its end.
* `Machine.Lands.bind` — what runs above a frame, and how the frame goes on.
* `Machine.Lands.call`, `Machine.Lands.invoke`, `Machine.Lands.tell` — a callback or a fetcher is
  called, listeners are told.
-/

namespace TaskWatch

variable {σ κ : Type}

/-! ### Code that observes -/

/-- Code makes no calls. Whether it panics in the end is as allowed. -/
def Code.Ends (allowed : Bool → Prop) : Code σ κ → Prop
  | .done => allowed false
  | .panic => allowed true
  | .look next => ∀ scene memory, Ends allowed (next scene memory)
  | .note _ next => Ends allowed next
  | .call _ _ => False

/-- Whether nobody is called, and nobody is told of anything. -/
def Control.isMute : Control σ κ → Bool
  | .calling _ _ | .telling _ _ => false
  | _ => true

/-- What answers the requests of sessions and has fetchers for tasks. -/
structure Backend (κ : Type) where
  /-- How a fetcher goes on after a turn; one that does not panics in it. -/
  progress : κ → Request → (turn : Nat) → Option Progress
  /-- The fetcher that a factory has for a task. -/
  supply : κ → Task → Option κ

/-- Callbacks, listeners and factories only observe and do not panic, and fetchers and factories do
what a backend says. -/
structure Consumer.Obeys (c : Consumer σ κ) (b : Backend κ) : Prop where
  callback : ∀ label occasion, occasion.isFetching = false →
    (∀ request, occasion ≠ .fetchDropped request) →
    Code.Ends (· = false) (c.react label occasion)
  fetching : ∀ label request turn,
    Code.Ends (· = (b.progress label request turn).isNone) (c.react label (.fetching request turn))
  proceed : ∀ label request turn progress, b.progress label request turn = some progress →
    ∀ memory, c.proceed label request turn memory = progress
  dropped : ∀ label request, Code.Ends (fun _ => True) (c.react label (.fetchDropped request))
  supply : ∀ factory task memory, c.supply factory task memory = b.supply factory task

/-- A consumer whose callbacks and listeners do nothing, and whose fetchers and factories do what a
backend says. -/
def Backend.consumer (b : Backend κ) : Consumer Unit κ where
  react label occasion :=
    match occasion with
    | .fetching request turn => if (b.progress label request turn).isNone then .panic else .done
    | _ => .done
  proceed label request turn _ := (b.progress label request turn).getD .hang
  supply factory task _ := b.supply factory task

theorem Backend.obeys (b : Backend κ) : b.consumer.Obeys b where
  callback label occasion other _ := by
    cases occasion with
    | fetching request turn => simp [Occasion.isFetching] at other
    | _ => exact rfl
  fetching label request turn := by
    show Code.Ends _ (if _ then _ else _)
    split
    · next none => exact none.symm
    · next some => exact (Bool.eq_false_iff.mpr some).symm
  proceed label request turn progress same memory := by simp [consumer, same]
  dropped label request := trivial
  supply factory task memory := rfl

namespace World

theorem change_self (number : Nat) (id : TaskId) (w : World κ) : change number id w w = [] :=
  change_of_eq rfl

/-- What is seen of a task when a callback is called. -/
def calls (w : World κ) (label : κ) (occasion : Occasion) (id : TaskId) : List (Glimpse κ) :=
  if occasion.subject? = some id then [⟨w.clock, .calls label occasion⟩] else []

/-- What is seen of a task when listeners are told of something. -/
def tells (w : World κ) (n : Notice) (id : TaskId) : List (Glimpse κ) :=
  (n.of id).map fun n => ⟨w.clock, .tells n⟩

theorem Near.record {w w' : World κ} (near : w.Near w') (number : Nat) (id : TaskId) :
    w'.record number id = w.record number id := by
  rw [World.record, near.tasks, World.record]

end World

namespace Machine

variable {c : Consumer σ κ} {number : Nat} {w before : World κ} {m : Machine σ κ} {memory : σ}
  {base : List (Frame σ κ)} {f : Frame σ κ}

@[simp]
theorem world_push (m : Machine σ κ) (f : Frame σ κ) : (m.push f).world = m.world := rfl

@[simp]
theorem world_withWorld (m : Machine σ κ) (w : World κ) : (m.withWorld w).world = w := rfl

/-- What is seen of each task, the reply and the world that something comes to. -/
abbrev Outcome (κ : Type) : Type := (TaskId → List (Glimpse κ)) → Reply → World κ → Prop

/-- Something that has just begun in a world runs above certain frames until it comes back to them.
What is seen of the records of one tracker counts. -/
def Lands (c : Consumer σ κ) (number : Nat) (before : World κ) (m : Machine σ κ)
    (base : List (Frame σ κ)) (post : Outcome κ) : Prop :=
  ∃ states memory reply after, Path c m states ⟨memory, after, .returned reply, base⟩ ∧
    post (fun id => World.change number id before m.world ++ glimpses number id m states) reply after

variable {post post' : Outcome κ}

theorem Lands.mono (lands : Lands c number before m base post)
    (implies : ∀ seen reply after, post seen reply after → post' seen reply after) :
    Lands c number before m base post' := by
  obtain ⟨states, memory, reply, after, path, holds⟩ := lands
  exact ⟨states, memory, reply, after, path, implies _ _ _ holds⟩

/-- There is a reply already. -/
theorem Lands.reply (stack : m.stack = base) {r : Reply}
    (holds : post (fun id => World.change number id before m.world) r m.world) :
    Lands c number before (m.reply r) base post := by
  subst stack
  refine ⟨[], m.memory, r, m.world, .stay _, ?_⟩
  simp only [glimpses, List.append_nil]
  exact holds

/-- What runs above a frame comes back to it, and then the frame goes on. -/
theorem Lands.bind (above : Lands c number before m (f :: base) post')
    (goesOn : ∀ seen reply after memory, post' seen reply after →
      Lands c number after (resume c ⟨memory, after, .returned reply, base⟩ reply f) base
        fun seen' => post fun id => seen id ++ seen' id) :
    Lands c number before m base post := by
  obtain ⟨states, memory, r, after, path, holds⟩ := above
  obtain ⟨further, memory', r', after', path', holds'⟩ := goesOn _ _ _ memory holds
  refine ⟨_, memory', r', after', path.append (.step rfl path'), ?_⟩
  have goes : step c ⟨memory, after, .returned r, f :: base⟩ =
      resume c ⟨memory, after, .returned r, base⟩ r f := rfl
  simp only [path.glimpses_append, glimpses, goes, ← List.append_assoc] at holds' ⊢
  simpa only [shown, Control.shows, List.map_nil, List.append_nil] using holds'

/-! ### Callbacks -/

theorem busy_of_code (p : Code σ κ) : (⟨memory, w, .code p, base⟩ : Machine σ κ).isIdle = false := by
  cases base <;> rfl

/-- Code that makes no calls comes to its end, and nothing happens meanwhile. -/
theorem ends_path {allowed : Bool → Prop} {p : Code σ κ} (ends : Code.Ends allowed p)
    (c : Consumer σ κ) (w : World κ) (base : List (Frame σ κ)) (memory : σ) :
    ∃ states memory' panics, allowed panics ∧
      Path c ⟨memory, w, .code p, base⟩ states
        ⟨memory', w, if panics then .unwinding else .returned .unit, base⟩ ∧
      (∀ m ∈ states, m.world = w ∧ m.control.isMute = true) ∧
      ∀ m ∈ (⟨memory, w, .code p, base⟩ :: states).dropLast, ∃ q, m.control = .code q := by
  induction p generalizing memory with
  | done =>
    exact ⟨_, memory, false, ends, .step (busy_of_code _) (.stay _), by simp [step, stepCode, reply,
      Control.isMute], by simp⟩
  | panic =>
    exact ⟨_, memory, true, ends, .step (busy_of_code _) (.stay _), by simp [step, stepCode,
      Control.isMute], by simp⟩
  | look next ih =>
    obtain ⟨states, memory', panics, ok, path, calm, code⟩ := ih _ _ (ends _ _) memory
    exact ⟨_, memory', panics, ok, .step (busy_of_code _) path,
      List.forall_mem_cons.mpr ⟨⟨rfl, rfl⟩, calm⟩, List.forall_mem_cons.mpr ⟨⟨_, rfl⟩, code⟩⟩
  | note change next ih =>
    obtain ⟨states, memory', panics, ok, path, calm, code⟩ := ih ends (change memory)
    exact ⟨_, memory', panics, ok, .step (busy_of_code _) path,
      List.forall_mem_cons.mpr ⟨⟨rfl, rfl⟩, calm⟩, List.forall_mem_cons.mpr ⟨⟨_, rfl⟩, code⟩⟩
  | call request next ih => exact ends.elim

theorem glimpses_of_mute {id : TaskId} {states : List (Machine σ κ)}
    (calm : ∀ m' ∈ m :: states, m'.world = w ∧ m'.control.isMute = true) :
    glimpses number id m states = [] := by
  induction states generalizing m with
  | nil => rfl
  | cons next rest ih =>
    obtain ⟨⟨world, mute⟩, calm'⟩ := List.forall_mem_cons.mp calm
    have world' : next.world = m.world := (calm next (by simp)).1.trans world.symm
    have silent : shown id m = [] := by
      rw [shown]
      cases control : m.control <;> simp_all [Control.shows, Control.isMute]
    rw [glimpses, ih calm', silent, world', World.change_self]
    rfl

theorem shown_of_silent {id : TaskId} {control : Control σ κ} (silent : control.shows id = []) :
    shown id (⟨memory, w, control, base⟩ : Machine σ κ) = [] :=
  congrArg (List.map _) silent

theorem shown_calling (label : κ) (occasion : Occasion) (id : TaskId) :
    shown id (⟨memory, w, .calling label occasion, base⟩ : Machine σ κ) =
      w.calls label occasion id := by
  simp only [shown, Control.shows, World.calls, apply_ite (List.map _), List.map_cons, List.map_nil]

theorem shown_telling (k : Nat) (n : Notice) (id : TaskId) :
    shown id (⟨memory, w, .telling k n, base⟩ : Machine σ κ) = w.tells n id := by
  simp only [shown, Control.shows, World.tells, List.map_map, Function.comp_def]

/-- Something is called above a frame. It comes to its end, and the frame goes on; or it panics, and
the panic reaches the frame. -/
theorem Lands.call {allowed : Bool → Prop} {label : κ} {occasion : Occasion}
    (ends : Code.Ends allowed (c.react label occasion)) (stack : m.stack = f :: base)
    (back : allowed false → ∀ memory,
      Lands c number m.world (resume c ⟨memory, m.world, .returned .unit, base⟩ .unit f) base
        fun seen => post fun id => World.change number id before m.world ++
          m.world.calls label occasion id ++ seen id)
    (panicked : allowed true → ∀ memory,
      Lands c number m.world (unwind ⟨memory, m.world, .unwinding, base⟩ f) base
        fun seen => post fun id => World.change number id before m.world ++
          m.world.calls label occasion id ++ seen id) :
    Lands c number before (m.invoke label occasion) base post := by
  obtain ⟨memory, w, control, _⟩ := m
  subst stack
  have busy : isIdle (⟨memory, w, .calling label occasion, f :: base⟩ : Machine σ κ) = false := rfl
  -- The callback is called, its code runs to the end, and then the frame goes on.
  have joined : ∀ {states further : List (Machine σ κ)} {control : Control σ κ} {memory' : σ}
      {m' : Machine σ κ},
      Path c ⟨memory, w, .code (c.react label occasion), f :: base⟩ states
        ⟨memory', w, control, f :: base⟩ →
      (∀ id, glimpses number id ⟨memory, w, .code (c.react label occasion), f :: base⟩ states = []) →
      (∀ id, control.shows id = []) →
      (fun id => World.change number id before w ++ w.calls label occasion id ++
        (World.change number id w m'.world ++ glimpses number id m' further)) =
      fun id => World.change number id before w ++
        glimpses number id ⟨memory, w, .calling label occasion, f :: base⟩
          (⟨memory, w, .code (c.react label occasion), f :: base⟩ :: (states ++ m' :: further)) := by
    intro states further control memory' m' path nothing silent
    funext id
    rw [glimpses, path.glimpses_append, nothing, glimpses, World.change_self, shown_calling,
      shown_of_silent (silent id)]
    simp
  obtain ⟨states, memory', panics, ok, path, calm, _⟩ := ends_path ends c w (f :: base) memory
  have nothing : ∀ id, glimpses number id ⟨memory, w, .code (c.react label occasion), f :: base⟩
      states = [] := fun id => glimpses_of_mute (List.forall_mem_cons.mpr ⟨⟨rfl, rfl⟩, calm⟩)
  cases panics with
  | false =>
    obtain ⟨further, memory'', r, after, path', holds⟩ := back ok memory'
    exact ⟨_, memory'', r, after, .step busy (path.append (.step rfl path')),
      joined path nothing (fun _ => rfl) ▸ holds⟩
  | true =>
    obtain ⟨further, memory'', r, after, path', holds⟩ := panicked ok memory'
    exact ⟨_, memory'', r, after, .step busy (path.append (.step rfl path')),
      joined path nothing (fun _ => rfl) ▸ holds⟩

/-- A callback that does not panic is called above a frame. -/
theorem Lands.invoke {label : κ} {occasion : Occasion}
    (ends : Code.Ends (· = false) (c.react label occasion)) (stack : m.stack = f :: base)
    (back : ∀ memory,
      Lands c number m.world (resume c ⟨memory, m.world, .returned .unit, base⟩ .unit f) base
        fun seen => post fun id => World.change number id before m.world ++
          m.world.calls label occasion id ++ seen id) :
    Lands c number before (m.invoke label occasion) base post :=
  .call ends stack (fun _ => back) fun panics => absurd panics.symm Bool.false_ne_true

/-! ### Listeners -/

/-- Listeners that only observe are told, and nobody notices. -/
theorem lands_deliver {b : Backend κ} (obeys : c.Obeys b) (n : Notice) (audience : List (Audience κ))
    (m : Machine σ κ) (stack : m.stack = base) :
    Lands c number m.world (m.deliver n audience) base fun seen reply after =>
      reply = .unit ∧ m.world.Near after ∧ ∀ id, seen id = [] := by
  induction audience generalizing m with
  | nil => exact .reply stack ⟨rfl, .refl _, fun id => World.change_self _ _ _⟩
  | cons first rest ih =>
    -- Nothing is seen before the delivery goes on.
    have further : ∀ (memory : σ) (after : World κ) (control : Control σ κ), m.world.Near after →
        Lands c number after (deliver ⟨memory, after, control, base⟩ n rest) base
          fun seen reply after' => reply = .unit ∧ m.world.Near after' ∧ ∀ id, seen id = [] := by
      intro memory after control near
      refine (ih ⟨memory, after, control, base⟩ rfl).mono ?_
      rintro seen reply after' ⟨rfl, near', nothing⟩
      exact ⟨rfl, near.trans near', nothing⟩
    -- The same after a callback that is not for any task.
    have called : ∀ (label : κ) (occasion : Occasion), occasion.subject? = none →
        Code.Ends (· = false) (c.react label occasion) →
        Lands c number m.world ((m.push (.delivering n rest)).invoke label occasion) base
          fun seen reply after => reply = .unit ∧ m.world.Near after ∧ ∀ id, seen id = [] := by
      intro label occasion nobody ends
      refine .invoke (f := .delivering n rest) ends (congrArg _ stack) fun memory => ?_
      refine (further memory _ _ (.refl _)).mono ?_
      rintro seen reply after ⟨rfl, near, nothing⟩
      exact ⟨rfl, near, fun id => by simp [nothing, World.change_self, World.calls, nobody]⟩
    -- And when there is a reply at once.
    have replied : ∀ w, m.world.Near w →
        Lands c number m.world (((m.push (.delivering n rest)).withWorld w).reply .unit) base
          fun seen reply after => reply = .unit ∧ m.world.Near after ∧ ∀ id, seen id = [] := by
      intro w near
      have first : Lands c number m.world (((m.push (.delivering n rest)).withWorld w).reply .unit)
          (.delivering n rest :: base) fun seen _ after =>
            m.world.Near after ∧ ∀ id, seen id = [] := by
        refine .reply (congrArg (List.cons (.delivering n rest)) stack) ⟨near, fun id => ?_⟩
        exact World.change_of_eq (near.record number id)
      refine first.bind ?_
      · rintro seen reply after memory ⟨near, nothing⟩
        refine (further memory after _ near).mono ?_
        rintro seen' reply' after' ⟨rfl, near', nothing'⟩
        exact ⟨rfl, near', fun id => by simp [nothing, nothing']⟩
    cases first with
    | callback label => exact called label _ rfl (obeys.callback label _ rfl (by simp))
    | view about label =>
      rw [deliver]
      split
      · exact called label _ rfl (obeys.callback label _ rfl (by simp))
      · exact replied m.world (.refl _)
    | wait k => exact replied _ (m.world.near_tellWait k n)

/-- Listeners are told of something above a frame, and then the frame goes on. -/
theorem Lands.tell {b : Backend κ} (obeys : c.Obeys b) {k : Nat} {n : Notice}
    (stack : m.stack = f :: base)
    (next : ∀ after memory, m.world.Near after →
      Lands c number after (resume c ⟨memory, after, .returned .unit, base⟩ .unit f) base
        fun seen => post fun id => World.change number id before m.world ++
          m.world.tells n id ++ seen id) :
    Lands c number before (m.tell k n) base post := by
  have told : Lands c number before (m.tell k n) (f :: base) fun seen reply after =>
      reply = .unit ∧ m.world.Near after ∧
        ∀ id, seen id = World.change number id before m.world ++ m.world.tells n id := by
    have delivers :
        Lands c number m.world ((m.tell k n).deliver n (m.world.audience k n)) (f :: base) _ :=
      lands_deliver obeys n (m.world.audience k n) (m.tell k n) stack
    obtain ⟨states, memory, r, after, path, rfl, near, nothing⟩ := delivers
    have busy : (m.tell k n).isIdle = false := isIdle_of_mem_stack (stack ▸ List.mem_cons_self)
    have goes : (m.tell k n).step c = (m.tell k n).deliver n (m.world.audience k n) :=
      step_of_telling rfl c
    refine ⟨_, memory, .unit, after, .step busy (goes ▸ path), rfl, near, fun id => ?_⟩
    have silent : World.change number id m.world ((m.tell k n).deliver n _).world ++
        glimpses number id ((m.tell k n).deliver n _) states = [] := nothing id
    show _ ++ (shown id (m.tell k n) ++ World.change number id m.world _ ++ _) = _
    rw [goes, List.append_assoc, silent, List.append_nil]
    exact congrArg _ (shown_telling k n id)
  refine told.bind ?_
  rintro seen reply after memory ⟨rfl, near, same⟩
  simpa only [same] using next after memory near

end Machine

end TaskWatch
