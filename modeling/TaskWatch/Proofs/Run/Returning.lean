import TaskWatch.Proofs.Run.Landing

/-!
# What a call returns

As long as callbacks and listeners only observe, a call comes back to its caller, whoever makes it
and from wherever. This module says with which reply it does so, in which world, and what can be
seen meanwhile of the sessions of a tracker, in which order: its listeners are told of one, or a
factory answers when a task is offered to it. What a factory answers may depend on what it
remembers. Nothing is said of what sessions do in their turns, because none of them gets one.

## Main definitions

* `Consumer.Observes` — listeners, callbacks for stopped sessions and factories make no calls.
* `World.Told` — somebody who waits may have been told.
* `Sight`, `Machine.seen` — what can be seen of the sessions of a tracker.
* `Machine.Returns` — something runs above certain frames and comes back to them.
* `Machine.Replies` — a call comes back to its caller.

## Main results

* `Machine.Returns.bind` — what runs above a frame, and how the frame goes on.
* `Machine.Returns.invoke`, `Machine.Returns.tell` — a callback is called, listeners are told.
* `Machine.Returns.replies` — how a call comes back to the code that has made it.
* `Machine.exists_supply_of_mem_seen` — an answer of a factory that has been seen is its own.
-/

namespace TaskWatch

variable {σ κ : Type}

/-- Listeners make no calls, and it does not matter if they panic. Callbacks for stopped sessions
and factories make no calls and do not panic. -/
structure Consumer.Observes (c : Consumer σ κ) : Prop where
  listener : ∀ label n, Code.Ends (fun _ => True) (c.react label (.notice n))
  viewer : ∀ label, Code.Ends (fun _ => True) (c.react label .viewChanged)
  stopped : ∀ label id reason, Code.Ends (· = false) (c.react label (.stopped id reason))
  factory : ∀ label task, Code.Ends (· = false) (c.react label (.offered task))

/-- Those who wait may have been told of something, and nothing else is different. -/
def World.Told (w w' : World κ) : Prop := ∃ waits, w' = { w with waits }

variable {w w₁ w' : World κ}

theorem World.Told.refl (w : World κ) : w.Told w := ⟨w.waits, rfl⟩

theorem World.Told.trans (h : w.Told w₁) (h' : w₁.Told w') : w.Told w' := by
  obtain ⟨_, rfl⟩ := h
  obtain ⟨waits, rfl⟩ := h'
  exact ⟨waits, rfl⟩

theorem World.Told.near (told : w.Told w') : w.Near w' := by
  obtain ⟨waits, rfl⟩ := told
  exact w.near_aside _ _ _

/-- Something that can be seen of the sessions of a tracker. -/
inductive Sight (κ : Type) where
  /-- The listeners are told of a session. -/
  | told (event : SessionEvent)
  /-- A task has been offered to a factory, and this is the answer. -/
  | offered (factory : κ) (task : Task) (answer : Option κ)

/-- What listeners are told, if they are. -/
def Sight.event? : Sight κ → Option SessionEvent
  | told event => some event
  | offered _ _ _ => none

/-- What is seen when a frame goes on: the answer of a factory. -/
def Frame.sights (c : Consumer σ κ) (number : Nat) (memory : σ) : Frame σ κ → List (Sight κ)
  | .offering k factory task _ _ =>
    if k = number then [.offered factory task (c.supply factory task memory)] else []
  | _ => []

namespace Machine

variable {c : Consumer σ κ} {number : Nat} {m m' : Machine σ κ} {memory : σ}
  {base : List (Frame σ κ)} {f : Frame σ κ} {first states : List (Machine σ κ)}

/-- What is seen of the sessions of a tracker in a state. -/
def sights (c : Consumer σ κ) (number : Nat) (m : Machine σ κ) : List (Sight κ) :=
  match m.control, m.stack with
  | .telling k (.session event), _ => if k = number then [.told event] else []
  | .returned _, f :: _ => f.sights c number m.memory
  | _, _ => []

/-- What is seen of them along a run, up to its last state. -/
def seen (c : Consumer σ κ) (number : Nat) : Machine σ κ → List (Machine σ κ) → List (Sight κ)
  | _, [] => []
  | m, m' :: rest => m.sights c number ++ seen c number m' rest

theorem Path.seen_append (path : Path c m first m') (rest : List (Machine σ κ)) :
    seen c number m (first ++ rest) = seen c number m first ++ seen c number m' rest := by
  induction path with
  | stay m => rfl
  | step busy path ih => simp only [List.cons_append, seen, ih, List.append_assoc]

/-- Nothing is seen while code of the consumer runs. -/
theorem seen_of_code (code : ∀ m' ∈ (m :: states).dropLast, ∃ p, m'.control = .code p) :
    seen c number m states = [] := by
  induction states generalizing m with
  | nil => rfl
  | cons next rest ih =>
    obtain ⟨⟨p, control⟩, code⟩ := List.forall_mem_cons.mp code
    rw [seen, ih code, sights, control]
    rfl

theorem mem_seen {sight : Sight κ} (mem : sight ∈ seen c number m states) :
    ∃ m' ∈ m :: states, sight ∈ m'.sights c number := by
  induction states generalizing m with
  | nil => exact absurd mem List.not_mem_nil
  | cons next rest ih =>
    rcases List.mem_append.mp mem with now | later
    · exact ⟨m, List.mem_cons_self, now⟩
    · obtain ⟨m', on, sees⟩ := ih later
      exact ⟨m', List.mem_cons_of_mem _ on, sees⟩

/-- An answer of a factory that has been seen is what it had for the task at that time. -/
theorem exists_supply_of_mem_seen {factory : κ} {task : Task} {answer : Option κ}
    (mem : .offered factory task answer ∈ seen c number m states) :
    ∃ memory, answer = c.supply factory task memory := by
  obtain ⟨m', _, sees⟩ := mem_seen mem
  rw [sights] at sees
  split at sees
  · split at sees <;> simp at sees
  · next f _ _ _ =>
    cases f with
    | offering k other offered rest count =>
      rw [Frame.sights] at sees
      split at sees
      · obtain ⟨rfl, rfl, rfl⟩ := Sight.offered.inj (List.mem_singleton.mp sees)
        exact ⟨_, rfl⟩
      · exact absurd sees List.not_mem_nil
    | _ => exact absurd sees List.not_mem_nil
  · exact absurd sees List.not_mem_nil

/-- Something runs above certain frames until it comes back to them with a reply. What is seen
meanwhile of the sessions of a tracker counts. -/
def Returns (c : Consumer σ κ) (number : Nat) (m : Machine σ κ) (base : List (Frame σ κ))
    (post : List (Sight κ) → Reply → World κ → Prop) : Prop :=
  ∃ states memory reply after, Path c m states ⟨memory, after, .returned reply, base⟩ ∧
    post (seen c number m states) reply after

variable {post post' : List (Sight κ) → Reply → World κ → Prop}

theorem Returns.mono (returns : Returns c number m base post)
    (implies : ∀ sights reply after, post sights reply after → post' sights reply after) :
    Returns c number m base post' := by
  obtain ⟨states, memory, reply, after, path, holds⟩ := returns
  exact ⟨states, memory, reply, after, path, implies _ _ _ holds⟩

/-- There is a reply already. -/
theorem Returns.reply (stack : m.stack = base) {r : Reply} (holds : post [] r m.world) :
    Returns c number (m.reply r) base post := by
  subst stack
  exact ⟨[], m.memory, r, m.world, .stay _, holds⟩

/-- What runs above a frame comes back to it, and then the frame goes on. -/
theorem Returns.bind (above : Returns c number m (f :: base) post')
    (goesOn : ∀ sights reply after memory, post' sights reply after →
      Returns c number (resume c ⟨memory, after, .returned reply, base⟩ reply f) base
        fun more => post (sights ++ (f.sights c number memory ++ more))) :
    Returns c number m base post := by
  obtain ⟨states, memory, r, after, path, holds⟩ := above
  obtain ⟨further, memory', r', after', path', holds'⟩ := goesOn _ _ _ memory holds
  refine ⟨_, memory', r', after', path.append (.step rfl path'), ?_⟩
  rw [path.seen_append]
  exact holds'

/-- A callback is called above a frame. It comes to its end, and the frame goes on; or it panics,
and the panic reaches the frame. -/
theorem Returns.call {allowed : Bool → Prop} {label : κ} {occasion : Occasion}
    (ends : Code.Ends allowed (c.react label occasion)) (stack : m.stack = f :: base)
    (back : allowed false → ∀ memory,
      Returns c number (resume c ⟨memory, m.world, .returned .unit, base⟩ .unit f) base
        fun more => post (f.sights c number memory ++ more))
    (panicked : allowed true → ∀ memory,
      Returns c number (unwind ⟨memory, m.world, .unwinding, base⟩ f) base post) :
    Returns c number (m.invoke label occasion) base post := by
  obtain ⟨memory, w, control, _⟩ := m
  subst stack
  obtain ⟨states, memory', panics, ok, path, -, code⟩ := ends_path ends c w (f :: base) memory
  have busy : isIdle (⟨memory, w, .calling label occasion, f :: base⟩ : Machine σ κ) = false := rfl
  -- Nothing is seen before the code of the callback has come to its end.
  have joined : ∀ further : List (Machine σ κ),
      seen c number ⟨memory, w, .calling label occasion, f :: base⟩
        (⟨memory, w, .code (c.react label occasion), f :: base⟩ :: (states ++ further)) =
      seen c number ⟨memory', w, if panics then .unwinding else .returned .unit, f :: base⟩
        further := fun further => by
    rw [seen, path.seen_append, seen_of_code code]
    rfl
  cases panics with
  | false =>
    obtain ⟨further, memory'', r, after, path', holds⟩ := back ok memory'
    refine ⟨_, memory'', r, after, .step busy (path.append (.step rfl path')), ?_⟩
    exact (congrArg (post · r after) (joined _)).mpr holds
  | true =>
    obtain ⟨further, memory'', r, after, path', holds⟩ := panicked ok memory'
    refine ⟨_, memory'', r, after, .step busy (path.append (.step rfl path')), ?_⟩
    exact (congrArg (post · r after) (joined _)).mpr holds

/-- A callback that does not panic is called above a frame. -/
theorem Returns.invoke {label : κ} {occasion : Occasion}
    (ends : Code.Ends (· = false) (c.react label occasion)) (stack : m.stack = f :: base)
    (back : ∀ memory,
      Returns c number (resume c ⟨memory, m.world, .returned .unit, base⟩ .unit f) base
        fun more => post (f.sights c number memory ++ more)) :
    Returns c number (m.invoke label occasion) base post :=
  .call ends stack (fun _ => back) fun panics => absurd panics.symm Bool.false_ne_true

/-- Listeners that only observe are told, and nobody else notices. -/
theorem returns_deliver (observes : c.Observes) (n : Notice) (audience : List (Audience κ))
    (m : Machine σ κ) (stack : m.stack = base) :
    Returns c number (m.deliver n audience) base fun sights reply after =>
      sights = [] ∧ reply = .unit ∧ m.world.Told after := by
  induction audience generalizing m with
  | nil => exact .reply stack ⟨rfl, rfl, .refl _⟩
  | cons first rest ih =>
    -- After each callback the delivery goes on.
    have called : ∀ (label : κ) (occasion : Occasion),
        Code.Ends (fun _ => True) (c.react label occasion) →
        Returns c number ((m.push (.delivering n rest)).invoke label occasion) base
          fun sights reply after => sights = [] ∧ reply = .unit ∧ m.world.Told after := by
      intro label occasion ends
      refine .call (f := .delivering n rest) ends (congrArg _ stack) (fun _ memory => ?_)
        fun _ memory => ?_
      · exact ih ⟨memory, m.world, .returned .unit, base⟩ rfl
      · exact ih ⟨memory, m.world, .unwinding, base⟩ rfl
    -- So it does when there is nobody to be called.
    have passed : ∀ w, m.world.Told w →
        Returns c number (((m.push (.delivering n rest)).withWorld w).reply .unit) base
          fun sights reply after => sights = [] ∧ reply = .unit ∧ m.world.Told after := by
      intro w told
      have first : Returns c number (((m.push (.delivering n rest)).withWorld w).reply .unit)
          (.delivering n rest :: base) fun sights _ after => sights = [] ∧ after = w :=
        .reply (congrArg (List.cons (.delivering n rest)) stack) ⟨rfl, rfl⟩
      refine first.bind ?_
      rintro _ reply after memory ⟨rfl, rfl⟩
      refine (ih ⟨memory, after, .returned reply, base⟩ rfl).mono ?_
      rintro _ _ after' ⟨rfl, rfl, told'⟩
      exact ⟨rfl, rfl, told.trans told'⟩
    cases first with
    | callback label => exact called label _ (observes.listener label n)
    | view about label =>
      rw [deliver]
      split
      · exact called label _ (observes.viewer label)
      · exact passed m.world (.refl _)
    | wait k => exact passed _ ⟨_, rfl⟩

/-- The listeners of sessions are told of something above a frame, and then the frame goes on. -/
theorem Returns.tell (observes : c.Observes) {event : SessionEvent} (stack : m.stack = f :: base)
    (next : ∀ after memory, m.world.Told after →
      Returns c number (resume c ⟨memory, after, .returned .unit, base⟩ .unit f) base
        fun more => post (.told event :: (f.sights c number memory ++ more))) :
    Returns c number (m.tell number (.session event)) base post := by
  have delivers : Returns c number
      ((m.tell number (.session event)).deliver (.session event)
        (m.world.audience number (.session event))) (f :: base) _ :=
    returns_deliver observes _ _ (m.tell number (.session event)) stack
  obtain ⟨states, memory, reply, after, path, silent, rfl, told⟩ := delivers
  obtain ⟨further, memory', r, after', path', holds⟩ := next after memory told
  have busy : (m.tell number (.session event)).isIdle = false :=
    isIdle_of_mem_stack (stack ▸ List.mem_cons_self)
  have goes : (m.tell number (.session event)).step c =
      (m.tell number (.session event)).deliver (.session event)
        (m.world.audience number (.session event)) := step_of_telling rfl c
  refine ⟨_, memory', r, after', .step busy (goes ▸ path.append (.step rfl path')), ?_⟩
  have first : (m.tell number (.session event)).sights c number = [.told event] := if_pos rfl
  rw [seen, goes, path.seen_append, silent, first]
  exact holds

/-! ### Calls of consumer code -/

/-- A call is made, and comes back to the code that has made it. What is seen meanwhile of the
sessions of a tracker is given, and so are the reply and the state in which the code goes on. -/
def Replies (c : Consumer σ κ) (number : Nat) (m : Machine σ κ) (request : Call κ)
    (sights : List (Sight κ)) (reply : Reply) (m' : Machine σ κ) : Prop :=
  ∃ next states, m.control = .code (.call request next) ∧ Path c m states m' ∧
    m'.control = .code (next (some reply)) ∧ m'.stack = m.stack ∧ seen c number m states = sights

/-- How a call comes back to the code that has made it. -/
theorem Returns.replies {request : Call κ} {next : Option Reply → Code σ κ}
    (control : m.control = .code (.call request next))
    (returns : Returns c number ((m.push (.awaiting next)).perform request)
      (.awaiting next :: m.stack) post) :
    ∃ sights reply m', Replies c number m request sights reply m' ∧ post sights reply m'.world := by
  obtain ⟨states, memory, reply, after, path, holds⟩ := returns
  obtain ⟨memory₀, w, _, stack⟩ := m
  subst control
  have back : Path c ⟨memory, after, .returned reply, .awaiting next :: stack⟩ _
      ⟨memory, after, .code (next (some reply)), stack⟩ := .step rfl (.stay _)
  refine ⟨_, reply, _, ⟨next, _, rfl, .step (busy_of_code _) (path.append back), rfl, rfl, rfl⟩, ?_⟩
  -- Neither the code that makes the call nor the one that goes on shows anything.
  have joined : seen c number _ (states ++ [⟨memory, after, .code (next (some reply)), stack⟩]) =
      seen c number _ states := (path.seen_append _).trans (List.append_nil _)
  exact (congrArg (post · reply after) joined).mpr holds

/-- A call that comes back is part of a run. -/
theorem Replies.leads {request : Call κ} {sights : List (Sight κ)} {reply : Reply}
    (replies : Replies c number m request sights reply m') {given : Code σ κ → Prop} :
    Leads c given m m' := by
  obtain ⟨_, states, _, path, _⟩ := replies
  exact ⟨states, path.run⟩

/-- When the code ends as soon as its call has come back, and nothing waits for it, everything that is
seen until there is nothing left to do is seen during the call. -/
theorem Replies.of_done {request : Call κ} {sights : List (Sight κ)} {reply : Reply}
    {m₁ : Machine σ κ} (replies : Replies c number m request sights reply m₁)
    (control : m.control = .code (.call request fun _ => .done)) (stack : m.stack = [])
    (path : Path c m states m') (idle : m'.isIdle = true) :
    m₁ = m'.code .done ∧ m₁.step c = m' ∧ seen c number m states = sights := by
  obtain ⟨next, first, control', path₁, back, same, rfl⟩ := replies
  obtain ⟨_, rfl⟩ := Program.call.inj (Control.code.inj (control'.symm.trans control))
  obtain ⟨memory₁, w₁, _, stack₁⟩ := m₁
  obtain rfl : stack₁ = [] := same.trans stack
  subst back
  have ended : Path c m (first ++ [⟨memory₁, w₁, .returned .unit, []⟩])
      ⟨memory₁, w₁, .returned .unit, []⟩ := path₁.append (.step rfl (.stay _))
  obtain ⟨rfl, rfl⟩ := ended.unique rfl path idle
  exact ⟨rfl, rfl, (path₁.seen_append _).trans (List.append_nil _)⟩

end Machine

end TaskWatch
