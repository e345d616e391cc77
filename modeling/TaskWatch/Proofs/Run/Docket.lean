import TaskWatch.Proofs.Run.Stir
import TaskWatch.Proofs.Session.Ledger

/-!
# Changes that are being made known

A store that has changed tells its listeners at once. A session that is created is made known at
once, too, and one that has ended either at once or after the callback for stopped sessions has
returned. While this goes on, callbacks and listeners may bring about further changes, which are
made known first. A docket is kept beside the run. It lists the changes that are being made known,
the innermost first, with the time of each change, who is still to be told, and the frames above
which they are told.

## Main definitions

* `Matter` — a change that is being made known.
* `Docket.Fits` — the matters of a docket wait in the frames of the machine.
* `Matter.Goes` — what a move can do to a change that is being made known.
* `Docket.Advance` — what a move can do to the docket, and what begins to be made known then.

## Main results

* `Machine.Move.advances` — every move does one of these things.
-/

namespace TaskWatch

variable {σ κ : Type}

/-- Whether a change is being made known in a frame. -/
def Frame.isMatter : Frame σ κ → Bool
  | announcing _ _ _ | delivering _ _ => true
  | _ => false

/-- A change that is being made known. -/
structure Matter (σ κ : Type) where
  /-- The number of the move that has made it. -/
  time : Nat
  tracker : Nat
  notice : Notice
  /-- Who is still to be told. This is not known before the callback for stopped sessions has
  returned. -/
  audience : Option (List (Audience κ))
  /-- The frames above which they are told. -/
  foot : List (Frame σ κ)

/-- A matter waits in a frame above some others. -/
inductive Matter.Sits : Matter σ κ → Frame σ κ → List (Frame σ κ) → Prop
  /-- The callback for stopped sessions runs first. -/
  | announcing {time number id reason below} :
      Sits ⟨time, number, .session (.stopped id reason), none, .answering (.flag true) :: below⟩
        (.announcing number id reason) below
  /-- Listeners are being told. -/
  | delivering {time number n audience foot} :
      Sits ⟨time, number, n, some audience, foot⟩ (.delivering n audience) foot

/-- What a move can do to a change that goes on being made known. -/
inductive Matter.Goes (m' : Machine σ κ) : Matter σ κ → Matter σ κ → Prop
  /-- Nothing. -/
  | stays {D} : Goes m' D D
  /-- The next listener is told. -/
  | told {D a rest} (audience : D.audience = some (a :: rest)) :
      Goes m' D { D with audience := some rest }
  /-- The callback for stopped sessions has returned. -/
  | proceeds {D} (waits : D.audience = none) :
      Goes m' D { D with audience := some (m'.world.audience D.tracker D.notice) }

theorem Matter.Goes.foot {m' : Machine σ κ} {D D' : Matter σ κ} (goes : D.Goes m' D') :
    D'.foot = D.foot := by
  cases goes <;> rfl

/-- Changes that are being made known, the innermost first. -/
abbrev Docket (σ κ : Type) : Type := List (Matter σ κ)

namespace Machine

/-- A change begins to be made known above certain frames: listeners are about to be told, or the
callback for stopped sessions is about to run first. -/
inductive Opens (foot : List (Frame σ κ)) (m : Machine σ κ) : Prop
  | telling {number n} (control : m.control = .telling number n) (stack : m.stack = foot)
  | ending {label number id reason below}
      (control : m.control = .calling label (.stopped id reason))
      (stack : m.stack = .announcing number id reason :: below)
      (rest : foot = .answering (.flag true) :: below)

/-- A change is being made known above certain frames. -/
inductive Deals (foot : List (Frame σ κ)) (m : Machine σ κ) : Prop
  /-- Listeners are about to be told. -/
  | telling {number n} (control : m.control = .telling number n) (stack : m.stack = foot)
  /-- Listeners are being told. -/
  | delivering (above) {n rest} (stack : m.stack = above ++ .delivering n rest :: foot)
  /-- The callback for stopped sessions runs first. -/
  | announcing (above) {number id reason below}
      (stack : m.stack = above ++ .announcing number id reason :: below)
      (rest : foot = .answering (.flag true) :: below)

theorem Opens.deals {foot : List (Frame σ κ)} {m : Machine σ κ} (opens : m.Opens foot) :
    m.Deals foot := by
  cases opens with
  | telling control stack => exact .telling control stack
  | ending control stack rest => exact .announcing [] stack rest

end Machine

namespace Docket

/-- The matters of a docket wait in these frames, and nothing else does. -/
inductive Lies : Docket σ κ → List (Frame σ κ) → Prop
  | none {stack} (plain : ∀ f ∈ stack, f.isMatter = false) : Lies [] stack
  | sits (above) {D docket f below} (plain : ∀ g ∈ above, g.isMatter = false)
      (sits : Matter.Sits D f below) (rest : Lies docket below) :
      Lies (D :: docket) (above ++ f :: below)

/-- The matters of a docket wait in the frames of a machine. If listeners are about to be told, they
wait as well. -/
inductive Fits (docket : Docket σ κ) (m : Machine σ κ) : Prop
  | telling {time number n rest} (control : m.control = .telling number n)
      (first : docket = ⟨time, number, n, some (m.world.audience number n), m.stack⟩ :: rest)
      (lies : Lies rest m.stack)
  | waiting (control : ∀ number n, m.control ≠ .telling number n) (lies : Lies docket m.stack)

/-- What a move can do to a docket, and what begins to be made known then, by which tracker. -/
inductive Advance (time : Nat) (docket : Docket σ κ) (m : Machine σ κ) :
    Option (Nat × Notice) → Docket σ κ → Machine σ κ → Prop
  /-- Nothing changes that is to be made known. -/
  | still {m'} (silent : m'.report? = none) (unheard : m'.control.isHearing = false)
      (retains : m.world.Retains m'.world) : Advance time docket m none docket m'
  /-- The next listener is told. -/
  | told {m' D a rest others} (first : docket = D :: others)
      (audience : D.audience = some (a :: rest))
      (goes : m' = m.below.deliver D.notice (a :: rest)) (foot : D.foot = m.below.stack) :
      Advance time docket m none ({ D with audience := some rest } :: others) m'
  /-- All listeners have been told. -/
  | served {m' D others} (first : docket = D :: others) (audience : D.audience = some [])
      (goes : m' = m.below.reply .unit) : Advance time docket m none others m'
  /-- The callback for stopped sessions has returned, and listeners are about to be told. -/
  | proceeds {m' D others id reason} (first : docket = D :: others) (waits : D.audience = none)
      (notice : D.notice = .session (.stopped id reason))
      (control : m'.control = .telling D.tracker D.notice) (world : m'.world = m.world) :
      Advance time docket m none
        ({ D with audience := some (m'.world.audience D.tracker D.notice) } :: others) m'
  /-- The callback for stopped sessions has panicked. -/
  | loses {m' D others id reason} (first : docket = D :: others) (waits : D.audience = none)
      (notice : D.notice = .session (.stopped id reason)) (control : m.control = .unwinding)
      (top : m.stack.head? = some (.announcing D.tracker id reason))
      (goes : m' = { m.below with control := .unwinding }) : Advance time docket m none others m'
  /-- A collection has changed. -/
  | writes {m' number event} (control : m'.control = .telling number (.store event))
      (retains : m.world.Retains m'.world) :
      Advance time docket m (some (number, .store event))
        (⟨time, number, .store event, some (m'.world.audience number (.store event)), m'.stack⟩ ::
          docket) m'
  /-- A session has been created. -/
  | began {m' S} (control : m'.control = .telling S.tracker (.session (.started S.id)))
      (begins : m.world.Begins S m'.world) :
      Advance time docket m (some (S.tracker, .session (.started S.id)))
        (⟨time, S.tracker, .session (.started S.id),
          some (m'.world.audience S.tracker (.session (.started S.id))), m'.stack⟩ :: docket) m'
  /-- A session has ended. -/
  | ended {m' S reason}
      (control : m'.control = .telling S.tracker (.session (.stopped S.id reason)))
      (ends : m.world.Ends S m'.world) :
      Advance time docket m (some (S.tracker, .session (.stopped S.id reason)))
        (⟨time, S.tracker, .session (.stopped S.id reason),
          some (m'.world.audience S.tracker (.session (.stopped S.id reason))), m'.stack⟩ ::
          docket) m'
  /-- A session has ended, and the callback for this runs first. -/
  | ending {m' S reason label below} (control : m'.control = .calling label (.stopped S.id reason))
      (stack : m'.stack = .announcing S.tracker S.id reason :: below)
      (ends : m.world.Ends S m'.world) :
      Advance time docket m (some (S.tracker, .session (.stopped S.id reason)))
        (⟨time, S.tracker, .session (.stopped S.id reason), none,
          .answering (.flag true) :: below⟩ :: docket) m'

variable {docket : Docket σ κ} {stack : List (Frame σ κ)} {f : Frame σ κ} {m m' : Machine σ κ}

theorem Lies.append (new : List (Frame σ κ)) (plain : ∀ f ∈ new, f.isMatter = false)
    (lies : docket.Lies stack) : docket.Lies (new ++ stack) := by
  cases lies with
  | none others => exact .none fun f mem => (List.mem_append.mp mem).elim (plain f) (others f)
  | sits above others sits rest =>
    rw [← List.append_assoc]
    exact .sits _ (fun f mem => (List.mem_append.mp mem).elim (plain f) (others f)) sits rest

theorem Lies.of_cons (lies : docket.Lies (f :: stack)) (plain : f.isMatter = false) :
    docket.Lies stack := by
  generalize whole : f :: stack = frames at lies
  cases lies with
  | none others =>
    subst whole
    exact .none fun g mem => others g (List.mem_cons_of_mem _ mem)
  | @sits above D docket g below others sits rest =>
    cases above with
    | nil =>
      obtain ⟨rfl, rfl⟩ := List.cons.inj whole
      cases sits <;> simp [Frame.isMatter] at plain
    | cons h above =>
      obtain ⟨rfl, rfl⟩ := List.cons.inj whole
      exact .sits above (fun g mem => others g (List.mem_cons_of_mem _ mem)) sits rest

/-- The innermost matter waits in the uppermost of these frames. -/
theorem Lies.uncons (lies : docket.Lies (f :: stack)) (matter : f.isMatter = true) :
    ∃ D others, docket = D :: others ∧ Matter.Sits D f stack ∧ Lies others stack := by
  generalize whole : f :: stack = frames at lies
  cases lies with
  | none plain =>
    subst whole
    simp [plain f List.mem_cons_self] at matter
  | @sits above D docket g below plain sits rest =>
    cases above with
    | nil =>
      obtain ⟨rfl, rfl⟩ := List.cons.inj whole
      exact ⟨D, docket, rfl, sits, rest⟩
    | cons h above =>
      obtain ⟨rfl, _⟩ := List.cons.inj whole
      simp [plain f List.mem_cons_self] at matter

/-- Every matter waits in a frame. -/
theorem Lies.exists_sits (lies : docket.Lies stack) {D : Matter σ κ} (mem : D ∈ docket) :
    ∃ above f below, stack = above ++ f :: below ∧ Matter.Sits D f below := by
  induction lies with
  | none plain => exact absurd mem List.not_mem_nil
  | @sits above D' docket f below plain sits rest ih =>
    rcases List.mem_cons.mp mem with rfl | mem
    · exact ⟨above, f, below, rfl, sits⟩
    · obtain ⟨above', g, below', rfl, sits'⟩ := ih mem
      exact ⟨above ++ f :: above', g, below', by rw [List.append_assoc]; rfl, sits'⟩

/-- The changes on a docket are being made known. -/
theorem Lies.deals (lies : docket.Lies m.stack) {D : Matter σ κ} (mem : D ∈ docket) :
    m.Deals D.foot := by
  obtain ⟨above, f, below, stack, sits⟩ := lies.exists_sits mem
  cases sits with
  | announcing => exact .announcing above stack rfl
  | delivering => exact .delivering above stack

theorem Fits.deals (fits : docket.Fits m) {D : Matter σ κ} (mem : D ∈ docket) : m.Deals D.foot := by
  cases fits with
  | telling control first lies =>
    subst first
    rcases List.mem_cons.mp mem with rfl | mem
    · exact .telling control rfl
    · exact lies.deals mem
  | waiting _ lies => exact lies.deals mem

/-- A matter on the docket was on it before, or the change has just begun to be made known. -/
theorem Advance.matters {time : Nat} {news : Option (Nat × Notice)} {docket' : Docket σ κ}
    (advance : docket.Advance time m news docket' m') {D' : Matter σ κ} (mem : D' ∈ docket') :
    (∃ D ∈ docket, D.Goes m' D') ∨ D'.time = time ∧ m'.Opens D'.foot ∧
      (D'.audience = none ∨ D'.audience = some (m'.world.audience D'.tracker D'.notice)) := by
  have old : ∀ {others : Docket σ κ} {D}, docket = D :: others → D' ∈ others →
      ∃ D ∈ docket, D.Goes m' D' := fun first mem =>
    ⟨D', first ▸ List.mem_cons_of_mem _ mem, .stays⟩
  cases advance with
  | still silent unheard retains => exact .inl ⟨D', mem, .stays⟩
  | @told _ D a rest others first audience goes foot =>
    rcases List.mem_cons.mp mem with rfl | mem
    · exact .inl ⟨D, first ▸ List.mem_cons_self, .told audience⟩
    · exact .inl (old first mem)
  | served first audience goes => exact .inl (old first mem)
  | @proceeds _ D others id reason first waits notice control world =>
    rcases List.mem_cons.mp mem with rfl | mem
    · exact .inl ⟨D, first ▸ List.mem_cons_self, .proceeds waits⟩
    · exact .inl (old first mem)
  | loses first waits notice control top goes => exact .inl (old first mem)
  | writes control retains =>
    rcases List.mem_cons.mp mem with rfl | mem
    · exact .inr ⟨rfl, .telling control rfl, .inr rfl⟩
    · exact .inl ⟨D', mem, .stays⟩
  | began control begins =>
    rcases List.mem_cons.mp mem with rfl | mem
    · exact .inr ⟨rfl, .telling control rfl, .inr rfl⟩
    · exact .inl ⟨D', mem, .stays⟩
  | ended control ends =>
    rcases List.mem_cons.mp mem with rfl | mem
    · exact .inr ⟨rfl, .telling control rfl, .inr rfl⟩
    · exact .inl ⟨D', mem, .stays⟩
  | ending control stack ends =>
    rcases List.mem_cons.mp mem with rfl | mem
    · exact .inr ⟨rfl, .ending control stack rfl, .inl rfl⟩
    · exact .inl ⟨D', mem, .stays⟩

theorem Fits.lies (fits : docket.Fits m) (control : ∀ number n, m.control ≠ .telling number n) :
    docket.Lies m.stack := by
  cases fits with
  | telling telling first lies => exact absurd telling (control _ _)
  | waiting _ lies => exact lies

/-- When the machine has nothing to do, nothing is being made known. -/
theorem Fits.eq_nil (fits : docket.Fits m) (idle : m.isIdle = true) : docket = [] := by
  have silent : ∀ number n, m.control ≠ .telling number n := fun number n telling => by
    rw [Machine.isIdle, telling] at idle
    simp at idle
  have lies := fits.lies silent
  rw [Machine.stack_of_isIdle idle] at lies
  refine List.eq_nil_iff_forall_not_mem.mpr fun D mem => ?_
  obtain ⟨above, f, below, stack, _⟩ := lies.exists_sits mem
  simp at stack

/-- When a machine takes a frame off the stack in which nothing waits, the docket stays. -/
theorem Fits.below (fits : docket.Fits m) (control : ∀ number n, m.control ≠ .telling number n)
    (plain : ∀ f ∈ m.taken, f.isMatter = false) : docket.Lies m.below.stack := by
  have lies := fits.lies control
  rw [m.stack_eq] at lies
  generalize m.taken = taken at lies plain
  induction taken with
  | nil => exact lies
  | cons f taken ih =>
    exact ih (lies.of_cons (plain f List.mem_cons_self)) fun g mem =>
      plain g (List.mem_cons_of_mem _ mem)

end Docket

namespace Machine

variable {c : Consumer σ κ} {given : Code σ κ → Prop} {m m' : Machine σ κ} {docket : Docket σ κ}

/-! ### Listeners are told -/

/-- The next listener is told, and the delivery waits for what becomes of it. -/
theorem deliver_uncons (m : Machine σ κ) (n : Notice) (a : Audience κ)
    (rest : List (Audience κ)) :
    (m.deliver n (a :: rest)).stack = .delivering n rest :: m.stack ∧
      ∀ number n', (m.deliver n (a :: rest)).control ≠ .telling number n' := by
  cases a with
  | callback label => exact ⟨rfl, by simp [deliver, invoke]⟩
  | view about label =>
    rw [deliver]
    split
    · exact ⟨rfl, by simp [invoke]⟩
    · exact ⟨rfl, by simp [reply]⟩
  | wait number => exact ⟨rfl, by simp [deliver, reply]⟩

/-- The delivery with which a step goes on is that of the innermost matter. -/
private theorem matter_of_serving {n : Notice} {audience : List (Audience κ)}
    (fits : docket.Fits m) (serving : m.serving? = some (n, audience)) :
    ∃ D others, docket = D :: others ∧ D.audience = some audience ∧ D.notice = n ∧
      D.foot = m.below.stack ∧ Docket.Lies others m.below.stack := by
  cases fits with
  | @telling time number n' rest control first lies =>
    obtain ⟨memory, world, _, stack⟩ := m
    obtain rfl := control
    obtain ⟨rfl, rfl⟩ := Prod.mk.inj (Option.some.inj serving)
    exact ⟨_, _, first, rfl, rfl, rfl, lies⟩
  | waiting silent lies =>
    rw [serving?_of_silent silent] at serving
    obtain ⟨f, top, delivery⟩ := Option.bind_eq_some_iff.mp serving
    obtain ⟨_, stack⟩ := taken_of_mem (List.mem_of_mem_head? top)
    rw [stack] at lies
    cases f with
    | delivering n' rest =>
      obtain ⟨rfl, rfl⟩ := Prod.mk.inj (Option.some.inj delivery)
      obtain ⟨D, others, rfl, sits, below⟩ := lies.uncons rfl
      cases sits with
      | delivering => exact ⟨_, others, rfl, rfl, rfl, rfl, below⟩
    | _ => simp [Frame.delivery?] at delivery

/-- A move that goes on with a delivery tells the next listener, if there is one. -/
private theorem docket_of_serving {n : Notice} {audience : List (Audience κ)}
    (fits : docket.Fits m) (serving : m.serving? = some (n, audience))
    (goes : m' = m.below.deliver n audience) (time : Nat) :
    ∃ news docket', docket.Advance time m news docket' m' ∧ Docket.Fits docket' m' := by
  obtain ⟨D, others, first, known, rfl, foot, lies⟩ := matter_of_serving fits serving
  cases audience with
  | nil =>
    refine ⟨none, others, .served first known goes, .waiting ?_ ?_⟩
    · rw [goes]
      exact fun number n => by simp [deliver, reply]
    · rw [goes]
      exact lies
  | cons a rest =>
    obtain ⟨stack, silent⟩ := m.below.deliver_uncons D.notice a rest
    refine ⟨none, _, .told first known goes foot, .waiting ?_ ?_⟩
    · rw [goes]
      exact silent
    · obtain ⟨time, number, notice, _, below⟩ := D
      obtain rfl : below = m.below.stack := foot
      rw [goes]
      exact stack ▸ .sits [] (by simp) .delivering lies

/-! ### Something changes -/

private theorem isMatter_of_plain {f : Frame σ κ} (undelivered : f.isDelivery = false)
    (plain : f.isNews = false) : f.isMatter = false := by
  cases f with
  | delivering n rest => simp [Frame.isDelivery] at undelivered
  | announcing number id reason => simp [Frame.isNews, Frame.isErrand] at plain
  | _ => rfl

theorem control_of_report? {number : Nat} {event : StoreEvent}
    (report : m.report? = some (number, event)) : m.control = .telling number (.store event) := by
  rw [report?] at report
  split at report
  · next control =>
    obtain ⟨rfl, rfl⟩ := Prod.mk.inj (Option.some.inj report)
    exact control
  · simp at report

theorem not_telling {number : Nat} {n : Notice} (silent : m.report? = none)
    (quiet : m.control.isNews = false) : m.control ≠ .telling number n := fun telling => by
  cases n with
  | store event => simp [report?, telling] at silent
  | session event => simp [telling, Control.isNews] at quiet

/-- A move that goes on with nothing that is being made known changes a collection, or the sessions,
or neither. -/
private theorem docket_of_turnover {m₀ m₁ : Machine σ κ} {added : Nat → TaskId → Prop}
    {asked : Option (Call κ)} (turnover : Turnover added m₀ m') (stirs : Stirs asked m₁ m')
    (stack : m₁.stack = m₀.stack) (trackers : m₀.world.trackers = m.world.trackers)
    (serial : m₀.world.nextSerial = m.world.nextSerial) (lies : docket.Lies m₀.stack) (time : Nat) :
    ∃ news docket', docket.Advance time m news docket' m' ∧ Docket.Fits docket' m' := by
  have tracker : ∀ k, m₀.world.tracker k = m.world.tracker k := fun k => by
    rw [World.tracker, World.tracker, trackers]
  obtain ⟨new, pushed, undelivered⟩ := stirs.stack
  rw [stack] at pushed
  -- No change is made known in the frames that lie under the uppermost one.
  have below : ∀ {f : Frame σ κ} {new' : List (Frame σ κ)}, m'.stack = f :: (new' ++ m₀.stack) →
      (∀ g ∈ new', g.isNews = false) → docket.Lies (new' ++ m₀.stack) := by
    intro f new' pushed' plain
    have whole : new = f :: new' := List.append_cancel_right (pushed.symm.trans pushed')
    exact lies.append new' fun g mem => isMatter_of_plain
      (undelivered g (whole ▸ List.mem_cons_of_mem _ mem)) (plain g mem)
  have above : ∀ {f : Frame σ κ} {new' : List (Frame σ κ)}, m'.stack = f :: (new' ++ m₀.stack) →
      (∀ g ∈ new', g.isNews = false) → f.isMatter = false → docket.Lies m'.stack := by
    intro f new' pushed' plain other
    rw [pushed']
    exact (below pushed' plain).append [f] (by simpa using other)
  cases turnover with
  | still new' pushed' plain control does same records =>
    obtain rfl : new' = new := List.append_cancel_right (pushed'.symm.trans pushed)
    have lies' : docket.Lies m'.stack := pushed ▸ lies.append new' fun f mem =>
      isMatter_of_plain (undelivered f mem) (plain f mem)
    have retains : m.world.Retains m'.world := by
      have retains := does.retains same
      exact ⟨fun k id => by rw [retains.sessions, tracker], retains.serials.trans serial⟩
    cases report : m'.report? with
    | none =>
      exact ⟨none, docket, .still report stirs.unheard retains,
        .waiting (fun number n => not_telling report control) lies'⟩
    | some told =>
      obtain ⟨number, event⟩ := told
      have telling := control_of_report? report
      exact ⟨_, _, .writes telling retains, .telling telling rfl lies'⟩
  | @began new' s pushed' plain control does given =>
    have begins : m.world.Begins s.name m'.world := by
      have begins := does.begins (S := s.name) given
      refine ⟨?_, fun k id => ?_, given.trans serial, begins.serials.trans (congrArg _ serial)⟩
      · rw [← tracker]
        exact begins.fresh
      · rw [begins.sessions, tracker, trackers]
    exact ⟨_, _, .began (S := s.name) control begins,
      .telling control rfl (above pushed' plain rfl)⟩
  | @ended new' S reason pushed' plain control does lived =>
    have ends := (does.ends lived).of_trackers trackers serial
    exact ⟨_, _, .ended control ends, .telling control rfl (above pushed' plain rfl)⟩
  | @ending new' S reason label pushed' plain control does lived =>
    have ends := (does.ends lived).of_trackers trackers serial
    have others := below pushed' plain
    refine ⟨_, _, .ending control pushed' ends, .waiting (by simp [control]) ?_⟩
    rw [pushed']
    exact .sits [] (by simp) .announcing others

/-! ### Moves -/

private theorem of_not_serving (nothing : m.serving? = none) :
    (∀ number n, m.control ≠ .telling number n) ∧ ∀ f ∈ m.taken, f.isDelivery = false := by
  have silent : ∀ number n, m.control ≠ .telling number n := fun number n telling => by
    simp [serving?, telling] at nothing
  refine ⟨silent, fun f mem => ?_⟩
  rw [serving?_of_silent silent, (taken_of_mem mem).1] at nothing
  cases f with
  | delivering n rest => simp [Frame.delivery?] at nothing
  | _ => rfl

/-- A step goes on with the end of a session: the callback for it has returned or panicked. -/
private theorem docket_of_announcing {number : Nat} {id : TaskId} {reason : StopReason}
    (fits : docket.Fits m) (mem : .announcing number id reason ∈ m.taken) (c : Consumer σ κ)
    (time : Nat) :
    ∃ news docket', docket.Advance time m news docket' (m.step c) ∧
      Docket.Fits docket' (m.step c) := by
  obtain ⟨memory, world, control, stack⟩ := m
  cases stack with
  | nil => cases control <;> simp [taken] at mem
  | cons f rest =>
    cases control with
    | returned r =>
      obtain rfl := List.mem_singleton.mp mem
      obtain ⟨D, others, rfl, sits, lies⟩ := (fits.lies (by simp)).uncons rfl
      cases sits with
      | announcing =>
        refine ⟨none, _, .proceeds rfl rfl rfl rfl rfl, .telling rfl rfl ?_⟩
        exact lies.append [.answering (.flag true)] (by simp [Frame.isMatter])
    | unwinding =>
      obtain rfl := List.mem_singleton.mp mem
      obtain ⟨D, others, rfl, sits, lies⟩ := (fits.lies (by simp)).uncons rfl
      cases sits with
      | announcing =>
        exact ⟨none, others, .loses rfl rfl rfl rfl rfl rfl, .waiting (by simp [step, unwind]) lies⟩
    | _ => simp [taken] at mem

/-- Every move does one of the things that a move can do to a docket, and the docket fits the
machine again. -/
theorem Move.advances (move : Move c given m m') (fits : docket.Fits m) (time : Nat) :
    ∃ news docket', docket.Advance time m news docket' m' ∧ Docket.Fits docket' m' := by
  rcases move.serves_or_stirs with ⟨n, audience, serving, goes⟩ | ⟨nothing, stirs⟩
  · exact docket_of_serving fits serving goes time
  obtain ⟨silent, undelivered⟩ := of_not_serving nothing
  by_cases idle : m.isIdle = true
  · obtain ⟨m₀, turnover, trackers, serial, stack⟩ := move.turnover idle
    have empty := stack_of_isIdle idle
    have below : m.below.stack = m₀.stack := by
      have whole := m.stack_eq
      rw [empty, List.nil_eq_append_iff] at whole
      rw [whole.2, stack, empty]
    refine docket_of_turnover turnover stirs below trackers serial ?_ time
    rw [stack]
    exact fits.lies silent
  · obtain rfl := move.eq_step (Bool.eq_false_iff.mpr idle)
    by_cases announcing : ∃ number id reason, .announcing number id reason ∈ m.taken
    · obtain ⟨number, id, reason, mem⟩ := announcing
      exact docket_of_announcing fits mem c time
    · have plain : ∀ f ∈ m.taken, f.isErrand = false ∧ f.isMatter = false := fun f mem => by
        cases f with
        | announcing number id reason => exact absurd ⟨number, id, reason, mem⟩ announcing
        | delivering n rest => simpa [Frame.isDelivery] using undelivered _ mem
        | _ => exact ⟨rfl, rfl⟩
      have turnover := step_turnover (fun number event => silent number (.session event))
        (fun f mem => (plain f mem).1) c
      exact docket_of_turnover turnover stirs rfl (by rw [world_below]) (by rw [world_below])
        (fits.below silent fun f mem => (plain f mem).2) time

/-- There is a docket for every state. -/
theorem Reachable.docketed (reach : Reachable c m) : ∃ docket : Docket σ κ, docket.Fits m := by
  refine reach.induction (motive := fun m => ∃ docket : Docket σ κ, docket.Fits m)
    (fun memory storage wallClock hasExecutor => ?_) fun m m' ⟨docket, fits⟩ move => ?_
  · exact ⟨[], .waiting (by simp [idle]) (.none fun f mem => absurd mem List.not_mem_nil)⟩
  · obtain ⟨_, docket', _, fits'⟩ := move.advances fits 0
    exact ⟨docket', fits'⟩

end Machine

end TaskWatch
