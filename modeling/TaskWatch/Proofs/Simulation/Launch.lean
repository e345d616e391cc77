import TaskWatch.Proofs.Run.Waiting
import TaskWatch.Proofs.Session.Quiescence
import TaskWatch.Simulation.Run

/-!
# Launching simulated jobs

The callbacks of a simulation only observe, so launching its jobs comes to an end. Then every job is
recorded as queued and has a session that will get its answers, nothing has been called that counts,
and other tasks are as they were.

## Main definitions

* `Simulation.backend` — what the fetchers of a simulation answer.
* `Simulation.Launched` — jobs have been tracked one after the other.

## Main results

* `Machine.track_lands` — a record is kept and polled for whose draft does not say when it was made.
* `Simulation.launch_lands` — what comes of launching jobs.
-/

namespace TaskWatch

variable {σ κ : Type}

namespace Machine

variable {c : Consumer σ κ} {b : Backend κ} {number : Nat} {m : Machine σ κ} {memory : σ}
  {w w' : World κ} {base : List (Frame σ κ)} {post post' : Outcome κ}

/-! ### Code that makes calls -/

/-- A step of which nobody sees anything. -/
theorem Lands.step (busy : m.isIdle = false) (silent : ∀ id, m.control.shows id = [])
    (lands : Lands c number m.world (m.step c) base post) : Lands c number m.world m base post := by
  obtain ⟨states, memory, reply, after, path, holds⟩ := lands
  refine ⟨_, memory, reply, after, .step busy path, ?_⟩
  simpa [glimpses, shown, silent, World.change_self] using holds

/-- A call is made, and the code goes on with the reply. -/
theorem Lands.require {request : Call κ} {next : Reply → Code σ κ}
    (calls : ∀ base, Lands c number w
      (perform ⟨memory, w, .code (.require request next), base⟩ request) base post')
    (goesOn : ∀ seen reply after memory, post' seen reply after →
      Lands c number after ⟨memory, after, .code (next reply), base⟩ base
        fun seen' => post fun id => seen id ++ seen' id) :
    Lands c number w ⟨memory, w, .code (.require request next), base⟩ base post :=
  .step (busy_of_code _) (fun _ => rfl) ((calls _).bind goesOn)

/-- Something that nobody notices has been done before. -/
theorem Lands.of_near (near : w.Near w') (lands : Lands c number w' m base post) :
    Lands c number w m base post := by
  have same : ∀ id,
      World.change number id w m.world = World.change number id w' m.world := fun id => by
    rw [World.change, World.change, near.record]
  simpa only [Lands, same] using lands

/-- A record is kept and polled for whose draft does not say when it was made. -/
theorem track_lands (obeys : c.Obeys b) (settled : m.world.Settled number) {draft : Draft}
    (undated : draft.createdAt = none) (fetcher : κ) :
    ∃ now, Calls c number (fun _ => True) m.world (m.perform (.track number draft fetcher)) m.stack
      fun id F => if draft.id = id then F.tracked id (draft.stamped now) fetcher else F.still := by
  obtain ⟨now, made⟩ : ∃ now, now = Instant.ofNanos m.world.wallClock := ⟨_, rfl⟩
  obtain ⟨dated, same⟩ : ∃ dated, dated = { draft with createdAt := some now } := ⟨_, rfl⟩
  obtain ⟨w, later⟩ : ∃ w, w = (m.world.stampDraft draft).2 := ⟨_, rfl⟩
  have near : m.world.Near w := later ▸ m.world.near_stampDraft draft
  have task : dated.stamped .epoch = draft.stamped now := by simp [same, Draft.stamped, undated]
  -- It is as if the draft had been dated when the clock was read.
  have goes : m.perform (.track number draft fetcher) =
      (m.withWorld w).perform (.track number dated fetcher) := by
    have given : dated.createdAt.isSome = true := by rw [same]; rfl
    rw [perform, perform, world_withWorld, stampDraft_given given, task, later, World.stampDraft, undated,
      made]
    rfl
  have on : (Call.track number dated fetcher).IsOn number := ⟨rfl, by rw [same]; rfl⟩
  have lands := perform_lands (m := m.withWorld w) obeys (settled.near near) on
  refine ⟨now, goes ▸ Lands.of_near near (lands.mono fun seen reply after unfolds => ?_)⟩
  have unseen : Unfolds number (fun _ => True) m.world (fun _ F => F.still) (fun _ => []) w :=
    .of_near settled.toTidy near trivial fun _ => rfl
  refine (unseen.trans (unfolds.mono fun _ _ => trivial)).congr fun id F _ => ?_
  have own : dated.id = draft.id := by rw [same]
  rw [← task, ← own]
  by_cases here : dated.id = id <;>
    simp [Facet.called, Call.subject?, here, Facet.still, Facet.Next.after]

end Machine

namespace Simulation

/-- What the fetchers of a simulation answer. -/
def backend : Backend Label where
  progress label request turn := some (proceed label request turn {})
  supply _ _ := none

theorem consumer_obeys : consumer.Obeys backend where
  callback label occasion _ _ := by cases label <;> cases occasion <;> exact rfl
  fetching label request turn := by cases label <;> exact rfl
  proceed label request turn progress same memory := by
    cases label <;> exact Option.some.inj same
  dropped label request := by cases label <;> trivial
  supply factory task memory := rfl

/-- Callbacks and fetchers print and count, and nothing else. -/
theorem consumer_isPassive : consumer.IsPassive := by
  intro label occasion
  cases label <;> cases occasion <;> exact rfl

/-- A fetcher that goes through a plan answers with its answers, each at once. -/
theorem backend_answers (p : JobPlan) :
    backend.Answers 0 (.backend p.answers) p.id 0 p.answers := by
  intro k answer there
  refine ⟨⟨[], some answer⟩, rfl, Nat.le_refl 0, fun turn => ?_⟩
  have found : JobPlan.answer p.answers (0 + k + 1) = answer := by
    rw [JobPlan.answer, Nat.zero_add, Nat.add_sub_cancel, List.getD_eq_getElem?_getD, there]
    rfl
  exact congrArg (fun answer => some (Progress.answer answer)) found

theorem backend_isPrompt : backend.IsPrompt := by
  intro label request turn
  cases label <;> simp [backend, proceed]

open Machine

variable {number : Nat} {plans : List JobPlan} {settings : Settings Label} {w w₁ w' : World Label}
  {seen seen' : TaskId → List (Glimpse Label)} {memory : Console} {base : List (Frame Console Label)}

/-- A job that has just been tracked. -/
def begun (F : Facet Label) (settings : Settings Label) (p : JobPlan) (now : Instant) : Facet Label :=
  { F with
    settings
    record := some (p.draft.stamped now)
    session := some (⟨.backend p.answers, none, 0⟩, .fresh) }

/-- Jobs have been tracked one after the other by a tracker that has certain settings now, and nothing
has been called for them or for other tasks. -/
structure Launched (number : Nat) (settings : Settings Label) (plans : List JobPlan) (w : World Label)
    (seen : TaskId → List (Glimpse Label)) (w' : World Label) : Prop where
  settled : w'.Settled number
  configured : (w'.tracker number).settings = settings
  jobs : ∀ p ∈ plans, ∀ F, w.Shows number p.id F → ∃ now,
    w'.Shows number p.id (begun F settings p now) ∧ Glimpse.callsIn (seen p.id) = []
  others : ∀ id F, id ∉ plans.map JobPlan.id → w.Shows number id F →
    w'.Shows number id { F with settings } ∧ Glimpse.callsIn (seen id) = []

theorem isTerminal_draft (p : JobPlan) (now : Instant) :
    (p.draft.stamped now).isTerminal = false := rfl

/-- A job is tracked, and then the others are. -/
theorem Launched.cons {p : JobPlan} {now : Instant}
    (first : ∀ F, w.Shows number p.id F →
      w₁.Shows number p.id (begun F settings p now) ∧ Glimpse.callsIn (seen p.id) = [])
    (elsewhere : ∀ id F, id ≠ p.id → w.Shows number id F → w₁.Shows number id F ∧ seen id = [])
    (new : p.id ∉ plans.map JobPlan.id) (rest : Launched number settings plans w₁ seen' w') :
    Launched number settings (p :: plans) w (fun id => seen id ++ seen' id) w' where
  settled := rest.settled
  configured := rest.configured
  jobs q mem F shows := by
    rcases List.mem_cons.mp mem with rfl | mem
    · obtain ⟨shows₁, silent⟩ := first F shows
      obtain ⟨shows', silent'⟩ := rest.others q.id _ new shows₁
      exact ⟨now, shows', by rw [Glimpse.callsIn_append, silent, silent']; rfl⟩
    · have other : q.id ≠ p.id := fun here => new (here ▸ List.mem_map_of_mem mem)
      obtain ⟨shows₁, silent⟩ := elsewhere q.id F other shows
      obtain ⟨now, shows', silent'⟩ := rest.jobs q mem F shows₁
      exact ⟨now, shows', by rw [silent, List.nil_append, silent']⟩
  others id F out shows := by
    obtain ⟨other, out⟩ := not_or.mp (mt List.mem_cons.mpr out)
    obtain ⟨shows₁, silent⟩ := elsewhere id F other shows
    obtain ⟨shows', silent'⟩ := rest.others id F out shows₁
    exact ⟨shows', by rw [silent, List.nil_append, silent']⟩

theorem Launched.nil (settled : w.Settled number) (same : (w.tracker number).settings = settings)
    (silent : ∀ id, Glimpse.callsIn (seen id) = []) : Launched number settings [] w seen w where
  settled := settled
  configured := same
  jobs _ mem := absurd mem List.not_mem_nil
  others id F _ shows := by
    rw [← same, shows.settings]
    exact ⟨shows, silent id⟩

/-- A job that nobody polls for is tracked. -/
theorem job_lands {p : JobPlan} {control : Control Console Label} (settled : w.Settled number)
    (same : (w.tracker number).settings = settings)
    (free : ∀ F, w.Shows number p.id F → F.session = none) :
    Lands consumer number w
      (perform ⟨memory, w, control, base⟩ (.track number p.draft (.backend p.answers))) base
      fun seen _ after => after.Settled number ∧ ∃ now,
        (∀ F, w.Shows number p.id F →
          after.Shows number p.id (begun F settings p now) ∧ Glimpse.callsIn (seen p.id) = []) ∧
        ∀ id F, id ≠ p.id → w.Shows number id F → after.Shows number id F ∧ seen id = [] := by
  obtain ⟨now, calls⟩ := track_lands (m := ⟨memory, w, control, base⟩) consumer_obeys settled
    (rfl : p.draft.createdAt = none) (.backend p.answers)
  refine calls.mono fun seen reply after unfolds => ⟨unfolds.settled settled, now, ?_, ?_⟩
  · intro F shows
    obtain ⟨shown, told⟩ := unfolds.shows p.id F shows
    obtain ⟨state, silent⟩ := F.tracked_eq p.id (free F shows) (isTerminal_draft p now)
      (.backend p.answers)
    have own : p.draft.id = p.id := rfl
    rw [if_pos own] at shown told
    rw [state] at shown
    rw [begun, ← same, shows.settings]
    exact ⟨shown, told ▸ silent⟩
  · intro id F other shows
    have both := unfolds.shows id F shows
    have foreign : p.draft.id ≠ id := Ne.symm other
    rwa [if_neg foreign] at both

/-- Jobs that nobody polls for are tracked one after the other. -/
theorem submitEach_lands (settled : w.Settled number) (same : (w.tracker number).settings = settings)
    (distinct : (plans.map JobPlan.id).Nodup)
    (free : ∀ p ∈ plans, ∀ F, w.Shows number p.id F → F.session = none) :
    Lands consumer number w ⟨memory, w, .code (submitEach number plans), base⟩ base
      fun seen _ after => Launched number settings plans w seen after := by
  induction plans generalizing w memory with
  | nil =>
    refine .step (busy_of_code _) (fun _ => rfl) (.reply rfl (.nil settled same fun id => ?_))
    rw [World.change_self]
    rfl
  | cons p rest ih =>
    obtain ⟨new, distinct⟩ := List.nodup_cons.mp distinct
    refine .require (fun base => job_lands settled same (free p List.mem_cons_self)) ?_
    rintro seen reply after memory ⟨settled', now, first, elsewhere⟩
    have free' : ∀ q ∈ rest, ∀ F, after.Shows number q.id F → F.session = none := by
      intro q mem F shown
      have other : q.id ≠ p.id := fun here => new (here ▸ List.mem_map_of_mem mem)
      obtain ⟨G, shows⟩ := settled.shown q.id
      obtain rfl := (elsewhere q.id G other shows).1.unique shown
      exact free q (List.mem_cons_of_mem _ mem) F shows
    obtain ⟨F, shows⟩ := settled.shown p.id
    exact (ih settled' (first F shows).1.settings distinct free').mono
      fun seen' _ after' launched => launched.cons first elsewhere new

/-- The callbacks of a tracker are set that has none. -/
theorem hooks_land {cadence : Cadence} {control : Control Console Label} (settled : w.Settled number)
    (fresh : (w.tracker number).settings = { cadence }) (valid : cadence.check = .ok ()) :
    Lands consumer number w (perform ⟨memory, w, control, base⟩ (.configure number { hooks })) base
      fun seen _ after => after.Settled number ∧ ∀ id F, w.Shows number id F →
        after.Shows number id { F with settings := ⟨cadence, hooks⟩ } ∧ seen id = [] := by
  have on : (Call.configure number { hooks }).IsOn number := rfl
  have calls := perform_lands (m := ⟨memory, w, control, base⟩) consumer_obeys settled on
  refine calls.mono fun seen reply after unfolds => ⟨unfolds.settled settled, fun id F shows => ?_⟩
  have both := unfolds.shows id F shows
  have goes : F.called backend id (.configure number { hooks }) =
      ({ F with settings := ⟨cadence, hooks⟩ }, []) := by
    show F.configured { hooks } = _
    rw [Facet.configured, ← shows.settings, fresh, Settings.patched_hooks valid]
  rwa [goes] at both

/-- Jobs are launched on a tracker that has not been used yet. -/
theorem launch_lands {cadence : Cadence} (settled : w.Settled number)
    (fresh : (w.tracker number).settings = { cadence }) (valid : cadence.check = .ok ())
    (distinct : (plans.map JobPlan.id).Nodup)
    (free : ∀ p ∈ plans, ∀ F, w.Shows number p.id F → F.session = none) :
    Lands consumer number w ⟨memory, w, .code (launch number plans), base⟩ base
      fun seen _ after => Launched number ⟨cadence, hooks⟩ plans w seen after := by
  refine .step (busy_of_code _) (fun _ => rfl)
    (.require (fun base => hooks_land settled fresh valid) ?_)
  rintro seen reply after memory ⟨settled', configured⟩
  have free' : ∀ p ∈ plans, ∀ F, after.Shows number p.id F → F.session = none := by
    intro p mem F shown
    obtain ⟨G, shows⟩ := settled.shown p.id
    obtain rfl := (configured p.id G shows).1.unique shown
    exact free p mem G shows
  obtain ⟨F, shows⟩ := settled.shown ""
  refine (submitEach_lands settled' (configured "" F shows).1.settings distinct free').mono ?_
  intro seen' _ after' launched
  refine ⟨launched.settled, launched.configured, fun p mem F shows => ?_, fun id F out shows => ?_⟩
  · obtain ⟨shows₁, silent⟩ := configured p.id F shows
    obtain ⟨now, shows', silent'⟩ := launched.jobs p mem _ shows₁
    exact ⟨now, shows', by rw [silent, List.nil_append, silent']⟩
  · obtain ⟨shows₁, silent⟩ := configured id F shows
    obtain ⟨shows', silent'⟩ := launched.others id _ out shows₁
    exact ⟨shows', by rw [silent, List.nil_append, silent']⟩

end Simulation

end TaskWatch
