import TaskWatch.Proofs.Session.Reopening
import TaskWatch.Proofs.Store.Mirror

/-!
# Restarts

Jobs are tracked, and now and then the tracker is shut down and another one is opened on the same
storage, with the same callbacks. It resumes the jobs that are not at their end, with fetchers that go
on where the answers have stopped. Nobody who hears of the jobs through the lifecycle callbacks can
tell: for each job they are called as if there had been no restart, and its record is the same in the
end.

## Main definitions

* `Undertaking` — callbacks, and the answers for each job.
* `Undertaking.History` — jobs are tracked, time passes, and the tracker is restarted so many times.
* `Undertaking.Pursues` — what has been called for a job and what is still to come make up what its
  answers come to.

## Main results

* `Undertaking.History.holds` — what holds at every moment of a history.
* `Undertaking.restart_transparent` — jobs end in every history, and all histories agree.
-/

namespace TaskWatch

variable {σ κ : Type}

/-- Callbacks that observe jobs, and what the jobs are answered, whatever the fetchers. -/
structure Undertaking (κ : Type) where
  /-- The key under which the records are stored. -/
  key : String
  hooks : Hooks κ
  backend : Backend κ
  /-- How many milliseconds an answer takes at most. -/
  patience : Nat
  /-- The answers for each job. -/
  answers : TaskId → List Answer

namespace Undertaking

variable (U : Undertaking κ)

/-- A job that can be tracked: its record says when it was made and will be read back as it was
written, it is not at its end, and its answers bring it there. -/
structure IsJob (draft : Draft) : Prop where
  dated : draft.createdAt.isSome = true
  lasts : (draft.stamped .epoch).Lasts
  active : draft.status.isTerminal = false
  ends : (U.answers draft.id).any Answer.isFinal = true

/-- A tracker is opened, and its callbacks are set. -/
def opening (number : Nat) (cadence : Cadence) : List (Directive κ) :=
  [.call (.openTracker U.key cadence), .call (.configure number { hooks := U.hooks })]

/-- Another tracker is opened, its callbacks are set, and it resumes what is left. -/
def reopening (number : Nat) (cadence : Cadence) (factory : κ) : List (Directive κ) :=
  U.opening number cadence ++ [.call (.resume number factory)]

/-- Jobs are tracked, time passes, and the tracker is restarted so many times: it is shut down, and
after a time another one is opened. The fetchers that resume a job go on with the first answer that
there has not been. -/
inductive History (c : Consumer σ κ) (memory : σ) (storage : Storage) (wallClock : Nat) :
    Nat → List Draft → List (Machine σ κ) → Machine σ κ → Prop
  /-- The first tracker is opened. -/
  | opened {cadence : Cadence} {states : List (Machine σ κ)} {m : Machine σ κ}
      (valid : cadence.check = .ok ())
      (conducts : Machine.Conducts c (.idle memory (.blank storage wallClock true))
        (U.opening 0 cadence) states m) :
      History c memory storage wallClock 0 [] states m
  /-- A new job is tracked. If the storage has had a record of this name, it is at its end. -/
  | tracked {restarts : Nat} {jobs : List Draft} {states further : List (Machine σ κ)}
      {m m' : Machine σ κ} {draft : Draft} {fetcher : κ}
      (history : History c memory storage wallClock restarts jobs states m)
      (job : U.IsJob draft) (new : draft.id ∉ jobs.map Draft.id)
      (free : ((Collection.hydrate storage U.key).find? draft.id).all Task.isTerminal = true)
      (follows : U.backend.Answers U.patience fetcher draft.id 0 (U.answers draft.id))
      (conducts : Machine.Conducts c m [.call (.track restarts draft fetcher)] further m') :
      History c memory storage wallClock restarts (draft :: jobs) (states ++ further) m'
  /-- Time passes. -/
  | passed {restarts : Nat} {jobs : List Draft} {states further : List (Machine σ κ)}
      {m m' : Machine σ κ} (history : History c memory storage wallClock restarts jobs states m)
      (lapses : Machine.Lapses c m further m') :
      History c memory storage wallClock restarts jobs (states ++ further) m'
  /-- The tracker is restarted. -/
  | restarted {restarts : Nat} {jobs : List Draft} {states first second third : List (Machine σ κ)}
      {m m₁ m₂ m' : Machine σ κ} {cadence : Cadence} {factory : κ}
      (history : History c memory storage wallClock restarts jobs states m)
      (valid : cadence.check = .ok ())
      (supplies : ∀ draft ∈ jobs, ∀ task, m.world.record restarts draft.id = some task →
        task.isTerminal = false → ∃ fetcher, U.backend.supply factory task = some fetcher ∧
          U.backend.Answers U.patience fetcher draft.id 0
            ((U.answers draft.id).drop (answered U.backend (Machine.callsFor draft.id states))))
      (halts : Machine.Conducts c m [.call (.stopAll restarts)] first m₁)
      (lapses : Machine.Lapses c m₁ second m₂)
      (opens : Machine.Conducts c m₂ (U.reopening (restarts + 1) cadence factory) third m') :
      History c memory storage wallClock (restarts + 1) jobs (states ++ (first ++ (second ++ third))) m'

open Machine

variable {U : Undertaking κ} {c : Consumer σ κ} {m m' : Machine σ κ} {number : Nat}
  {cadence : Cadence} {script : List (Directive κ)} {states : List (Machine σ κ)}

/-- A tracker that has been opened on a storage, with its callbacks, polls for nothing. -/
theorem uncons_opening (obeys : c.Obeys U.backend)
    (conducts : Conducts c m (U.opening number cadence ++ script) states m') (idle : m.isIdle = true)
    (valid : cadence.check = .ok ()) (vacant : m.world.Vacant)
    (count : m.world.trackers.length = number)
    (reliable : m.world.storage.IsReliable U.key) :
    ∃ first m₁ rest, states = first ++ rest ∧ Conducts c m₁ script rest m' ∧ m₁.isIdle = true ∧
      m₁.world.Settled number ∧ m₁.world.Mirrors number U.key ∧ ∀ id, callsFor id first = [] ∧
        m₁.world.Shows number id
          { clock := m.world.clock
            settings := ⟨cadence, U.hooks⟩
            record := (Collection.hydrate m.world.storage U.key).find? id
            session := none } := by
  subst count
  obtain ⟨first, m₁, rest, rfl, configures, idle₁, opened, silent⟩ := conducts.uncons_open idle valid
  have settled : m₁.world.Settled m.world.trackers.length := opened ▸ vacant.opened U.key cadence
  have mirrors : m₁.world.Mirrors m.world.trackers.length U.key :=
    opened ▸ World.mirrors_opened rfl cadence reliable
  obtain ⟨second, m₂, rest, rfl, further, idle₂, run, unfolds⟩ :=
    configures.uncons_call obeys idle₁ settled rfl
  refine ⟨first ++ second, m₂, rest, (List.append_assoc ..).symm, further, idle₂,
    unfolds.settled settled, mirrors.undergoes unfolds.undergoes ?_, fun id => ?_⟩
  · rintro d (sessional | ⟨settings, rfl⟩)
    · exact sessional.lasts
    · trivial
  · obtain ⟨shows, seen⟩ := unfolds.shows id _ (opened ▸ World.Vacant.opened_shows U.key cadence id _)
    have configured : ∀ F : Facet κ, F.settings = { cadence } →
        F.called U.backend id (.configure m.world.trackers.length { hooks := U.hooks }) =
          ({ F with settings := ⟨cadence, U.hooks⟩ }, []) := by
      intro F settings
      show F.configured _ = _
      rw [Facet.configured, settings, Settings.patched_hooks valid]
    rw [configured _ rfl] at shows seen
    refine ⟨?_, shows⟩
    rw [callsFor_append, silent, run.callsFor_eq m.world.trackers.length idle₁ idle₂, seen]
    rfl

/-- The tracker is shut down, and then time passes. Each record stays as it is, and nobody polls for
anything. -/
theorem shut_down (obeys : c.Obeys U.backend) {first second : List (Machine σ κ)} {m₁ m₂ : Machine σ κ}
    (halts : Conducts c m [.call (.stopAll number)] first m₁) (lapses : Lapses c m₁ second m₂)
    (idle : m.isIdle = true) (settled : m.world.Settled number)
    (mirrors : m.world.Mirrors number U.key) :
    m₂.world.Mirrors number U.key ∧ m₂.world.Vacant ∧
      ∀ id, m₂.world.record number id = m.world.record number id ∧
        IsSilent U.backend (callsFor id (first ++ second)) := by
  obtain ⟨first, m₁, _, rfl, finished, idle₁, run, unfolds⟩ := halts.uncons_call obeys idle settled rfl
  cases finished
  rw [List.append_nil]
  have settled₁ := unfolds.settled settled
  have elapsed := lapses.passes obeys idle₁ settled₁
  have mirrors₁ : m₁.world.Mirrors number U.key := mirrors.undergoes unfolds.undergoes fun d within =>
    within.elim Deed.IsSessional.lasts False.elim
  -- What has been seen of a task, and what it is then.
  have halted : ∀ id F, m.world.Shows number id F → IsSilent U.backend (callsFor id (first ++ second)) ∧
      m₂.world.Shows number id (Facet.atTime { F with session := none } m₂.world.clock) := by
    intro id F shows
    obtain ⟨shows₁, seen⟩ := unfolds.shows id F shows
    have goes : F.called U.backend id (.stopAll number) = F.halted id := rfl
    obtain ⟨state, lifecycle, unanswered⟩ := F.halted_eq U.backend id
    rw [goes, state] at shows₁
    rw [goes] at seen
    obtain ⟨F₂, shows₂, passes⟩ := elapsed.passes id _ shows₁
    obtain ⟨unseen, rfl⟩ := passes.of_nobody rfl
    refine ⟨?_, shows₂⟩
    rw [callsFor_append, run.callsFor_eq number idle idle₁,
      lapses.run.callsFor_eq number idle₁ lapses.idle, unseen, seen]
    exact IsSilent.append ⟨lifecycle, unanswered⟩ (isSilent_nil _)
  refine ⟨mirrors₁.elapses elapsed.elapses, elapsed.settled.vacant fun id F₂ shows₂ => ?_, fun id => ?_⟩
  · obtain ⟨F, shows⟩ := settled.shown id
    obtain rfl := (halted id F shows).2.unique shows₂
    rfl
  · obtain ⟨F, shows⟩ := settled.shown id
    obtain ⟨silent, shows₂⟩ := halted id F shows
    exact ⟨shows₂.record.trans shows.record.symm, silent⟩

/-- A restart: the tracker is shut down, and after a time another one is opened, which resumes what is
left. Each task is as if it had been resumed with the record that it had before. -/
theorem restart (obeys : c.Obeys U.backend) {first second third : List (Machine σ κ)}
    {m₁ m₂ : Machine σ κ} {factory : κ} (halts : Conducts c m [.call (.stopAll number)] first m₁)
    (lapses : Lapses c m₁ second m₂)
    (opens : Conducts c m₂ (U.reopening (number + 1) cadence factory) third m')
    (valid : cadence.check = .ok ()) (idle : m.isIdle = true) (settled : m.world.Settled number)
    (mirrors : m.world.Mirrors number U.key) :
    m'.isIdle = true ∧ m'.world.Settled (number + 1) ∧ m'.world.Mirrors (number + 1) U.key ∧
      (m'.world.tracker (number + 1)).settings.hooks = U.hooks ∧
      ∀ id F', m'.world.Shows (number + 1) id F' → ∃ F G : Facet κ, ∃ quiet : List (κ × Occasion),
        m.world.Shows number id F ∧ G.record = F.record ∧ G.session = none ∧
        G.settings.hooks = U.hooks ∧ F' = (G.resumed U.backend id factory).1 ∧
        IsSilent U.backend quiet ∧ callsFor id (first ++ (second ++ third)) =
          quiet ++ Glimpse.callsIn (G.resumed U.backend id factory).2 := by
  obtain ⟨mirrors₂, vacant, halted⟩ := shut_down obeys halts lapses idle settled mirrors
  have read : Collection.hydrate m₂.world.storage U.key = (m₂.world.tracker number).store.tasks :=
    mirrors₂.store.read
  obtain ⟨fourth, m₃, _, rfl, resumes, idle₃, settled₃, mirrors₃, opened⟩ :=
    uncons_opening obeys opens lapses.idle valid vacant mirrors₂.count mirrors₂.store.reliable
  obtain ⟨fifth, m₄, _, rfl, finished, idle₄, run, unfolds⟩ :=
    resumes.uncons_call obeys idle₃ settled₃ rfl
  cases finished
  have sessional : ∀ d, Call.Causes (number + 1) (.resume (number + 1) factory) d →
      d.IsSessional (number + 1) (fun _ => True) := fun d within => within.elim id False.elim
  refine ⟨idle₄, unfolds.settled settled₃,
    mirrors₃.undergoes unfolds.undergoes fun d within => (sessional d within).lasts, ?_,
    fun id F' shows' => ?_⟩
  · rw [unfolds.undergoes.settings fun d within => .inl (sessional d within),
      (opened "").2.settings]
  · obtain ⟨G, shows₃, same, seen⟩ := unfolds.before settled₃ shows'
    obtain ⟨F, shows⟩ := settled.shown id
    obtain ⟨untold, shows₃'⟩ := opened id
    obtain rfl := shows₃'.unique shows₃
    refine ⟨F, _, callsFor id (first ++ second), shows, ?_, rfl, rfl, same, (halted id).2, ?_⟩
    · rw [read]
      exact (halted id).1.trans shows.record
    · simp only [List.append_nil, callsFor_append, untold, List.nil_append, List.append_assoc]
      rw [run.callsFor_eq (number + 1) idle₃ idle₄, seen]
      rfl

/-! ### Histories -/

variable (U) in
/-- What the answers for a job come to. -/
def outcome (draft : Draft) : List (κ × Occasion) × Task :=
  U.hooks.account draft.id (draft.stamped .epoch) (U.answers draft.id)

variable (U) in
/-- What has been called for a job and what is still owed to it are what its answers come to. -/
def Pursues (draft : Draft) (calls : List (κ × Occasion)) (F : Facet κ) : Prop :=
  ∃ limit owed, F.Owes U.backend U.patience draft.id
      ((U.answers draft.id).drop (answered U.backend calls)) limit owed ∧
    lifecycleCalls calls ++ owed.1 = (U.outcome draft).1 ∧ owed.2 = (U.outcome draft).2

section Pursues

variable {draft : Draft} {calls calls' : List (κ × Occasion)} {F F' : Facet κ}

/-- A job that nobody has heard of has all its answers to come when it is tracked. -/
theorem IsJob.pursues (job : U.IsJob draft) (silent : IsSilent U.backend calls)
    (hooks : F.settings.hooks = U.hooks) {fetcher : κ}
    (follows : U.backend.Answers U.patience fetcher draft.id 0 (U.answers draft.id)) :
    U.Pursues draft calls { F with
      record := some (draft.stamped .epoch), session := some (⟨fetcher, none, 0⟩, .fresh) } := by
  rw [Pursues, silent.unanswered, silent.lifecycle, outcome, ← hooks]
  obtain ⟨limit, owes⟩ := Facet.Owes.started (F := { F with
    record := some (draft.stamped .epoch), session := some (⟨fetcher, none, 0⟩, .fresh) })
    rfl job.active rfl job.ends follows
  exact ⟨limit, _, owes, rfl, rfl⟩

/-- A job that nobody has heard of is tracked. -/
theorem IsJob.tracked (job : U.IsJob draft) (silent : IsSilent U.backend calls)
    (nobody : F.session = none) (hooks : F.settings.hooks = U.hooks) {fetcher : κ}
    (follows : U.backend.Answers U.patience fetcher draft.id 0 (U.answers draft.id)) :
    U.Pursues draft
      (calls ++ Glimpse.callsIn (F.called U.backend draft.id (.track number draft fetcher)).2)
      (F.called U.backend draft.id (.track number draft fetcher)).1 := by
  have goes : F.called U.backend draft.id (.track number draft fetcher) =
      F.tracked draft.id (draft.stamped .epoch) fetcher := by
    simp [Facet.called, Call.subject?]
  have active : (draft.stamped .epoch).isTerminal = false := job.active
  obtain ⟨state, called⟩ := F.tracked_eq draft.id nobody active fetcher
  rw [goes, state, called, List.append_nil]
  exact job.pursues silent hooks follows

/-- A job that is resumed still has the answers to come that there have not been. -/
theorem Pursues.resumed (pursues : U.Pursues draft calls F) (silent : IsSilent U.backend calls')
    (record : F'.record = F.record) (nobody : F'.session = none)
    (hooks : F'.settings.hooks = F.settings.hooks) {factory : κ}
    (supplies : ∀ task, F.record = some task → task.isTerminal = false → ∃ fetcher,
      U.backend.supply factory task = some fetcher ∧ U.backend.Answers U.patience fetcher draft.id 0
        ((U.answers draft.id).drop (answered U.backend calls))) :
    U.Pursues draft (calls ++ (calls' ++ Glimpse.callsIn (F'.resumed U.backend draft.id factory).2))
      (F'.resumed U.backend draft.id factory).1 := by
  obtain ⟨limit, owed, owes, called, final⟩ := pursues
  obtain ⟨⟨limit', owes'⟩, untold⟩ := owes.resumed record nobody hooks supplies
  refine ⟨limit', owed, ?_, ?_, final⟩
  · rw [untold, List.append_nil, answered_append, silent.unanswered]
    exact owes'
  · rw [untold, List.append_nil, lifecycleCalls_append, silent.lifecycle, List.append_nil]
    exact called

/-- What is paid is taken off. -/
theorem Pursues.pays {seen : List (Glimpse κ)} (pursues : U.Pursues draft calls F)
    (pays : ∀ {answers limit owed}, F.Owes U.backend U.patience draft.id answers limit owed →
      Facet.Next.Pays U.backend U.patience draft.id (F', seen) answers limit owed) :
    U.Pursues draft (calls ++ Glimpse.callsIn seen) F' := by
  obtain ⟨limit, owed, owes, called, final⟩ := pursues
  obtain ⟨limit', _, owed', owes', called', final'⟩ := pays owes
  refine ⟨limit', owed', ?_, ?_, final'.trans final⟩
  · rw [answered_append, ← List.drop_drop]
    exact owes'
  · rw [lifecycleCalls_append, List.append_assoc, called', called]

end Pursues

variable (U) in
/-- What holds at every moment of a history. -/
structure Holds (storage : Storage) (restarts : Nat) (jobs : List Draft)
    (states : List (Machine σ κ)) (m : Machine σ κ) : Prop where
  idle : m.isIdle = true
  settled : m.world.Settled restarts
  mirrors : m.world.Mirrors restarts U.key
  hooks : (m.world.tracker restarts).settings.hooks = U.hooks
  pursues : ∀ draft ∈ jobs, ∀ F, m.world.Shows restarts draft.id F →
    U.Pursues draft (callsFor draft.id states) F
  /-- Nobody has heard of a job that has not been tracked yet. -/
  unknown : ∀ id, id ∉ jobs.map Draft.id →
    ((Collection.hydrate storage U.key).find? id).all Task.isTerminal = true →
    IsSilent U.backend (callsFor id states) ∧
      ∀ F, m.world.Shows restarts id F → F.record.all Task.isTerminal = true ∧ F.session = none

namespace Holds

variable {storage : Storage} {restarts : Nat} {jobs : List Draft} {further : List (Machine σ κ)}

/-- A tracker is opened. -/
theorem opened (obeys : c.Obeys U.backend) {memory : σ} {wallClock : Nat}
    (reliable : storage.IsReliable U.key) (valid : cadence.check = .ok ())
    (conducts : Conducts c (.idle memory (.blank storage wallClock true)) (U.opening 0 cadence)
      states m) :
    U.Holds storage 0 [] states m := by
  rw [← List.append_nil (U.opening 0 cadence)] at conducts
  obtain ⟨first, m₁, _, rfl, finished, idle, settled, mirrors, facets⟩ :=
    uncons_opening obeys conducts rfl valid (World.vacant_blank storage wallClock) rfl reliable
  cases finished
  rw [List.append_nil]
  refine ⟨idle, settled, mirrors, ?_, fun _ mem => absurd mem List.not_mem_nil, fun id _ free => ?_⟩
  · rw [(facets "").2.settings]
  · obtain ⟨silent, shows⟩ := facets id
    refine ⟨silent ▸ isSilent_nil _, fun F shows' => ?_⟩
    obtain rfl := shows.unique shows'
    exact ⟨free, rfl⟩

/-- Time passes. -/
theorem passed (holds : U.Holds storage restarts jobs states m) (obeys : c.Obeys U.backend)
    (lapses : Lapses c m further m') : U.Holds storage restarts jobs (states ++ further) m' := by
  obtain ⟨idle, settled, mirrors, hooks, pursues, unknown⟩ := holds
  have elapsed := lapses.passes obeys idle settled
  have called : ∀ id, callsFor id (states ++ further) =
      callsFor id states ++ Glimpse.callsIn (glimpses restarts id m further) := fun id => by
    rw [callsFor_append, lapses.run.callsFor_eq restarts idle lapses.idle]
  refine ⟨lapses.idle, elapsed.settled, mirrors.elapses elapsed.elapses, ?_,
    fun draft mem F' shows' => ?_, fun id new free => ?_⟩
  · rw [elapsed.elapses.settings]
    exact hooks
  · obtain ⟨F, shows, passes⟩ := elapsed.before settled shows'
    rw [called]
    exact (pursues draft mem F shows).pays fun owes => (owes.passes passes).1
  · obtain ⟨silent, nobody⟩ := unknown id new free
    have still : ∀ F', m'.world.Shows restarts id F' → glimpses restarts id m further = [] ∧
        F'.record.all Task.isTerminal = true ∧ F'.session = none := by
      intro F' shows'
      obtain ⟨F, shows, passes⟩ := elapsed.before settled shows'
      obtain ⟨record, session⟩ := nobody F shows
      obtain ⟨seen, rfl⟩ := passes.of_nobody session
      exact ⟨seen, record, session⟩
    obtain ⟨F', shows'⟩ := elapsed.settled.shown id
    rw [called, (still F' shows').1]
    exact ⟨silent.append (isSilent_nil _), fun F shows => (still F shows).2⟩

/-- A new job is tracked. -/
theorem tracked (holds : U.Holds storage restarts jobs states m) (obeys : c.Obeys U.backend)
    {draft : Draft} {fetcher : κ} (job : U.IsJob draft) (new : draft.id ∉ jobs.map Draft.id)
    (free : ((Collection.hydrate storage U.key).find? draft.id).all Task.isTerminal = true)
    (follows : U.backend.Answers U.patience fetcher draft.id 0 (U.answers draft.id))
    (conducts : Conducts c m [.call (.track restarts draft fetcher)] further m') :
    U.Holds storage restarts (draft :: jobs) (states ++ further) m' := by
  obtain ⟨idle, settled, mirrors, hooks, pursues, unknown⟩ := holds
  obtain ⟨first, m₁, rest, rfl, finished, idle₁, run, unfolds⟩ :=
    conducts.uncons_call obeys idle settled ⟨rfl, job.dated⟩
  cases finished
  rw [List.append_nil]
  have called : ∀ id, callsFor id (states ++ first) =
      callsFor id states ++ Glimpse.callsIn (glimpses restarts id m first) := fun id => by
    rw [callsFor_append, run.callsFor_eq restarts idle idle₁]
  -- Other tasks stay as they are.
  have others : ∀ {id F'}, draft.id ≠ id → m'.world.Shows restarts id F' →
      m.world.Shows restarts id F' ∧ glimpses restarts id m first = [] := by
    intro id F' elsewhere shows'
    obtain ⟨F, shows, same, seen⟩ := unfolds.before settled shows'
    rw [F.called_of_elsewhere U.backend id rfl elsewhere] at same seen
    exact ⟨same ▸ shows, seen⟩
  refine ⟨idle₁, unfolds.settled settled, mirrors.undergoes unfolds.undergoes ?_, ?_,
    fun other mem F' shows' => ?_, fun id unlisted unbound => ?_⟩
  · rintro d (sessional | rfl)
    · exact sessional.lasts
    · exact ⟨rfl, job.lasts⟩
  · have calm : ∀ d, Call.Causes restarts (.track restarts draft fetcher) d →
        d.IsSessional restarts (fun _ => True) ∨ ∃ k task, d = .kept k task := by
      rintro d (sessional | rfl)
      · exact .inl sessional
      · exact .inr ⟨_, _, rfl⟩
    rw [unfolds.undergoes.settings calm]
    exact hooks
  · rcases List.mem_cons.mp mem with rfl | mem
    · obtain ⟨silent, nobody⟩ := unknown other.id new free
      obtain ⟨F, shows, rfl, seen⟩ := unfolds.before settled shows'
      rw [called, seen]
      exact job.tracked silent (nobody F shows).2 (shows.settings ▸ hooks) follows
    · have elsewhere : draft.id ≠ other.id := fun same =>
        new (same ▸ List.mem_map_of_mem mem)
      obtain ⟨shows, seen⟩ := others elsewhere shows'
      rw [called, seen]
      exact (List.append_nil _).symm ▸ pursues other mem F' shows
  · rw [List.map_cons, List.mem_cons, not_or] at unlisted
    have elsewhere := Ne.symm unlisted.1
    obtain ⟨unheard, nobody⟩ := unknown id unlisted.2 unbound
    obtain ⟨F', shows'⟩ := (unfolds.settled settled).shown id
    rw [called, (others elsewhere shows').2]
    exact ⟨unheard.append (isSilent_nil _), fun F shows => nobody F (others elsewhere shows).1⟩

/-- The tracker is restarted. -/
theorem restarted (holds : U.Holds storage restarts jobs states m) (obeys : c.Obeys U.backend)
    {factory : κ} (valid : cadence.check = .ok ())
    (supplies : ∀ draft ∈ jobs, ∀ task, m.world.record restarts draft.id = some task →
      task.isTerminal = false → ∃ fetcher, U.backend.supply factory task = some fetcher ∧
        U.backend.Answers U.patience fetcher draft.id 0
          ((U.answers draft.id).drop (answered U.backend (callsFor draft.id states))))
    {first second third : List (Machine σ κ)} {m₁ m₂ : Machine σ κ}
    (halts : Conducts c m [.call (.stopAll restarts)] first m₁) (lapses : Lapses c m₁ second m₂)
    (opens : Conducts c m₂ (U.reopening (restarts + 1) cadence factory) third m') :
    U.Holds storage (restarts + 1) jobs (states ++ (first ++ (second ++ third))) m' := by
  obtain ⟨idle, settled, mirrors, hooks, pursues, unknown⟩ := holds
  obtain ⟨idle', settled', mirrors', hooks', becomes⟩ :=
    restart obeys halts lapses opens valid idle settled mirrors
  refine ⟨idle', settled', mirrors', hooks', fun draft mem F' shows' => ?_, fun id new free => ?_⟩
  · obtain ⟨F, G, quiet, shows, record, nobody, hooked, rfl, silent, called⟩ :=
      becomes draft.id F' shows'
    have same : G.settings.hooks = F.settings.hooks :=
      hooked.trans (hooks.symm.trans (congrArg Settings.hooks shows.settings))
    rw [callsFor_append, called]
    exact (pursues draft mem F shows).resumed silent record nobody same fun task there =>
      supplies draft mem task (shows.record.trans there)
  · obtain ⟨unheard, unlisted⟩ := unknown id new free
    -- There is nothing to resume.
    have still : ∀ F', m'.world.Shows (restarts + 1) id F' →
        IsSilent U.backend (callsFor id (first ++ (second ++ third))) ∧
          F'.record.all Task.isTerminal = true ∧ F'.session = none := by
      intro F' shows'
      obtain ⟨F, G, quiet, shows, record, nobody, _, rfl, silent, called⟩ := becomes id F' shows'
      have free' : G.record.all Task.isTerminal = true := record ▸ (unlisted F shows).1
      rw [called, Facet.resumed_of_free free']
      exact ⟨silent.append (isSilent_nil _), free', nobody⟩
    obtain ⟨F', shows'⟩ := settled'.shown id
    rw [callsFor_append]
    exact ⟨unheard.append (still F' shows').1, fun F shows => (still F shows).2⟩

variable {draft : Draft}

/-- Every job comes to its end when enough time passes. -/
theorem ends (holds : U.Holds storage restarts jobs states m) (obeys : c.Obeys U.backend)
    (mem : draft ∈ jobs) :
    ∃ limit, ∀ further m', Lapses c m further m' → limit < m'.world.clock →
      (m'.world.tracker restarts).isPolling draft.id = false := by
  obtain ⟨F, shows⟩ := holds.settled.shown draft.id
  obtain ⟨limit, owed, owes, _⟩ := holds.pursues draft mem F shows
  refine ⟨limit, fun further m' lapses late => ?_⟩
  have elapsed := lapses.passes obeys holds.idle holds.settled
  obtain ⟨F', shows', passes⟩ := elapsed.passes draft.id F shows
  rw [shows'.isPolling, (owes.passes passes).2 late]
  rfl

/-- When a job is at its end, there has been what its answers come to. -/
theorem ended (holds : U.Holds storage restarts jobs states m) (mem : draft ∈ jobs)
    (finished : (m.world.tracker restarts).isPolling draft.id = false) :
    lifecycleCalls (callsFor draft.id states) = (U.outcome draft).1 ∧
      m.world.record restarts draft.id = some (U.outcome draft).2 := by
  obtain ⟨F, shows⟩ := holds.settled.shown draft.id
  obtain ⟨limit, owed, owes, called, final⟩ := holds.pursues draft mem F shows
  have nobody : F.session = none := by
    rw [shows.isPolling] at finished
    exact Option.isNone_iff_eq_none.mp (by simpa using finished)
  obtain ⟨record, none⟩ := owes.of_nobody nobody
  rw [none, List.append_nil] at called
  exact ⟨called, final ▸ shows.record.trans record⟩

end Holds

variable {memory : σ} {storage : Storage} {wallClock restarts : Nat} {jobs : List Draft}

/-- What holds at every moment of a history. -/
theorem History.holds (history : U.History c memory storage wallClock restarts jobs states m)
    (obeys : c.Obeys U.backend) (reliable : storage.IsReliable U.key) :
    U.Holds storage restarts jobs states m := by
  induction history with
  | opened valid conducts => exact .opened obeys reliable valid conducts
  | tracked _ job new free follows conducts ih => exact ih.tracked obeys job new free follows conducts
  | passed _ lapses ih => exact ih.passed obeys lapses
  | restarted _ valid supplies halts lapses opens ih =>
    exact ih.restarted obeys valid supplies halts lapses opens

/-- A job is tracked in two histories, one of them without a restart, and callbacks and listeners only
observe. In each history the job comes to its end when enough time passes. When it is there in both,
the same callbacks of the lifecycle have been called for it, in the same order, and it has the same
record. -/
theorem restart_transparent (obeys : c.Obeys U.backend) (reliable : storage.IsReliable U.key)
    (history : U.History c memory storage wallClock restarts jobs states m)
    {memory' : σ} {storage' : Storage} {wallClock' : Nat} {jobs' : List Draft}
    {states' : List (Machine σ κ)} (reliable' : storage'.IsReliable U.key)
    (history' : U.History c memory' storage' wallClock' 0 jobs' states' m')
    {draft : Draft} (mem : draft ∈ jobs) (mem' : draft ∈ jobs') :
    (∃ limit, ∀ further m₁, Lapses c m further m₁ → limit < m₁.world.clock →
      (m₁.world.tracker restarts).isPolling draft.id = false) ∧
    (∃ limit, ∀ further m₁, Lapses c m' further m₁ → limit < m₁.world.clock →
      (m₁.world.tracker 0).isPolling draft.id = false) ∧
    ((m.world.tracker restarts).isPolling draft.id = false →
      (m'.world.tracker 0).isPolling draft.id = false →
      lifecycleCalls (callsFor draft.id states) = lifecycleCalls (callsFor draft.id states') ∧
        m.world.record restarts draft.id = m'.world.record 0 draft.id) := by
  have holds := history.holds obeys reliable
  have holds' := history'.holds obeys reliable'
  refine ⟨holds.ends obeys mem, holds'.ends obeys mem', fun finished finished' => ?_⟩
  obtain ⟨called, record⟩ := holds.ended mem finished
  obtain ⟨called', record'⟩ := holds'.ended mem' finished'
  exact ⟨called.trans called'.symm, record.trans record'.symm⟩

/-- A job whose first request fails, and which is processed and completed after that. Each answer
takes five milliseconds. A fetcher begins with the answer whose number is its label. -/
def errand : Undertaking Nat :=
  let answers : List Answer :=
    [.error .timeout, .ok { status := .processing }, .ok { status := .completed }]
  { key := "tasks"
    hooks := { statusChange := some 10, complete := some 11, failed := some 12, error := some 13 }
    backend := {
      progress := fun label request turn =>
        answers[label + request.number - 1]?.map fun answer =>
          Response.progress ⟨[some 5], some answer⟩ turn
      supply := fun label _ => some label }
    patience := 5
    answers := fun _ => answers }

def errandDraft : Draft := { id := "a", kind := .analysis, createdAt := some .epoch }

theorem errand_isJob : errand.IsJob errandDraft where
  dated := rfl
  lasts := ⟨by decide +kernel, by decide +kernel, by decide +kernel⟩
  active := rfl
  ends := by decide +kernel

theorem errand_follows (k : Nat) :
    errand.backend.Answers errand.patience k "a" 0 ((errand.answers "a").drop k) := by
  intro i answer there
  refine ⟨⟨[some 5], some answer⟩, rfl, Nat.le_refl 5, fun turn => ?_⟩
  rw [List.getElem?_drop] at there
  show ((errand.answers "a")[k + (0 + i + 1) - 1]?).map _ = _
  rw [Nat.zero_add, ← Nat.add_assoc, Nat.add_sub_cancel, there]
  rfl

/-- The job when it has been tracked. -/
def errandBegun : Facet Nat where
  clock := 0
  settings := ⟨.default, errand.hooks⟩
  record := some (errandDraft.stamped .epoch)
  session := some (⟨0, none, 0⟩, .fresh)

/-- In ten milliseconds there is one answer. -/
theorem errand_passes : ∃ seen F, errandBegun.Passes errand.backend "a" 10 seen F ∧ F.IsQuiet ∧
    answered errand.backend (Glimpse.callsIn seen) = 1 := by
  refine ⟨_, _, .turn rfl (by decide) (.turn rfl (by decide) (.finished fun time due => ?_)),
    fun time due => ?_, rfl⟩
  · obtain rfl : 5005 = time := Option.some.inj due
    decide
  · obtain rfl : 5005 = time := Option.some.inj due
    decide

theorem errand_answered {first second third : List (Machine Unit Nat)} {m₁ m₂ m₃ : Machine Unit Nat}
    (opens : Conducts errand.backend.consumer (.idle () (.blank .inMemory 0 true))
      (errand.opening 0 .default) first m₁)
    (tracks : Conducts errand.backend.consumer m₁ [.call (.track 0 errandDraft 0)] second m₂)
    (passes : Conducts errand.backend.consumer m₂ [.pass 10] third m₃) :
    answered errand.backend (callsFor "a" (first ++ second ++ third)) = 1 := by
  have obeys := errand.backend.obeys
  rw [← List.append_nil (errand.opening 0 .default)] at opens
  obtain ⟨first, m₁, _, rfl, finished, idle₁, settled₁, _, facets⟩ := uncons_opening obeys opens rfl rfl
    (World.vacant_blank .inMemory 0) rfl (Storage.isReliable_inMemory "tasks")
  cases finished
  obtain ⟨second, m₂, _, rfl, finished, idle₂, run₂, unfolds⟩ :=
    tracks.uncons_call obeys idle₁ settled₁ ⟨rfl, rfl⟩
  cases finished
  obtain ⟨third, m₃, _, rfl, finished, quiet, run₃, clock, elapsed⟩ :=
    passes.uncons_pass obeys idle₂ (unfolds.settled settled₁)
  cases finished
  simp only [List.append_nil]
  let F : Facet Nat := { errandBegun with record := none, session := none }
  obtain ⟨silent, shows₁⟩ : callsFor "a" first = [] ∧ m₁.world.Shows 0 "a" F := facets "a"
  obtain ⟨shows₂, seen₂⟩ := unfolds.shows "a" F shows₁
  have goes : F.called errand.backend "a" (.track 0 errandDraft 0) =
      F.tracked "a" (errandDraft.stamped .epoch) 0 := rfl
  obtain ⟨begun, called⟩ :=
    F.tracked_eq "a" rfl (rfl : (errandDraft.stamped .epoch).isTerminal = false) 0
  rw [goes, begun] at shows₂
  obtain ⟨F₃, shows₃, passes⟩ := elapsed.passes "a" _ shows₂
  rw [clock, shows₂.clock] at passes
  obtain ⟨seen, F', passes', quiet', one⟩ := errand_passes
  obtain ⟨same, _⟩ := passes'.unique quiet' passes (isQuiet.facet quiet shows₃)
  rw [callsFor_append, callsFor_append, silent, run₂.callsFor_eq 0 idle₁ idle₂,
    run₃.callsFor_eq 0 idle₂ (isIdle_of_isQuiet quiet), seen₂, goes, called, same]
  exact one

/-- The tracker is restarted after the first answer. -/
theorem errand_interrupted : ∃ states m,
    errand.History errand.backend.consumer () .inMemory 0 1 [errandDraft] states m ∧
      (m.world.tracker 1).isPolling "a" = false := by
  let start : Machine Unit Nat := .idle () (.blank .inMemory 0 true)
  let script : List (Directive Nat) :=
    errand.opening 0 .default ++ ([.call (.track 0 errandDraft 0)] ++ ([.pass 10] ++
      ([.call (.stopAll 0)] ++ ([.pass 7] ++ (errand.reopening 1 .default 1 ++ [.pass 20000])))))
  obtain ⟨m, followed, finished⟩ := (Option.any_eq_true _ _).mp (by decide +kernel :
    (start.follow? errand.backend.consumer script).any
      fun m => (m.world.tracker 1).isPolling "a" = false)
  obtain ⟨states, conducts⟩ := exists_conducts rfl followed
  obtain ⟨_, _, _, rfl, opens, conducts⟩ := conducts.split
  obtain ⟨_, _, _, rfl, tracks, conducts⟩ := conducts.split
  obtain ⟨_, _, _, rfl, passes, conducts⟩ := conducts.split
  obtain ⟨_, _, _, rfl, halts, conducts⟩ := conducts.split
  obtain ⟨_, _, _, rfl, waits, conducts⟩ := conducts.split
  obtain ⟨_, _, _, rfl, reopens, conducts⟩ := conducts.split
  have interrupted := History.passed (.tracked (.opened rfl opens) errand_isJob List.not_mem_nil rfl
    (errand_follows 0) tracks) passes.lapses
  refine ⟨_, m, .passed (.restarted interrupted rfl ?_ halts waits.lapses reopens) conducts.lapses,
    of_decide_eq_true finished⟩
  intro draft mem task _ _
  obtain rfl := List.mem_singleton.mp mem
  refine ⟨1, rfl, ?_⟩
  rw [show errandDraft.id = "a" from rfl, errand_answered opens tracks passes]
  exact errand_follows 1

theorem errand_uninterrupted : ∃ states m,
    errand.History errand.backend.consumer () .inMemory 0 0 [errandDraft] states m ∧
      (m.world.tracker 0).isPolling "a" = false := by
  let start : Machine Unit Nat := .idle () (.blank .inMemory 0 true)
  let script : List (Directive Nat) :=
    errand.opening 0 .default ++ ([.call (.track 0 errandDraft 0)] ++ [.pass 20000])
  obtain ⟨m, followed, finished⟩ := (Option.any_eq_true _ _).mp (by decide +kernel :
    (start.follow? errand.backend.consumer script).any
      fun m => (m.world.tracker 0).isPolling "a" = false)
  obtain ⟨states, conducts⟩ := exists_conducts rfl followed
  obtain ⟨_, _, _, rfl, opens, conducts⟩ := conducts.split
  obtain ⟨_, _, _, rfl, tracks, conducts⟩ := conducts.split
  exact ⟨_, m, .passed (.tracked (.opened rfl opens) errand_isJob List.not_mem_nil rfl
    (errand_follows 0) tracks) conducts.lapses, of_decide_eq_true finished⟩

theorem restart_transparent_errand : (errand.outcome errandDraft).1.length = 4 ∧
    ∃ states m states' m',
      errand.History errand.backend.consumer () .inMemory 0 1 [errandDraft] states m ∧
      errand.History errand.backend.consumer () .inMemory 0 0 [errandDraft] states' m' ∧
      lifecycleCalls (callsFor "a" states) = lifecycleCalls (callsFor "a" states') ∧
      m.world.record 1 "a" = m'.world.record 0 "a" := by
  obtain ⟨states, m, history, finished⟩ := errand_interrupted
  obtain ⟨states', m', history', finished'⟩ := errand_uninterrupted
  have reliable := Storage.isReliable_inMemory "tasks"
  have mem : errandDraft ∈ [errandDraft] := List.mem_singleton_self _
  obtain ⟨_, _, same⟩ :=
    restart_transparent errand.backend.obeys reliable history reliable history' mem mem
  exact ⟨by decide +kernel, states, m, states', m', history, history', same finished finished'⟩

end Undertaking

end TaskWatch
