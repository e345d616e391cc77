import TaskWatch.Proofs.Store.Change
import TaskWatch.Proofs.Store.Mirror
import TaskWatch.Proofs.Store.NetEffect

/-!
# Calls about different tasks

A call that keeps, changes or deletes the record of one task looks at this record only. So the order
of calls about different tasks makes no difference: each of them replies the same, and in the end
the store has the same records and the same version, and shows the same lists.

The collection is stored after every change that counts. One change does not count although a record
takes the place of another one: an equal record is kept again, and the two differ in the sign of a
zero. Then what is stored may have the old record or the new one, depending on whether something
else was stored later.

## Main definitions

* `StoreCall.target?` — the task that a call is about.
* `StoreCall.reply`, `StoreCall.entry` — what a call makes of the record of its task.
* `Transaction` — a call, its reply, and the record before and after it.
* `Machine.Transacts` — calls of one store, one after the other, each stored as far as it counts.

## Main results

* `perm_of_filter` — lists that agree on each part of a partition are permutations.
* `Machine.Transacts.account` — what a store and its storage come to.
* `Machine.interleaving_irrelevant` — the order of calls about different tasks makes no difference,
  but for the sign of a zero (`Machine.interleaving_relevant_for_zeros`).
-/

namespace TaskWatch

/-! ### Lists that agree part by part -/

/-- Lists that have the same members in the same order in each part are permutations of each
other. -/
theorem perm_of_filter {α β : Type} [DecidableEq β] (part : α → β) {l l' : List α}
    (same : ∀ b, l.filter (part · = b) = l'.filter (part · = b)) : l.Perm l' := by
  classical
  refine List.perm_iff_count.mpr fun a => ?_
  have counted : ∀ l : List α, l.count a = (l.filter (part · = part a)).count a := fun l =>
    (List.count_filter (p := (part · = part a)) (by simp)).symm
  rw [counted l, counted l', same]

/-! ### Calls about one task -/

namespace StoreCall

/-- The task that a call is about. A call about several tasks, or that depends on the time, is about
none. -/
def target? : StoreCall → Option TaskId
  | add draft => if draft.createdAt.isSome then some draft.id else none
  | update id _ | remove id => some id
  | clearTerminal => none

/-- What a call replies, given the record of its task. -/
def reply (record : Option Task) : StoreCall → Reply
  | add draft => .task (draft.stamped .epoch)
  | update id patch => .outcome (Records.outcome (fun _ => record) id patch)
  | remove _ => .removed record
  | clearTerminal => .unit

/-- The record of its task after a call. -/
def entry (record : Option Task) : StoreCall → Option Task
  | add draft => some (draft.stamped .epoch)
  | update id patch =>
    if Records.outcome (fun _ => record) id patch = .applied then record.map (Task.patched · patch)
    else record
  | remove _ => none
  | clearTerminal => record

variable {call : StoreCall} {id : TaskId}

private theorem stamped_of_known {draft : Draft} (known : draft.createdAt.isSome)
    (now now' : Instant) : draft.stamped now = draft.stamped now' := by
  obtain ⟨time, set⟩ := Option.isSome_iff_exists.mp known
  simp only [Draft.stamped, set, Option.getD_some]

private theorem add_target {draft : Draft} (about : (add draft).target? = some id) :
    draft.createdAt.isSome ∧ draft.id = id := by
  rw [target?] at about
  split at about
  · next known => exact ⟨known, Option.some.inj about⟩
  · simp at about

/-- A call looks at the record of its task only. -/
theorem reply_of_answers {now : Instant} {r : Records} {reply : Reply}
    (about : call.target? = some id) (answers : call.Answers now r reply) :
    reply = call.reply (r id) := by
  cases call with
  | add draft =>
    rw [StoreCall.reply, stamped_of_known (add_target about).1 .epoch now]
    exact answers
  | update other patch =>
    obtain rfl := Option.some.inj about
    exact answers
  | remove other =>
    obtain rfl := Option.some.inj about
    exact answers
  | clearTerminal => simp [target?] at about

/-- A call changes the record of its task only. -/
theorem effect_eq (about : call.target? = some id) (now : Instant) (r : Records) :
    call.effect now r = r.put id (call.entry (r id)) := by
  cases call with
  | add draft =>
    obtain ⟨known, rfl⟩ := add_target about
    rw [effect, entry, stamped_of_known known now .epoch]
  | update other patch =>
    obtain rfl := Option.some.inj about
    rw [effect, entry]
    have local_ : Records.outcome (fun _ => r other) other patch = r.outcome other patch := rfl
    rw [local_]
    split
    · rfl
    · funext k
      rw [Records.put]
      split
      · next same => rw [same]
      · rfl
  | remove other =>
    obtain rfl := Option.some.inj about
    rfl
  | clearTerminal => simp [target?] at about

end StoreCall

/-! ### Transactions -/

/-- A call, what it has replied, and the record of its task before and after it. -/
structure Transaction where
  call : StoreCall
  reply : Reply
  before : Option Task
  after : Option Task

namespace Transaction

/-- What a call about a record comes to. -/
def make (record : Option Task) (call : StoreCall) : Transaction :=
  ⟨call, call.reply record, record, call.entry record⟩

/-- Whether the record is another one afterwards, as records are compared. -/
def counts (t : Transaction) : Bool := t.before != t.after

/-- Calls about one record, one after the other. -/
def sequence (record : Option Task) : List StoreCall → List Transaction
  | [] => []
  | call :: rest => make record call :: sequence (call.entry record) rest

/-- The record after some calls. -/
def last (record : Option Task) (calls : List StoreCall) : Option Task :=
  calls.foldl StoreCall.entry record

theorem sequence_append (record : Option Task) (calls : List StoreCall) (call : StoreCall) :
    sequence record (calls ++ [call]) =
      sequence record calls ++ [make (last record calls) call] := by
  induction calls generalizing record with
  | nil => rfl
  | cons first rest ih => rw [List.cons_append, sequence, ih, sequence, List.cons_append]; rfl

theorem last_append (record : Option Task) (calls : List StoreCall) (call : StoreCall) :
    last record (calls ++ [call]) = call.entry (last record calls) :=
  List.foldl_append

/-- The transactions about a task. -/
def about (id : TaskId) (log : List Transaction) : List Transaction :=
  log.filter fun t => t.call.target? = some id

theorem map_call_about (id : TaskId) (log : List Transaction) :
    (about id log).map call = (log.map call).filter fun c : StoreCall => c.target? = some id := by
  rw [List.filter_map]
  rfl

/-- One more transaction. -/
theorem about_concat {id : TaskId} {t : Transaction} (target : t.call.target? = some id)
    (log : List Transaction) (k : TaskId) :
    about k (log ++ [t]) = about k log ++ if k = id then [t] else [] := by
  rw [about, about, List.filter_append]
  congr 1
  by_cases same : k = id
  · simp [same, target]
  · simp [same, target, Ne.symm same]

theorem calls_concat {id : TaskId} {t : Transaction} (target : t.call.target? = some id)
    (log : List Transaction) (k : TaskId) :
    ((log ++ [t]).map call).filter (fun c : StoreCall => c.target? = some k) =
      ((log.map call).filter fun c : StoreCall => c.target? = some k) ++
        if k = id then [t.call] else [] := by
  rw [← map_call_about, about_concat target, List.map_append, map_call_about]
  split <;> rfl

/-- Whenever a record takes the place of an equal one, it is the same. -/
def IsPlain (log : List Transaction) : Prop :=
  ∀ t ∈ log, t.counts = false → t.before = t.after

end Transaction

/-! ### Stores -/

namespace Storage

variable {s : Storage} {key : String}

theorem answers_of_read {text : Option String} (reads : s.read key = .ok text) :
    s.answers = true := by
  cases s with
  | unreliable state =>
    rw [read] at reads
    split at reads
    · next answers => exact answers
    · simp at reads
  | _ => rfl

/-- A text that has been stored can be read. -/
theorem read_stored {text : String} (succeeds : (s.write key text).2 = .ok ())
    (answers : s.answers = true) : (s.write key text).1.read key = .ok (some text) := by
  obtain ⟨content, shows⟩ := content_write succeeds
  have shown : (s.write key text).1.text? key = some text :=
    shows ((answers_write s key text).trans answers) text content
  rw [text?] at shown
  split at shown
  · next reads => rw [reads, shown]
  · simp at shown

end Storage

/-- The collection of a stored text; there may be none, or none that can be read. -/
def Collection.ofText (text : Option String) : Collection := (text.bind decode?).getD .empty

theorem Collection.hydrate_of_read {storage : Storage} {key : String} {text : Option String}
    (reads : storage.read key = .ok text) : hydrate storage key = ofText text := by
  have shown : storage.text? key = text := by rw [Storage.text?, reads]
  rw [hydrate, shown]
  cases text <;> rfl

/-- A change about one task is counted exactly if the record of the task is another one then. -/
theorem Mutation.IsTruthful.event_isSome {α : Type} {tasks : Collection} {change : Mutation α}
    (truthful : change.IsTruthful tasks) {id : TaskId}
    (others : ∀ other ≠ id, change.tasks.find? other = tasks.find? other) :
    change.event.isSome = (tasks.find? id != change.tasks.find? id) := by
  have altered : tasks.alters change.tasks id = change.event.any (·.affects id) :=
    truthful.affects id
  rw [← Collection.alters, altered]
  cases event : change.event with
  | none => rfl
  | some e =>
    obtain ⟨other, affected⟩ := truthful.alters e event
    have elsewhere : tasks.alters change.tasks other = true := by
      rw [truthful.affects, event]
      exact affected
    have here : other = id := by
      by_contra differs
      have untouched : tasks.alters change.tasks other = false := by
        rw [Collection.alters_eq_false_iff, Collection.canonical, Collection.canonical,
          Dictionary.find?_map, Dictionary.find?_map, others other differs]
      simp [untouched] at elsewhere
    subst here
    exact affected.symm

/-- What is stored when everything that is to be stored has been accepted: the text from which a
store was opened, until a change counts, and after that the text of equal records. The records are
the same if all that took the place of equal ones were. -/
inductive Store.Keeps {α : Type} (s : Store α) (text : Option String) (plain : Prop) :
    Option String → Prop
  /-- Nothing has been stored yet. -/
  | untouched (version : s.version = 0) : Keeps s text plain text
  /-- A collection has been stored whose records equal those of the store. -/
  | stored (tasks : Collection) (version : 0 < s.version)
      (same : tasks.canonical = s.tasks.canonical) (exact_ : plain → tasks = s.tasks) :
      Keeps s text plain (some tasks.encode)

/-- What is stored is determined by the store if only the same records took the place of equal
ones. -/
theorem Store.Keeps.unique {α β : Type} {s : Store α} {s' : Store β}
    {text shown shown' : Option String} {plain : Prop} (version : s.version = s'.version)
    (tasks : s.tasks = s'.tasks) (keeps : s.Keeps text plain shown)
    (keeps' : s'.Keeps text plain shown') (exact_ : plain) : shown = shown' := by
  cases keeps with
  | untouched none =>
    cases keeps' with
    | untouched => rfl
    | stored _ some => exact absurd (version.symm.trans none) (Nat.ne_of_gt some)
  | stored _ some _ kept =>
    cases keeps' with
    | untouched none => exact absurd (version.trans none) (Nat.ne_of_gt some)
    | stored _ _ _ kept' => rw [kept exact_, kept' exact_, tasks]

/-- An equal record takes the place of another one, and nothing is stored. -/
theorem Store.Keeps.replaced {α : Type} {s : Store α} {text text' : Option String}
    {log : List Transaction} (keeps : s.Keeps text (Transaction.IsPlain log) text')
    {t : Transaction} {id : TaskId} {tasks : Collection} (before : s.tasks.find? id = t.before)
    (after : ∀ k, tasks.find? k = if k = id then t.after else s.tasks.find? k)
    (equal : t.counts = false) :
    { s with tasks }.Keeps text (Transaction.IsPlain (log ++ [t])) text' := by
  cases keeps with
  | untouched version => exact .untouched version
  | stored kept version same exact_ =>
    refine .stored kept version (same.trans ?_) fun plain => ?_
    · refine Collection.forall_alters_iff.mp fun k => ?_
      rw [Collection.alters, after]
      split
      · next here =>
        rw [here, before]
        exact equal
      · exact Collection.alters_self s.tasks k
    · have unchanged : t.before = t.after :=
        plain t (List.mem_append_right _ (List.mem_singleton.mpr rfl)) equal
      rw [exact_ fun u mem => plain u (List.mem_append_left _ mem)]
      refine Dictionary.ext_find? fun k => ?_
      rw [after]
      split
      · next here => rw [here, before, unchanged]
      · rfl

/-- What a change makes of a store that has stored everything, if what is to be stored is
accepted. -/
theorem Store.apply_accepted {α β : Type} {s : Store α} {storage : Storage} {change : Mutation β}
    (stored : s.persisted = s.version)
    (accepted : (s.apply storage change).1.persisted = (s.apply storage change).1.version) :
    (change.event.isSome = false ∧
        s.apply storage change = ({ s with tasks := change.tasks }, storage)) ∨
      change.event.isSome = true ∧ (storage.write s.key change.tasks.encode).2 = .ok () ∧
        s.apply storage change =
          ({ s with
              tasks := change.tasks
              version := s.version + 1
              persisted := s.version + 1 },
            (storage.write s.key change.tasks.encode).1) := by
  cases event : change.event with
  | none => exact .inl ⟨rfl, apply_silent event⟩
  | some e =>
    rw [apply_reported event (Nat.le_of_eq stored)] at accepted ⊢
    cases written : (storage.write s.key change.tasks.encode).2 with
    | ok _ => exact .inr ⟨rfl, rfl, rfl⟩
    | error _ =>
      -- Then the version that has just been counted would not be stored.
      rw [written] at accepted
      exact absurd (stored.symm.trans accepted) (Nat.ne_of_lt (Nat.lt_succ_self _))

namespace Machine

variable {σ κ : Type} {m : Machine σ κ} {number : Nat} {text : Option String}
  {log : List Transaction}

/-- Calls of the store with a number, one after the other. The store has been opened from a text,
each call is about one task, and what is to be stored is stored. Between the calls anything may
happen that leaves the store and its text alone; listeners may come and go. -/
inductive Transacts (number : Nat) (text : Option String) : List Transaction → Machine σ κ → Prop
  /-- The store has just been opened. -/
  | opened {m : Machine σ κ} {key cadence} (valid : cadence.check = .ok ())
      (next : number = m.world.trackers.length) (reads : m.world.storage.read key = .ok text) :
      Transacts number text [] (m.perform (.openTracker key cadence))
  /-- One more call. -/
  | called {m : Machine σ κ} {log} (before : Transacts number text log m) (call : StoreCall)
      {id reply} (about : call.target? = some id)
      (replies : (m.perform (call.toCall number)).replyDue = some reply)
      (accepted : ((m.perform (call.toCall number)).tracker number).store.persisted =
        ((m.perform (call.toCall number)).tracker number).store.version) :
      Transacts number text
        (log ++ [⟨call, reply, (m.tracker number).store.tasks.find? id,
          ((m.perform (call.toCall number)).tracker number).store.tasks.find? id⟩])
        (m.perform (call.toCall number))
  /-- Something else has happened. -/
  | passed {m m' : Machine σ κ} {log} (before : Transacts number text log m)
      (inside : number < m'.world.trackers.length)
      (kept : ∃ listeners,
        (m'.tracker number).store = { (m.tracker number).store with listeners })
      (shown : m'.world.storage.read (m.tracker number).store.key =
        m.world.storage.read (m.tracker number).store.key) :
      Transacts number text log m'

/-- Some calls, one right after the other. -/
def carried (number : Nat) (m : Machine σ κ) (calls : List StoreCall) : Machine σ κ :=
  calls.foldl (fun m call => m.perform (call.toCall number)) m

/-- Whether each of some calls is about one task, and what it changes is stored. -/
def accepts (number : Nat) (m : Machine σ κ) : List StoreCall → Bool
  | [] => true
  | call :: rest =>
    let m' := m.perform (call.toCall number)
    call.target?.isSome &&
      (m'.tracker number).store.persisted == (m'.tracker number).store.version &&
      accepts number m' rest

/-- Calls that are accepted may follow others. -/
theorem Transacts.carried (before : Transacts number text log m) (calls : List StoreCall)
    (accepted : accepts number m calls = true) :
    ∃ made, Transacts number text (log ++ made) (m.carried number calls) ∧
      made.map Transaction.call = calls := by
  induction calls generalizing m log with
  | nil => exact ⟨[], by rwa [List.append_nil], rfl⟩
  | cons call rest ih =>
    simp only [accepts, Bool.and_eq_true, beq_iff_eq] at accepted
    obtain ⟨⟨aimed, stored⟩, accepted⟩ := accepted
    obtain ⟨id, about⟩ := Option.isSome_iff_exists.mp aimed
    obtain ⟨_, w, change, reply, began, _⟩ := m.perform_toCall number call
    have replies : (m.perform (call.toCall number)).replyDue = some reply := by
      rw [began, replyDue_mutate]
    obtain ⟨made, transacts, calls⟩ := ih (before.called call about replies stored) accepted
    exact ⟨_ :: made, by rwa [List.append_assoc] at transacts,
      (List.map_cons ..).trans (congrArg (call :: ·) calls)⟩

/-- What a call comes to, beside its reply: a change of the collection. -/
theorem perform_toCall_change (m : Machine σ κ) (number : Nat) (call : StoreCall) :
    ∃ (α : Type) (w : World κ) (change : Mutation α) (reply : Reply),
      m.perform (call.toCall number) = (m.withWorld w).mutate number change reply ∧
      w.trackers = m.world.trackers ∧ w.storage = m.world.storage ∧
      Collection.Change (m.tracker number).store.tasks change ∧
      change.tasks = call.collection m.now (m.tracker number).store.tasks := by
  cases call with
  | add draft =>
    have same := m.world.stampDraft_trackers draft
    have task := m.world.stampDraft_task draft
    have calm := (m.world.near_stampDraft draft).storage
    have change : Collection.Change (m.tracker number).store.tasks
        ((m.tracker number).store.tasks.add (m.world.stampDraft draft).1) := .add _
    refine ⟨_, (m.world.stampDraft draft).2, _, .task (m.world.stampDraft draft).1, ?_, same, calm,
      change, ?_⟩
    · rw [StoreCall.toCall, perform, tracker, World.tracker, ← same]
      rfl
    · rw [task]
      rfl
  | update id patch => exact ⟨_, m.world, _, _, rfl, rfl, rfl, .update id patch, rfl⟩
  | remove id => exact ⟨_, m.world, _, _, rfl, rfl, rfl, .remove id, rfl⟩
  | clearTerminal => exact ⟨_, m.world, _, _, rfl, rfl, rfl, .clearTerminal, rfl⟩

/-- What is true of a store after some calls. -/
structure Account (number : Nat) (text : Option String) (log : List Transaction)
    (m : Machine σ κ) : Prop where
  inside : number < m.world.trackers.length
  keyed : (m.tracker number).store.tasks.Keyed
  stored : (m.tracker number).store.persisted = (m.tracker number).store.version
  /-- Every call was about one task. -/
  targets : ∀ t ∈ log, t.call.target?.isSome
  /-- The record of a task is what the calls about it have made of it. -/
  record : ∀ id, (m.tracker number).store.tasks.find? id =
    Transaction.last ((Collection.ofText text).find? id)
      ((log.map Transaction.call).filter fun c => c.target? = some id)
  /-- So are their replies. -/
  sequence : ∀ id, Transaction.about id log =
    Transaction.sequence ((Collection.ofText text).find? id)
      ((log.map Transaction.call).filter fun c => c.target? = some id)
  version : (m.tracker number).store.version = log.countP Transaction.counts
  keeps : ∃ shown, m.world.storage.read (m.tracker number).store.key = .ok shown ∧
    (m.tracker number).store.Keeps text (Transaction.IsPlain log) shown

variable {call : StoreCall} {id : TaskId}

theorem account_opened {key : String} {cadence : Cadence} (valid : cadence.check = .ok ())
    (next : number = m.world.trackers.length) (reads : m.world.storage.read key = .ok text) :
    Account number text [] (m.perform (.openTracker key cadence)) := by
  have opened : m.perform (.openTracker key cadence) =
      (m.withWorld (m.world.after (.opened key cadence))).reply
        (.number m.world.trackers.length) := by
    simp only [perform, valid]
    rfl
  have found : (m.perform (.openTracker key cadence)).tracker number =
      .ofStorage m.world.storage key cadence := by
    rw [opened, next]
    exact (m.world.tracker_opened _ _).trans (if_pos rfl)
  have tasks : ((m.perform (.openTracker key cadence)).tracker number).store.tasks =
      Collection.ofText text := by
    rw [found, ← Collection.hydrate_of_read reads]
    rfl
  refine ⟨?_, ?_, ?_, by simp, fun id => ?_, fun id => rfl, ?_, text, ?_, ?_⟩
  · simp [opened, next, reply, withWorld, World.after]
  · rw [found]
    exact Collection.keyed_hydrate _ _
  · rw [found]
    rfl
  · rw [tasks]
    rfl
  · rw [found]
    rfl
  · rw [found, opened]
    exact reads
  · exact .untouched (by rw [found]; rfl)

theorem Account.passed {m' : Machine σ κ} (account : Account number text log m)
    (inside : number < m'.world.trackers.length)
    (kept : ∃ listeners, (m'.tracker number).store = { (m.tracker number).store with listeners })
    (shown : m'.world.storage.read (m.tracker number).store.key =
      m.world.storage.read (m.tracker number).store.key) : Account number text log m' := by
  obtain ⟨listeners, same⟩ := kept
  obtain ⟨_, keyed, stored, targets, record, sequence, version, text', reads, keeps⟩ := account
  refine ⟨inside, ?_, ?_, targets, fun id => ?_, sequence, ?_, text', ?_, ?_⟩
  · rw [same]; exact keyed
  · rw [same]; exact stored
  · rw [same]; exact record id
  · rw [same]; exact version
  · rw [same]; exact shown.trans reads
  · rw [same]
    cases keeps with
    | untouched none => exact .untouched none
    | stored tasks some equal exact_ => exact .stored tasks some equal exact_

/-- What a call about a task comes to. It looks at the record of this task only, and changes no
other. -/
private theorem exists_change (inside : number < m.world.trackers.length)
    (keyed : (m.tracker number).store.tasks.Keyed) (about : call.target? = some id) :
    ∃ (α : Type) (change : Mutation α),
      ((m.perform (call.toCall number)).tracker number).store =
        ((m.tracker number).store.apply m.world.storage change).1 ∧
      (m.perform (call.toCall number)).world.storage =
        ((m.tracker number).store.apply m.world.storage change).2 ∧
      number < (m.perform (call.toCall number)).world.trackers.length ∧ change.tasks.Keyed ∧
      (∀ k, change.tasks.find? k =
        if k = id then call.entry ((m.tracker number).store.tasks.find? id)
        else (m.tracker number).store.tasks.find? k) ∧
      (m.perform (call.toCall number)).replyDue =
        some (call.reply ((m.tracker number).store.tasks.find? id)) ∧
      change.event.isSome =
        (Transaction.make ((m.tracker number).store.tasks.find? id) call).counts := by
  obtain ⟨α, w, change, reply, began, trackers, storage, made, tasks⟩ :=
    m.perform_toCall_change number call
  obtain ⟨_, _, _, reply', began', _, _, answers⟩ := m.perform_toCall number call
  have inside' : number < w.trackers.length := trackers ▸ inside
  have same : w.tracker number = m.tracker number := by
    rw [World.tracker, trackers]
    rfl
  have found : ∀ k, change.tasks.find? k =
      if k = id then call.entry ((m.tracker number).store.tasks.find? id)
      else (m.tracker number).store.tasks.find? k := fun k => by
    rw [tasks, StoreCall.find?_collection keyed, StoreCall.effect_eq about]
    rfl
  refine ⟨α, change, ?_, ?_, ?_, ?_, found, ?_, ?_⟩
  · rw [began, tracker, world_mutate, World.tracker_mutate, if_pos ⟨rfl, inside'⟩, ← storage,
      ← same]
    rfl
  · rw [began, world_mutate, ← storage, ← same]
    rfl
  · rw [began, world_mutate, World.length_trackers_mutate]
    exact inside'
  · rw [tasks]
    exact StoreCall.keyed_collection keyed _ call
  · rw [began', replyDue_mutate, StoreCall.reply_of_answers about answers]
  · have others : ∀ other ≠ id,
        change.tasks.find? other = (m.tracker number).store.tasks.find? other :=
      fun other differs => (found other).trans (if_neg differs)
    rw [(made.isTruthful keyed).event_isSome others, found, if_pos rfl]
    rfl

theorem Account.called (account : Account number text log m) {reply : Reply}
    (about : call.target? = some id)
    (replies : (m.perform (call.toCall number)).replyDue = some reply)
    (accepted : ((m.perform (call.toCall number)).tracker number).store.persisted =
      ((m.perform (call.toCall number)).tracker number).store.version) :
    Account number text
      (log ++ [⟨call, reply, (m.tracker number).store.tasks.find? id,
        ((m.perform (call.toCall number)).tracker number).store.tasks.find? id⟩])
      (m.perform (call.toCall number)) := by
  obtain ⟨inside, keyed, stored, targets, record, sequence, version, text', reads, keeps⟩ := account
  obtain ⟨_, change, store, storage, inside', keyed', found, due, counts⟩ :=
    exists_change inside keyed about
  have tasks : ((m.perform (call.toCall number)).tracker number).store.tasks = change.tasks := by
    rw [store, Store.tasks_apply]
  have transaction : (⟨call, reply, (m.tracker number).store.tasks.find? id,
      ((m.perform (call.toCall number)).tracker number).store.tasks.find? id⟩ : Transaction) =
      .make ((m.tracker number).store.tasks.find? id) call := by
    rw [tasks, found, if_pos rfl, Option.some.inj (replies.symm.trans due)]
    rfl
  rw [transaction]
  generalize same : Transaction.make ((m.tracker number).store.tasks.find? id) call = t at counts ⊢
  have target : t.call.target? = some id := same ▸ about
  have outcome := Store.apply_accepted stored (store ▸ accepted)
  refine ⟨inside', tasks ▸ keyed', accepted, fun u mem => ?_, fun k => ?_, fun k => ?_, ?_, ?_⟩
  · rcases List.mem_append.mp mem with old | new
    · exact targets u old
    · rw [List.mem_singleton.mp new, target]
      rfl
  · rw [Transaction.calls_concat target, tasks, found]
    split
    · next here =>
      rw [Transaction.last_append, ← record, here, ← same]
      rfl
    · rw [List.append_nil]
      exact record k
  · rw [Transaction.about_concat target, Transaction.calls_concat target, sequence]
    split
    · next here =>
      rw [Transaction.sequence_append, ← record, here, ← same]
      rfl
    · rw [List.append_nil, List.append_nil]
  · rw [List.countP_append, List.countP_singleton, store, ← counts, ← version]
    rcases outcome with ⟨silent, done⟩ | ⟨reported, _, done⟩
    · simp [done, silent]
    · simp [done, reported]
  · rw [storage, store]
    rcases outcome with ⟨silent, done⟩ | ⟨reported, written, done⟩
    · have before : (m.tracker number).store.tasks.find? id = t.before := by rw [← same]; rfl
      have after : ∀ k, change.tasks.find? k =
          if k = id then t.after else (m.tracker number).store.tasks.find? k := fun k => by
        rw [found, ← same]
        rfl
      rw [done]
      exact ⟨text', reads, keeps.replaced before after (counts.symm.trans silent)⟩
    · rw [done]
      exact ⟨_, Storage.read_stored written (Storage.answers_of_read reads),
        .stored change.tasks (Nat.succ_pos _) rfl fun _ => rfl⟩

/-- A store and its storage after some calls. -/
theorem Transacts.account (transacts : Transacts number text log m) :
    Account number text log m := by
  induction transacts with
  | opened valid next reads => exact account_opened valid next reads
  | called _ call about replies accepted ih => exact ih.called about replies accepted
  | passed _ inside kept shown ih => exact ih.passed inside kept shown

/-- Two stores are opened from the same text, and the calls about each task come in the same order.
Then each call replies the same in both, the records and the version are the same in the end, and so
is every list, in whatever order a collection gives its records. As long as only the same records
take the place of equal ones, the stored texts are the same. Otherwise the stored records may differ
in the sign of a zero: what is stored is the opening text, if nothing has counted, or records that
equal those of the store. -/
theorem interleaving_irrelevant {σ' κ' : Type} {m' : Machine σ' κ'} {number' : Nat}
    {log' : List Transaction} (first : Transacts number text log m)
    (second : Transacts number' text log' m')
    (same : ∀ id, (log.map Transaction.call).filter (fun c : StoreCall => c.target? = some id) =
      (log'.map Transaction.call).filter fun c : StoreCall => c.target? = some id) :
    let store := (m.tracker number).store
    let store' := (m'.tracker number').store
    (∀ id, Transaction.about id log = Transaction.about id log') ∧
      store.tasks = store'.tasks ∧ store.version = store'.version ∧
      (∀ records : List Task, records.Perm store.tasks.values →
        (∀ keep, (records.filter keep).foldr Collection.place [] = store'.tasks.listed keep) ∧
          records.mergeSort (fun a b => a.id ≤ b.id) = store'.tasks.values) ∧
      ∃ shown shown', m.world.storage.read store.key = .ok shown ∧
        m'.world.storage.read store'.key = .ok shown' ∧
        (Transaction.IsPlain log → shown = shown') ∧
        store.Keeps text (Transaction.IsPlain log) shown ∧
        store'.Keeps text (Transaction.IsPlain log) shown' := by
  intro store store'
  have account := first.account
  have account' := second.account
  have about : ∀ id, Transaction.about id log = Transaction.about id log' := fun id => by
    rw [account.sequence, account'.sequence, same]
  have tasks : store.tasks = store'.tasks := Dictionary.ext_find? fun id => by
    rw [account.record, account'.record, same]
  have perm : log.Perm log' := perm_of_filter (fun t => t.call.target?) fun target => by
    cases target with
    | some id => exact about id
    | none =>
      have aimed : ∀ {log : List Transaction}, (∀ t ∈ log, t.call.target?.isSome) →
          (log.filter fun t => t.call.target? = none) = [] := fun targets =>
        List.filter_eq_nil_iff.mpr fun t mem none_ => by
          simpa [of_decide_eq_true none_] using targets t mem
      rw [aimed account.targets, aimed account'.targets]
  have version : store.version = store'.version := by
    rw [account.version, account'.version, perm.countP_eq]
  have plain : Transaction.IsPlain log = Transaction.IsPlain log' := propext
    ⟨fun plain t mem => plain t (perm.mem_iff.mpr mem),
      fun plain t mem => plain t (perm.mem_iff.mp mem)⟩
  obtain ⟨shown, reads, keeps⟩ := account.keeps
  obtain ⟨shown', reads', keeps'⟩ := account'.keeps
  rw [← plain] at keeps'
  refine ⟨about, tasks, version, fun records order => ⟨fun keep => ?_, ?_⟩,
    shown, shown', reads, reads', fun exact_ => ?_, keeps, keeps'⟩
  · exact (Collection.listed_of_perm account.keyed order keep).trans (by rw [tasks])
  · exact (Collection.values_of_perm account.keyed order).trans (by rw [tasks])
  · exact keeps.unique version tasks keeps' exact_

/-- The records of two jobs are made and completed in turn, or one job after the other. -/
theorem interleaving_irrelevant_two_jobs :
    let opened : Machine Unit Unit :=
      (idle () (.blank .inMemory 0 true)).perform (.openTracker "tasks" .default)
    let made (id : TaskId) : StoreCall := .add { id, kind := .analysis, createdAt := some .epoch }
    let ended (id : TaskId) : StoreCall := .update id (.ofStatus .completed)
    let inTurn := [made "a", made "b", ended "a", ended "b"]
    let oneByOne := [made "b", ended "b", made "a", ended "a"]
    ∃ log log', Transacts 0 none log (opened.carried 0 inTurn) ∧
      Transacts 0 none log' (opened.carried 0 oneByOne) ∧
      log.map Transaction.call = inTurn ∧ log'.map Transaction.call = oneByOne ∧
      (∀ id, Transaction.about id log = Transaction.about id log') ∧
      ((opened.carried 0 inTurn).tracker 0).store.tasks =
        ((opened.carried 0 oneByOne).tracker 0).store.tasks ∧
      ((opened.carried 0 inTurn).tracker 0).store.version =
        ((opened.carried 0 oneByOne).tracker 0).store.version := by
  intro opened made ended inTurn oneByOne
  have start : Transacts 0 none [] opened := .opened rfl rfl rfl
  obtain ⟨log, transacts, calls⟩ := start.carried inTurn (by decide +kernel)
  obtain ⟨log', transacts', calls'⟩ := start.carried oneByOne (by decide +kernel)
  have same : ∀ id, inTurn.filter (fun c : StoreCall => c.target? = some id) =
      oneByOne.filter fun c : StoreCall => c.target? = some id := fun id => by
    by_cases a : "a" = id
    · subst a; rfl
    · by_cases b : "b" = id
      · subst b; rfl
      · simp [inTurn, oneByOne, made, ended, StoreCall.target?, a, b]
  obtain ⟨about, tasks, version, _⟩ :=
    interleaving_irrelevant transacts transacts' (by rwa [← calls, ← calls'] at same)
  exact ⟨log, log', transacts, transacts', calls, calls', about, tasks, version⟩

/-- A zero is kept, and then a zero of the other sign in its place. The records are equal, so this
is neither counted nor stored. What is stored in the end depends on whether the record of another
task is kept afterwards. -/
theorem interleaving_relevant_for_zeros :
    let opened : Machine Unit Unit :=
      (idle () (.blank .inMemory 0 true)).perform (.openTracker "tasks" .default)
    let made (id : TaskId) (metadata : Metadata) : StoreCall :=
      .add { id, kind := .analysis, metadata, createdAt := some .epoch }
    let zero (negative : Bool) : Metadata :=
      Dictionary.empty.insert "v" (.real (Binary64.zero negative))
    let late := [made "x" (zero false), made "y" .empty, made "x" (zero true)]
    let early := [made "x" (zero false), made "x" (zero true), made "y" .empty]
    (∀ id, late.filter (fun c : StoreCall => c.target? = some id) =
        early.filter fun c : StoreCall => c.target? = some id) ∧
      (∃ log, Transacts 0 none log (opened.carried 0 late) ∧ log.map Transaction.call = late) ∧
      (∃ log, Transacts 0 none log (opened.carried 0 early) ∧ log.map Transaction.call = early) ∧
      (opened.carried 0 late).world.storage.read "tasks" ≠
        (opened.carried 0 early).world.storage.read "tasks" := by
  intro opened made zero late early
  have start : Transacts 0 none [] opened := .opened rfl rfl rfl
  refine ⟨fun id => ?_, start.carried late (by decide +kernel),
    start.carried early (by decide +kernel), by decide +kernel⟩
  by_cases x : "x" = id
  · subst x; rfl
  · by_cases y : "y" = id
    · subst y; rfl
    · simp [late, early, made, StoreCall.target?, x, y]

end Machine

end TaskWatch
