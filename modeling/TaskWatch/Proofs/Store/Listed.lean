import TaskWatch.Proofs.Store.Collection

/-!
# Lists of records

Records are listed by creation time, and those of one time by identifier. Among records with
different identifiers this order is total, so a list is determined by what is on it.

## Main definitions

* `Task.Precedes` — the order of the lists.

## Main results

* `Collection.mem_listed` — what is on a list.
* `Collection.listed_ordered` — a list is in order; hence nothing is on it twice
  (`Collection.nodup_listed`, `Collection.listed_distinct`).
* `Collection.listed_of_perm`, `Collection.values_of_perm` — it does not matter in which order a
  collection gives its records.
-/

namespace TaskWatch

/-! ### The order of time -/

namespace Instant

theorem before_iff {a b : Instant} : a.before b ↔
    a.day < b.day ∨ a.day = b.day ∧
      (a.second < b.second ∨ a.second = b.second ∧ a.nano < b.nano) := by
  simp only [before, Bool.or_eq_true, Bool.and_eq_true, decide_eq_true_eq, beq_iff_eq]

theorem before_trans {a b d : Instant} (h : a.before b) (h' : b.before d) : a.before d := by
  rw [before_iff] at h h' ⊢
  omega

theorem not_before_self (a : Instant) : ¬ a.before a := by
  rw [before_iff]
  omega

theorem before_or_eq_or_before (a b : Instant) : a.before b ∨ a = b ∨ b.before a := by
  obtain ⟨day, second, nano⟩ := a
  obtain ⟨day', second', nano'⟩ := b
  simp only [before_iff, Instant.mk.injEq]
  omega

end Instant

/-! ### The order of records -/

namespace Task

/-- One record stands before another in every list. -/
def Precedes (a b : Task) : Prop :=
  a.createdAt.before b.createdAt ∨ a.createdAt = b.createdAt ∧ a.id < b.id

theorem listedBefore_iff {a b : Task} : a.listedBefore b ↔ a.Precedes b := by
  simp only [listedBefore, Precedes, Bool.or_eq_true, Bool.and_eq_true, decide_eq_true_eq,
    beq_iff_eq]

theorem Precedes.trans {a b d : Task} (h : a.Precedes b) (h' : b.Precedes d) : a.Precedes d := by
  rcases h with h | ⟨same, h⟩ <;> rcases h' with h' | ⟨same', h'⟩
  · exact .inl (Instant.before_trans h h')
  · exact .inl (same' ▸ h)
  · exact .inl (same ▸ h')
  · exact .inr ⟨same.trans same', String.lt_trans h h'⟩

theorem not_precedes_self (a : Task) : ¬ a.Precedes a := by
  rintro (h | ⟨_, h⟩)
  · exact a.createdAt.not_before_self h
  · exact String.lt_irrefl _ h

/-- Of two records with different identifiers one stands before the other. -/
theorem precedes_or_precedes {a b : Task} (different : a.id ≠ b.id) :
    a.Precedes b ∨ b.Precedes a := by
  rcases a.createdAt.before_or_eq_or_before b.createdAt with h | same | h
  · exact .inl (.inl h)
  · rcases Std.lt_trichotomy a.id b.id with h | h | h
    · exact .inl (.inr ⟨same, h⟩)
    · exact absurd h different
    · exact .inr (.inr ⟨same.symm, h⟩)
  · exact .inr (.inl h)

end Task

/-! ### Lists -/

namespace Collection

theorem mem_place {task other : Task} {tasks : List Task} :
    other ∈ place task tasks ↔ other = task ∨ other ∈ tasks := by
  induction tasks with
  | nil => simp [place]
  | cons head rest ih =>
    rw [place]
    split
    · rw [List.mem_cons, ih, List.mem_cons]
      exact or_left_comm
    · rw [List.mem_cons]

theorem place_ordered {task : Task} {tasks : List Task} (ordered : tasks.Pairwise Task.Precedes)
    (new : ∀ other ∈ tasks, other.id ≠ task.id) : (place task tasks).Pairwise Task.Precedes := by
  induction tasks with
  | nil => simp [place]
  | cons head rest ih =>
    obtain ⟨first, tail⟩ := List.pairwise_cons.mp ordered
    rw [place]
    split
    · next before =>
      refine List.pairwise_cons.mpr ⟨fun other mem => ?_,
        ih tail fun other mem => new other (List.mem_cons_of_mem _ mem)⟩
      rcases mem_place.mp mem with rfl | mem
      · exact Task.listedBefore_iff.mp before
      · exact first other mem
    · next notBefore =>
      have after : task.Precedes head :=
        (Task.precedes_or_precedes (new head List.mem_cons_self)).resolve_left
          fun before => notBefore (Task.listedBefore_iff.mpr before)
      refine List.pairwise_cons.mpr ⟨fun other mem => ?_, ordered⟩
      rcases List.mem_cons.mp mem with rfl | mem
      · exact after
      · exact after.trans (first other mem)

variable {tasks : Collection}

private theorem mem_foldr_place {task : Task} {given : List Task} :
    task ∈ given.foldr place [] ↔ task ∈ given := by
  induction given with
  | nil => rfl
  | cons head rest ih => rw [List.foldr_cons, mem_place, ih, List.mem_cons]

private theorem foldr_place_ordered {given : List Task}
    (distinct : given.Pairwise fun a b => b.id ≠ a.id) :
    (given.foldr place []).Pairwise Task.Precedes := by
  induction given with
  | nil => exact .nil
  | cons head rest ih =>
    obtain ⟨first, tail⟩ := List.pairwise_cons.mp distinct
    exact place_ordered (ih tail) fun other mem => first other (mem_foldr_place.mp mem)

/-- Records kept under their own identifiers have different ones. -/
theorem Keyed.values_distinct (keyed : tasks.Keyed) :
    tasks.values.Pairwise fun a b => b.id ≠ a.id := by
  refine List.pairwise_map.mpr (tasks.ascending.imp_of_mem fun {a b} memA memB below same => ?_)
  have keyA : a.2.id = a.1 := keyed (tasks.mem_entries.mp memA)
  have keyB : b.2.id = b.1 := keyed (tasks.mem_entries.mp memB)
  rw [← keyA, ← keyB, same] at below
  exact String.lt_irrefl _ below

theorem mem_listed (keyed : tasks.Keyed) {keep : Task → Bool} {task : Task} :
    task ∈ tasks.listed keep ↔ tasks.find? task.id = some task ∧ keep task := by
  rw [listed, mem_foldr_place, List.mem_filter, Dictionary.mem_values]
  exact and_congr_left fun _ =>
    ⟨fun ⟨key, found⟩ => keyed found ▸ found, fun found => ⟨task.id, found⟩⟩

theorem listed_ordered (keyed : tasks.Keyed) (keep : Task → Bool) :
    (tasks.listed keep).Pairwise Task.Precedes :=
  foldr_place_ordered (keyed.values_distinct.filter keep)

private theorem nodup_of_ordered {given : List Task} (ordered : given.Pairwise Task.Precedes) :
    given.Nodup := by
  refine List.Pairwise.imp ?_ ordered
  rintro task _ before rfl
  exact task.not_precedes_self before

theorem nodup_listed (keyed : tasks.Keyed) (keep : Task → Bool) : (tasks.listed keep).Nodup :=
  nodup_of_ordered (listed_ordered keyed keep)

/-- The records on a list have different identifiers. -/
theorem listed_distinct (keyed : tasks.Keyed) (keep : Task → Bool) :
    (tasks.listed keep).Pairwise fun a b => b.id ≠ a.id := by
  refine (nodup_listed keyed keep).imp_of_mem fun {a b} memA memB differ same => ?_
  have foundA := ((mem_listed keyed).mp memA).1
  have foundB := ((mem_listed keyed).mp memB).1
  exact differ (Option.some.inj (foundA.symm.trans (same ▸ foundB)))

/-! ### In whatever order the records come -/

variable {records : List Task}

/-- A list does not depend on the order in which a collection gives its records. -/
theorem listed_of_perm (keyed : tasks.Keyed) (order : records.Perm tasks.values)
    (keep : Task → Bool) : (records.filter keep).foldr place [] = tasks.listed keep := by
  have distinct : records.Pairwise fun a b => b.id ≠ a.id :=
    order.symm.pairwise keyed.values_distinct Ne.symm
  have ordered := foldr_place_ordered (distinct.filter keep)
  have ordered' := listed_ordered keyed keep
  have same : ((records.filter keep).foldr place []).Perm (tasks.listed keep) := by
    refine (List.perm_ext_iff_of_nodup (nodup_of_ordered ordered) (nodup_of_ordered ordered')).mpr
      fun task => ?_
    rw [listed, mem_foldr_place, mem_foldr_place]
    exact (order.filter keep).mem_iff
  refine same.eq_of_pairwise (fun a b _ _ before after => ?_) ordered ordered'
  exact absurd (before.trans after) a.not_precedes_self

/-- Neither do the records in the order of their identifiers. -/
theorem values_of_perm (keyed : tasks.Keyed) (order : records.Perm tasks.values) :
    records.mergeSort (fun a b => a.id ≤ b.id) = tasks.values := by
  have sorted : tasks.values.Pairwise fun a b => decide (a.id ≤ b.id) := by
    refine List.pairwise_map.mpr (tasks.ascending.imp_of_mem fun {a b} memA memB below => ?_)
    have keyA : a.2.id = a.1 := keyed (tasks.mem_entries.mp memA)
    have keyB : b.2.id = b.1 := keyed (tasks.mem_entries.mp memB)
    rw [keyA, keyB]
    exact decide_eq_true (Std.le_of_lt below)
  have found : ∀ {task : Task}, task ∈ tasks.values → tasks.find? task.id = some task := by
    intro task mem
    obtain ⟨key, found⟩ := tasks.mem_values.mp mem
    exact keyed found ▸ found
  have perm := (records.mergeSort_perm fun a b => a.id ≤ b.id).trans order
  refine perm.eq_of_pairwise (fun a b memA memB below above => ?_)
    (List.pairwise_mergeSort (fun a b d below above => ?_) (fun a b => ?_) records) sorted
  · have same : a.id = b.id :=
      String.le_antisymm (of_decide_eq_true below) (of_decide_eq_true above)
    exact Option.some.inj ((found (perm.mem_iff.mp memA)).symm.trans (same ▸ found memB))
  · exact decide_eq_true (String.le_trans (of_decide_eq_true below) (of_decide_eq_true above))
  · simpa using String.le_total a.id b.id

end Collection

end TaskWatch
