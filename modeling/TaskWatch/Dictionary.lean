/-!
# Dictionaries keyed by text

A dictionary is a list of entries in strictly increasing order of their keys, so two
dictionaries with the same entries are equal and nothing depends on the order in which they
were filled. Texts are compared by code point, which is the order of their UTF-8 bytes.

## Main definitions

* `Entries.find?`, `Entries.insert`, `Entries.erase` — the operations on bare entry lists.
* `Dictionary` — an entry list together with the fact that it is ascending.

## Main results

* `Entries.find?_insert`, `Entries.find?_erase` — what a look-up sees after a change.
* `Entries.ascending_insert`, `Entries.ascending_erase` — changes keep the order.
* `Dictionary.mem_entries`, `Dictionary.mem_keys`, `Dictionary.mem_values` — the entries are what
  look-ups find.
* `Dictionary.find?_ofList` — of equal keys the last one counts.
* `Dictionary.ofList_entries` — a dictionary is filled again from its entries.
-/

namespace TaskWatch

variable {α β : Type}

namespace Entries

/-- The keys grow strictly from one entry to the next. -/
def Ascending (entries : List (String × α)) : Prop :=
  entries.Pairwise fun a b => a.1 < b.1

instance (entries : List (String × α)) : Decidable (Ascending entries) :=
  inferInstanceAs (Decidable (entries.Pairwise fun a b => a.1 < b.1))

/-- The value of the first entry with the given key. -/
def find? (key : String) : List (String × α) → Option α
  | [] => none
  | (k, v) :: rest => if key = k then some v else find? key rest

/-- Put an entry at its place, replacing one with the same key. -/
def insert (key : String) (value : α) : List (String × α) → List (String × α)
  | [] => [(key, value)]
  | (k, v) :: rest =>
    if key < k then (key, value) :: (k, v) :: rest
    else if key = k then (key, value) :: rest
    else (k, v) :: insert key value rest

/-- Drop the entries with the given key. -/
def erase (key : String) (entries : List (String × α)) : List (String × α) :=
  entries.filter fun entry => entry.1 != key

/-- Insert entries one after the other, so that the last of equal keys wins. -/
def ofList (entries : List (String × α)) : List (String × α) :=
  entries.foldl (fun acc entry => insert entry.1 entry.2 acc) []

/-! ### Look-up after a change -/

theorem find?_insert (key other : String) (value : α) (entries : List (String × α)) :
    find? other (insert key value entries) =
      if other = key then some value else find? other entries := by
  induction entries with
  | nil => simp [insert, find?]
  | cons entry rest ih =>
    obtain ⟨k, v⟩ := entry
    grind [insert, find?]

theorem find?_erase (key other : String) (entries : List (String × α)) :
    find? other (erase key entries) = if other = key then none else find? other entries := by
  induction entries with
  | nil => simp [erase, find?]
  | cons entry rest ih =>
    obtain ⟨k, v⟩ := entry
    simp only [erase, List.filter_cons, find?] at ih ⊢
    grind [find?]

/-! ### The order of the keys -/

theorem mem_insert {key : String} {value : α} {entries : List (String × α)}
    {entry : String × α} (h : entry ∈ insert key value entries) :
    entry = (key, value) ∨ entry ∈ entries := by
  induction entries with
  | nil => simpa [insert] using h
  | cons head rest ih =>
    obtain ⟨k, v⟩ := head
    grind [insert]

theorem ascending_insert (key : String) (value : α) {entries : List (String × α)}
    (h : Ascending entries) : Ascending (insert key value entries) := by
  induction entries with
  | nil => simp [insert, Ascending]
  | cons head rest ih =>
    obtain ⟨k, v⟩ := head
    obtain ⟨below, tail⟩ := List.pairwise_cons.mp h
    simp only [insert]
    split
    · next before =>
      refine List.pairwise_cons.mpr ⟨fun entry mem => ?_, h⟩
      rcases List.mem_cons.mp mem with rfl | mem
      · exact before
      · exact String.lt_trans before (below _ mem)
    · next notBefore =>
      split
      · next same => exact List.pairwise_cons.mpr ⟨fun entry mem => same ▸ below _ mem, tail⟩
      · next other =>
        refine List.pairwise_cons.mpr ⟨fun entry mem => ?_, ih tail⟩
        rcases mem_insert mem with rfl | mem
        · show k < key
          exact Std.lt_of_le_of_ne (Std.not_lt.mp notBefore) (fun e => other e.symm)
        · exact below _ mem

theorem ascending_erase (key : String) {entries : List (String × α)} (h : Ascending entries) :
    Ascending (erase key entries) :=
  List.Pairwise.filter _ h

theorem ascending_filter (keep : String × α → Bool) {entries : List (String × α)}
    (h : Ascending entries) : Ascending (entries.filter keep) :=
  List.Pairwise.filter _ h

/-! ### Entries and look-ups -/

theorem find?_eq_some_iff {entries : List (String × α)} (h : Ascending entries) {key : String}
    {value : α} : find? key entries = some value ↔ (key, value) ∈ entries := by
  induction entries with
  | nil => simp [find?]
  | cons entry rest ih =>
    obtain ⟨k, v⟩ := entry
    obtain ⟨below, tail⟩ := List.pairwise_cons.mp h
    rw [find?]
    split
    · next same =>
      subst same
      have absent : (key, value) ∉ rest := fun mem => String.lt_irrefl key (below _ mem)
      simp [absent, eq_comm]
    · next other => simp [ih tail, other]

theorem find?_filter (keep : String × α → Bool) {entries : List (String × α)}
    (h : Ascending entries) (key : String) :
    find? key (entries.filter keep) = (find? key entries).filter fun v => keep (key, v) := by
  ext value
  rw [find?_eq_some_iff (ascending_filter keep h), Option.filter_eq_some_iff,
    find?_eq_some_iff h, List.mem_filter]

/-! ### Entries put in one after the other -/

/-- An entry with a greater key than all others is put behind them. -/
theorem insert_above {key : String} {value : α} {entries : List (String × α)}
    (above : ∀ entry ∈ entries, entry.1 < key) :
    insert key value entries = entries ++ [(key, value)] := by
  induction entries with
  | nil => rfl
  | cons head rest ih =>
    obtain ⟨k, v⟩ := head
    have greater : k < key := above _ List.mem_cons_self
    have other : key ≠ k := fun same => String.lt_irrefl k (same ▸ greater)
    rw [insert, if_neg (String.lt_asymm greater), if_neg other,
      ih fun entry mem => above entry (List.mem_cons_of_mem _ mem), List.cons_append]

private theorem foldl_insert {entries before : List (String × α)}
    (h : Ascending (before ++ entries)) :
    entries.foldl (fun acc entry => insert entry.1 entry.2 acc) before = before ++ entries := by
  induction entries generalizing before with
  | nil => simp
  | cons head rest ih =>
    have above : ∀ entry ∈ before, entry.1 < head.1 := fun entry mem =>
      (List.pairwise_append.mp h).2.2 entry mem head List.mem_cons_self
    have split : before ++ head :: rest = (before ++ [head]) ++ rest := by simp
    rw [List.foldl_cons, insert_above above, ih (split ▸ h), split]

/-- Entries in ascending order stay as they are. -/
theorem ofList_of_ascending {entries : List (String × α)} (h : Ascending entries) :
    ofList entries = entries :=
  foldl_insert h

end Entries

/-- Entries whose keys grow strictly. -/
structure Dictionary (α : Type) where
  /-- The entries, the smallest key first. -/
  entries : List (String × α)
  /-- The keys grow strictly. -/
  ascending : Entries.Ascending entries

namespace Dictionary

/-- The dictionary without entries. -/
def empty : Dictionary α := ⟨[], List.Pairwise.nil⟩

instance : Inhabited (Dictionary α) := ⟨empty⟩

/-- The value kept under a key. -/
def find? (d : Dictionary α) (key : String) : Option α := Entries.find? key d.entries

/-- Whether a value is kept under the key. -/
def contains (d : Dictionary α) (key : String) : Bool := (d.find? key).isSome

/-- Keep a value under a key, replacing the one that was there. -/
def insert (d : Dictionary α) (key : String) (value : α) : Dictionary α :=
  ⟨Entries.insert key value d.entries, Entries.ascending_insert key value d.ascending⟩

/-- Forget what is kept under a key. -/
def erase (d : Dictionary α) (key : String) : Dictionary α :=
  ⟨Entries.erase key d.entries, Entries.ascending_erase key d.ascending⟩

/-- Keep only the entries that pass a test. -/
def filter (d : Dictionary α) (keep : String × α → Bool) : Dictionary α :=
  ⟨d.entries.filter keep, Entries.ascending_filter keep d.ascending⟩

/-- Fill a dictionary from a list in which the last of equal keys wins. -/
def ofList (entries : List (String × α)) : Dictionary α :=
  entries.foldl (fun d entry => d.insert entry.1 entry.2) empty

/-- The keys, smallest first. -/
def keys (d : Dictionary α) : List String := d.entries.map Prod.fst

/-- The values in the order of their keys. -/
def values (d : Dictionary α) : List α := d.entries.map Prod.snd

/-- The number of entries. -/
def size (d : Dictionary α) : Nat := d.entries.length

theorem find?_insert (d : Dictionary α) (key other : String) (value : α) :
    (d.insert key value).find? other = if other = key then some value else d.find? other :=
  Entries.find?_insert key other value d.entries

theorem find?_erase (d : Dictionary α) (key other : String) :
    (d.erase key).find? other = if other = key then none else d.find? other :=
  Entries.find?_erase key other d.entries

theorem find?_filter (d : Dictionary α) (keep : String × α → Bool) (key : String) :
    (d.filter keep).find? key = (d.find? key).filter fun v => keep (key, v) :=
  Entries.find?_filter keep d.ascending key

@[simp]
theorem find?_empty (key : String) : (empty : Dictionary α).find? key = none := rfl

theorem mem_entries (d : Dictionary α) {key : String} {value : α} :
    (key, value) ∈ d.entries ↔ d.find? key = some value :=
  (Entries.find?_eq_some_iff d.ascending).symm

theorem mem_keys (d : Dictionary α) {key : String} : key ∈ d.keys ↔ (d.find? key).isSome := by
  simp only [keys, List.mem_map, Prod.exists, mem_entries, Option.isSome_iff_exists]
  exact ⟨fun ⟨_, v, found, same⟩ => ⟨v, same ▸ found⟩, fun ⟨v, found⟩ => ⟨key, v, found, rfl⟩⟩

theorem mem_values (d : Dictionary α) {value : α} :
    value ∈ d.values ↔ ∃ key, d.find? key = some value := by
  simp only [values, List.mem_map, Prod.exists, mem_entries, exists_eq_right]

theorem keys_ascending (d : Dictionary α) : d.keys.Pairwise (· < ·) :=
  List.pairwise_map.mpr d.ascending

theorem nodup_keys (d : Dictionary α) : d.keys.Nodup := by
  refine List.Pairwise.imp ?_ d.keys_ascending
  rintro key _ below rfl
  exact String.lt_irrefl key below

private theorem find?_foldl_insert (entries : List (String × α)) (d : Dictionary α)
    (key : String) :
    (entries.foldl (fun d entry => d.insert entry.1 entry.2) d).find? key =
      ((entries.reverse.find? fun entry => entry.1 = key).map Prod.snd).or (d.find? key) := by
  induction entries generalizing d with
  | nil => simp
  | cons entry rest ih =>
    rw [List.foldl_cons, ih, find?_insert, List.reverse_cons, List.find?_append]
    cases rest.reverse.find? fun entry => entry.1 = key with
    | some found => simp
    | none =>
      by_cases same : key = entry.1
      · simp [same]
      · simp [same, Ne.symm same]

/-- Of equal keys the last one counts. -/
theorem find?_ofList (entries : List (String × α)) (key : String) :
    (ofList entries).find? key =
      (entries.reverse.find? fun entry => entry.1 = key).map Prod.snd := by
  rw [ofList, find?_foldl_insert, find?_empty, Option.or_none]

/-- Filling a dictionary is filling its entries. -/
theorem entries_ofList (entries : List (String × α)) :
    (ofList entries).entries = Entries.ofList entries := by
  have fold : ∀ (entries : List (String × α)) (d : Dictionary α),
      (entries.foldl (fun d entry => d.insert entry.1 entry.2) d).entries =
        entries.foldl (fun acc entry => Entries.insert entry.1 entry.2 acc) d.entries := by
    intro entries
    induction entries with
    | nil => exact fun d => rfl
    | cons head rest ih => exact fun d => ih _
  exact fold entries empty

/-- A dictionary is filled again from its entries. -/
theorem ofList_entries (d : Dictionary α) : ofList d.entries = d := by
  have same : (ofList d.entries).entries = d.entries := by
    rw [entries_ofList, Entries.ofList_of_ascending d.ascending]
  cases filled : ofList d.entries
  cases d
  rw [filled] at same
  congr

end Dictionary

end TaskWatch
