import TaskWatch.Proofs.Json.Free

/-!
# What is read can occur

A text may write the members of an object in any order and more than once, and numbers of any size.
What is read from it is in one form all the same: the whole numbers fit 64 bits, the members of an
object ascend, and no more containers are open at once than there was room for. So everything that
has been read can be written and read again.

## Main results

* `Json.freeValue?_proper` — a value that has been read can occur, and is not too deep.
* `Json.Decoder.metadata_proper` — so can free-form members.
-/

namespace TaskWatch

/-- The entries of a list that was filled from others are among these. -/
theorem Entries.mem_ofList {α : Type} {entries : List (String × α)} {entry : String × α}
    (mem : entry ∈ ofList entries) : entry ∈ entries := by
  have filled : ∀ (rest before : List (String × α)),
      entry ∈ rest.foldl (fun acc e => insert e.1 e.2 acc) before →
      entry ∈ before ∨ entry ∈ rest := by
    intro rest
    induction rest with
    | nil => exact fun before mem => .inl mem
    | cons head rest ih =>
      intro before mem
      rcases ih _ mem with inserted | later
      · rcases mem_insert inserted with rfl | there
        · exact .inr List.mem_cons_self
        · exact .inl there
      · exact .inr (List.mem_cons_of_mem _ later)
  rcases filled entries [] mem with none | there
  · simp at none
  · exact there

/-- A list that was filled from others is in ascending order. -/
theorem Entries.ascending_ofList {α : Type} (entries : List (String × α)) :
    Ascending (ofList entries) :=
  Dictionary.entries_ofList entries ▸ (Dictionary.ofList entries).ascending

namespace Json

theorem isProperMembers_iff (members : List (String × Json)) :
    isProperMembers members = true ↔ ∀ member ∈ members, member.2.isProper = true := by
  induction members with
  | nil => simp [isProperMembers]
  | cons member rest ih => simp [isProperMembers, ih]

/-- A number is read as a whole number that fits 64 bits, or as a binary64 number. -/
theorem NumberText.value?_eq_some {n : NumberText} {value : Json} (read : n.value? = some value) :
    (∃ i : Int, value = .whole i ∧ FitsWord i) ∨ ∃ x, value = .real x := by
  rw [NumberText.value?] at read
  split at read
  · next plain =>
    have small : digitsValue n.whole < 18446744073709551616 :=
      of_decide_eq_true (Bool.and_eq_true_iff.mp plain).2
    exact .inl ⟨_, (Option.some.inj read).symm, by constructor <;> omega⟩
  · split at read
    · next negative =>
      have small : digitsValue n.whole ≤ 9223372036854775808 :=
        of_decide_eq_true (Bool.and_eq_true_iff.mp negative).2
      exact .inl ⟨_, (Option.some.inj read).symm, by constructor <;> omega⟩
    · obtain ⟨x, -, same⟩ := Option.map_eq_some_iff.mp read
      exact .inr ⟨_, same.symm⟩

/-- An object is proper whatever the order of the members that it is made from. -/
theorem isProper_ofMembers {members : List (String × Json)}
    (each : isProperMembers members = true) : (ofMembers members).isProper = true := by
  have values : isProperMembers (Entries.ofList members) = true :=
    (isProperMembers_iff _).mpr fun member mem =>
      (isProperMembers_iff _).mp each member (Entries.mem_ofList mem)
  exact Bool.and_eq_true_iff.mpr ⟨decide_eq_true (Entries.ascending_ofList members), values⟩

theorem depthMembers_ofList_le {members : List (String × Json)} {room : Nat}
    (each : depthMembers members ≤ room) : depthMembers (Entries.ofList members) ≤ room :=
  (depthMembers_le_iff _ _).mpr fun member mem =>
    (depthMembers_le_iff _ _).mp each member (Entries.mem_ofList mem)

mutual

/-- A value that has been read can occur, and there was room for it. -/
theorem freeValue?_proper : ∀ {tree : Raw} {room : Nat} {value : Json},
    freeValue? room tree = some value → value.isProper = true ∧ depth value ≤ room
  | .null, room, value, read => by
    obtain rfl : Json.null = value := Option.some.inj read
    exact ⟨rfl, Nat.zero_le _⟩
  | .bool b, room, value, read => by
    obtain rfl : Json.bool b = value := Option.some.inj read
    exact ⟨rfl, Nat.zero_le _⟩
  | .number written, room, value, read => by
    rcases NumberText.value?_eq_some read with ⟨i, rfl, fits⟩ | ⟨x, rfl⟩
    · exact ⟨decide_eq_true fits, Nat.zero_le _⟩
    · exact ⟨rfl, Nat.zero_le _⟩
  | .text written, room, value, read => by
    obtain ⟨s, -, rfl⟩ := Option.map_eq_some_iff.mp read
    exact ⟨rfl, Nat.zero_le _⟩
  | .array items, 0, value, read => by simp [freeValue?] at read
  | .array items, room + 1, value, read => by
    obtain ⟨values, each, rfl⟩ := Option.map_eq_some_iff.mp read
    obtain ⟨proper, shallow⟩ := freeItems?_proper each
    exact ⟨proper, Nat.succ_le_succ shallow⟩
  | .object members, 0, value, read => by simp [freeValue?] at read
  | .object members, room + 1, value, read => by
    obtain ⟨values, each, rfl⟩ := Option.map_eq_some_iff.mp read
    obtain ⟨proper, shallow⟩ := freeMembers?_proper each
    exact ⟨isProper_ofMembers proper, Nat.succ_le_succ (depthMembers_ofList_le shallow)⟩

theorem freeItems?_proper : ∀ {trees : List Raw} {room : Nat} {items : List Json},
    freeItems? room trees = some items → isProperItems items = true ∧ depthItems items ≤ room
  | [], room, items, read => by
    obtain rfl : [] = items := Option.some.inj read
    exact ⟨rfl, Nat.zero_le _⟩
  | tree :: rest, room, items, read => by
    rw [freeItems?] at read
    split at read
    · simp at read
    · next value first =>
      obtain ⟨values, others, rfl⟩ := Option.map_eq_some_iff.mp read
      obtain ⟨proper, shallow⟩ := freeValue?_proper first
      obtain ⟨properRest, shallowRest⟩ := freeItems?_proper others
      exact ⟨Bool.and_eq_true_iff.mpr ⟨proper, properRest⟩, Nat.max_le.mpr ⟨shallow, shallowRest⟩⟩

theorem freeMembers?_proper : ∀ {trees : List (List Char × Raw)} {room : Nat}
    {members : List (String × Json)}, freeMembers? room trees = some members →
    isProperMembers members = true ∧ depthMembers members ≤ room
  | [], room, members, read => by
    obtain rfl : [] = members := Option.some.inj read
    exact ⟨rfl, Nat.zero_le _⟩
  | (key, tree) :: rest, room, members, read => by
    rw [freeMembers?] at read
    split at read
    · next key value named first =>
      obtain ⟨values, others, rfl⟩ := Option.map_eq_some_iff.mp read
      obtain ⟨proper, shallow⟩ := freeValue?_proper first
      obtain ⟨properRest, shallowRest⟩ := freeMembers?_proper others
      exact ⟨Bool.and_eq_true_iff.mpr ⟨proper, properRest⟩, Nat.max_le.mpr ⟨shallow, shallowRest⟩⟩
    · simp at read

end

/-- Free-form members that have been read can occur, and there was room for their values. -/
theorem Decoder.metadata_proper {tree : Raw} {room : Nat} {metadata : Metadata}
    (read : Decoder.metadata room tree = some metadata) :
    isProperMembers metadata.entries = true ∧ depthMembers metadata.entries + 1 ≤ room := by
  unfold Decoder.metadata at read
  split at read
  · obtain ⟨values, each, rfl⟩ := Option.map_eq_some_iff.mp read
    obtain ⟨proper, shallow⟩ := freeMembers?_proper each
    rw [Dictionary.entries_ofList]
    exact ⟨(Bool.and_eq_true_iff.mp (isProper_ofMembers proper)).2,
      Nat.succ_le_succ (depthMembers_ofList_le shallow)⟩
  · simp at read

end Json

end TaskWatch
