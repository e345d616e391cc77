import TaskWatch.Proofs.Json.Syntax

/-!
# Records, written and read

What the decoders of records make of the trees of written values: a text, a number and a word are
found in place, a record has its fields whatever their names, as long as these are different, and a
list is read item by item.

## Main results

* `Json.Decoder.fields_raw` — the fields of a written record.
* `Json.Decoder.listOf_raw` — the items of a written list, if each of them can be read.
-/

namespace TaskWatch.Json.Decoder

variable {α : Type}

/-! ### Scalars -/

theorem text_raw (room : Nat) (s : String) : text room (raw (.text s)) = some s := by
  rw [raw, text, textOf?_escape]

theorem natural_raw {limit n : Nat} (small : n < limit) (fits : FitsWord n) (room : Nat) :
    natural limit room (raw (.whole n)) = some n := by
  have range : (0 : Int) ≤ n ∧ (n : Int) < limit := by omega
  simp only [raw, natural, NumberText.value?_wholeText fits, if_pos range, Int.toNat_natCast]

theorem word_raw (meaning : String → Option α) (room : Nat) (s : String) :
    word meaning room (raw (.text s)) = meaning s := by
  rw [raw, word, textOf?_escape, Option.bind_some]

/-! ### Fields -/

theorem keyed?_rawMembers (members : List (String × Json)) :
    keyed? (rawMembers members) = some (members.map fun member => (member.1, raw member.2)) := by
  induction members with
  | nil => rfl
  | cons member rest ih =>
    obtain ⟨key, value⟩ := member
    simp only [rawMembers, keyed?, textOf?_escape, ih, Option.map_some, List.map_cons]

/-- Where names are different, the tree of a field is that of the member with its name. -/
theorem field?_of_mem {members : List (String × Raw)} (distinct : (members.map Prod.fst).Nodup)
    {name : String} {tree : Raw} (mem : (name, tree) ∈ members) :
    field? members name = some (some tree) := by
  have one : members.filter (·.1 = name) = [(name, tree)] := by
    induction members with
    | nil => simp at mem
    | cons member rest ih =>
      obtain ⟨others, tail⟩ := List.nodup_cons.mp distinct
      rcases List.mem_cons.mp mem with rfl | mem
      · have none_ : rest.filter (·.1 = name) = [] := by
          refine List.filter_eq_nil_iff.mpr fun other there => ?_
          have different : other.1 ≠ name := fun same =>
            others (List.mem_map.mpr ⟨other, there, same⟩)
          simpa using different
        simp [none_]
      · have different : member.1 ≠ name := fun same =>
          others (List.mem_map.mpr ⟨(name, tree), mem, same.symm⟩)
        simp [different, ih tail mem]
  rw [field?, one]

private theorem mapM_field? {members rest : List (String × Raw)}
    (distinct : (members.map Prod.fst).Nodup) (part : ∀ member ∈ rest, member ∈ members) :
    (rest.map Prod.fst).mapM (field? members) = some (rest.map fun member => some member.2) := by
  induction rest with
  | nil => rfl
  | cons member rest ih =>
    have first := field?_of_mem distinct (part member List.mem_cons_self)
    rw [List.map_cons, List.mapM_cons, first,
      ih fun other mem => part other (List.mem_cons_of_mem _ mem)]
    rfl

/-- The fields of a written record are the trees of its values. -/
theorem fields_raw {members : List (String × Json)} {names : List String}
    (named : members.map Prod.fst = names) (distinct : names.Nodup) (room : Nat) :
    fields names (room + 1) (raw (.object members)) =
      some (room, members.map fun member => some (raw member.2)) := by
  have keys : (members.map fun member => (member.1, raw member.2)).map Prod.fst = names := by
    simp [← named]
  have trees := mapM_field? (keys ▸ distinct) fun _ mem => mem
  rw [keys] at trees
  rw [raw, fields, keyed?_rawMembers]
  simp only [trees, Option.map_some, List.map_map]
  rfl

/-! ### Lists -/

theorem rawItems_eq_map (items : List Json) : rawItems items = items.map raw := by
  induction items with
  | nil => rfl
  | cons item rest ih => rw [rawItems, ih, List.map_cons]

/-- A written list is read if each of its items can be. -/
theorem listOf_raw {decoder : Decoder α} {toJson : α → Json} {readable : α → Bool} {room : Nat}
    {items : List α} (each : ∀ item ∈ items, decoder room (raw (toJson item)) =
      if readable item then some item else none) :
    listOf decoder (room + 1) (raw (.array (items.map toJson))) =
      if items.all readable then some items else none := by
  have all : all? (decoder room) ((items.map toJson).map raw) =
      if items.all readable then some items else none := by
    induction items with
    | nil => rfl
    | cons item rest ih =>
      rw [List.map_cons, List.map_cons, all?, each item List.mem_cons_self,
        ih fun other mem => each other (List.mem_cons_of_mem _ mem)]
      cases first : readable item <;> cases others : rest.all readable <;> simp [first, others]
  rw [raw, listOf, rawItems_eq_map, all]

end TaskWatch.Json.Decoder
