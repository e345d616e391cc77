import TaskWatch.Proofs.Json.Exact
import TaskWatch.Proofs.Json.Number
import TaskWatch.Proofs.Json.Text

/-!
# The tree of a written value

The reader takes the text of a value for the tree that holds its texts and numbers as they are
written, whatever is open around it. Of a number it only knows that it is complete when something
else follows, so that the statement is about a value together with what comes behind it.

## Main definitions

* `Json.raw` — the tree of the text of a value.
* `Json.Reader.read?` — the tree that is read from a state on.

## Main results

* `Json.Reader.read?_compact` — behind the text of a value the reader stands after its tree.
* `Json.Raw.read?_compact` — the tree of a text that holds a value.
-/

namespace TaskWatch.Json

mutual

/-- The tree of the text of a value. -/
def raw : Json → Raw
  | null => .null
  | bool value => .bool value
  | whole n => .number (wholeText n)
  | real x => .number x.text
  | text s => .text (escape s.toList)
  | array items => .array (rawItems items)
  | object members => .object (rawMembers members)

/-- The trees of items. -/
def rawItems : List Json → List Raw
  | [] => []
  | item :: rest => raw item :: rawItems rest

/-- The members of a tree. -/
def rawMembers : List (String × Json) → List (List Char × Raw)
  | [] => []
  | (key, value) :: rest => (escape key.toList, raw value) :: rawMembers rest

end

/-- What can stand behind a value in the text of another one. -/
def Follows (rest : List Char) : Prop := ∀ c ∈ rest.head?, c = ',' ∨ c = ']' ∨ c = '\x7d'

theorem follows_nil : Follows [] := fun _ h => by simp at h

theorem follows_compactItems (items : List Json) (rest : List Char) :
    Follows (compactItems items ++ ']' :: rest) := by
  cases items <;> simp [compactItems, Follows]

theorem follows_compactMembers (members : List (String × Json)) (rest : List Char) :
    Follows (compactMembers members ++ '\x7d' :: rest) := by
  cases members <;> simp [compactMembers, Follows]

/-- A value begins with a character that neither is blank nor closes a list. -/
theorem compact_eq_cons {value : Json} (exact_ : value.isExact = true) :
    ∃ c rest, compact value = c :: rest ∧ isBlank c = false ∧ c ≠ ']' := by
  cases value with
  | null => exact ⟨_, _, rfl, rfl, by decide⟩
  | bool value => cases value <;> exact ⟨_, _, rfl, rfl, by decide⟩
  | whole n =>
    have digits : ∃ c rest, Nat.toDigits 10 n.natAbs = c :: rest :=
      List.exists_cons_of_ne_nil Nat.toDigits_ne_nil
    obtain ⟨c, rest, digits⟩ := digits
    have digit : c.isDigit = true := isDigit_of_mem_digits c (digits ▸ List.mem_cons_self)
    rw [compact, wholeText]
    split
    · exact ⟨_, _, rfl, rfl, by decide⟩
    · exact ⟨c, rest, digits, isBlank_of_isDigit digit, by
        rintro rfl
        exact absurd digit (by decide)⟩
  | real x => simp [isExact] at exact_
  | text s => exact ⟨_, _, rfl, rfl, by decide⟩
  | array items => cases items <;> exact ⟨_, _, rfl, rfl, by decide⟩
  | object members => cases members <;> exact ⟨_, _, rfl, rfl, by decide⟩

namespace Reader

/-- The tree that is read from a state on. -/
def read? (r : Reader) (text : List Char) : Option Raw := (r.run text).bind finish?

variable {r next : Reader} {stack : List Open}

theorem read?_cons {c : Char} (taken : r.step c = some next) (rest : List Char) :
    r.read? (c :: rest) = next.read? rest := by
  rw [read?, run, taken, Option.bind_some, read?]

theorem read?_append {first : List Char} (taken : r.run first = some next) (rest : List Char) :
    r.read? (first ++ rest) = next.read? rest := by
  rw [read?, run_append, taken, Option.bind_some, read?]

/-- A complete number is a value before whatever follows it. -/
theorem read?_number {phase : NumberPhase} (isWhole : IsWhole phase) {reversed rest : List Char}
    (follows : Follows rest) :
    read? ⟨stack, .number reversed phase⟩ rest =
      read? ⟨stack, .after (.number reversed.reverse)⟩ rest := by
  have ends : phase.mayEnd = true := by rcases isWhole with rfl | rfl <;> rfl
  cases rest with
  | nil => cases stack <;> simp [read?, run, finish?, ends]
  | cons c rest =>
    have other : phase.next? c = none := by
      rcases follows c rfl with rfl | rfl | rfl <;> rcases isWhole with rfl | rfl <;> rfl
    have same : step ⟨stack, .number reversed phase⟩ c =
        step ⟨stack, .after (.number reversed.reverse)⟩ c := by
      simp [step, other, ends]
    rw [read?, read?, run, run, same]

theorem read?_wholeText (n : Int) {rest : List Char} (follows : Follows rest) :
    read? ⟨stack, .value⟩ (wholeText n ++ rest) =
      read? ⟨stack, .after (.number (wholeText n))⟩ rest := by
  obtain ⟨phase, isWhole, taken⟩ := run_wholeText stack n
  rw [read?_append taken, read?_number isWhole follows, List.reverse_reverse]

/-- From the opening quote on, a text is taken up to its closing quote. -/
theorem run_quoted {keyOf : Option (List (List Char × Raw))}
    (opened : r.step '"' = some ⟨stack, .text keyOf [] .none⟩) (s : String) :
    r.run (quoted s) = insideText stack keyOf (escape s.toList).reverse .none '"' := by
  have inside : run ⟨stack, .text keyOf [] .none⟩ (escape s.toList) =
      some ⟨stack, .text keyOf (escape s.toList).reverse .none⟩ := by
    rw [run_escape, List.append_nil]
  rw [quoted, List.cons_append, run, opened, Option.bind_some, run_append, inside, Option.bind_some,
    run]
  exact Option.bind_fun_some _

theorem read?_quoted (s : String) (rest : List Char) :
    read? ⟨stack, .value⟩ (quoted s ++ rest) =
      read? ⟨stack, .after (.text (escape s.toList))⟩ rest := by
  have taken : run ⟨stack, .value⟩ (quoted s) = some ⟨stack, .after (.text (escape s.toList))⟩ := by
    rw [run_quoted rfl]
    simp [insideText]
  exact read?_append taken rest

/-- A key and its colon open a member. -/
theorem read?_key {done : List (List Char × Raw)} {mayEnd : Bool} (key : String)
    (rest : List Char) :
    read? ⟨stack, .key done mayEnd⟩ (quoted key ++ ':' :: rest) =
      read? ⟨.object done (escape key.toList) :: stack, .value⟩ rest := by
  have taken : run ⟨stack, .key done mayEnd⟩ (quoted key) =
      some ⟨stack, .colon done (escape key.toList)⟩ := by
    rw [run_quoted rfl]
    simp [insideText]
  rw [read?_append taken, read?_cons rfl]

/-- The first item of a list is read like any other value. -/
theorem read?_firstItem {value : Json} (exact_ : value.isExact = true) (rest : List Char) :
    read? ⟨stack, .firstItem⟩ (compact value ++ rest) =
      read? ⟨stack, .value⟩ (compact value ++ rest) := by
  obtain ⟨c, others, text, visible, notEnd⟩ := compact_eq_cons exact_
  have same : step ⟨stack, .firstItem⟩ c = step ⟨stack, .value⟩ c := by
    simp [step, visible, notEnd]
  rw [text, List.cons_append, read?, read?, run, run, same]

mutual

/-- Behind the text of a value the reader stands after its tree. -/
theorem read?_compact : ∀ {value : Json} {stack : List Open} {rest : List Char},
    value.isExact = true → Follows rest →
    read? ⟨stack, .value⟩ (compact value ++ rest) = read? ⟨stack, .after (raw value)⟩ rest
  | null, stack, rest, _, _ =>
    read?_append (show run ⟨stack, .value⟩ ['n', 'u', 'l', 'l'] = some _ from rfl) rest
  | bool true, stack, rest, _, _ =>
    read?_append (show run ⟨stack, .value⟩ ['t', 'r', 'u', 'e'] = some _ from rfl) rest
  | bool false, stack, rest, _, _ =>
    read?_append (show run ⟨stack, .value⟩ ['f', 'a', 'l', 's', 'e'] = some _ from rfl) rest
  | whole n, _, _, _, follows => read?_wholeText n follows
  | real _, _, _, exact_, _ => by simp [isExact] at exact_
  | text s, _, rest, _, _ => read?_quoted s rest
  | array [], stack, rest, _, _ =>
    read?_append (show run ⟨stack, .value⟩ ['[', ']'] = some _ from rfl) rest
  | array (item :: items), stack, rest, exact_, _ => by
    obtain ⟨first, others⟩ := Bool.and_eq_true_iff.mp exact_
    have text : compact (array (item :: items)) ++ rest =
        '[' :: (compact item ++ (compactItems items ++ ']' :: rest)) := by simp [compact]
    calc read? ⟨stack, .value⟩ (compact (array (item :: items)) ++ rest)
        = read? ⟨.array [] :: stack, .value⟩
            (compact item ++ (compactItems items ++ ']' :: rest)) := by
          rw [text, read?_cons rfl, read?_firstItem first]
      _ = read? ⟨.array [] :: stack, .after (raw item)⟩ (compactItems items ++ ']' :: rest) :=
          read?_compact first (follows_compactItems items rest)
      _ = read? ⟨stack, .after (raw (array (item :: items)))⟩ rest := by
          rw [read?_compactItems others]
          rfl
  | object [], stack, rest, _, _ =>
    read?_append (show run ⟨stack, .value⟩ ['\x7b', '\x7d'] = some _ from rfl) rest
  | object ((key, value) :: members), stack, rest, exact_, _ => by
    obtain ⟨first, others⟩ := Bool.and_eq_true_iff.mp exact_
    have text : compact (object ((key, value) :: members)) ++ rest =
        '\x7b' :: (quoted key ++ ':' :: (compact value ++
          (compactMembers members ++ '\x7d' :: rest))) := by simp [compact]
    calc read? ⟨stack, .value⟩ (compact (object ((key, value) :: members)) ++ rest)
        = read? ⟨.object [] (escape key.toList) :: stack, .value⟩
            (compact value ++ (compactMembers members ++ '\x7d' :: rest)) := by
          rw [text, read?_cons rfl, read?_key]
      _ = read? ⟨.object [] (escape key.toList) :: stack, .after (raw value)⟩
            (compactMembers members ++ '\x7d' :: rest) :=
          read?_compact first (follows_compactMembers members rest)
      _ = read? ⟨stack, .after (raw (object ((key, value) :: members)))⟩ rest := by
          rw [read?_compactMembers others]
          rfl

/-- Up to the end of a list, the reader adds the trees of further items. -/
theorem read?_compactItems : ∀ {items : List Json} {stack : List Open} {done : List Raw}
    {last : Raw} {rest : List Char}, isExactItems items = true →
    read? ⟨.array done :: stack, .after last⟩ (compactItems items ++ ']' :: rest) =
      read? ⟨stack, .after (.array (done.reverse ++ last :: rawItems items))⟩ rest
  | [], stack, done, last, rest, _ => by
    rw [compactItems, List.nil_append, read?_cons rfl, rawItems, List.reverse_cons]
  | item :: items, stack, done, last, rest, exact_ => by
    obtain ⟨first, others⟩ := Bool.and_eq_true_iff.mp exact_
    have text : compactItems (item :: items) ++ ']' :: rest =
        ',' :: (compact item ++ (compactItems items ++ ']' :: rest)) := by simp [compactItems]
    calc read? ⟨.array done :: stack, .after last⟩ (compactItems (item :: items) ++ ']' :: rest)
        = read? ⟨.array (last :: done) :: stack, .value⟩
            (compact item ++ (compactItems items ++ ']' :: rest)) := by
          rw [text, read?_cons rfl]
      _ = read? ⟨.array (last :: done) :: stack, .after (raw item)⟩
            (compactItems items ++ ']' :: rest) :=
          read?_compact first (follows_compactItems items rest)
      _ = read? ⟨stack, .after (.array (done.reverse ++ last :: rawItems (item :: items)))⟩ rest := by
          rw [read?_compactItems others]
          simp [rawItems]

/-- Up to the end of an object, the reader adds further members. -/
theorem read?_compactMembers : ∀ {members : List (String × Json)} {stack : List Open}
    {done : List (List Char × Raw)} {key : List Char} {last : Raw} {rest : List Char},
    isExactMembers members = true →
    read? ⟨.object done key :: stack, .after last⟩ (compactMembers members ++ '\x7d' :: rest) =
      read? ⟨stack, .after (.object (done.reverse ++ (key, last) :: rawMembers members))⟩ rest
  | [], stack, done, key, last, rest, _ => by
    rw [compactMembers, List.nil_append, read?_cons rfl, rawMembers, List.reverse_cons]
  | (name, value) :: members, stack, done, key, last, rest, exact_ => by
    obtain ⟨first, others⟩ := Bool.and_eq_true_iff.mp exact_
    have text : compactMembers ((name, value) :: members) ++ '\x7d' :: rest =
        ',' :: (quoted name ++ ':' :: (compact value ++
          (compactMembers members ++ '\x7d' :: rest))) := by simp [compactMembers]
    calc read? ⟨.object done key :: stack, .after last⟩
          (compactMembers ((name, value) :: members) ++ '\x7d' :: rest)
        = read? ⟨.object ((key, last) :: done) (escape name.toList) :: stack, .value⟩
            (compact value ++ (compactMembers members ++ '\x7d' :: rest)) := by
          rw [text, read?_cons rfl, read?_key]
      _ = read? ⟨.object ((key, last) :: done) (escape name.toList) :: stack, .after (raw value)⟩
            (compactMembers members ++ '\x7d' :: rest) :=
          read?_compact first (follows_compactMembers members rest)
      _ = read? ⟨stack, .after
            (.object (done.reverse ++ (key, last) :: rawMembers ((name, value) :: members)))⟩ rest := by
          rw [read?_compactMembers others]
          simp [rawMembers]

end

end Reader

/-- The tree of a text that holds a value. -/
theorem Raw.read?_compact {value : Json} (exact_ : value.isExact = true) :
    Raw.read? (compact value) = some (raw value) := by
  have read : Reader.read? ⟨[], .value⟩ (compact value ++ []) =
      Reader.read? ⟨[], .after (raw value)⟩ [] := Reader.read?_compact exact_ follows_nil
  rw [List.append_nil] at read
  exact read

end TaskWatch.Json
