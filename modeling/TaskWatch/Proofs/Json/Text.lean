import TaskWatch.Json.Decode

/-!
# Texts, written and read

A character is written in one of three ways: as itself, as a backslash and a letter, or, below the
blank, as a backslash and its code point in four hexadecimal digits. In each of them the reader
stays inside the text, and what is read back is the character.

## Main results

* `Json.escapeChar_cases` — the three ways.
* `Json.textOf?_escape` — a written text is read back.
* `Json.Reader.run_escape` — the reader takes a written text for one without end.
-/

namespace TaskWatch.Json

/-- The three ways to write a character. -/
theorem escapeChar_cases (c : Char) :
    (escapeChar c = [c] ∧ c ≠ '"' ∧ c ≠ '\\' ∧ 0x20 ≤ c.toNat) ∨
    (∃ letter, escapeChar c = ['\\', letter] ∧ simpleEscape? letter = some c) ∨
    (escapeChar c = ['\\', 'u', '0', '0', hexDigit (c.toNat / 16), hexDigit (c.toNat % 16)] ∧
      c.toNat < 0x20) := by
  by_cases simple : ∃ letter, escapeChar c = ['\\', letter] ∧ simpleEscape? letter = some c
  · exact .inr (.inl simple)
  · have other {d letter : Char} (written : escapeChar d = ['\\', letter])
        (meaning : simpleEscape? letter = some d) : c ≠ d := by
      rintro rfl
      exact simple ⟨letter, written, meaning⟩
    have quote : c ≠ '"' := other rfl rfl
    have backslash : c ≠ '\\' := other rfl rfl
    have backspace : c ≠ '\x08' := other rfl rfl
    have formFeed : c ≠ '\x0c' := other rfl rfl
    have lineFeed : c ≠ '\n' := other rfl rfl
    have carriageReturn : c ≠ '\r' := other rfl rfl
    have tab : c ≠ '\t' := other rfl rfl
    by_cases control : c.toNat < 0x20
    · refine .inr (.inr ⟨?_, control⟩)
      simp only [escapeChar, if_neg quote, if_neg backslash, if_neg backspace, if_neg formFeed,
        if_neg lineFeed, if_neg carriageReturn, if_neg tab, if_pos control]
    · refine .inl ⟨?_, quote, backslash, Nat.not_lt.mp control⟩
      simp only [escapeChar, if_neg quote, if_neg backslash, if_neg backspace, if_neg formFeed,
        if_neg lineFeed, if_neg carriageReturn, if_neg tab, if_neg control]

/-- A hexadecimal digit has its value. -/
theorem hexValue?_hexDigit {n : Nat} (small : n < 16) : hexValue? (hexDigit n) = some n := by
  have all : ∀ n < 16, hexValue? (hexDigit n) = some n := by decide
  exact all n small

theorem hexQuad?_of_control {c : Char} (control : c.toNat < 0x20) :
    hexQuad? '0' '0' (hexDigit (c.toNat / 16)) (hexDigit (c.toNat % 16)) = some c.toNat := by
  have zero : hexValue? '0' = some 0 := rfl
  simp only [hexQuad?, zero, hexValue?_hexDigit (show c.toNat / 16 < 16 by omega),
    hexValue?_hexDigit (show c.toNat % 16 < 16 by omega), Option.bind_eq_bind, Option.bind_some,
    Option.pure_def, Option.some.injEq]
  omega

/-- A written character is read back. -/
theorem unescape?_escapeChar (c : Char) (rest : List Char) :
    unescape? (escapeChar c ++ rest) = (unescape? rest).map (c :: ·) := by
  rcases escapeChar_cases c with ⟨written, -, plain, -⟩ | ⟨letter, written, meaning⟩ |
    ⟨written, control⟩
  · rw [written, List.singleton_append, unescape?, if_neg plain]
    · simp [plain]
    · simp [plain]
  · have notCode : letter ≠ 'u' := by rintro rfl; simp [simpleEscape?] at meaning
    rw [written, List.cons_append, List.singleton_append, unescape?, meaning]
    simp [notCode]
  · have whole : isLeading c.toNat = false ∧ isTrailing c.toNat = false := by
      simp only [isLeading, isTrailing, Bool.and_eq_false_iff, decide_eq_false_iff_not]
      omega
    rw [written]
    simp only [List.cons_append, List.nil_append, unescape?, hexQuad?_of_control control, whole,
      Char.ofNat_toNat]
    rfl

/-- A written text is read back. -/
theorem unescape?_escape (text : List Char) : unescape? (escape text) = some text := by
  induction text with
  | nil => rfl
  | cons c rest ih =>
    have first : escape (c :: rest) = escapeChar c ++ escape rest := List.flatMap_cons
    rw [first, unescape?_escapeChar, ih, Option.map_some]

@[simp]
theorem textOf?_escape (text : String) : textOf? (escape text.toList) = some text := by
  rw [textOf?, unescape?_escape, Option.map_some, String.ofList_toList]

namespace Reader

variable {stack : List Open} {keyOf : Option (List (List Char × Raw))} {reversed : List Char}

/-- Inside a text, a written character is taken as a part of it. -/
theorem run_escapeChar (c : Char) :
    run ⟨stack, .text keyOf reversed .none⟩ (escapeChar c) =
      some ⟨stack, .text keyOf ((escapeChar c).reverse ++ reversed) .none⟩ := by
  rcases escapeChar_cases c with ⟨written, notQuote, plain, visible⟩ | ⟨letter, written, meaning⟩ |
    ⟨written, control⟩
  · rw [written]
    simp [run, step, insideText, notQuote, plain, Nat.not_lt.mpr visible]
  · have notCode : letter ≠ 'u' := by rintro rfl; simp [simpleEscape?] at meaning
    rw [written]
    simp [run, step, insideText, meaning, notCode]
  · have first := hexValue?_hexDigit (show c.toNat / 16 < 16 by omega)
    have second := hexValue?_hexDigit (show c.toNat % 16 < 16 by omega)
    have zero : hexValue? '0' = some 0 := rfl
    rw [written]
    simp [run, step, insideText, first, second, zero]

/-- Inside a text, a written text is taken as a part of it. -/
theorem run_escape (text : List Char) :
    run ⟨stack, .text keyOf reversed .none⟩ (escape text) =
      some ⟨stack, .text keyOf ((escape text).reverse ++ reversed) .none⟩ := by
  induction text generalizing reversed with
  | nil => rfl
  | cons c rest ih =>
    have first : escape (c :: rest) = escapeChar c ++ escape rest := List.flatMap_cons
    rw [first, run_append, run_escapeChar, Option.bind_some, ih, List.reverse_append,
      List.append_assoc]

end Reader

end TaskWatch.Json
