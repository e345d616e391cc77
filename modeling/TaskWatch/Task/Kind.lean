/-!
# The kind of a task

## Main definitions

* `Kind` — the kinds of backend jobs.
* `Kind.parse` — the kind a word stands for, or the text that reports an unknown one.
-/

namespace TaskWatch

/-- The kind of a backend job. -/
inductive Kind where
  /-- Analysis of a repository. -/
  | analysis
  /-- Generation of a specification document. -/
  | documentGeneration
deriving DecidableEq, Repr, Inhabited

namespace Kind

/-- All kinds. -/
def all : List Kind := [analysis, documentGeneration]

/-- The word for a kind. -/
def name : Kind → String
  | analysis => "analysis"
  | documentGeneration => "document-generation"

/-- The kind a word stands for. -/
def ofName? (word : String) : Option Kind := all.find? fun k => k.name = word

/-- A word that stands for no kind. -/
structure Unknown where
  /-- The word. -/
  word : String

/-- The text that reports an unknown kind. -/
def Unknown.message (e : Unknown) : String := "unknown task type: " ++ e.word

/-- The kind a word stands for, or the unknown word. -/
def parse (word : String) : Except Unknown Kind :=
  match ofName? word with
  | some kind => .ok kind
  | none => .error ⟨word⟩

end Kind

end TaskWatch
