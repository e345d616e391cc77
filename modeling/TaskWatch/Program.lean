/-!
# Consumer programs

Code of the consumer — a callback, or the code that uses the library in the first place — as a
tree of what it does: it may look at the world and at its own memory, note something in its
memory, call the library and go on with the reply, panic, or be done.

A call that panics gives no reply. A program that does not handle this goes on panicking.

## Main definitions

* `Program` — the programs.
* `Program.andThen` — one program after another.
-/

namespace TaskWatch

/-- A program of the consumer. It looks at a world of type `ω`, has a memory of type `σ`, makes
calls of type `γ` and gets replies of type `ρ`. -/
inductive Program (ω σ γ ρ : Type) where
  /-- There is nothing left to do. -/
  | done
  /-- Panic. -/
  | panic
  /-- Look at the world and at the memory. -/
  | look (next : ω → σ → Program ω σ γ ρ)
  /-- Change the memory. -/
  | note (change : σ → σ) (next : Program ω σ γ ρ)
  /-- Make a call; there is no reply if it panics. -/
  | call (request : γ) (next : Option ρ → Program ω σ γ ρ)

namespace Program

variable {ω σ γ ρ : Type}

instance : Inhabited (Program ω σ γ ρ) := ⟨done⟩

/-- One program and, if it does not panic, another one after it. -/
def andThen (p q : Program ω σ γ ρ) : Program ω σ γ ρ :=
  match p with
  | done => q
  | panic => panic
  | look next => look fun world memory => (next world memory).andThen q
  | note change next => note change (next.andThen q)
  | call request next => call request fun reply => (next reply).andThen q

/-- Make a call and panic if it does. -/
def require (request : γ) (next : ρ → Program ω σ γ ρ) : Program ω σ γ ρ :=
  call request fun
    | some reply => next reply
    | none => panic

end Program

end TaskWatch
