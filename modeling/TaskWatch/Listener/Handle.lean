/-!
# Subscription handles

A handle undoes what it stands for when it is released: it unregisters its listener or runs the
action it was made from. Merged handles are owned by the handle that merged them and are released
one after the other when it is. Detaching a handle gives up what it would do; the handles it owns
are let go and thereby released.

## Main definitions

* `Handle` — inert, a listener's number, an action, or handles merged into one.
* `Handle.released` — what releasing a handle does, in order.
* `Handle.detached` — what detaching it does.
-/

namespace TaskWatch

/-- A handle; actions are named by labels of a type `κ`. -/
inductive Handle (κ : Type) where
  /-- A handle that stands for nothing. -/
  | inert
  | listener (number : Nat)
  | action (label : κ)
  | merged (parts : List (Handle κ))

/-- A single effect of letting a handle go. -/
inductive Release (κ : Type) where
  | listener (number : Nat)
  | action (label : κ)
deriving DecidableEq, Repr

namespace Handle

variable {κ : Type}

instance : Inhabited (Handle κ) := ⟨inert⟩

mutual

/-- What releasing a handle does. -/
def released : Handle κ → List (Release κ)
  | inert => []
  | listener number => [.listener number]
  | action label => [.action label]
  | merged parts => releasedAll parts

/-- What releasing handles one after the other does. -/
def releasedAll : List (Handle κ) → List (Release κ)
  | [] => []
  | part :: rest => released part ++ releasedAll rest

end

/-- What detaching a handle does: the handles it owns are released. -/
def detached : Handle κ → List (Release κ)
  | merged parts => releasedAll parts
  | _ => []

/-- Whether releasing the handle would still do something or let something go. -/
def isActive : Handle κ → Bool
  | inert => false
  | _ => true

end Handle

end TaskWatch
