import TaskWatch.Polling.Cadence

/-!
# Settings of the poller

The cadence together with the callbacks of the session lifecycle. Settings are changed by patches:
what a patch does not set stays as it is, and a patch that would leave an interval of zero changes
nothing at all.

Callbacks are named by labels of a type `κ`; what a label does is up to the consumer.

## Main definitions

* `Hooks` — the lifecycle callbacks.
* `Settings`, `SettingsPatch` — settings and a change of them.
* `Settings.patched` — the changed settings, or the interval that is zero.
-/

namespace TaskWatch

/-- The callbacks of the session lifecycle. -/
structure Hooks (κ : Type) where
  /-- A session has seen a new status. -/
  statusChange : Option κ := none
  /-- The backend has reported completion. -/
  complete : Option κ := none
  /-- The backend has reported failure. -/
  failed : Option κ := none
  /-- A request has failed. -/
  error : Option κ := none
  /-- A session has ended. -/
  stopped : Option κ := none

variable {κ : Type}

namespace Hooks

/-- No callbacks. -/
def none : Hooks κ := {}

instance : Inhabited (Hooks κ) := ⟨none⟩

/-- The callbacks with those that are set in another collection taking precedence. -/
def overlaid (h other : Hooks κ) : Hooks κ where
  statusChange := other.statusChange.or h.statusChange
  complete := other.complete.or h.complete
  failed := other.failed.or h.failed
  error := other.error.or h.error
  stopped := other.stopped.or h.stopped

end Hooks

/-- Cadence and callbacks. -/
structure Settings (κ : Type) where
  /-- The polling intervals. -/
  cadence : Cadence := .default
  /-- The lifecycle callbacks. -/
  hooks : Hooks κ := {}
deriving Inhabited

/-- A change of settings. -/
structure SettingsPatch (κ : Type) where
  /-- The new processing interval. -/
  processing : Option Duration := none
  /-- The new queued interval. -/
  queued : Option Duration := none
  /-- The callbacks to be set. -/
  hooks : Hooks κ := {}

/-- A cadence with the intervals of a patch replaced. -/
def Cadence.patched (c : Cadence) (processing queued : Option Duration) : Cadence :=
  let c := match processing with
    | some d => c.withProcessing d
    | none => c
  match queued with
  | some d => c.withQueued d
  | none => c

namespace Settings

/-- The settings after a patch, which is refused as a whole if an interval would be zero. -/
def patched (s : Settings κ) (p : SettingsPatch κ) : Except CadenceError (Settings κ) :=
  let cadence := s.cadence.patched p.processing p.queued
  match cadence.check with
  | .error e => .error e
  | .ok () => .ok ⟨cadence, s.hooks.overlaid p.hooks⟩

end Settings

end TaskWatch
