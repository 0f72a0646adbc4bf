import SpiceAgent.Lib.Threads

/-!
# The endpoint store

Processes publish and discover the record of one daemon in one directory. The metadata lock is held
for every look at the record and every change of it; the liveness lock is held by the daemon that is
published, and for a moment by a discovery that removes a stale record. A process may die at any
step; its locks are then free and the record stays.

A call is a thread and belongs to a process. A publication is the thread of the `Publish` call that
made it: its `CloseContext` calls exclude each other, so that their steps are the steps of the one
attempt in progress. A step that fails has its effect or not, as the environment chooses; an unlock
releases even when it reports an error.
-/

namespace SpiceAgent.Endpoint

open SpiceAgent.Lib

section

variable (ρ : Type)

/-- The calls: the process of each, the record that it would publish, and which records
`decodeMetadata` and `validateCurrentPlatform` accept; and the record that is there at the
beginning, if any. -/
structure Site where
  process : ℕ → ℕ
  record : ℕ → ρ
  readable : ρ → Bool
  initial : Option ρ

/-- The directory and the processes that have died. -/
structure Shared where
  file : Option ρ
  metadata : Option ℕ
  liveness : Option ℕ
  dead : ℕ → Bool

/-- What a call returns: the metadata, with the call whose liveness lock the probe found busy,
exactly `ErrNotFound`, an error, or nothing (`CloseContext`). -/
inductive Outcome
  | found (record : ρ) (daemon : ℕ)
  | notFound
  | failed
  | withdrawn

/-- What the metadata lock is polled for. -/
inductive Purpose
  | discover
  | publish
  | close

/-- Where a call stands. -/
inductive Phase
  | idle
  | polling (purpose : Purpose)
  -- Discover
  | reading
  | probing (record : ρ)
  -- Publish
  | checking
  | claiming
  | writing
  | announcing
  | failing (metadataHeld : Bool)
  | failingMetadata (held : Bool)
  | aborting
  | published
  -- removeExactRecord and the unlocks after it
  | withdrawing (expected : ρ) (closing : Bool)
  | removing (closing : Bool)
  | freeing (ok closing : Bool)
  | unlocking (outcome : Outcome ρ)
  | returned (outcome : Outcome ρ)

/-- A call, and whether nobody else held the liveness lock when it took one of its steps. -/
structure Op where
  phase : Phase ρ
  clear : Bool

end

inductive Action
  | callDiscover
  | callPublish
  | callClose
  | attempt
  | fail
  | read
  | write (ok done : Bool)
  | remove (ok done : Bool)
  | unlock (ok : Bool)
  | crash (process : ℕ)

variable {ρ : Type} [DecidableEq ρ]

variable (site : Site ρ) (s : Shared ρ)

def Shared.crash (k : ℕ) : Shared ρ where
  file := s.file
  metadata := s.metadata.filter fun i => site.process i ≠ k
  liveness := s.liveness.filter fun i => site.process i ≠ k
  dead := Function.update s.dead k true

def Purpose.locked (record : ρ) : Purpose → Phase ρ
  | .discover => .reading
  | .publish => .checking
  | .close => .withdrawing record true

def Purpose.gaveUp : Purpose → Phase ρ
  | .discover => .returned .failed
  | .publish => .returned .failed
  | .close => .published

/-- The outcome after the record was withdrawn. -/
def withdrawal (ok closing : Bool) : Outcome ρ :=
  match ok, closing with
  | false, _ => .failed
  | true, false => .notFound
  | true, true => .withdrawn

/-- One step of the call `i`, in a process that is alive. -/
def advance (i : ℕ) (phase : Phase ρ) (a : Action) : Option (Shared ρ × Phase ρ) :=
  match phase, a with
  | .idle, .callDiscover => some (s, .polling .discover)
  | .idle, .callPublish => some (s, .polling .publish)
  | .published, .callClose => some (s, .polling .close)
  -- acquireDirectoryLock
  | .polling purpose, .attempt =>
    if s.metadata = none then
      some ({ s with metadata := some i }, purpose.locked (site.record i))
    else some (s, .polling purpose)
  | .polling purpose, .fail => some (s, purpose.gaveUp)
  -- Discover
  | .reading, .fail => some (s, .unlocking .failed)
  | .reading, .read =>
    some (s, match s.file with
      | none => .unlocking .notFound
      | some r => if site.readable r then .probing r else .unlocking .failed)
  | .probing _, .fail => some (s, .unlocking .failed)
  | .probing r, .attempt =>
    match s.liveness with
    | some k => some (s, .unlocking (.found r k))
    | none => some ({ s with liveness := some i }, .withdrawing r false)
  -- Publish
  | .checking, .fail => some (s, .aborting)
  | .checking, .read =>
    some (s, if s.file.all site.readable then .claiming else .aborting)
  | .claiming, .fail => some (s, .aborting)
  | .claiming, .attempt =>
    match s.liveness with
    | some _ => some (s, .aborting)
    | none => some ({ s with liveness := some i }, .writing)
  | .writing, .write ok done =>
    if ok && !done then none
    else some ({ s with file := if done then some (site.record i) else s.file },
      if ok then .announcing else .failing true)
  | .announcing, .unlock ok =>
    some ({ s with metadata := none }, if ok then .published else .failing false)
  | .failing held, .unlock _ => some ({ s with liveness := none }, .failingMetadata held)
  | .failingMetadata held, .unlock _ =>
    some ({ s with metadata := if held then none else s.metadata }, .returned .failed)
  | .aborting, .unlock _ => some ({ s with metadata := none }, .returned .failed)
  -- removeExactRecord
  | .withdrawing _ closing, .fail => some (s, .freeing false closing)
  | .withdrawing expected closing, .read =>
    some (s, match s.file with
      | none => .freeing true closing
      | some r => if r = expected then .removing closing else .freeing false closing)
  | .removing closing, .remove ok done =>
    if ok && !done then none
    else some ({ s with file := if done then none else s.file }, .freeing ok closing)
  | .freeing ok closing, .unlock ok' =>
    some ({ s with liveness := none }, .unlocking (withdrawal (ok && ok') closing))
  | .unlocking outcome, .unlock ok =>
    some ({ s with metadata := none }, .returned (if ok then outcome else .failed))
  | _, _ => none

/-- One action: a process dies, or a call of a living process takes a step. -/
def act (i : ℕ) (op : Op ρ) (a : Action) : Option (Shared ρ × Op ρ) :=
  match a with
  | .crash k => some (s.crash site k, op)
  | a =>
    if s.dead (site.process i) then none
    else (advance site s i op.phase a).map fun x =>
      (x.1, ⟨x.2, op.clear || decide (s.liveness = none ∨ s.liveness = some i)⟩)

/-- The calls of all processes on the directory. -/
def store : Threads (Shared ρ) (Op ρ) Action where
  shared := ⟨site.initial, none, none, fun _ => false⟩
  thread := ⟨.idle, false⟩
  act := act site

end SpiceAgent.Endpoint
