import Mathlib.Data.Finset.Card
import Mathlib.Algebra.BigOperators.Group.Finset.Basic
import Mathlib.Tactic

/-!
# The runtime plugin host

`Host` is the state behind the mutex of the runtime plugin host: its immutable generations of
candidates, the current one, the desired plugin set, and the recovery episode. Each definition below
is one critical section of the source.

Generations and recovery episodes are pointers in the source. Here a generation is the index at
which it was created, and an episode carries the serial number of its creation. The revision
counters count without wrapping, and an error value is the flag that there is one.
-/

namespace SpiceAgent.Pluginhost

open Function (update)

/-! ## Configuration -/

def maximumExecutables : ℕ := 128

def maximumRetainedGenerations : ℕ := 128

def maximumRetainedCandidates : ℕ := maximumExecutables * 2

/-- `Set`: a complete plugin configuration, as the stable identifiers of its executables. -/
structure PluginSet where
  executables : List String
  bounded : executables.length ≤ maximumExecutables
  nodup : executables.Nodup
deriving DecidableEq

/-- The zero `Set`. -/
def PluginSet.empty : PluginSet := ⟨[], Nat.zero_le _, List.nodup_nil⟩

/-- `RestartPolicy`, with its durations in nanoseconds as 64-bit integers. -/
structure RestartPolicy where
  maximumAttempts : ℕ
  initialBackoff : Int64
  maximumBackoff : Int64
  attemptTimeout : Int64
deriving DecidableEq

namespace RestartPolicy

def enabled (policy : RestartPolicy) : Bool := policy.maximumAttempts ≠ 0

/-- The loop of `backoff` with the doublings that remain: the values that its variable takes, and
what is returned. -/
def backoffFrom (policy : RestartPolicy) : ℕ → Int64 → List Int64 × Int64
  | 0, value => ([value], min value policy.maximumBackoff)
  | n + 1, value =>
    if value < policy.maximumBackoff then
      if value > policy.maximumBackoff / 2 then ([value], policy.maximumBackoff)
      else
        let (values, result) := backoffFrom policy n (value * 2)
        (value :: values, result)
    else ([value], min value policy.maximumBackoff)

def backoff (policy : RestartPolicy) (attempt : ℕ) : Int64 :=
  if attempt ≤ 1 then 0 else (policy.backoffFrom (attempt - 2) policy.initialBackoff).2

end RestartPolicy

/-! ## State -/

/-- A valid `stage.PlanID`. The zero value marks a generation that was never published. -/
abbrev PlanID := { id : String // id ≠ "" }

/-- `hostGeneration`. -/
structure Generation where
  id : String
  candidates : List ℕ
  refs : ℕ
  current : Bool
  unhealthy : Bool
  cleaning : Bool
  cleaned : Bool
  cleanupErr : Bool
  cleanupTry : ℕ

namespace Generation

/-- A generation as `stage` returns it. -/
def fresh (id : String) (candidates : List ℕ) : Generation :=
  ⟨id, candidates, 0, false, false, false, false, false, 0⟩

/-- The generation's cleanup has started at some time. -/
def retired (generation : Generation) : Bool :=
  generation.cleaning || generation.cleaned || generation.cleanupErr

end Generation

/-- `recoveryEpisode`. -/
structure Episode where
  serial : ℕ
  generation : ℕ
  planID : String
  desired : PluginSet
  desiredRevision : ℕ
  explicitRevision : ℕ
  attempts : ℕ
  failed : Bool
  exhausted : Bool
  cancel : Bool

/-- The progress of one `closeCandidates` call: the candidates that remain, last started first,
whether the first of them has been tried, and whether a close has failed for good. -/
structure Closer where
  todo : List ℕ
  tried : Bool
  failed : Bool
deriving DecidableEq

namespace Closer

/-- The start of `closeCandidates`. -/
def start (candidates : List ℕ) : Closer := ⟨candidates.reverse, false, false⟩

/-- The closer after a close of its first candidate that returned no error or one. -/
def attempt (closer : Closer) (ok : Bool) : Closer :=
  if ok then ⟨closer.todo.tail, false, closer.failed⟩
  else if closer.tried then ⟨closer.todo.tail, false, true⟩
  else { closer with tried := true }

/-- The closer after its context had ended before the close of its first candidate. -/
def expire (closer : Closer) : Closer := ⟨closer.todo.tail, false, true⟩

end Closer

/-- A running `cleanup` goroutine. -/
structure Cleanup where
  generation : ℕ
  closer : Closer

/-- `Host`: the state its mutex guards, with the `cleanup` goroutines it has started. `changed` is
the number of times the `changed` channel has been replaced; `cancelled` is the context of the
running recovery attempt. -/
structure Host where
  restart : RestartPolicy
  current : ℕ
  generation : ℕ → Generation
  generations : ℕ
  available : String → Option ℕ
  owned : Finset ℕ
  desired : PluginSet
  hasDesired : Bool
  recovery : Option Episode
  episodes : ℕ
  recoveryWake : Bool
  cancelled : Bool
  desiredRevision : ℕ
  explicitRevision : ℕ
  sequence : ℕ
  activations : ℕ
  explicitActivations : ℕ
  closing : Bool
  stopped : Bool
  closeTry : ℕ
  cleanups : ℕ → Option Cleanup
  spawned : ℕ
  changed : ℕ

namespace Host

/-- `%020d`. -/
def pad20 (n : ℕ) : String :=
  String.ofList (List.replicate (20 - (Nat.repr n).length) '0') ++ Nat.repr n

/-- `generationPlanID`, with the hexadecimal digest of what it hashes. -/
def generationPlanID (sequence : ℕ) (digest : String) : PlanID :=
  ⟨"runtime:" ++ pad20 sequence ++ ":" ++ digest, by simp⟩

/-- `newHost`, with the digest of the compiled generation's plan ID. -/
def init (restart : RestartPolicy) (digest : String) : Host where
  restart := restart
  current := 0
  generation := update (fun _ => Generation.fresh "" []) 0
    { Generation.fresh (generationPlanID 0 digest).val [] with current := true }
  generations := 1
  available := update (fun _ => none) (generationPlanID 0 digest).val (some 0)
  owned := {0}
  desired := PluginSet.empty
  hasDesired := false
  recovery := none
  episodes := 0
  recoveryWake := false
  cancelled := false
  desiredRevision := 0
  explicitRevision := 0
  sequence := 0
  activations := 0
  explicitActivations := 0
  closing := false
  stopped := false
  closeTry := 0
  cleanups := fun _ => none
  spawned := 0
  changed := 0

section

variable (host : Host)

def signal : Host := { host with changed := host.changed + 1 }

def setGeneration (g : ℕ) (generation : Generation) : Host :=
  { host with generation := update host.generation g generation }

/-! ## Recovery episodes -/

def recoveryMatches (episode : Episode) : Bool :=
  !host.closing && host.explicitActivations = 0 && host.current = episode.generation &&
    (host.generation host.current).id = episode.planID &&
    host.desiredRevision = episode.desiredRevision &&
    host.explicitRevision = episode.explicitRevision && (host.generation host.current).unhealthy

def scheduleRecovery (g : ℕ) : Host :=
  if host.closing || host.explicitActivations ≠ 0 || !host.restart.enabled || !host.hasDesired ||
      host.current ≠ g || !(host.generation g).unhealthy then host
  else if host.recovery.any host.recoveryMatches then host
  else
    { host with
      recovery := some
        { serial := host.episodes
          generation := g
          planID := (host.generation g).id
          desired := host.desired
          desiredRevision := host.desiredRevision
          explicitRevision := host.explicitRevision
          attempts := 0
          failed := false
          exhausted := false
          cancel := false }
      episodes := host.episodes + 1
      recoveryWake := true }.signal

def cancelRecovery : Host :=
  { host with
    recovery := none
    cancelled := host.cancelled || host.recovery.any Episode.cancel }.signal

/-- The first critical section of `recoverOnce` once it has found an episode to attempt. -/
def beginRecovery (episode : Episode) : Host :=
  { host with recovery := some { episode with cancel := true }, cancelled := false }.signal

/-- The deferred critical section of `recoverOnce`. -/
def endRecovery (serial : ℕ) : Host :=
  { host with
    recovery := host.recovery.map fun (e : Episode) =>
      if e.serial = serial then { e with cancel := false } else e
    cancelled := true }.signal

/-- `finishRecoveryFailure`, with whether another attempt follows. -/
def finishRecoveryFailure (serial : ℕ) : Host × Bool :=
  match host.recovery with
  | none => (host, false)
  | some e =>
    if e.serial ≠ serial || !host.recoveryMatches e then (host, false)
    else
      let exhausted := decide (host.restart.maximumAttempts ≤ e.attempts + 1)
      ({ host with
          recovery := some
            { e with attempts := e.attempts + 1, failed := true, exhausted := exhausted } }.signal,
        !exhausted)

end

/-! ## Generations -/

section Health

variable (done : ℕ → Bool)

/-- `candidateHealth`, as whether there is a failure. -/
def candidateHealth (candidates : List ℕ) : Bool := candidates.any done

variable (host : Host) (g : ℕ)

/-- `generationHealthLocked`, as whether there is a failure. -/
def generationHealth : Host × Bool :=
  if (host.generation g).unhealthy then (host, true)
  else if candidateHealth done (host.generation g).candidates then
    ((host.setGeneration g { host.generation g with unhealthy := true }).scheduleRecovery g, true)
  else (host, false)

/-- `beginExplicitActivation` of a host that is not closing, with the revision it returns. -/
def beginExplicitActivation : Host × ℕ :=
  ({ host with
      explicitRevision := host.explicitRevision + 1
      explicitActivations := host.explicitActivations + 1 }.cancelRecovery,
    host.explicitRevision + 1)

def finishExplicitActivation (succeeded : Bool) : Host :=
  let host := { host with explicitActivations := host.explicitActivations - 1 }
  if succeeded then host.signal
  else
    let (host, failure) := host.generationHealth done host.current
    if failure then (host.scheduleRecovery host.current).signal else host.signal

def candidateCount : ℕ := ∑ g ∈ host.owned, (host.generation g).candidates.length

/-- The limit check of `beginActivation`. -/
def limitReached (candidateCount : ℕ) : Bool :=
  maximumRetainedGenerations ≤ host.owned.card ||
    maximumRetainedCandidates < host.candidateCount + candidateCount

/-- The counters of a `beginActivation` that passed its checks. -/
def beginActivation : Host :=
  { host with sequence := host.sequence + 1, activations := host.activations + 1 }.signal

/-- The critical section of the function that `beginActivation` returns. -/
def finishActivation : Host :=
  { host with activations := host.activations - 1 }.signal

def queueCleanup (g attempt : ℕ) : Host :=
  let generation := host.generation g
  if generation.cleaning || generation.cleaned || generation.refs ≠ 0 then host
  else
    { host.setGeneration g
        { generation with cleaning := true, cleanupTry := attempt, cleanupErr := false } with
      available :=
        if generation.id = "" then host.available
        else update host.available generation.id none
      cleanups := update host.cleanups host.spawned
        (some ⟨g, Closer.start generation.candidates⟩)
      spawned := host.spawned + 1 }

/-- The exchange of the current generation by `publishExplicit` and `publishRecovery`. -/
def exchange (id : PlanID) (candidates : List ℕ) : Host :=
  { host with
    generation := update
      (update host.generation host.current
        { host.generation host.current with current := false })
      host.generations { Generation.fresh id.val candidates with current := true }
    generations := host.generations + 1
    current := host.generations
    available := update host.available id.val (some host.generations)
    owned := insert host.generations host.owned
    recovery := none }

/-- The cleanup of the previous generation by `publishExplicit` and `publishRecovery`. -/
def retirePrevious (previous : ℕ) : Host :=
  if (host.generation previous).refs = 0 then (host.queueCleanup previous 0).signal
  else host.signal

/-- The effect of a `publishExplicit` that passed its checks. -/
def publishExplicit (id : PlanID) (candidates : List ℕ) (set : PluginSet) : Host :=
  { host.exchange id candidates with
    desired := set
    hasDesired := true
    desiredRevision := host.desiredRevision + 1 }.retirePrevious host.current

/-- The checks of `publishExplicit`, with whether its context has ended. -/
def canPublishExplicit (ended : Bool) (candidates : List ℕ) (revision : ℕ) : Bool :=
  !host.closing && !ended && host.explicitRevision = revision && !candidateHealth done candidates

/-- The effect of a `publishRecovery` that passed its checks. -/
def publishRecovery (id : PlanID) (candidates : List ℕ) : Host :=
  (host.exchange id candidates).retirePrevious host.current

/-- The checks of `publishRecovery`, with whether its time limit has passed. -/
def canPublishRecovery (ended : Bool) (candidates : List ℕ) (serial : ℕ) : Bool :=
  !ended && !host.cancelled && !host.closing &&
    host.recovery.any (fun e => e.serial = serial && host.recoveryMatches e) &&
    !candidateHealth done candidates

/-- `cleanAborted` of candidates whose close failed. -/
def retainAborted (candidates : List ℕ) : Host :=
  { host with
    generation := update host.generation host.generations
      { Generation.fresh "" candidates with cleanupErr := true }
    generations := host.generations + 1
    owned := insert host.generations host.owned }.signal

/-- The critical section that ends `cleanup`. -/
def finishCleanup (k g : ℕ) (failed : Bool) : Host :=
  { host.setGeneration g
      { host.generation g with
        cleaning := false
        cleanupErr := failed
        cleaned := (host.generation g).cleaned || !failed } with
    owned := if failed then host.owned else host.owned.erase g
    cleanups := update host.cleanups k none }.signal

/-! ## Leases -/

/-- The generation that `lease` selects: the current one, or that of a plan ID. -/
def select : Option String → Option ℕ
  | none => some host.current
  | some id => host.available id

/-- The check of `lease` for a generation that can be leased. -/
def leasable : Bool :=
  !(host.generation g).cleaned && !(host.generation g).cleaning &&
    ((host.generation g).current || (host.generation g).refs ≠ 0)

/-- The first critical section of `lease`, with the generation it retains. -/
def acquire (request : Option String) : Host × Option ℕ :=
  if host.closing then (host, none)
  else
    match host.select request with
    | none => (host, none)
    | some g =>
      if host.leasable g then
        let (host, failure) := host.generationHealth done g
        if failure then (host, none)
        else
          ((host.setGeneration g
            { host.generation g with refs := (host.generation g).refs + 1 }).signal, some g)
      else (host, none)

def release : Host :=
  let host := host.setGeneration g { host.generation g with refs := (host.generation g).refs - 1 }
  if !(host.generation g).current && (host.generation g).refs = 0 then
    (host.queueCleanup g 0).signal
  else host.signal

/-- The critical section of `observe`. -/
def observe : Host :=
  if g ∈ host.owned ∧ (host.generation g).cleaned = false then
    ((host.setGeneration g { host.generation g with unhealthy := true }).scheduleRecovery g).signal
  else host

/-! ## Close -/

/-- `beginClose`, with the attempt it returns. -/
def beginClose : Host × ℕ :=
  let host :=
    if host.closing then host
    else
      (({ host with closing := true }.cancelRecovery).setGeneration host.current
        { host.generation host.current with current := false }).signal
  ({ host with closeTry := host.closeTry + 1 }, host.closeTry + 1)

/-- The generations that `closeProgress` hands to `queueCleanupLocked`. -/
def cleanable (attempt g : ℕ) : Bool :=
  (host.generation g).refs = 0 && !(host.generation g).cleaning && !(host.generation g).cleaned &&
    (host.generation g).cleanupTry < attempt

/-- The loop of `closeProgress` over the owned generations. -/
def queueCleanups (attempt : ℕ) : Host :=
  (host.owned.sort (· ≤ ·)).foldl
    (fun h g => if h.cleanable attempt g then h.queueCleanup g attempt else h) host

/-- What `closeProgress` reports: wait for a change, no error, or the cleanup failure. -/
inductive Progress
  | wait
  | done
  | failed

/-- `closeProgress`, with whether the recovery controller has ended. -/
def closeProgress (attempt : ℕ) (controllerDone : Bool) : Host × Progress :=
  let idle : Bool := host.activations = 0 && host.explicitActivations = 0 && controllerDone
  let host := if idle then host.queueCleanups attempt else host
  if !idle || !(∀ g ∈ host.owned, (host.generation g).refs = 0 ∧
      (host.generation g).cleaning = false : Bool) then (host, .wait)
  else if host.owned = ∅ then
    ({ host with desired := PluginSet.empty, hasDesired := false, stopped := true }, .done)
  else if (∃ g ∈ host.owned, (host.generation g).cleanupTry = attempt ∧
      (host.generation g).cleanupErr = true : Bool) then (host, .failed)
  else (host, .wait)

end Health

end Host

end SpiceAgent.Pluginhost
