import SpiceAgent.PluginHost.HostSystem

/-!
# Production candidates

The candidates of `productionStarter`: a `candidate` owns a process, an endpoint and the lease of an
executable, and `cleanup` contains them; an `acceptedCandidate` first drains and shuts down the
session of the plugin. Errors are kept as whether there is one. What the environment answers to one
`close` call is a `CloseInput`.

`Accepted.close` keeps its first result once the candidate is contained, whether it is an error of
containment or of the session (`Accepted.close_contained`).
-/

namespace SpiceAgent.Pluginhost

/-! ## Containment -/

/-- What one call of `candidate.cleanup` finds: whether the process has exited, and whether the
kill, the wait and the release of the endpoint and of the executable succeed. -/
structure Containment where
  exited : Bool
  forceKill : Bool
  wait : Bool
  endpoint : Bool
  lease : Bool

/-- Every containment step that is taken succeeds. -/
def Containment.succeeds (i : Containment) : Bool :=
  (i.exited || i.forceKill) && i.wait && i.endpoint && i.lease

/-- `candidate`: the resources it still owns, and whether it is closed, with its result. -/
structure Candidate where
  process : Bool
  endpoint : Bool
  lease : Bool
  closed : Bool
  result : Bool

namespace Candidate

def owning (process endpoint lease : Bool) : Candidate := ⟨process, endpoint, lease, false, false⟩

/-- `candidate.cleanup`, with whether it returns an error. A failed `Wait` keeps the ownership for
a later call. -/
def cleanup (c : Candidate) (i : Containment) : Candidate × Bool :=
  if c.closed then (c, c.result)
  else if c.process && !i.wait then (c, true)
  else
    let result := (c.process && !(i.exited || i.forceKill)) || (c.endpoint && !i.endpoint) ||
      (c.lease && !i.lease)
    (⟨false, false, false, true, result⟩, result)

theorem cleanup_succeeds {c : Candidate} {i : Containment} (hi : i.succeeds = true)
    (hresult : c.closed = true → c.result = false) :
    (c.cleanup i).1.closed = true ∧ (c.cleanup i).1.result = false ∧ (c.cleanup i).2 = false := by
  simp only [Containment.succeeds, Bool.and_eq_true] at hi
  obtain ⟨⟨⟨hkill, hwait⟩, hendpoint⟩, hlease⟩ := hi
  unfold cleanup
  split_ifs with hclosed hfailed
  · exact ⟨hclosed, hresult hclosed, hresult hclosed⟩
  · simp [hwait] at hfailed
  · simp [hkill, hendpoint, hlease]

end Candidate

/-! ## Accepted candidates -/

/-- What one `close` call of an accepted candidate finds. The fields before `containment` are in the
order in which the call asks for them. -/
structure CloseInput where
  /-- The drain's context is open before `beginDrain`. -/
  drainOpen : Bool
  /-- The calls that were admitted end in time. -/
  beginDrain : Bool
  drainStillOpen : Bool
  /-- Process, stdout and connection are available before the `Drain` call. -/
  drainHealth : Bool
  drainRequest : Bool
  drain : Bool
  drainResponse : Bool
  drainedHealth : Bool
  shutdownHealth : Bool
  shutdownOpen : Bool
  shutdownRequest : Bool
  shutdown : Bool
  shutdownResponse : Bool
  /-- The process exits within its time limit. -/
  exits : Bool
  containment : Containment

namespace CloseInput

def admitted (i : CloseInput) : Bool := i.drainOpen && i.beginDrain && i.drainStillOpen

/-- The plugin is healthy, drains, shuts down and exits. -/
def graceful (i : CloseInput) : Bool :=
  i.admitted && i.drainHealth && i.drainRequest && i.drain && i.drainResponse && i.drainedHealth &&
    i.shutdownHealth && i.shutdownOpen && i.shutdownRequest && i.shutdown && i.shutdownResponse &&
    i.exits

def best : CloseInput where
  drainOpen := true
  beginDrain := true
  drainStillOpen := true
  drainHealth := true
  drainRequest := true
  drain := true
  drainResponse := true
  drainedHealth := true
  shutdownHealth := true
  shutdownOpen := true
  shutdownRequest := true
  shutdown := true
  shutdownResponse := true
  exits := true
  containment := ⟨true, true, true, true, true⟩

end CloseInput

/-- `acceptedCandidate`. Its results are whether there is an error; `unhealthy` is whether its
health signal is closed. -/
structure Accepted where
  candidate : Candidate
  unhealthy : Bool
  admissionDrained : Bool
  drainAttempted : Bool
  drainResult : Bool
  shutdownAttempted : Bool
  shutdownResult : Bool
  contained : Bool
  closeResult : Bool

namespace Accepted

/-- `newAcceptedCandidate`. -/
def fresh : Accepted :=
  ⟨.owning true true true, false, false, false, false, false, false, false, false⟩

variable (a : Accepted) (i : CloseInput)

/-- `currentHealthFailure`, with whether process, stdout and connection are available. -/
def currentHealthFailure (available : Bool) : Accepted × Bool :=
  if a.unhealthy then (a, true)
  else if available then (a, false)
  else ({ a with unhealthy := true }, true)

/-- The part of `drainLocked` after the drain has been marked as attempted. -/
def drainCall : Accepted × Bool :=
  let (a, failure) := a.currentHealthFailure i.drainHealth
  if failure || !i.drainRequest || !i.drain || !i.drainResponse then
    ({ a with drainResult := true }, true)
  else
    let (a, failure) := a.currentHealthFailure i.drainedHealth
    if failure then ({ a with drainResult := true }, true) else (a, a.drainResult)

def drainLocked : Accepted × Bool :=
  if a.contained then (a, a.closeResult)
  else if a.drainAttempted then (a, a.drainResult)
  else if !a.admissionDrained && !i.admitted then (a, true)
  else { a with admissionDrained := true, drainAttempted := true }.drainCall i

/-- The part of `shutdownLocked` after the shutdown has been marked as attempted. -/
def shutdownCall : Accepted × Bool :=
  let (a, failure) := a.currentHealthFailure i.shutdownHealth
  if failure || !i.shutdownOpen || !i.shutdownRequest || !i.shutdown || !i.shutdownResponse then
    ({ a with shutdownResult := true }, true)
  else (a, a.shutdownResult)

def shutdownLocked : Accepted × Bool :=
  if a.contained then (a, a.closeResult)
  else if a.shutdownAttempted then (a, a.shutdownResult)
  else if !a.drainAttempted || a.drainResult then (a, true)
  else { a with shutdownAttempted := true }.shutdownCall i

/-- The shutdown of `close` after a drain without error. -/
def shutdownAndWait : Accepted × Bool :=
  let (a, shutdownErr) := a.shutdownLocked i
  (a, shutdownErr || !i.exits)

/-- The end of `close`, with the errors of the drain and the shutdown. -/
def contain (drainErr shutdownErr : Bool) : Accepted × Bool :=
  let (candidate, cleanupErr) := a.candidate.cleanup i.containment
  let result := drainErr || shutdownErr || cleanupErr
  let a := { a with candidate := candidate }
  if candidate.closed then ({ a with contained := true, closeResult := result }, result)
  else (a, result)

/-- `acceptedCandidate.close`, with whether it returns an error. -/
def close : Accepted × Bool :=
  if a.contained then (a, a.closeResult)
  else
    let (a, drainErr) := a.drainLocked i
    if !a.admissionDrained then (a, drainErr)
    else
      let (a, shutdownErr) := if drainErr then (a, false) else a.shutdownAndWait i
      a.contain i drainErr shutdownErr

theorem close_contained {a : Accepted} (h : a.contained = true) (i : CloseInput) :
    a.close i = (a, a.closeResult) := if_pos h

end Accepted

/-! ## The candidates of `productionStarter` -/

/-- What `launch` and `newAcceptedCandidate` give: no candidate, a candidate that is rejected with
the resources it owns, or one that is accepted. -/
inductive Launch
  | failed
  | rejected (process endpoint lease : Bool)
  | accepted

/-- `acceptedGenerationCandidate` and `rejectedGenerationCandidate`. -/
inductive Production
  | accepted (a : Accepted)
  | rejected (c : Candidate)

/-- The candidates that `productionStarter` starts. All that a candidate does by itself is to close
its health signal. -/
def productionKind : CandidateKind where
  State := Production
  Input := Launch × CloseInput
  start _ i :=
    match i.1 with
    | .failed => (none, false)
    | .rejected process endpoint lease => (some (.rejected (.owning process endpoint lease)), false)
    | .accepted => (some (.accepted .fresh), true)
  done
    | .accepted a => a.unhealthy
    | .rejected _ => true
  close
    | .accepted a, i => (.accepted (a.close i.2).1, !(a.close i.2).2)
    | .rejected c, i => (.rejected (c.cleanup i.2.containment).1, !(c.cleanup i.2.containment).2)
  change
    | .accepted a, _ => .accepted { a with unhealthy := true }
    | .rejected c, _ => .rejected c

namespace Production

/-- `candidate.cleanup` has contained the candidate without error. -/
def contained : Production → Bool
  | .accepted a => a.candidate.closed && !a.candidate.result
  | .rejected c => c.closed && !c.result

def Clean : Production → Prop
  | .accepted a =>
    (∃ unhealthy, a = { Accepted.fresh with unhealthy := unhealthy }) ∨
      (a.contained = true ∧ a.closeResult = false)
  | .rejected c => c.closed = true → c.result = false

/-- The health signal of the candidate is open, or the candidate is contained. -/
def Sane : Production → Prop
  | .accepted a => a.contained = false → a.unhealthy = false
  | .rejected _ => True

/-- A close that finds a candidate contained, or healthy and with everything in order. -/
def closesWell : Production → CloseInput → Bool
  | .accepted a, i => a.contained || (!a.unhealthy && i.graceful && i.containment.succeeds)
  | .rejected _, i => i.containment.succeeds

end Production

theorem Accepted.close_fresh {i : CloseInput} (hi : i.graceful = true)
    (hcontain : i.containment.succeeds = true) :
    (Accepted.fresh.close i).1.contained = true ∧ (Accepted.fresh.close i).1.closeResult = false ∧
      (Accepted.fresh.close i).2 = false := by
  simp only [CloseInput.graceful, Bool.and_eq_true] at hi
  obtain ⟨⟨⟨⟨⟨⟨⟨⟨⟨⟨⟨h₁, h₂⟩, h₃⟩, h₄⟩, h₅⟩, h₆⟩, h₇⟩, h₈⟩, h₉⟩, h₁₀⟩, h₁₁⟩, h₁₂⟩ := hi
  have hdrain : Accepted.fresh.drainLocked i =
      ({ Accepted.fresh with admissionDrained := true, drainAttempted := true }, false) := by
    simp [drainLocked, drainCall, currentHealthFailure, fresh, h₁, h₂, h₃, h₄, h₅, h₆]
  have hshutdown : Accepted.shutdownAndWait
      { Accepted.fresh with admissionDrained := true, drainAttempted := true } i =
      ({ Accepted.fresh with
          admissionDrained := true, drainAttempted := true, shutdownAttempted := true },
            false) := by
    simp [shutdownAndWait, shutdownLocked, shutdownCall, currentHealthFailure, fresh, h₇,
      h₈, h₉, h₁₀, h₁₁, h₁₂]
  obtain ⟨hclosed, _, hok⟩ := Candidate.cleanup_succeeds (c := .owning true true true) hcontain
    (fun h => absurd h nofun)
  have hclose : Accepted.fresh.close i = Accepted.contain
      { Accepted.fresh with
        admissionDrained := true, drainAttempted := true, shutdownAttempted := true } i
          false false := by
    rw [close, if_neg nofun, hdrain]
    simp only [Bool.not_true, Bool.false_eq_true, if_false, hshutdown]
  rw [hclose, contain]
  simp [fresh, hclosed, hok]

section

variable {s : Production}

/-- A close that finds everything in order keeps a candidate clean and has no error. -/
theorem Production.Clean.close (hs : s.Clean) {i : Launch × CloseInput}
    (hi : s.closesWell i.2 = true) :
    (productionKind.close s i).2 = true ∧ Clean (productionKind.close s i).1 ∧
      Sane (productionKind.close s i).1 := by
  cases s with
  | accepted a =>
    show (!(a.close i.2).2) = true ∧ Clean (.accepted (a.close i.2).1) ∧
      ((a.close i.2).1.contained = false → (a.close i.2).1.unhealthy = false)
    have hclosed : (a.close i.2).1.contained = true ∧ (a.close i.2).1.closeResult = false ∧
        (a.close i.2).2 = false := by
      by_cases hcontained : a.contained = true
      · rw [Accepted.close_contained hcontained]
        rcases hs with ⟨unhealthy, rfl⟩ | ⟨_, hresult⟩
        · exact absurd hcontained nofun
        · exact ⟨hcontained, hresult, hresult⟩
      · rcases hs with ⟨unhealthy, rfl⟩ | ⟨hcontained', _⟩
        · have hwell : (false || (!unhealthy && i.2.graceful && i.2.containment.succeeds)) = true :=
            hi
          simp only [Bool.false_or, Bool.and_eq_true, Bool.not_eq_true'] at hwell
          obtain ⟨⟨rfl, hgraceful⟩, hcontain⟩ := hwell
          exact Accepted.close_fresh hgraceful hcontain
        · exact absurd hcontained' hcontained
    obtain ⟨hcontained, hresult, hok⟩ := hclosed
    refine ⟨by rw [hok]; rfl, .inr ⟨hcontained, hresult⟩, fun hnot => ?_⟩
    rw [hcontained] at hnot
    cases hnot
  | rejected c =>
    obtain ⟨hclosed, hresult, hok⟩ := Candidate.cleanup_succeeds hi hs
    refine ⟨?_, fun _ => hresult, trivial⟩
    show (!(c.cleanup i.2.containment).2) = true
    rw [hok]
    rfl

theorem Production.Clean.change (hs : s.Clean) (i : Launch × CloseInput) :
    Clean (productionKind.change s i) := by
  cases s with
  | accepted a =>
    rcases hs with ⟨unhealthy, rfl⟩ | hcontained
    · exact .inl ⟨true, rfl⟩
    · exact .inr hcontained
  | rejected c => exact hs

theorem Production.clean_start {x : String} {i : Launch × CloseInput}
    (h : (productionKind.start x i).1 = some s) : s.Clean ∧ s.Sane := by
  obtain ⟨launch, input⟩ := i
  cases launch with
  | failed => exact absurd h nofun
  | rejected process endpoint lease =>
    cases h
    exact ⟨fun hclosed => absurd hclosed nofun, trivial⟩
  | accepted =>
    cases h
    exact ⟨.inl ⟨false, rfl⟩, fun _ => rfl⟩

theorem Production.closesWell_best (hs : s.Sane) : s.closesWell CloseInput.best = true := by
  cases s with
  | accepted a =>
    cases hcontained : a.contained with
    | true => simp [closesWell, hcontained]
    | false =>
      have hhealthy : a.unhealthy = false := hs hcontained
      simp only [closesWell, hcontained, hhealthy]
      rfl
  | rejected c => rfl

end

end SpiceAgent.Pluginhost
