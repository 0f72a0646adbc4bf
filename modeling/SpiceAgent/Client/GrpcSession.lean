import Mathlib.Tactic

/-!
# Sessions and streams of the gRPC client

A session knows its open streams, and the connector knows the session of each client. A stream has
two flags without a lock: `close` marks it closed, and the end of its receive loop marks it ended.
Whoever sees the other's flag releases the stream; the release that empties a closed session, and
whoever closes a session without streams, removes the session from the connector.

The book holds all of it. A step is one critical section or one access to a flag. The bodies of the
two `sync.Once` of a stream run at most once, so that their program counters are kept with the
stream.
-/

namespace SpiceAgent.Grpcclient

open Function (update)

/-- Where the body of `close` stands. -/
inductive Closer
  | fresh
  | entered
  | stored
  | cancelled
  | releasing
  | removing
  | leaving
  | done
  deriving DecidableEq

/-- Where `finishRPC` stands; `active` before it. -/
inductive Finisher
  | active
  | swapped
  | releasing
  | removing
  | joining
  | done

/-- `streamLifetime`, with the call that runs the body of `close`. -/
structure Lifetime where
  owner : ℕ
  closed : Bool
  cancelled : Bool
  ended : Bool
  rpcDone : Bool
  closer : Closer
  runner : ℕ
  finisher : Finisher

def newStreamLifetime (owner : ℕ) : Lifetime :=
  ⟨owner, false, false, false, false, .fresh, 0, .active⟩

/-- `session`: its connection's client and ownership epoch, and its state. -/
structure Session where
  client : ℕ
  epoch : ℕ
  closed : Bool
  streams : List ℕ

/-- The sessions that the connector has for its clients, and all sessions and streams. -/
structure Book where
  sessions : ℕ → Option ℕ
  session : ℕ → Session
  nextSession : ℕ
  life : ℕ → Lifetime
  nextLife : ℕ

namespace Book

variable (b : Book) (p : ℕ)

def setLife (l : ℕ) (x : Lifetime) : Book :=
  { b with life := update b.life l x }

def setSession (x : Session) : Book :=
  { b with session := update b.session p x }

/-- `Connector.remove`. -/
def remove : Book :=
  if b.sessions (b.session p).client = some p then
    { b with sessions := update b.sessions (b.session p).client none }
  else b

/-- `Connector.install` of a new session; a session that is refused is dropped. -/
def install (client epoch : ℕ) : Option Book :=
  if b.sessions client = none then
    some { b with
      sessions := update b.sessions client (some b.nextSession)
      session := update b.session b.nextSession ⟨client, epoch, false, []⟩
      nextSession := b.nextSession + 1 }
  else none

/-- `session.streamContext`: the new stream is registered unless the session is closed. -/
def streamContext : Option Book :=
  if (b.session p).closed then none
  else
    let s := b.session p
    some { b with
      session := update b.session p { s with streams := b.nextLife :: s.streams }
      life := update b.life b.nextLife (newStreamLifetime p)
      nextLife := b.nextLife + 1 }

/-- The critical section of `session.releaseStream`. -/
def release (l : ℕ) : Book :=
  let p := (b.life l).owner
  let s := b.session p
  b.setSession p { s with streams := s.streams.filter (· ≠ l) }

/-- The session is to be removed by the call that released the stream. -/
def removes : Bool := (b.session p).closed && (b.session p).streams.isEmpty

/-- The critical section of `session.closeAndCaptureStreams`, which captures the streams of the
session. -/
def capture : Book :=
  let s := b.session p
  b.setSession p { s with closed := true }

/-- One step of the body of `close`, run by the call `i`. -/
def closeStep (l i : ℕ) : Option Book :=
  let x := b.life l
  match x.closer with
  | .fresh => some (b.setLife l { x with closer := .entered, runner := i })
  | .entered => some (b.setLife l { x with closed := true, closer := .stored })
  | .stored => some (b.setLife l { x with cancelled := true, closer := .cancelled })
  | .cancelled => some (b.setLife l { x with closer := if x.ended then .releasing else .leaving })
  | .releasing =>
    let b' := b.release l
    some (b'.setLife l { x with closer := if b'.removes x.owner then .removing else .leaving })
  | .removing => some ((b.remove x.owner).setLife l { x with closer := .leaving })
  | .leaving => some (b.setLife l { x with closer := .done })
  | .done => none

/-- One step of `finishRPC`. -/
def finishStep (l : ℕ) : Option Book :=
  let x := b.life l
  match x.finisher with
  | .active => some (b.setLife l { x with ended := true, finisher := .swapped })
  | .swapped =>
    some (b.setLife l { x with finisher := if x.closed then .releasing else .joining })
  | .releasing =>
    let b' := b.release l
    some (b'.setLife l { x with finisher := if b'.removes x.owner then .removing else .joining })
  | .removing => some ((b.remove x.owner).setLife l { x with finisher := .joining })
  | .joining => some (b.setLife l { x with rpcDone := true, finisher := .done })
  | .done => none

/-- `interrupt`: the context of the stream is cancelled, the stream is not closed. -/
def interrupt (l : ℕ) : Book :=
  let x := b.life l
  b.setLife l { x with cancelled := true }

end Book

/-! ## What the flags say -/

namespace Closer

/-- `closed` has been set. -/
def hasStored : Closer → Bool
  | .fresh | .entered => false
  | _ => true

def hasCancelled : Closer → Bool
  | .fresh | .entered | .stored => false
  | _ => true

end Closer

/-- `ended` has been set. -/
def Finisher.hasSwapped : Finisher → Bool
  | .active => false
  | _ => true

/-- What holds of a stream, where `listed` says that its session has it. Either body leaves the
release to the other only if the other is bound to see its flag. -/
@[mk_iff] structure Lifetime.Sound (x : Lifetime) (listed : Prop) : Prop where
  closed_eq : x.closed = x.closer.hasStored
  cancelled : x.closer.hasCancelled = true → x.cancelled = true
  ended_eq : x.ended = x.finisher.hasSwapped
  joined : x.rpcDone = true ↔ x.finisher = .done
  released : ¬ listed → x.closed = true ∧ x.ended = true
  closer_releases : x.closer = .releasing → x.ended = true
  finisher_releases : x.finisher = .releasing → x.closed = true
  closer_out : x.closer = .removing → ¬ listed
  finisher_out : x.finisher = .removing → ¬ listed
  closer_left : x.closer = .leaving ∨ x.closer = .done →
    ¬ listed ∨ x.finisher = .active ∨ x.finisher = .swapped ∨ x.finisher = .releasing
  finisher_left : x.finisher = .joining ∨ x.finisher = .done →
    ¬ listed ∨ x.closer = .fresh ∨ x.closer = .entered ∨ x.closer = .stored ∨
      x.closer = .cancelled ∨ x.closer = .releasing

theorem Lifetime.Sound.not_listed {x : Lifetime} {listed : Prop} (h : x.Sound listed)
    (hclose : x.closer = .done) (hfinish : x.finisher = .done) : ¬ listed := by
  rcases h.closer_left (.inr hclose) with hout | hf
  · exact hout
  · simp [hfinish] at hf

/-- The book is consistent. -/
@[mk_iff] structure Book.Sound (b : Book) : Prop where
  installed : ∀ c p, b.sessions c = some p → p < b.nextSession ∧ (b.session p).client = c
  listed : ∀ p, ∀ l ∈ (b.session p).streams, l < b.nextLife ∧ (b.life l).owner = p
  owner_lt : ∀ l, l < b.nextLife → (b.life l).owner < b.nextSession
  life : ∀ l, l < b.nextLife →
    (b.life l).Sound (l ∈ (b.session (b.life l).owner).streams)

/-- The session `p` was closed when it had the streams `captured`; it is removed, or somebody is
about to do so, or a stream is left. -/
@[mk_iff] structure Book.Draining (b : Book) (p : ℕ) (captured : List ℕ) : Prop where
  known : p < b.nextSession
  closed : (b.session p).closed = true
  streams_sub : ∀ l ∈ (b.session p).streams, l ∈ captured
  owned : ∀ l ∈ captured, l < b.nextLife ∧ (b.life l).owner = p
  removal : (b.session p).streams ≠ [] ∨ b.sessions (b.session p).client ≠ some p ∨
    ∃ l ∈ captured, (b.life l).closer = .removing ∨ (b.life l).finisher = .removing

/-- What never changes back. -/
@[mk_iff] structure Book.Later (b b' : Book) : Prop where
  nextSession_le : b.nextSession ≤ b'.nextSession
  nextLife_le : b.nextLife ≤ b'.nextLife
  identity : ∀ p, p < b.nextSession →
    (b'.session p).client = (b.session p).client ∧ (b'.session p).epoch = (b.session p).epoch
  closed : ∀ p, p < b.nextSession → (b.session p).closed = true → (b'.session p).closed = true
  shrinks : ∀ p, p < b.nextSession → (b.session p).closed = true →
    ∀ l ∈ (b'.session p).streams, l ∈ (b.session p).streams
  removed : ∀ p, p < b.nextSession → b.sessions (b.session p).client ≠ some p →
    b'.sessions (b.session p).client ≠ some p
  closer : ∀ l, l < b.nextLife → (b.life l).closer = .done → (b'.life l).closer = .done
  finisher : ∀ l, l < b.nextLife → (b.life l).finisher = .done → (b'.life l).finisher = .done

end SpiceAgent.Grpcclient
