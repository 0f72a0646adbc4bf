import SpiceAgent.Client.GrpcSession
import SpiceAgent.Lib.Threads

/-!
# Calls on one gRPC connector

A reconnect registers at the gate of its client, takes the gate's token, fences the session that its
claim names, asks the daemon and installs the new session. To fence a session is to close it, to
close the streams that it had and to wait until each of them has ended. Other calls open, read and
close streams, close sessions and connect afresh.
-/

namespace SpiceAgent.Grpcclient

open SpiceAgent.Lib Function

def maximumReconnectWaitersPerClient : ℕ := 1

/-! ## Gates -/

/-- `reconnectGate`: the call that has the token, if it is taken, and the calls that `users`
counts. -/
structure Gate where
  client : ℕ
  users : ℕ
  holder : Option ℕ
  members : List ℕ

/-- The gates of the connector. -/
structure Desk where
  reconnects : ℕ → Option ℕ
  gate : ℕ → Gate
  next : ℕ

namespace Desk

variable (d : Desk)

def setGate (g : ℕ) (x : Gate) : Desk := { d with gate := update d.gate g x }

/-- The gate of a client; a new one has its token. -/
def gateOf (client : ℕ) : Desk × ℕ :=
  match d.reconnects client with
  | some g => (d, g)
  | none =>
    (⟨update d.reconnects client (some d.next),
      update d.gate d.next ⟨client, 0, none, []⟩, d.next + 1⟩, d.next)

/-- The critical section of `acquireReconnect`, for the call `i`. -/
def register (client i : ℕ) : Option (Desk × ℕ) :=
  let (d', g) := d.gateOf client
  let x := d'.gate g
  if x.users ≥ maximumReconnectWaitersPerClient + 1 then none
  else some (d'.setGate g { x with users := x.users + 1, members := i :: x.members }, g)

/-- `releaseReconnectReference`. -/
def releaseReference (g i : ℕ) : Desk :=
  let x := d.gate g
  let d' := d.setGate g { x with users := x.users - 1, members := x.members.erase i }
  if x.users - 1 = 0 ∧ d.reconnects x.client = some g then
    { d' with reconnects := update d.reconnects x.client none }
  else d'

def setHolder (g : ℕ) (holder : Option ℕ) : Desk :=
  let x := d.gate g
  d.setGate g { x with holder := holder }

end Desk

/-! ## Calls -/

/-- `client.ReconnectClaim`. -/
structure Claim where
  client : ℕ
  epoch : ℕ
  deriving DecidableEq

/-- A reconnect at its gate. -/
structure Ticket where
  claim : Claim
  gate : ℕ
  deriving DecidableEq

/-- Why a call closes streams. -/
inductive Purpose
  | close
  | failing (stream : ℕ)
  | fence (ticket : Ticket) (prior : ℕ) (captured : List ℕ)
  deriving DecidableEq

/-- Where a call stands. -/
inductive Phase
  | idle
  | refused
  | calling (session : ℕ)
  | streaming (stream : ℕ)
  | finishing (stream : ℕ)
  | capturing (session : ℕ) (ticket : Option Ticket)
  | removing (session : ℕ) (ticket : Option Ticket)
  | closing (todo : List ℕ) (purpose : Purpose)
  | joining (todo : List ℕ) (ticket : Ticket) (prior : ℕ) (captured : List ℕ)
  | queued (ticket : Ticket)
  | checking (ticket : Ticket)
  | looking (ticket : Ticket)
  | past (ticket : Ticket) (prior : Option ℕ)
  | giving (ticket : Ticket)
  | dropping (ticket : Ticket)
  | returned
  deriving DecidableEq

/-- A call, with the number of tokens that it has taken and given back. -/
structure Op where
  phase : Phase
  taken : ℕ
  given : ℕ

def Op.at (op : Op) (phase : Phase) : Op := { op with phase := phase }

structure Shared where
  book : Book
  desk : Desk

inductive Action
  | openStream (session : ℕ)
  | invoke (session : ℕ)
  | interrupt (stream : ℕ)
  | closeStream (stream : ℕ)
  | closeSession (session : ℕ)
  | connect (client epoch : ℕ)
  | reconnect (claim : Claim)
  | go
  | endLoop
  | fail
  | expire
  | respond (epoch : Option ℕ)

/-- The purpose of closing the streams that were captured. -/
def purposeOf (p : ℕ) (captured : List ℕ) : Option Ticket → Purpose
  | none => .close
  | some t => .fence t p captured

/-- One action of the call `i`. -/
def act (s : Shared) (i : ℕ) (op : Op) (a : Action) : Option (Shared × Op) :=
  match op.phase, a with
  -- Events and Interactions
  | .idle, .openStream p =>
    if p < s.book.nextSession then
      match s.book.streamContext p with
      | some b => some (⟨b, s.desk⟩, op.at (.streaming s.book.nextLife))
      | none => some (s, op.at .refused)
    else none
  | .streaming l, .endLoop => some (s, op.at (.finishing l))
  | .streaming l, .fail => some (s, op.at (.closing [l] (.failing l)))
  | .finishing l, .go =>
    match s.book.finishStep l with
    | some b => some (⟨b, s.desk⟩, op)
    | none => some (s, op.at .returned)
  -- the context of the opening call ends
  | .idle, .interrupt l =>
    if l < s.book.nextLife then some (⟨s.book.interrupt l, s.desk⟩, op.at .returned) else none
  -- rpcContext
  | .idle, .invoke p =>
    if p < s.book.nextSession then
      some (s, op.at (if (s.book.session p).closed then .refused else .calling p))
    else none
  -- Close of a stream and of a session
  | .idle, .closeStream l =>
    if l < s.book.nextLife then some (s, op.at (.closing [l] .close)) else none
  | .idle, .closeSession p =>
    if p < s.book.nextSession then some (s, op.at (.capturing p none)) else none
  -- closeAndCaptureStreams
  | .capturing p ticket, .go =>
    some (⟨s.book.capture p, s.desk⟩, op.at (match (s.book.session p).streams with
      | [] => .removing p ticket
      | l :: ls => .closing (l :: ls) (purposeOf p (l :: ls) ticket)))
  | .removing p ticket, .go =>
    some (⟨s.book.remove p, s.desk⟩, op.at (.closing [] (purposeOf p [] ticket)))
  | .closing [] .close, .go => some (s, op.at .returned)
  | .closing [] (.failing l), .go => some (s, op.at (.finishing l))
  | .closing [] (.fence t p captured), .go => some (s, op.at (.joining captured t p captured))
  | .closing (l :: todo) purpose, .go =>
    if (s.book.life l).closer = .done then some (s, op.at (.closing todo purpose))
    -- `Once.Do` waits for the call that runs the body
    else if (s.book.life l).closer = .fresh ∨ (s.book.life l).runner = i then
      (s.book.closeStep l i).map fun b => (⟨b, s.desk⟩, op)
    else none
  -- waitFor
  | .joining [] t p _, .go => some (s, op.at (.past t (some p)))
  | .joining (l :: todo) t p captured, .go =>
    if (s.book.life l).rpcDone then some (s, op.at (.joining todo t p captured)) else none
  | .joining (_ :: _) t _ _, .expire => some (s, op.at (.giving t))
  -- Initialize without a claim
  | .idle, .connect client epoch =>
    some (⟨(s.book.install client epoch).getD s.book, s.desk⟩, op.at .returned)
  -- Initialize with a claim
  | .idle, .reconnect claim =>
    match s.desk.register claim.client i with
    | some (d, g) => some (⟨s.book, d⟩, op.at (.queued ⟨claim, g⟩))
    | none => some (s, op.at .returned)
  | .queued t, .expire => some (s, op.at (.dropping t))
  | .queued t, .go =>
    if (s.desk.gate t.gate).holder = none then
      some (⟨s.book, s.desk.setHolder t.gate (some i)⟩, ⟨.checking t, op.taken + 1, op.given⟩)
    else none
  | .checking t, .expire => some (s, op.at (.giving t))
  | .checking t, .go => some (s, op.at (.looking t))
  -- fenceReconnect
  | .looking t, .go =>
    some (s, op.at (match s.book.sessions t.claim.client with
      | some p => if (s.book.session p).epoch = t.claim.epoch then .capturing p (some t)
        else .past t none
      | none => .past t none))
  | .past t _, .respond epoch =>
    some (⟨(epoch.bind (s.book.install t.claim.client)).getD s.book, s.desk⟩, op.at (.giving t))
  | .giving t, .go =>
    some (⟨s.book, s.desk.setHolder t.gate none⟩, ⟨.dropping t, op.taken, op.given + 1⟩)
  | .dropping t, .go => some (⟨s.book, s.desk.releaseReference t.gate i⟩, op.at .returned)
  | _, _ => none

def connector : Threads Shared Op Action where
  shared := ⟨⟨fun _ => none, fun _ => ⟨0, 0, true, []⟩, 0, fun _ => newStreamLifetime 0, 0⟩,
    ⟨fun _ => none, fun _ => ⟨0, 0, none, []⟩, 0⟩⟩
  thread := ⟨.idle, 0, 0⟩
  act := act

end SpiceAgent.Grpcclient
