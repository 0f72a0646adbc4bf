import Mathlib.Data.List.AList
import SpiceAgent.Event.Envelope
import SpiceAgent.Lib.Consecutive
import SpiceAgent.Lib.Text

/-!
# The bounded replay log

The count-and-byte-bounded authoritative log of one run (`event/log.go`): `append` with its
eviction loop, the retained bounds, the replay page and the exhaustion facts. Subscriptions are
objects with a lock of their own; the log holds only their identities (`Event.Subscription`).

Sequences and counters are `uint64` values: natural numbers below `2 ^ 64`, with the wrap written
out where the source's arithmetic can reach it.
-/

namespace SpiceAgent.Event

open SpiceAgent.Lib

/-- `LogLimits` bound authoritative history and every independent subscriber. -/
structure LogLimits where
  maxEvents : ℤ
  maxBytes : ℤ
  terminalReserveEvents : ℤ
  terminalReserveBytes : ℤ
  subscriberMaxEvents : ℤ
  subscriberMaxBytes : ℤ

/-- The limits that `NewLogAfter` accepts. -/
structure LogLimits.Valid (l : LogLimits) : Prop where
  events : 2 ≤ l.maxEvents
  bytes : 1024 ≤ l.maxBytes
  reserveEvents_pos : 1 ≤ l.terminalReserveEvents
  reserveEvents_lt : l.terminalReserveEvents < l.maxEvents
  reserveBytes_pos : 1 ≤ l.terminalReserveBytes
  reserveBytes_lt : l.terminalReserveBytes < l.maxBytes
  subscriberEvents : 1 ≤ l.subscriberMaxEvents
  subscriberBytes : 1 ≤ l.subscriberMaxBytes

/-- `OutOfRangeError` reports a replay cursor outside retained history. -/
structure OutOfRangeError where
  requestedAfter : ℕ
  earliest : ℕ
  latest : ℕ
  recoveryAfter : ℕ
  deriving DecidableEq

/-- The exhausted resources of the package. -/
inductive Resource
  | eventLogBytes | eventReplayBytes | eventReplayEvents
  | eventSubscriptionEvents | eventSubscriptionBytes
  deriving DecidableEq

def Resource.name : Resource → String
  | eventLogBytes => "event_log_bytes"
  | eventReplayBytes => "event_replay_bytes"
  | eventReplayEvents => "event_replay_events"
  | eventSubscriptionEvents => "event_subscription_events"
  | eventSubscriptionBytes => "event_subscription_bytes"

/-- `ResourceExhaustedError` reports a subscriber or authoritative bound. -/
structure ResourceExhaustedError where
  lastDelivered : ℕ
  maxEvents : ℤ
  maxBytes : ℤ
  resource : Resource
  limit : ℕ
  observed : ℕ
  deriving DecidableEq

/-- The errors of the package. -/
inductive LogError
  /-- A plain message. -/
  | message (text : String)
  /-- The event names another run than the log. -/
  | wrongRun (event log : String)
  /-- The event does not carry the next sequence. -/
  | wrongSequence (event last : ℕ)
  /-- A replay bound lies outside `[1, limit]`. -/
  | replayBound (bound : String) (limit : ℤ)
  | outOfRange (failure : OutOfRangeError)
  | resourceExhausted (failure : ResourceExhaustedError)
  /-- The error of an ended context. -/
  | context
  deriving DecidableEq

/-- The internal error of a page that moved nowhere. -/
def noProgress : LogError :=
  .message "event replay made no progress without an exhausted bound"

/-- `nonnegativeUint64` of a count or a byte size. -/
def nonnegativeUint64 (value : ℤ) : ℕ := if value < 0 then 0 else value.toNat

/-- One retained event and its encoded size. -/
structure LogEntry where
  envelope : Envelope
  bytes : ℤ
  deriving DecidableEq

def LogEntry.seq (e : LogEntry) : ℕ := e.envelope.sequence

def totalBytes (l : List LogEntry) : ℤ := (l.map LogEntry.bytes).sum

/-- `LogStats`: the counters are `uint64` values. -/
structure LogStats where
  retainedEvents : ℕ := 0
  retainedBytes : ℕ := 0
  evictedEvents : ℕ := 0
  evictedBytes : ℕ := 0
  authoritativeExhaustions : ℕ := 0
  subscriptionExhaustions : ℕ := 0
  slowSubscriberDisconnects : ℕ := 0

/-- `Log` is a count-and-byte-bounded authoritative per-run replay log. `subscribers` maps the
identity of a registered subscription to the object. -/
structure Log where
  runID : String
  limits : LogLimits
  entries : List LogEntry
  bytes : ℤ
  lastSequence : ℕ
  closed : Bool
  nextSubID : ℕ
  subscribers : AList fun _ : ℕ => ℕ
  stats : LogStats

/-- `NewLogAfter` constructs an empty tail log continuing after a persisted cursor. -/
def newLogAfter (runID : String) (lastSequence : ℕ) (limits : LogLimits) : Except LogError Log :=
  if trimmedToken runID = false then
    .error (.message "event log requires a run ID without surrounding whitespace")
  else if limits.maxEvents < 2 ∨ limits.maxBytes < 1024 ∨
      limits.terminalReserveEvents < 1 ∨ limits.maxEvents ≤ limits.terminalReserveEvents ∨
      limits.terminalReserveBytes < 1 ∨ limits.maxBytes ≤ limits.terminalReserveBytes ∨
      limits.subscriberMaxEvents < 1 ∨ limits.subscriberMaxBytes < 1 then
    .error (.message "event log limits are invalid")
  else if lastSequence = maxUint64 then
    .error (.message "event log cursor has no representable next sequence")
  else
    .ok { runID, limits, entries := [], bytes := 0, lastSequence, closed := false,
          nextSubID := 0, subscribers := ∅, stats := {} }

/-! ## Append -/

/-- The eviction loop of `Append`: while the entries or the bytes leave no room, the oldest entry is
dropped. `none` is the run-time panic of indexing an empty slice. -/
def evict (maxEvents room : ℤ) :
    List LogEntry → ℤ → LogStats → Option (List LogEntry × ℤ × LogStats)
  | [], bytes, stats =>
    if maxEvents ≤ 0 ∨ room < bytes then none else some ([], bytes, stats)
  | e :: rest, bytes, stats =>
    if maxEvents ≤ (e :: rest).length ∨ room < bytes then
      evict maxEvents room rest (bytes - e.bytes)
        { stats with evictedEvents := (stats.evictedEvents + 1) % 2 ^ 64
                     evictedBytes := (stats.evictedBytes + e.bytes.toNat) % 2 ^ 64 }
    else some (e :: rest, bytes, stats)

/-- How `Append` ends. -/
inductive AppendResult
  /-- The entry is retained and offered to the live subscribers. -/
  | accepted (log : Log) (entry : LogEntry)
  /-- The append fails and the log is left as given. -/
  | rejected (log : Log) (error : LogError)
  /-- The eviction loop indexes an empty slice. -/
  | panicked

variable (log : Log) (ctxErr : Bool)

/-- The event and byte bounds that apply to an envelope: the terminal reserve is kept from all but
the terminal kinds. -/
def Log.appendBounds (envelope : Envelope) : ℤ × ℤ :=
  if envelope.terminal then (log.limits.maxEvents, log.limits.maxBytes)
  else (log.limits.maxEvents - log.limits.terminalReserveEvents,
        log.limits.maxBytes - log.limits.terminalReserveBytes)

/-- `Append` up to the offers: it checks the envelope, evicts, and retains the new entry. -/
def Log.append (envelope : Envelope) : AppendResult :=
  let size : ℤ := envelope.encodedSize
  if log.closed then .rejected log (.message "event log is closed")
  else if envelope.runID ≠ log.runID then
    .rejected log (.wrongRun envelope.runID log.runID)
  else if log.lastSequence = maxUint64 ∨ envelope.sequence ≠ log.lastSequence + 1 then
    .rejected log (.wrongSequence envelope.sequence log.lastSequence)
  else
    let maxEvents := (log.appendBounds envelope).1
    let maxBytes := (log.appendBounds envelope).2
    if maxBytes < size then
      .rejected
        { log with stats := { log.stats with
            authoritativeExhaustions := (log.stats.authoritativeExhaustions + 1) % 2 ^ 64 } }
        (.resourceExhausted
          { lastDelivered := log.lastSequence, maxEvents, maxBytes, resource := .eventLogBytes,
            limit := nonnegativeUint64 maxBytes, observed := nonnegativeUint64 size })
    else
      match evict maxEvents (maxBytes - size) log.entries log.bytes log.stats with
      | none => .panicked
      | some (entries, bytes, stats) =>
        let entry : LogEntry := { envelope, bytes := size }
        .accepted { log with entries := entries ++ [entry], bytes := bytes + size,
                             lastSequence := envelope.sequence, stats := stats } entry

/-- `Stats` returns the counters with the retained totals. -/
def Log.readStats : LogStats :=
  { log.stats with retainedEvents := log.entries.length % 2 ^ 64
                   retainedBytes := log.bytes.toNat % 2 ^ 64 }

/-! ## Replay -/

/-- `boundsLocked`: the retained earliest and latest sequence; an empty log is `[1, 0]`. -/
def Log.bounds : ℕ × ℕ :=
  match log.entries with
  | [] =>
    if log.lastSequence = maxUint64 then (maxUint64, maxUint64)
    else (log.lastSequence + 1, log.lastSequence)
  | e :: _ => (e.seq, log.lastSequence)

/-- `replayCursorOutside`, with the `uint64` wrap of both sums. -/
def replayCursorOutside (after earliest latest : ℕ) : Bool :=
  if earliest = (latest + 1) % 2 ^ 64 then after ≠ latest
  else latest < after ∨ after < (earliest + maxUint64) % 2 ^ 64

/-- `ReplayRequest` bounds one atomic retained-history page. -/
structure ReplayRequest where
  afterSequence : ℕ
  maxEvents : ℤ
  maxBytes : ℤ
  tail : Bool

/-- `ReplayPage` is one gap-free page captured with its retained bounds. `tail` is the live
subscription registered with the page. -/
structure ReplayPage where
  earliestSequence : ℕ
  latestSequence : ℕ
  pageLastSequence : ℕ
  events : List Envelope := []
  hasMore : Bool := false
  tailing : Bool := false
  tail : Option ℕ := none
  deriving DecidableEq

/-- The page loop: `acc` are the entries taken so far, `bytes` their size and `last` the cursor. -/
def pageLoop (request : ReplayRequest) :
    List LogEntry → List LogEntry → ℤ → ℕ → Except ResourceExhaustedError (List LogEntry × ℕ)
  | [], acc, _, last => .ok (acc, last)
  | e :: rest, acc, bytes, last =>
    if e.seq ≤ request.afterSequence then pageLoop request rest acc bytes last
    else if (acc.length : ℤ) = request.maxEvents then .ok (acc, last)
    else if request.maxBytes < e.bytes ∨ request.maxBytes - e.bytes < bytes then
      if acc.length = 0 then
        .error { lastDelivered := request.afterSequence, maxEvents := request.maxEvents,
                 maxBytes := request.maxBytes, resource := .eventReplayBytes,
                 limit := nonnegativeUint64 request.maxBytes,
                 observed := nonnegativeUint64 e.bytes }
      else .ok (acc, last)
    else pageLoop request rest (acc ++ [e]) (bytes + e.bytes) e.seq

def Log.countExhaustion : Log :=
  { log with stats := { log.stats with
      subscriptionExhaustions := (log.stats.subscriptionExhaustions + 1) % 2 ^ 64 } }

/-- `replayPageLocked` captures the retained bounds and one bounded page after a cursor. -/
def Log.replayPage (request : ReplayRequest) : Log × Except LogError (List LogEntry × ReplayPage) :=
  let earliest := log.bounds.1
  let latest := log.bounds.2
  if replayCursorOutside request.afterSequence earliest latest then
    (log, .error (.outOfRange
      { requestedAfter := request.afterSequence, earliest, latest,
        recoveryAfter := if request.afterSequence < earliest then (earliest + maxUint64) % 2 ^ 64
                         else latest }))
  else
    match pageLoop request log.entries [] 0 request.afterSequence with
    | .error failure => (log.countExhaustion, .error (.resourceExhausted failure))
    | .ok (entries, last) =>
      let page : ReplayPage := { earliestSequence := earliest, latestSequence := latest,
                                 pageLastSequence := last }
      if last < latest then
        if entries.length = 0 then (log, .error noProgress)
        else (log, .ok (entries, { page with hasMore := true }))
      else (log, .ok (entries, page))

/-- The argument checks of `Replay`, before the lock is taken. -/
def Log.replayCheck (request : ReplayRequest) : Option LogError :=
  if ctxErr then some .context
  else if request.maxEvents < 1 ∨ log.limits.subscriberMaxEvents < request.maxEvents then
    some (.replayBound "event replay max events" log.limits.subscriberMaxEvents)
  else if request.maxBytes < 1 ∨ log.limits.subscriberMaxBytes < request.maxBytes then
    some (.replayBound "event replay max bytes" log.limits.subscriberMaxBytes)
  else none

/-- The log's part of `registerSubscriptionLocked`: the identity of the new subscription, which a
closed log does not keep. `ref` is the address of the subscription object. -/
def Log.register (ref : ℕ) : Log × ℕ :=
  let id := (log.nextSubID + 1) % 2 ^ 64
  ({ log with nextSubID := id
              subscribers := if log.closed then log.subscribers
                             else log.subscribers.insert id ref }, id)

/-- `Replay`: a page that reaches the captured latest sequence registers its tail at `ref`. -/
def Log.replay (request : ReplayRequest) (ref : ℕ) : Log × Except LogError ReplayPage :=
  match log.replayCheck ctxErr request with
  | some err => (log, .error err)
  | none =>
    match log.replayPage request with
    | (log', .error err) => (log', .error err)
    | (log', .ok (entries, page)) =>
      let page := { page with events := entries.map LogEntry.envelope }
      if request.tail && !page.hasMore && !log'.closed then
        ((log'.register ref).1, .ok { page with tail := some ref, tailing := true })
      else (log', .ok page)

/-- The page request that `Subscribe` makes for itself. -/
def Log.subscribeRequest (afterSequence : ℕ) : ReplayRequest :=
  { afterSequence, maxEvents := log.limits.subscriberMaxEvents,
    maxBytes := log.limits.subscriberMaxBytes, tail := true }

/-- `replayExhaustionLocked`: the bound that a subscription's initial page exceeds. -/
def Log.replayExhaustion (lastDelivered : ℕ) (replay : List LogEntry) : LogError :=
  if log.limits.subscriberMaxEvents ≤ replay.length then
    .resourceExhausted
      { lastDelivered, maxEvents := log.limits.subscriberMaxEvents,
        maxBytes := log.limits.subscriberMaxBytes, resource := .eventReplayEvents,
        limit := nonnegativeUint64 log.limits.subscriberMaxEvents,
        observed := (replay.length + 1) % 2 ^ 64 }
  else
    match log.entries.find? fun e => lastDelivered < e.seq with
    | some e =>
      .resourceExhausted
        { lastDelivered, maxEvents := log.limits.subscriberMaxEvents,
          maxBytes := log.limits.subscriberMaxBytes, resource := .eventReplayBytes,
          limit := nonnegativeUint64 log.limits.subscriberMaxBytes,
          observed := ((replay.map fun e => nonnegativeUint64 e.bytes).sum +
            nonnegativeUint64 e.bytes) % 2 ^ 64 }
    | none => .message "event replay exhausted without a retained recovery entry"

/-- `Subscribe` atomically replays entries after a cursor and tails future appends: the entries of
the initial queue of the subscription registered at `ref`. -/
def Log.subscribe (afterSequence : ℕ) (ref : ℕ) : Log × Except LogError (List LogEntry) :=
  if ctxErr then (log, .error .context)
  else
    match log.replayPage (log.subscribeRequest afterSequence) with
    | (log', .error err) => (log', .error err)
    | (log', .ok (replay, page)) =>
      if page.hasMore then
        (log'.countExhaustion,
          .error (log'.replayExhaustion page.pageLastSequence replay))
      else ((log'.register ref).1, .ok replay)

end SpiceAgent.Event
