import SpiceAgent.Daemon.Pending
import SpiceAgent.Wire.Common

/-!
# The limits of the hub and of the run host

`validatePendingLimits` (`daemon/pending.go`) checks the limits that `NewPendingHub` gets, and
`validateRunHostLimits` (`daemon/run_host_state.go`) that every pending set of a client fits the
limits of the protocol. `client.Limits` has the fields of the protocol message.
-/

namespace SpiceAgent.Daemon

open SpiceAgent.Lib SpiceAgent.Commonv1

def maximumPendingClients : ℤ := 4096
def maximumPendingRuns : ℤ := 16384
def maximumPendingInteractions : ℤ := 4096
def maximumPendingObservers : ℤ := 1024
def maximumObserverQueue : ℤ := 1024
def maximumObserverEntries : ℤ := maximumPendingObservers * maximumObserverQueue
def maximumObserverQueuedBytes : ℤ := 4 * 2 ^ 20
def maximumPendingBytes : ℤ := 16 * 2 ^ 20
def maximumObserverBytes : ℤ := 64 * 2 ^ 20
def pendingSnapshotItemOverhead : ℤ := 32
def pendingSnapshotFrameOverhead : ℤ := 32

def validateGlobalClientBound (label : String) (total perClient maximum : ℤ) : Except String Unit :=
  refuseIf (total < 1 ∨ maximum < total ∨ perClient < 1 ∨ total < perClient)
    ("pending " ++ label ++ " must be within [1," ++ toString maximum ++
      "] with per-client no greater than global")

variable (limits : PendingLimits)

def validatePendingCountLimits : Except String Unit := do
  refuseIf (limits.clients < 1 ∨ maximumPendingClients < limits.clients)
    ("pending clients must be within [1," ++ toString maximumPendingClients ++ "]")
  validateGlobalClientBound "runs" limits.runs limits.runsPerClient maximumPendingRuns
  validateGlobalClientBound "interactions" limits.pending limits.pendingPerClient
    maximumPendingInteractions
  validateGlobalClientBound "observers" limits.observers limits.observersPerClient
    maximumPendingObservers
  refuseIf (limits.observerQueueEntries < 1 ∨ maximumObserverQueue < limits.observerQueueEntries)
    ("pending observer queue entries must be within [1," ++ toString maximumObserverQueue ++ "]")
  validateGlobalClientBound "reserved queue entries" limits.reservedQueueEntries
    limits.reservedQueueEntriesPerClient maximumObserverEntries
  validateGlobalClientBound "actual queue entries" limits.queuedEntries
    limits.queuedEntriesPerClient maximumObserverEntries
  refuseIf (limits.reservedQueueEntries < limits.observerQueueEntries ∨
      limits.reservedQueueEntriesPerClient < limits.observerQueueEntries)
    "pending reserved queue entries must cover one observer queue"
  refuseIf (limits.queuedEntries < limits.reservedQueueEntries ∨
      limits.queuedEntriesPerClient < limits.reservedQueueEntriesPerClient)
    "pending actual queue entries must cover reserved queue entries"

def validatePendingByteLimits : Except String Unit := do
  validateGlobalClientBound "pending bytes" limits.pendingBytes limits.pendingBytesPerClient
    maximumPendingBytes
  refuseIf (limits.observerQueueBytes < 1 ∨ maximumObserverQueuedBytes < limits.observerQueueBytes)
    ("pending observer queue bytes must be within [1," ++
    toString maximumObserverQueuedBytes ++ "]")
  validateGlobalClientBound "reserved queue bytes" limits.reservedQueueBytes
    limits.reservedQueueBytesPerClient maximumObserverBytes
  validateGlobalClientBound "actual queue bytes" limits.queuedBytes limits.queuedBytesPerClient
    maximumObserverBytes
  refuseIf (limits.reservedQueueBytes < limits.observerQueueBytes ∨
      limits.reservedQueueBytesPerClient < limits.observerQueueBytes)
    "pending reserved queue bytes must cover one observer queue"
  refuseIf (limits.queuedBytes < limits.reservedQueueBytes ∨
      limits.queuedBytesPerClient < limits.reservedQueueBytesPerClient)
    "pending actual queue bytes must cover reserved queue bytes"

/-- `validatePendingReservationFunding`, where all divisors are positive. -/
def validatePendingReservationFunding : Except String Unit :=
  refuseIf (limits.reservedQueueEntries / limits.observerQueueEntries < limits.observers ∨
      limits.reservedQueueEntriesPerClient / limits.observerQueueEntries <
        limits.observersPerClient ∨
      limits.reservedQueueBytes / limits.observerQueueBytes < limits.observers ∨
      limits.reservedQueueBytesPerClient / limits.observerQueueBytes < limits.observersPerClient)
    "pending global queue reservations cannot cover the configured observer bound"

def validatePendingLimits : Except String Unit := do
  validatePendingCountLimits limits
  validatePendingByteLimits limits
  validatePendingReservationFunding limits

/-- `snapshotCapacityUpperBound`: items and bytes. -/
def PendingLimits.snapshotCapacityUpperBound : ℤ × ℤ :=
  (limits.pendingPerClient,
    limits.pendingBytesPerClient + limits.pendingPerClient * pendingSnapshotItemOverhead +
      pendingSnapshotFrameOverhead)

/-- `Limits.Validate` of the client package. -/
def validateClientLimits (limits : Limits) : Except String Unit := do
  refuseIf (limits.maxMessageBytes = 0 ∨ limits.maxCollectionItems = 0 ∨
      limits.maxReplayEvents = 0 ∨
      limits.maxReplayBytes = 0 ∨ limits.maxConcurrentStreams = 0 ∨ limits.maxActiveRuns = 0)
    "client limits must all be positive"
  refuseIf (limits.maxReplayBytes < limits.maxReplayEvents)
    "replay event count cannot exceed the replay byte bound"

def validateRunHostLimits (pending : PendingLimits) (limits : Limits) : Except String Unit := do
  (validateClientLimits limits).mapError ("run host limits: " ++ ·)
  refuseIf (maximumSessionStreamsPerClient < limits.maxConcurrentStreams)
    ("run host concurrent streams exceed " ++ toString maximumSessionStreamsPerClient)
  refuseIf (pending.snapshotCapacityUpperBound.1 < 1 ∨
      (limits.maxCollectionItems : ℤ) < pending.snapshotCapacityUpperBound.1 ∨
      pending.snapshotCapacityUpperBound.2 < 1 ∨
      (limits.maxMessageBytes : ℤ) < pending.snapshotCapacityUpperBound.2)
    "run host pending snapshot capacity exceeds protocol limits"

end SpiceAgent.Daemon
