import SpiceAgent.Event.Log

/-!
# The invariant of the bounded log

`Log.Inv start accepted log` ties a log that began after the cursor `start` to the entries it has
accepted: what it retains is their suffix, and the counters account for the rest. `append` either
changes one counter and fails, or extends the history by one entry.
-/

namespace SpiceAgent.Event

open SpiceAgent.Lib List

/-! ## Sizes -/

@[simp] theorem totalBytes_nil : totalBytes [] = 0 := rfl

@[simp] theorem totalBytes_cons (e : LogEntry) (l : List LogEntry) :
    totalBytes (e :: l) = e.bytes + totalBytes l := by simp [totalBytes]

@[simp] theorem totalBytes_append (l₁ l₂ : List LogEntry) :
    totalBytes (l₁ ++ l₂) = totalBytes l₁ + totalBytes l₂ := by simp [totalBytes]

/-- Every entry records the positive encoded size of its envelope. -/
def Sized (l : List LogEntry) : Prop := ∀ e ∈ l, e.bytes = e.envelope.encodedSize

theorem Sized.of_append_right {l₁ l₂ : List LogEntry} (h : Sized (l₁ ++ l₂)) : Sized l₂ :=
  fun e he => h e (mem_append_right l₁ he)

theorem Sized.of_append_left {l₁ l₂ : List LogEntry} (h : Sized (l₁ ++ l₂)) : Sized l₁ :=
  fun e he => h e (mem_append_left l₂ he)

variable {e : LogEntry} {l : List LogEntry}

theorem Sized.of_cons (h : Sized (e :: l)) : Sized l :=
  fun x hx => h x (mem_cons_of_mem e hx)

theorem Sized.concat (h : Sized l) (envelope : Envelope) :
    Sized (l ++ [{ envelope, bytes := envelope.encodedSize }]) := by
  intro e he
  rcases mem_append.mp he with he | he
  · exact h e he
  · obtain rfl := mem_singleton.mp he
    rfl

theorem Sized.pos (h : Sized l) (he : e ∈ l) : 0 < e.bytes := by
  rw [h e he]
  exact_mod_cast e.envelope.encodedSize_pos

theorem Sized.totalBytes_nonneg (h : Sized l) : 0 ≤ totalBytes l := by
  refine sum_nonneg fun x hx => ?_
  obtain ⟨e, he, rfl⟩ := mem_map.mp hx
  exact (h.pos he).le

/-! ## The eviction loop -/

/-- The counters after some entries are dropped. -/
def LogStats.evict (stats : LogStats) (gone : List LogEntry) : LogStats :=
  { stats with evictedEvents := (stats.evictedEvents + gone.length) % 2 ^ 64
               evictedBytes := (stats.evictedBytes + (totalBytes gone).toNat) % 2 ^ 64 }

theorem LogStats.evict_nil {stats : LogStats} (hse : stats.evictedEvents < 2 ^ 64)
    (hsb : stats.evictedBytes < 2 ^ 64) : stats.evict [] = stats := by
  simp only [LogStats.evict, length_nil, add_zero, totalBytes_nil, Int.toNat_zero,
    Nat.mod_eq_of_lt hse, Nat.mod_eq_of_lt hsb]

theorem LogStats.evict_cons (stats : LogStats) {gone : List LogEntry} (h : Sized (e :: gone)) :
    (stats.evict [e]).evict gone = stats.evict (e :: gone) := by
  have he : 0 < e.bytes := h.pos mem_cons_self
  have hgone : 0 ≤ totalBytes gone := h.of_cons.totalBytes_nonneg
  simp only [LogStats.evict, totalBytes_cons, totalBytes_nil, length_cons, length_nil,
    LogStats.mk.injEq, true_and, and_true]
  omega

/-- With room for one entry the loop ends before it runs out of entries: it drops a prefix, and what
is left leaves the room asked for. -/
theorem evict_eq {maxEvents room : ℤ} (hm : 0 < maxEvents) (hr : 0 ≤ room) :
    ∀ (entries : List LogEntry) (stats : LogStats), Sized entries →
      stats.evictedEvents < 2 ^ 64 → stats.evictedBytes < 2 ^ 64 →
      ∃ gone kept, entries = gone ++ kept ∧
        evict maxEvents room entries (totalBytes entries) stats =
          some (kept, totalBytes kept, stats.evict gone) ∧
        (kept.length : ℤ) < maxEvents ∧ totalBytes kept ≤ room
  | [], stats, _, hse, hsb => by
    refine ⟨[], [], rfl, ?_, hm, hr⟩
    rw [LogStats.evict_nil hse hsb, evict, totalBytes_nil, if_neg (by omega)]
  | e :: rest, stats, hs, hse, hsb => by
    by_cases hgo : maxEvents ≤ (e :: rest).length ∨ room < totalBytes (e :: rest)
    · obtain ⟨gone, kept, rfl, heq, hlen, hbytes⟩ := evict_eq hm hr rest (stats.evict [e])
        hs.of_cons (Nat.mod_lt _ (by decide)) (Nat.mod_lt _ (by decide))
      refine ⟨e :: gone, kept, rfl, ?_, hlen, hbytes⟩
      have htail : totalBytes (e :: (gone ++ kept)) - e.bytes = totalBytes (gone ++ kept) := by
        rw [totalBytes_cons]
        omega
      rw [← cons_append] at hs
      rw [LogStats.evict_cons stats hs.of_append_left] at heq
      rw [evict, if_pos hgo, htail, ← heq]
      simp only [LogStats.evict, totalBytes_cons, totalBytes_nil, length_cons,
        length_nil, add_zero, zero_add]
    · refine ⟨[], e :: rest, rfl, ?_, by omega, by omega⟩
      rw [LogStats.evict_nil hse hsb, evict, if_neg hgo]

/-! ## The invariant -/

/-- A log that began after `start` and has accepted the entries `accepted`. -/
structure Log.Inv (start : ℕ) (accepted : List LogEntry) (log : Log) : Prop where
  limits : log.limits.Valid
  start_lt : start < maxUint64
  sized : Sized accepted
  sequences : Consecutive start (accepted.map LogEntry.seq)
  last : log.lastSequence = start + accepted.length
  last_le : log.lastSequence ≤ maxUint64
  retained : ∃ gone, accepted = gone ++ log.entries ∧ log.stats.evictedEvents = gone.length ∧
    log.stats.evictedBytes = (totalBytes gone).toNat % 2 ^ 64
  nonempty : log.entries = [] → accepted = []
  bytes : log.bytes = totalBytes log.entries
  bytes_le : log.bytes ≤ log.limits.maxBytes
  length_le : (log.entries.length : ℤ) ≤ log.limits.maxEvents

/-- Two logs with the same history: what every operation but an accepted append leaves alone. -/
structure Log.SameHistory (log log' : Log) : Prop where
  runID : log'.runID = log.runID
  limits : log'.limits = log.limits
  entries : log'.entries = log.entries
  bytes : log'.bytes = log.bytes
  lastSequence : log'.lastSequence = log.lastSequence
  evictedEvents : log'.stats.evictedEvents = log.stats.evictedEvents
  evictedBytes : log'.stats.evictedBytes = log.stats.evictedBytes

theorem Log.SameHistory.refl (log : Log) : log.SameHistory log :=
  ⟨rfl, rfl, rfl, rfl, rfl, rfl, rfl⟩

namespace Log.Inv

variable {start : ℕ} {accepted : List LogEntry} {log log' : Log}

variable (h : log.Inv start accepted)
include h

theorem frame (hs : log.SameHistory log') : log'.Inv start accepted where
  limits := hs.limits ▸ h.limits
  start_lt := h.start_lt
  sized := h.sized
  sequences := h.sequences
  last := hs.lastSequence.trans h.last
  last_le := hs.lastSequence.trans_le h.last_le
  retained := by
    rw [hs.entries, hs.evictedEvents, hs.evictedBytes]
    exact h.retained
  nonempty := hs.entries ▸ h.nonempty
  bytes := by rw [hs.bytes, hs.entries, h.bytes]
  bytes_le := by rw [hs.bytes, hs.limits]; exact h.bytes_le
  length_le := by rw [hs.entries, hs.limits]; exact h.length_le

theorem entries_sized : Sized log.entries := by
  obtain ⟨gone, hgone, -, -⟩ := h.retained
  exact (hgone ▸ h.sized : Sized (gone ++ log.entries)).of_append_right

theorem length_le_accepted : log.entries.length ≤ accepted.length := by
  obtain ⟨gone, hgone, -, -⟩ := h.retained
  rw [hgone, length_append]
  omega

/-- The retained entries are a contiguous run of sequences that ends at the last one. -/
theorem entries_consecutive :
    Consecutive (log.lastSequence - log.entries.length) (log.entries.map LogEntry.seq) := by
  obtain ⟨gone, hgone, -, -⟩ := h.retained
  have hseq := h.sequences
  have hlast := h.last
  rw [hgone, map_append, Consecutive.append_iff, length_map] at hseq
  rw [hgone, length_append] at hlast
  rw [show log.lastSequence - log.entries.length = start + gone.length by omega]
  exact hseq.2

theorem length_le_last : log.entries.length ≤ log.lastSequence := by
  have hlen := h.length_le_accepted
  rw [h.last]
  omega

end Log.Inv

theorem newLogAfter_ok {runID : String} {lastSequence : ℕ} {limits : LogLimits} {log : Log}
    (h : newLogAfter runID lastSequence limits = .ok log) :
    limits.Valid ∧ lastSequence ≠ maxUint64 ∧
      log = { runID, limits, entries := [], bytes := 0, lastSequence, closed := false,
              nextSubID := 0, subscribers := ∅, stats := {} } := by
  unfold newLogAfter at h
  split_ifs at h with hid hlimits hlast
  refine ⟨?_, hlast, (Except.ok.inj h).symm⟩
  constructor <;> omega

theorem newLogAfter_inv {runID : String} {lastSequence : ℕ} {limits : LogLimits} {log : Log}
    (hle : lastSequence ≤ maxUint64) (h : newLogAfter runID lastSequence limits = .ok log) :
    log.Inv lastSequence [] := by
  obtain ⟨hv, hne, rfl⟩ := newLogAfter_ok h
  have hm := hv.events
  have hb := hv.bytes
  exact { limits := hv, start_lt := lt_of_le_of_ne hle hne, sized := by simp [Sized],
          sequences := trivial, last := rfl, last_le := hle, retained := ⟨[], rfl, rfl, rfl⟩,
          nonempty := fun _ => rfl, bytes := rfl, bytes_le := by simp only; omega,
          length_le := by simp only [length_nil]; omega }

/-! ## Append -/

/-- The log after an append that its byte bound refuses. -/
def Log.countAuthoritative (log : Log) : Log :=
  { log with stats := { log.stats with
      authoritativeExhaustions := (log.stats.authoritativeExhaustions + 1) % 2 ^ 64 } }

def Envelope.entry (envelope : Envelope) : LogEntry := { envelope, bytes := envelope.encodedSize }

/-- The log that keeps `kept` of its entries and takes one more envelope. -/
def Log.push (log : Log) (gone kept : List LogEntry) (envelope : Envelope) : Log :=
  { log with entries := kept ++ [envelope.entry], bytes := totalBytes kept + envelope.encodedSize,
             lastSequence := envelope.sequence, stats := log.stats.evict gone }

/-- What an accepted append has checked: the envelope is the next one of the run, and once the
prefix `gone` is dropped it fits the bounds of its kind. -/
structure Log.Accepts (log : Log) (gone kept : List LogEntry) (envelope : Envelope) : Prop where
  split : log.entries = gone ++ kept
  openLog : log.closed = false
  runID : envelope.runID = log.runID
  sequence : envelope.sequence = log.lastSequence + 1
  next_le : log.lastSequence + 1 ≤ maxUint64
  length_lt : (kept.length : ℤ) < (log.appendBounds envelope).1
  bytes_le : totalBytes kept + envelope.encodedSize ≤ (log.appendBounds envelope).2

theorem LogLimits.Valid.appendBounds {log : Log} (h : log.limits.Valid) (envelope : Envelope) :
    0 < (log.appendBounds envelope).1 ∧ (log.appendBounds envelope).1 ≤ log.limits.maxEvents ∧
      (log.appendBounds envelope).2 ≤ log.limits.maxBytes := by
  have h₁ := h.events
  have h₂ := h.reserveEvents_pos
  have h₃ := h.reserveEvents_lt
  have h₄ := h.reserveBytes_pos
  unfold Log.appendBounds
  split_ifs <;> refine ⟨?_, ?_, ?_⟩ <;> simp only <;> omega

namespace Log.Inv

variable {start : ℕ} {accepted : List LogEntry} {log log' : Log}

theorem evicted_lt (h : log.Inv start accepted) :
    log.stats.evictedEvents < 2 ^ 64 ∧ log.stats.evictedBytes < 2 ^ 64 := by
  obtain ⟨gone, hgone, hevents, hbytes⟩ := h.retained
  have hlast := h.last
  have hle := h.last_le
  rw [hgone, length_append] at hlast
  unfold maxUint64 at hle
  exact ⟨by omega, hbytes ▸ Nat.mod_lt _ (by decide)⟩

/-- Every append fails without a change, fails on its byte bound, or retains the envelope: the
eviction loop never indexes an empty slice. -/
theorem append_cases (h : log.Inv start accepted) (envelope : Envelope) :
    (∃ err, log.append envelope = .rejected log err) ∨
    (∃ failure, log.append envelope =
      .rejected log.countAuthoritative (.resourceExhausted failure)) ∨
    (∃ gone kept, log.Accepts gone kept envelope ∧
      log.append envelope = .accepted (log.push gone kept envelope) envelope.entry) := by
  by_cases hclosed : log.closed
  · exact .inl ⟨_, by rw [Log.append, if_pos hclosed]⟩
  by_cases hrun : envelope.runID ≠ log.runID
  · exact .inl ⟨_, by rw [Log.append, if_neg hclosed, if_pos hrun]⟩
  by_cases hseq : log.lastSequence = maxUint64 ∨ envelope.sequence ≠ log.lastSequence + 1
  · exact .inl ⟨_, by rw [Log.append, if_neg hclosed, if_neg hrun, if_pos hseq]⟩
  by_cases hsize : (log.appendBounds envelope).2 < envelope.encodedSize
  · refine .inr (.inl ⟨
      { lastDelivered := log.lastSequence, maxEvents := (log.appendBounds envelope).1,
        maxBytes := (log.appendBounds envelope).2, resource := .eventLogBytes,
        limit := nonnegativeUint64 (log.appendBounds envelope).2,
        observed := nonnegativeUint64 envelope.encodedSize }, ?_⟩)
    rw [Log.append, if_neg hclosed, if_neg hrun, if_neg hseq]
    simp only [if_pos hsize, Log.countAuthoritative]
  -- the bounds leave room for this one entry, so the loop stops in time
  obtain ⟨hpos, -, -⟩ := h.limits.appendBounds envelope
  obtain ⟨gone, kept, hsplit, heq, hlen, hroom⟩ := evict_eq hpos
    (Int.sub_nonneg.mpr (not_lt.mp hsize)) log.entries log.stats h.entries_sized
    h.evicted_lt.1 h.evicted_lt.2
  refine .inr (.inr ⟨gone, kept, ?_, ?_⟩)
  · have hle := h.last_le
    exact { split := hsplit, openLog := by simpa using hclosed, runID := by simpa using hrun,
            sequence := by omega, next_le := by omega, length_lt := hlen, bytes_le := by omega }
  · rw [← h.bytes] at heq
    rw [Log.append, if_neg hclosed, if_neg hrun, if_neg hseq]
    simp only [if_neg hsize, heq]
    rfl

variable {envelope : Envelope}

variable (h : log.Inv start accepted)
include h

theorem append_accepted {entry : LogEntry} (ha : log.append envelope = .accepted log' entry) :
    ∃ gone kept, log.Accepts gone kept envelope ∧ log' = log.push gone kept envelope ∧
      entry = envelope.entry := by
  rcases h.append_cases envelope with ⟨_, heq⟩ | ⟨_, heq⟩ | ⟨gone, kept, hacc, heq⟩ <;>
    rw [heq] at ha <;> cases ha
  exact ⟨gone, kept, hacc, rfl, rfl⟩

theorem append_rejected {err : LogError} (hr : log.append envelope = .rejected log' err) :
    log' = log ∨ log' = log.countAuthoritative := by
  rcases h.append_cases envelope with ⟨_, heq⟩ | ⟨_, heq⟩ | ⟨_, _, _, heq⟩ <;>
    rw [heq] at hr <;> cases hr
  · exact .inl rfl
  · exact .inr rfl

theorem push {gone kept : List LogEntry} (ha : log.Accepts gone kept envelope) :
    (log.push gone kept envelope).Inv start (accepted ++ [envelope.entry]) := by
  obtain ⟨old, hold, hevents, hbytes⟩ := h.retained
  obtain ⟨-, hmaxEvents, hmaxBytes⟩ := h.limits.appendBounds envelope
  have hlast := h.last
  have hle := h.last_le
  have hnext := ha.next_le
  have hlen := ha.length_lt
  have hroom := ha.bytes_le
  have hseq := ha.sequence
  rw [ha.split, ← append_assoc] at hold
  have hcount : accepted.length = (old ++ gone).length + kept.length := by
    rw [hold, length_append]
  have hsized : Sized (old ++ gone) := (hold ▸ h.sized : Sized _).of_append_left
  have hold0 : 0 ≤ totalBytes old := hsized.of_append_left.totalBytes_nonneg
  have hgone0 : 0 ≤ totalBytes gone := hsized.of_append_right.totalBytes_nonneg
  unfold maxUint64 at hle hnext
  refine { limits := h.limits, start_lt := h.start_lt, sized := h.sized.concat envelope,
           sequences := ?_, last := ?_, last_le := ?_, retained := ⟨old ++ gone, ?_, ?_, ?_⟩,
           nonempty := fun hnil => by simp [Log.push] at hnil, bytes := ?_, bytes_le := ?_,
           length_le := ?_ }
  · have hconcat := h.sequences.concat
    rw [length_map, ← hlast, ← hseq] at hconcat
    rw [map_append]
    exact hconcat
  · simp only [Log.push, length_append, length_singleton]
    omega
  · simp only [Log.push, maxUint64]
    omega
  · simp only [Log.push, ← append_assoc, ← hold]
  · simp only [Log.push, LogStats.evict, hevents]
    rw [length_append] at hcount ⊢
    omega
  · simp only [Log.push, LogStats.evict, hbytes, totalBytes_append]
    omega
  · simp only [Log.push, totalBytes_append, totalBytes_cons, totalBytes_nil, Envelope.entry]
    omega
  · simp only [Log.push]
    omega
  · simp only [Log.push, length_append, length_singleton]
    omega

end Log.Inv

end SpiceAgent.Event
