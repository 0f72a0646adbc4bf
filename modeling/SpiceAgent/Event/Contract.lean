import SpiceAgent.Event.Runs

/-!
# The contract of the bounded log

For every run of a new log and its subscriptions: the log keeps its bounds and its accounts,
repeated replay returns exactly what is retained after a cursor, a subscription delivers a gap-free
stream with an exact cursor, and a clean completion delivers everything.
-/

namespace SpiceAgent.Event

open SpiceAgent.Lib List
open Subscription

theorem Sized.totalBytes_eq {l : List LogEntry} (h : Sized l) :
    totalBytes l = ((l.map fun e => e.envelope.encodedSize).sum : ℕ) := by
  induction l with
  | nil => rfl
  | cons e l ih =>
    rw [totalBytes_cons, ih h.of_cons, h e mem_cons_self, map_cons, sum_cons]
    push_cast
    rfl

/-- An event of the run `run` at the first second of year 1. -/
def sampleEvent (sequence : ℕ) (data : String) : Envelope :=
  { runID := "run", sequence, at' := ⟨1000000000, 0⟩, kind := .turnStarted, data }

/-- A small log whose subscribers hold two events and 100 bytes. -/
def sampleLimits : LogLimits :=
  { maxEvents := 4, maxBytes := 4096, terminalReserveEvents := 1, terminalReserveBytes := 64,
    subscriberMaxEvents := 2, subscriberMaxBytes := 100 }

def sampleLog : Log :=
  { runID := "run", limits := sampleLimits, entries := [], bytes := 0, lastSequence := 0,
    closed := false, nextSubID := 0, subscribers := ∅, stats := {} }

theorem newLogAfter_sample : newLogAfter "run" 0 sampleLimits = .ok sampleLog := by rfl

/-! ## Bounds and accounts -/

section

variable {runID : String} {start : ℕ} {limits : LogLimits} {log : Log} {w : World}

/-- What the counters of a log account for: the entries it dropped and those it retains. -/
theorem Log.Inv.accounts {accepted : List LogEntry} {log : Log} (h : log.Inv start accepted) :
    log.readStats.evictedEvents + log.readStats.retainedEvents = accepted.length ∧
      (log.readStats.evictedBytes + log.readStats.retainedBytes) % 2 ^ 64 =
        (accepted.map fun e => e.envelope.encodedSize).sum % 2 ^ 64 ∧
      ((accepted.map fun e => e.envelope.encodedSize).sum < 2 ^ 64 →
        log.readStats.evictedBytes + log.readStats.retainedBytes =
          (accepted.map fun e => e.envelope.encodedSize).sum) := by
  obtain ⟨gone, hgone, hevents, hbytes⟩ := h.retained
  have hlast := h.last
  have hle := h.last_le
  have hkept := h.entries_sized.totalBytes_eq
  have hdropped : totalBytes gone = _ :=
    (hgone ▸ h.sized : Sized (gone ++ _)).of_append_left.totalBytes_eq
  rw [hgone, length_append] at hlast
  unfold maxUint64 at hle
  rw [hgone, length_append, map_append, sum_append]
  simp only [Log.readStats, hevents, hbytes, h.bytes, hkept, hdropped, Int.toNat_natCast]
  omega

/-- Every log keeps its bounds: the retained entries are the contiguous run of sequences that ends
at the last one, their sizes are counted and bounded, the counters account for every accepted
append, a rejected append changes nothing but the exhaustion counter, and the eviction loop never
runs out of entries. -/
theorem bounded_log (hstart : start ≤ maxUint64) (hnew : newLogAfter runID start limits = .ok log)
    (hw : (logSystem log).Reachable w) :
    (w.log.lastSequence = start + w.accepted.length ∧
      w.log.entries.length ≤ w.log.lastSequence ∧
      w.log.entries.map LogEntry.seq =
        range' (w.log.lastSequence - w.log.entries.length + 1) w.log.entries.length) ∧
    (w.log.bytes = ((w.log.entries.map fun e => e.envelope.encodedSize).sum : ℕ) ∧
      w.log.bytes ≤ limits.maxBytes ∧ (w.log.entries.length : ℤ) ≤ limits.maxEvents) ∧
    (w.log.readStats.evictedEvents + w.log.readStats.retainedEvents = w.accepted.length ∧
      (w.log.readStats.evictedBytes + w.log.readStats.retainedBytes) % 2 ^ 64 =
        (w.accepted.map fun e => e.envelope.encodedSize).sum % 2 ^ 64 ∧
      ((w.accepted.map fun e => e.envelope.encodedSize).sum < 2 ^ 64 →
        w.log.readStats.evictedBytes + w.log.readStats.retainedBytes =
          (w.accepted.map fun e => e.envelope.encodedSize).sum)) ∧
    ∀ envelope, w.log.append envelope ≠ .panicked ∧
      (∀ log' err, w.log.append envelope = .rejected log' err →
        log' = w.log ∨ log' = w.log.countAuthoritative) ∧
      (∀ log' entry, w.log.append envelope = .accepted log' entry → envelope.terminal = false →
        (log'.entries.length : ℤ) ≤ limits.maxEvents - limits.terminalReserveEvents ∧
          log'.bytes ≤ limits.maxBytes - limits.terminalReserveBytes) := by
  have h := logSystem_inv hstart hnew hw
  have hlog := h.log
  rw [h.start_eq] at hlog
  have hcons := hlog.entries_consecutive.eq_range'
  rw [length_map] at hcons
  refine ⟨⟨hlog.last, hlog.length_le_last, hcons⟩,
    ⟨hlog.bytes.trans hlog.entries_sized.totalBytes_eq, h.limits_eq ▸ hlog.bytes_le,
      h.limits_eq ▸ hlog.length_le⟩, hlog.accounts, fun envelope => ⟨?_, ?_, ?_⟩⟩
  · intro hpanic
    rcases hlog.append_cases envelope with ⟨_, heq⟩ | ⟨_, heq⟩ | ⟨_, _, _, heq⟩ <;>
      rw [hpanic] at heq <;> cases heq
  · exact fun log' err hr => hlog.append_rejected hr
  · intro log' entry ha hterm
    obtain ⟨gone, kept, hacc, rfl, rfl⟩ := hlog.append_accepted ha
    have hlen := hacc.length_lt
    have hbytes := hacc.bytes_le
    rw [Log.appendBounds, hterm, h.limits_eq] at hlen hbytes
    simp only [Bool.false_eq_true, if_false] at hlen hbytes
    refine ⟨?_, hbytes⟩
    simp only [Log.push, length_append, length_singleton]
    push_cast
    omega

/-- Five appends to a log that keeps three events of this kind: the first two are dropped. -/
theorem bounded_log_five_appends :
    ∃ w, (logSystem sampleLog).after
        ((range' 1 5).map fun n => .append (sampleEvent n "")) = some w ∧
      w.log.entries.length = 3 ∧
      w.log.readStats.evictedEvents + w.log.readStats.retainedEvents = 5 ∧
      w.log.readStats.evictedBytes + w.log.readStats.retainedBytes = 395 := by
  have hw : (logSystem sampleLog).after
      ((range' 1 5).map fun n => .append (sampleEvent n "")) = some _ := rfl
  have h := bounded_log (by decide) newLogAfter_sample (System.reachable_of_run hw)
  exact ⟨_, hw, by decide, h.2.2.1.1.trans (by decide), (h.2.2.1.2.2 (by decide)).trans (by decide)⟩

/-! ## Replay -/

/-- Repeated replay from a cursor in the window ends, and its pages, each the longest within its own
bounds, are together exactly the retained entries after the cursor; a call never fails to move; and
the recovery cursor of a call outside the window is accepted by `Replay` and `Subscribe`. -/
theorem replay_paging (hstart : start ≤ maxUint64) (hnew : newLogAfter runID start limits = .ok log)
    (hw : (logSystem log).Reachable w) :
    (∀ (cursor : ℕ) (bounds : ℕ → ReplayRequest) (ref : ℕ),
      replayCursorOutside cursor w.log.bounds.1 w.log.bounds.2 = false →
      (∀ call, w.log.Admits (bounds call)) →
      (∀ call, ∀ e ∈ w.log.entriesAfter cursor, e.bytes ≤ (bounds call).maxBytes) →
      ∃ log' pages,
        replayAll bounds ref (w.log.lastSequence - cursor + 1) 0 w.log cursor =
          some (log', pages) ∧
        w.log.PagesFrom bounds 0 cursor pages ∧
        pages.flatMap ReplayPage.events =
          (w.log.entriesAfter cursor).map LogEntry.envelope) ∧
    (∀ ctxErr request ref, (w.log.replay ctxErr request ref).2 ≠ .error noProgress) ∧
    (∀ ctxErr cursor ref, (w.log.subscribe ctxErr cursor ref).2 ≠ .error noProgress) ∧
    (∀ cursor, replayCursorOutside cursor w.log.bounds.1 w.log.bounds.2 = true →
      ∃ failure,
        (∀ request ref, w.log.Admits request → request.afterSequence = cursor →
          (w.log.replay false request ref).2 = .error (.outOfRange failure)) ∧
        (∀ ref, (w.log.subscribe false cursor ref).2 = .error (.outOfRange failure)) ∧
        (∀ ctxErr request ref failure', request.afterSequence = failure.recoveryAfter →
          (w.log.replay ctxErr request ref).2 ≠ .error (.outOfRange failure')) ∧
        ∀ ctxErr ref failure',
          (w.log.subscribe ctxErr failure.recoveryAfter ref).2 ≠
            .error (.outOfRange failure')) := by
  have h := (logSystem_inv hstart hnew hw).log
  refine ⟨?_, ?_, ?_, ?_⟩
  · intro cursor bounds ref hin hadmits hfit
    have hwin : w.log.InWindow cursor := by
      by_contra hout
      exact Bool.noConfusion (hin.symm.trans ((h.outside_iff cursor).mpr hout))
    obtain ⟨log', pages, hall, hpages⟩ := h.replayAll_pages hadmits ref
      (w.log.lastSequence - cursor + 1) 0 cursor hwin (Nat.lt_succ_self _) hfit
    exact ⟨log', pages, hall, hpages, h.pagesFrom_events pages 0 cursor hwin hpages⟩
  · intro ctxErr request ref he
    rcases (h.replay_failure (Prod.ext rfl he)).2 with
      hc | ⟨_, _, hc⟩ | ⟨_, hc⟩ | ⟨-, hc⟩ <;> cases hc
  · intro ctxErr cursor ref he
    rcases (h.subscribe_failure (Prod.ext rfl he)).2 with hc | ⟨_, hc⟩ | ⟨-, hc⟩ <;> cases hc
  · intro cursor hout
    rw [h.outside_iff] at hout
    refine ⟨w.log.outOfRange cursor, ?_, ?_, ?_, ?_⟩
    · rintro request ref hadmits rfl
      rcases h.replay_cases hadmits ref with ⟨-, hr⟩ | ⟨hin, -⟩ | ⟨hin, -⟩
      · rw [hr]
      · exact absurd hin hout
      · exact absurd hin hout
    · intro ref
      rcases h.subscribe_cases cursor ref with ⟨-, hr⟩ | ⟨hin, -⟩ | ⟨hin, -⟩
      · rw [hr]
      · exact absurd hin hout
      · exact absurd hin hout
    · intro ctxErr request ref failure' hcursor he
      rcases (h.replay_failure (Prod.ext rfl he)).2 with hc | ⟨_, _, hc⟩ | ⟨_, hc⟩ | ⟨hnot, -⟩
      · cases hc
      · cases hc
      · cases hc
      · exact hnot (hcursor ▸ h.recovery_inWindow cursor)
    · intro ctxErr ref failure' he
      rcases (h.subscribe_failure (Prod.ext rfl he)).2 with hc | ⟨_, hc⟩ | ⟨hnot, -⟩
      · cases hc
      · cases hc
      · exact hnot (h.recovery_inWindow cursor)

/-- Three events of 79 bytes in pages of at most two events and 100 bytes. -/
theorem replay_paging_three_events :
    ∃ w, (logSystem sampleLog).after
        ((range' 1 3).map fun n => .append (sampleEvent n "")) = some w ∧
      ∃ log' pages,
        replayAll (fun _ => { afterSequence := 0, maxEvents := 2, maxBytes := 100, tail := false })
          0 4 0 w.log 0 = some (log', pages) ∧
        pages.flatMap ReplayPage.events =
          [sampleEvent 1 "", sampleEvent 2 "", sampleEvent 3 ""] := by
  have hw : (logSystem sampleLog).after
      ((range' 1 3).map fun n => .append (sampleEvent n "")) = some _ := rfl
  obtain ⟨log', pages, hall, -, hevents⟩ :=
    (replay_paging (by decide) newLogAfter_sample (System.reachable_of_run hw)).1 0
      (fun _ => { afterSequence := 0, maxEvents := 2, maxBytes := 100, tail := false })
      0 (by decide)
      (fun _ => ⟨by decide, by decide, by decide, by decide⟩) (fun _ => by decide)
  exact ⟨_, hw, log', pages, hall, hevents.trans (by decide)⟩

/-- What a caller obtains that follows the cursor of a refused `Subscribe`: by pages that admit each
single entry, every retained event above that cursor. It is every retained event above the cursor
subscribed with exactly if the first of them is too large for a subscriber. -/
theorem refused_subscription (hstart : start ≤ maxUint64)
    (hnew : newLogAfter runID start limits = .ok log) (hw : (logSystem log).Reachable w)
    {cursor ref : ℕ} {log' : Log} {failure : ResourceExhaustedError}
    (hrefused : w.log.subscribe false cursor ref =
      (log', .error (.resourceExhausted failure))) :
    (∀ (bounds : ℕ → ReplayRequest) (ref' : ℕ), (∀ call, log'.Admits (bounds call)) →
      (∀ call, ∀ e ∈ log'.entriesAfter failure.lastDelivered, e.bytes ≤ (bounds call).maxBytes) →
      ∃ log'' pages,
        replayAll bounds ref' (log'.lastSequence - failure.lastDelivered + 1) 0 log'
          failure.lastDelivered = some (log'', pages) ∧
        pages.flatMap ReplayPage.events =
          (log'.entriesAfter failure.lastDelivered).map LogEntry.envelope) ∧
    ((∀ e ∈ log'.entriesAfter cursor, e ∈ log'.entriesAfter failure.lastDelivered) ↔
      ∃ e left, log'.entriesAfter cursor = e :: left ∧ limits.subscriberMaxBytes < e.bytes) := by
  have hinv := logSystem_inv hstart hnew hw
  obtain ⟨rfl, hin, hcursor⟩ := hinv.log.subscribe_refused hrefused
  have h := hinv.log.frame w.log.countExhaustion_sameHistory
  rw [hinv.limits_eq] at hcursor
  have hin' : w.log.countExhaustion.InWindow failure.lastDelivered := by
    rcases hcursor with ⟨hsame, -⟩ | ⟨taken, -, hpage, hlast⟩
    · rw [hsame]
      exact hin
    · rw [hlast]
      exact h.inWindow_add hin hpage.isPrefix
  constructor
  · intro bounds ref' hadmits hfit
    obtain ⟨log'', pages, hall, hpages⟩ := h.replayAll_pages hadmits ref' _ 0
      failure.lastDelivered hin' (Nat.lt_succ_self _) hfit
    exact ⟨log'', pages, hall, h.pagesFrom_events pages 0 _ hin' hpages⟩
  · rcases hcursor with ⟨hsame, hbig⟩ | ⟨taken, hne, hpage, hlast⟩
    · rw [hsame]
      exact ⟨fun _ => hbig, fun _ _ he => he⟩
    · obtain ⟨e, taken, rfl⟩ := exists_cons_of_ne_nil hne
      obtain ⟨left, hafter⟩ := hpage.isPrefix
      change _ = w.log.countExhaustion.entriesAfter cursor at hafter
      have hmem : e ∈ w.log.countExhaustion.entriesAfter cursor := hafter ▸ mem_cons_self
      -- the page's first entry lies at the cursor, so the reported cursor is past it
      have hgone : e ∉ w.log.countExhaustion.entriesAfter failure.lastDelivered := by
        have hseq := h.entriesAfter_consecutive hin
        rw [← hafter, cons_append, map_cons, Consecutive.cons_iff] at hseq
        intro he
        have hlt := of_decide_eq_true (mem_filter.mp he).2
        rw [hlast, length_cons] at hlt
        omega
      have hfits : e.bytes ≤ limits.subscriberMaxBytes := by
        have hsized := h.sized_entriesAfter cursor
        rw [← hafter] at hsized
        have hrest := hsized.of_append_left.of_cons.totalBytes_nonneg
        have hsum := hpage.weight_le
        rw [map_cons, sum_cons] at hsum
        unfold totalBytes at hrest
        omega
      constructor
      · exact fun hall => absurd (hall e hmem) hgone
      · rintro ⟨x, rest, hx, hbig⟩
        rw [← hafter, cons_append] at hx
        cases hx
        omega

/-- The first event after the cursor is larger than the subscriber bound: the refusal names the
caller's cursor. -/
theorem refused_subscription_oversized :
    ∃ w log' failure, (logSystem sampleLog).after
        [.append (sampleEvent 1 "\"0123456789012345678901234567890123456789\"")] = some w ∧
      w.log.subscribe false 0 0 = (log', .error (.resourceExhausted failure)) ∧
      ∀ e ∈ log'.entriesAfter 0, e ∈ log'.entriesAfter failure.lastDelivered := by
  have hw : (logSystem sampleLog).after
      [.append (sampleEvent 1 "\"0123456789012345678901234567890123456789\"")] = some _ := rfl
  have h := refused_subscription (by decide) newLogAfter_sample (System.reachable_of_run hw)
    (show Log.subscribe _ false 0 0 = _ from rfl)
  exact ⟨_, _, _, hw, rfl, h.2.mpr ⟨_, [], rfl, by decide⟩⟩

/-- Two events of which one fits a subscriber: the refusal names the first, which nobody received,
and the pages after it do not hold it. -/
theorem refused_subscription_skips :
    ∃ w log' failure log'' page, (logSystem sampleLog).after
        [.append (sampleEvent 1 ""), .append (sampleEvent 2 "")] = some w ∧
      w.log.subscribe false 0 0 = (log', .error (.resourceExhausted failure)) ∧
      replayAll (fun _ => { afterSequence := 0, maxEvents := 2, maxBytes := 100, tail := false })
        0 2 0 log' failure.lastDelivered = some (log'', [page]) ∧
      (sampleEvent 1 "").entry ∈ log'.entriesAfter 0 ∧ page.events = [sampleEvent 2 ""] :=
  ⟨_, _, _, _, _, rfl, rfl, rfl, by decide, rfl⟩

/-! ## Subscriptions -/

variable {s : Subscription}

/-- A returned `Wait` reads the cursor after everything the consumer received is recorded. -/
theorem Subscription.Inv.wait_cursor (h : s.Inv limits) {err : Option LogError}
    (hwait : s.wait = some err) :
    s.err = err ∧ s.exited = true ∧
      s.lastDelivered = (s.delivered.map Envelope.sequence).getLast?.getD s.start := by
  have hcur := h.cursor
  have hlast := h.received.getLast?_getD
  rw [length_map] at hlast
  rw [hlast]
  unfold wait at hwait
  split at hwait
  · next hp =>
    rw [show s.unrecorded = 0 by simp [unrecorded, hp]] at hcur
    exact ⟨Option.some.inj hwait, by simp [exited, hp], hcur⟩
  · next hp =>
    rw [show s.unrecorded = 0 by simp [unrecorded, hp]] at hcur
    exact ⟨Option.some.inj hwait, by simp [exited, hp], hcur⟩
  · cases hwait

variable {w' : World}

theorem stepSubscribe_start {ctxErr ctxDone : Bool} {after ref : ℕ}
    (hstep : w.step (.subscribe ctxErr after ref ctxDone) = some w') (hs : w'.subs ref = some s) :
    s.start = after ∧ s.delivered = [] := by
  simp only [World.step, World.stepSubscribe] at hstep
  split at hstep
  · split_ifs at hstep <;> cases hstep <;> rw [World.setSub_subs, if_pos rfl] at hs <;> cases hs <;>
      exact ⟨rfl, rfl⟩
  · next hfresh _ =>
    cases hstep
    cases hfresh.symm.trans hs
  · cases hstep

theorem stepReplay_start {ctxErr ctxDone : Bool} {request : ReplayRequest} {ref : ℕ}
    (hstep : w.step (.replay ctxErr request ref ctxDone) = some w') (hs : w'.subs ref = some s) :
    ∃ page, (w.log.replay ctxErr request ref).2 = .ok page ∧ s.start = page.pageLastSequence ∧
      s.delivered = [] := by
  simp only [World.step, World.stepReplay] at hstep
  split at hstep
  · next log' page _ hfresh heq =>
    split_ifs at hstep
    · cases hstep
      rw [World.setSub_subs, if_pos rfl] at hs
      cases hs
      exact ⟨page, by rw [heq], rfl, rfl⟩
    · cases hstep
      cases hfresh.symm.trans hs
  · next hfresh _ =>
    cases hstep
    cases hfresh.symm.trans hs
  · cases hstep

/-- A subscription begins at its cursor, a tail at the end of its page; from there its consumer
receives the following sequences without a gap or a repetition; its queue stays within the bounds;
and the cursor of an exhaustion is the last event received, from which `Replay` goes on with the
first event not received, provided that it is retained and fits the request. -/
theorem gap_free_subscription (hstart : start ≤ maxUint64)
    (hnew : newLogAfter runID start limits = .ok log) (hw : (logSystem log).Reachable w) :
    (∀ ctxErr after ref ctxDone w' s, w.step (.subscribe ctxErr after ref ctxDone) = some w' →
      w'.subs ref = some s → s.start = after ∧ s.delivered = []) ∧
    (∀ ctxErr request ref ctxDone w' s, w.step (.replay ctxErr request ref ctxDone) = some w' →
      w'.subs ref = some s → ∃ page, (w.log.replay ctxErr request ref).2 = .ok page ∧
        s.start = page.pageLastSequence ∧ s.delivered = []) ∧
    ∀ ref s, w.subs ref = some s →
      s.delivered.map Envelope.sequence = range' (s.start + 1) s.delivered.length ∧
      (∀ l w', w.step l = some w' → ∃ s', w'.subs ref = some s' ∧ s'.start = s.start ∧
        s.delivered <+: s'.delivered) ∧
      ((s.queue.length : ℤ) ≤ limits.subscriberMaxEvents ∧
        s.queuedBytes ≤ limits.subscriberMaxBytes ∧
        s.queuedBytes = (s.queue.map LogEntry.bytes).sum) ∧
      ∀ failure, s.wait = some (some (.resourceExhausted failure)) →
        failure.lastDelivered = (s.delivered.map Envelope.sequence).getLast?.getD s.start ∧
        ∀ request ref' e, w.log.Admits request → request.afterSequence = failure.lastDelivered →
          e ∈ w.log.entries → e.seq = failure.lastDelivered + 1 → e.bytes ≤ request.maxBytes →
          ∃ log' page, w.log.replay false request ref' = (log', .ok page) ∧
            page.events.head? = some e.envelope := by
  have h := logSystem_inv hstart hnew hw
  refine ⟨fun _ _ _ _ _ _ => stepSubscribe_start, fun _ _ _ _ _ _ => stepReplay_start, ?_⟩
  intro ref s hs
  have hsub := h.sub ref s hs
  rw [h.limits_eq] at hsub
  refine ⟨?_, ?_, ⟨hsub.length_le, hsub.bytes_le, hsub.bytes⟩, ?_⟩
  · have hrange := hsub.received.eq_range'
    rwa [length_map] at hrange
  · intro l w' hstep
    obtain ⟨s', hs', hex⟩ := (h.step_turn hstep).extends hs
    exact ⟨s', hs', hex.start, hex.delivered⟩
  · intro failure hwait
    obtain ⟨herr, -, hcursor⟩ := hsub.wait_cursor hwait
    refine ⟨(hsub.exhausted failure herr).trans hcursor, ?_⟩
    intro request ref' e hadmits hafter he hseq hfit
    exact h.log.replay_head hadmits he (hafter ▸ hseq) hfit ref'

/-- A slow subscriber: the second event is refused after the first was received and before it is
recorded. -/
def slowRun : List Label :=
  [.subscribe false 0 0 false, .append (sampleEvent 1 ""), .offer 1, .act 0 .pick, .act 0 .send,
    .append (sampleEvent 2 ""), .offer 1, .act 0 .record, .act 0 .pick, .act 0 .stopHook, .onDone 0,
    .act 0 .closeDone]

/-- The exhaustion of the slow subscriber names the event it received, and replay goes on after
it. -/
theorem gap_free_subscription_slow :
    ∃ w s failure, (logSystem sampleLog).after slowRun = some w ∧
      w.subs 0 = some s ∧ s.wait = some (some (.resourceExhausted failure)) ∧
      failure.lastDelivered = 1 ∧
      ∃ log' page, w.log.replay false
          { afterSequence := 1, maxEvents := 2, maxBytes := 100, tail := false } 1 =
            (log', .ok page) ∧
        page.events.head? = some (sampleEvent 2 "") := by
  have hw : (logSystem sampleLog).after slowRun = some _ := rfl
  have h := gap_free_subscription (by decide) newLogAfter_sample (System.reachable_of_run hw)
  obtain ⟨hcursor, hreplay⟩ := (h.2.2 0 _ rfl).2.2.2 _ rfl
  refine ⟨_, _, _, hw, rfl, rfl, hcursor, ?_⟩
  exact hreplay { afterSequence := 1, maxEvents := 2, maxBytes := 100, tail := false } 1
    (sampleEvent 2 "").entry ⟨by decide, by decide, by decide, by decide⟩ hcursor.symm (by decide)
    (by decide) (by decide)

/-- An event larger than the subscriber bound: the subscriber is disconnected at its cursor, and
although the event is retained no request the log admits gets past it. -/
theorem replay_after_exhaustion_oversized :
    ∃ w s failure e, (logSystem sampleLog).after [.subscribe false 0 0 false,
          .append (sampleEvent 1 "\"0123456789012345678901234567890123456789\""), .offer 1,
          .act 0 .pick, .act 0 .stopHook, .onDone 0, .act 0 .closeDone] = some w ∧
      w.subs 0 = some s ∧ s.wait = some (some (.resourceExhausted failure)) ∧
      e ∈ w.log.entries ∧ e.seq = failure.lastDelivered + 1 ∧
      (w.log.replay false
          { afterSequence := failure.lastDelivered, maxEvents := 2, maxBytes := 100,
            tail := false } 1).2 =
        .error (.resourceExhausted
          { lastDelivered := 0, maxEvents := 2, maxBytes := 100, resource := .eventReplayBytes,
            limit := 100, observed := 129 }) :=
  ⟨_, _, _, _, rfl, rfl, rfl, mem_cons_self, by decide, by decide⟩

/-- All observers see one history: what a consumer has received is, at its sequence, what any other
consumer receives and what the log retains, then and at every later time. -/
theorem observers_agree {ls : List Label} {x y : Envelope} (ref : ℕ) (hstart : start ≤ maxUint64)
    (hnew : newLogAfter runID start limits = .ok log) (hw : (logSystem log).Reachable w)
    (hrun : (logSystem log).run w ls = some w') (hs : w.subs ref = some s) (hx : x ∈ s.delivered)
    (hy : (∃ ref' s', w'.subs ref' = some s' ∧ y ∈ s'.delivered) ∨
      ∃ e ∈ w'.log.entries, e.envelope = y) (hseq : x.sequence = y.sequence) : x = y := by
  obtain ⟨h, t, ht, hpre⟩ := System.run_invariant (I := fun v => v.Inv start limits ∧
      ∃ t, v.subs ref = some t ∧ s.delivered <+: t.delivered) (by
    rintro v l v' ⟨hv, t, ht, hpre⟩ hstep
    obtain ⟨t', ht', hex⟩ := (hv.step_turn hstep).extends ht
    exact ⟨hv.step hstep, t', ht', hpre.trans hex.delivered⟩) hrun
    ⟨logSystem_inv hstart hnew hw, s, hs, prefix_rfl⟩
  obtain ⟨e, he, rfl⟩ := (h.genuine ref t ht).delivered x (hpre.subset hx)
  have hy : ∃ e ∈ w'.accepted, e.envelope = y := by
    rcases hy with ⟨ref', s', hs', hy⟩ | ⟨e', he', hy⟩
    · exact (h.genuine ref' s' hs').delivered y hy
    · obtain ⟨gone, hgone, -⟩ := h.log.retained
      exact ⟨e', hgone ▸ mem_append_right gone he', hy⟩
  obtain ⟨e', he', rfl⟩ := hy
  -- the accepted sequences are consecutive, so one entry has this one
  rw [inj_on_of_nodup_map h.log.sequences.nodup he he' hseq]

/-- The slow subscriber has received the first event. -/
theorem observers_agree_slow :
    ∃ w, (logSystem sampleLog).after slowRun = some w ∧
      ∀ e ∈ w.log.entries, 1 = e.seq → sampleEvent 1 "" = e.envelope := by
  have hw : (logSystem sampleLog).after slowRun = some _ := rfl
  have h := fun s x y => @observers_agree _ _ _ _ _ s _ [] x y 0 (by decide) newLogAfter_sample
    (System.reachable_of_run hw) rfl
  exact ⟨_, hw, fun e he hseq => h _ _ _ rfl (.head _) (.inr ⟨e, he, rfl⟩) hseq⟩

/-! ## Clean completion -/

/-- The delivery goroutine does not terminate for its context a subscription that `Close` has
already completed: that termination has no effect, and the goroutine returns without the queued
tail. -/
def KeepsTail (w : World) (l : Label) : Prop :=
  ∀ ref s, l = .act ref .ctxTerminate → w.subs ref = some s → s.terminal = true → s.err ≠ none

/-- A subscription that ended without an error has nothing left to deliver. -/
def Subscription.Drained (s : Subscription) : Prop :=
  s.exited = true → s.err = none → s.queue = []

theorem Subscription.Drained.step {s' : Subscription} (h : s.Drained) (hinv : s.Inv limits)
    {action : Action} (hstep : s.step action = some s')
    (hkeep : action = .ctxTerminate → s.terminal = true → s.err ≠ none) : s'.Drained := by
  rcases step_cases hstep with ⟨ctxDone, hook, phase, rfl, hm⟩ | ⟨-, rfl⟩ | ⟨hact, hc, rfl⟩ |
    ⟨e, he, rfl⟩ | ⟨e, he, rfl⟩
  · intro hexit herr
    cases hm with
    | stay => exact h hexit herr
    | drained _ hnil => exact hnil
    | abort _ ha => exact absurd herr (hinv.aborted ha)
    | take | cancel => cases hexit
    | exit hold => exact h hold herr
  · intro hexit herr
    unfold terminate at hexit herr ⊢
    split_ifs at hexit herr ⊢
    exact h hexit herr
  · -- the goroutine gives up its queue: the subscription ends with the context's error
    intro _ herr
    unfold terminate at herr
    split_ifs at herr with hterm
    exact absurd herr (hkeep hact hterm)
  · intro hexit
    cases hexit
  · intro hexit
    cases hexit

/-- The operations of the log do not touch a subscription whose goroutine has returned. -/
theorem Subscription.exited_of_offer {entry : LogEntry} (h : (s.offer entry).1.exited = true) :
    s.exited = true := by
  have hphase : (s.offer entry).1.phase = s.phase := by
    unfold offer terminate
    split_ifs <;> rfl
  unfold exited at h ⊢
  rwa [hphase] at h

theorem Subscription.exited_of_finish (h : s.finish.exited = true) : s.exited = true := by
  unfold exited at h ⊢
  rwa [s.finish_eq.2.2.2.1] at h

theorem drained_step {l : Label} (h : w.Inv start limits)
    (hd : ∀ ref s, w.subs ref = some s → s.Drained) (hkeep : KeepsTail w l)
    (hstep : w.step l = some w') : ∀ ref s, w'.subs ref = some s → s.Drained := by
  intro ref s' hs'
  rcases (h.step_turn hstep).sub hs' with ⟨s, hs, hch⟩ | ⟨_, _, _, _, _, _, hphase, rfl⟩
  · have hold := hd ref s hs
    have hended := (h.sub ref s hs).ended
    cases hch with
    | same => exact hold
    | act hl hact => exact hold.step (h.sub ref s hs) hact fun ha => hkeep ref s (ha ▸ hl) hs
    | offer entry =>
      intro hexit herr
      have hsame : s.offer entry = (s, false) := by
        rw [offer, if_pos (hended (exited_of_offer hexit))]
      rw [hsame] at hexit herr ⊢
      exact hold hexit herr
    | finish =>
      intro hexit herr
      have hsame : s.finish = s := by
        rw [finish, if_pos (hended (exited_of_finish hexit))]
      rw [hsame] at hexit herr ⊢
      exact hold hexit herr
    | finishNew => exact nofun
    | onDone hphase => exact fun _ => hold (by simp [exited, hphase])
  · rintro hexit -
    rcases hphase with rfl | rfl <;> cases hexit

/-- In every run in which no goroutine drops the tail of a completed subscription: when `Wait`
returns nil the log is closed and the consumer has received every event after the starting
cursor. -/
theorem clean_completion (hstart : start ≤ maxUint64)
    (hnew : newLogAfter runID start limits = .ok log)
    (hw : (logSystem log).ReachableIf KeepsTail w) {ref : ℕ} {s : Subscription}
    (hs : w.subs ref = some s) (hwait : s.wait = some none) :
    w.log.closed = true ∧
      s.delivered.map Envelope.sequence =
        range' (s.start + 1) (w.log.lastSequence - s.start) ∧
      ∀ e ∈ w.accepted, s.start < e.seq → e.envelope ∈ s.delivered := by
  have hdrained : ∀ ref s, w.subs ref = some s → s.Drained :=
    System.ReachableIf.invariant (fun _ _ hs => by cases hs)
      (fun hr hd hkeep hstep => drained_step (logSystem_inv hstart hnew hr) hd hkeep hstep) hw
  have h := logSystem_inv hstart hnew hw.reachable
  have hsub := h.sub ref s hs
  obtain ⟨herr, hexit, hcursor⟩ := hsub.wait_cursor hwait
  obtain ⟨hclosed, hreach⟩ := h.clean ref s hs (hsub.ended hexit) herr
  have hreceived := hsub.received
  have hlast := hreceived.getLast?_getD
  rw [Subscription.reach, hdrained ref s hs hexit herr, length_nil, add_zero, hcursor, hlast,
    length_map] at hreach
  have hrange := hreceived.eq_range'
  rw [length_map] at hrange
  refine ⟨hclosed, ?_, fun e he hlt => ?_⟩
  · rw [hrange, show w.log.lastSequence - s.start = s.delivered.length by omega]
  · -- the received event with this sequence is the accepted one
    have hbound := h.log.sequences.mem (mem_map_of_mem he)
    rw [length_map, ← h.log.last] at hbound
    have hmem := hreceived.mem_of_lt hlt (by rw [length_map]; omega)
    obtain ⟨x, hx, hxseq⟩ := mem_map.mp hmem
    obtain ⟨e', he', rfl⟩ := (h.genuine ref s hs).delivered x hx
    have hinj := inj_on_of_nodup_map h.log.sequences.nodup
    rw [← hinj he' he hxseq]
    exact hx

/-- One event, `Close`, and the delivery of the tail. -/
def cleanRun : List Label :=
  [.subscribe false 0 0 false, .append (sampleEvent 1 ""), .offer 1, .close, .finish 1,
    .act 0 .pick, .act 0 .send, .act 0 .record, .act 0 .pick, .act 0 .stopHook, .onDone 0,
    .act 0 .closeDone]

theorem clean_completion_one_event :
    ∃ w s, (logSystem sampleLog).after cleanRun = some w ∧
      w.subs 0 = some s ∧ s.wait = some none ∧ s.delivered.map Envelope.sequence = [1] := by
  have hw : (logSystem sampleLog).after cleanRun = some _ := rfl
  have hkeep : ∀ l ∈ cleanRun, ∀ u, KeepsTail u l := by
    rintro l hl u ref s rfl
    simp [cleanRun] at hl
  have h := clean_completion (by decide) newLogAfter_sample (System.ReachableIf.init.run hkeep hw)
    (show World.subs _ 0 = _ from rfl) rfl
  exact ⟨_, _, hw, rfl, rfl, h.2.1.trans rfl⟩

/-- The context ends after `Close` has completed the subscription: the goroutine returns through
`ctx.Done`, `Wait` returns nil, and the one event of the log was never received. -/
theorem clean_completion_cancelled_after_close :
    ∃ w s, (logSystem sampleLog).after
        [.subscribe false 0 0 false, .append (sampleEvent 1 ""), .offer 1, .close, .finish 1,
          .act 0 .cancel, .act 0 .pick, .act 0 .ctxExit, .act 0 .ctxTerminate, .act 0 .stopHook,
          .onDone 0, .act 0 .closeDone] = some w ∧
      w.subs 0 = some s ∧ s.wait = some none ∧ w.log.closed = true ∧ s.start = 0 ∧
      w.log.lastSequence = 1 ∧ s.delivered = [] :=
  ⟨_, _, rfl, rfl, rfl, rfl, rfl, rfl, rfl⟩

end

end SpiceAgent.Event
