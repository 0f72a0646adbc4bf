import SpiceAgent.Event.LogInvariant
import SpiceAgent.Lib.LongestPrefix

/-!
# Replay pages

On a log that meets `Log.Inv` the cursors inside the retained window are `windowStart` up to
`lastSequence`. From such a cursor `replayPage` returns the longest run of the following entries
within the request's bounds, or reports the first entry as too large; it never fails to move.
`replayAll` repeats `Replay` with the cursor moved to the end of each page.
-/

namespace SpiceAgent.Event

open SpiceAgent.Lib List
open Log

/-- The cursor before the oldest retained entry. -/
def Log.windowStart (log : Log) : ℕ := log.lastSequence - log.entries.length

def Log.entriesAfter (log : Log) (cursor : ℕ) : List LogEntry :=
  log.entries.filter fun e => cursor < e.seq

def Log.InWindow (log : Log) (cursor : ℕ) : Prop :=
  log.windowStart ≤ cursor ∧ cursor ≤ log.lastSequence

variable {cursor : ℕ}

theorem Log.entriesAfter_subset (log : Log) {cursor' : ℕ} (h : cursor ≤ cursor') :
    log.entriesAfter cursor' ⊆ log.entriesAfter cursor := by
  intro e he
  simp only [entriesAfter, mem_filter, decide_eq_true_eq] at he ⊢
  exact ⟨he.1, by omega⟩

namespace Log.Inv

variable {start : ℕ} {accepted : List LogEntry} {log : Log}

variable (h : log.Inv start accepted)
include h

theorem windowStart_add : log.windowStart + log.entries.length = log.lastSequence :=
  Nat.sub_add_cancel h.length_le_last

theorem windowStart_lt : log.windowStart < maxUint64 := by
  have hadd := h.windowStart_add
  have hle := h.last_le
  cases hentries : log.entries with
  | nil =>
    have hlast := h.last
    rw [h.nonempty hentries, length_nil, add_zero] at hlast
    have hstart := h.start_lt
    rw [hentries, length_nil] at hadd
    omega
  | cons e rest =>
    rw [hentries, length_cons] at hadd
    omega

theorem bounds_eq : log.bounds = (log.windowStart + 1, log.lastSequence) := by
  have hadd := h.windowStart_add
  have hlt := h.windowStart_lt
  have hseq := h.entries_consecutive
  unfold bounds
  split
  · next hentries =>
    rw [hentries, length_nil, add_zero] at hadd
    rw [if_neg (by omega), hadd]
  · next e rest hentries =>
    rw [hentries, map_cons, Consecutive.cons_iff, ← hentries] at hseq
    exact Prod.ext hseq.1 rfl

theorem outside_iff (cursor : ℕ) :
    replayCursorOutside cursor log.bounds.1 log.bounds.2 = true ↔ ¬log.InWindow cursor := by
  have hadd := h.windowStart_add
  have hlt := h.windowStart_lt
  have hle := h.last_le
  rw [h.bounds_eq]
  unfold maxUint64 at hle hlt
  unfold replayCursorOutside Log.InWindow maxUint64
  split_ifs with hempty <;> simp only [decide_eq_true_eq] <;> omega

theorem entriesAfter_eq_drop (cursor : ℕ) :
    log.entriesAfter cursor = log.entries.drop (cursor - log.windowStart) := by
  have key : ∀ (l : List LogEntry) (n : ℕ), Consecutive n (l.map LogEntry.seq) →
      (l.filter fun e => cursor < e.seq) = l.drop (cursor - n) := by
    intro l
    induction l with
    | nil => simp
    | cons e l ih =>
      intro n hl
      rw [map_cons, Consecutive.cons_iff] at hl
      obtain ⟨he, hl⟩ := hl
      rw [filter_cons]
      split_ifs with hlt
      · rw [decide_eq_true_eq] at hlt
        rw [ih (n + 1) hl, show cursor - (n + 1) = 0 by omega, show cursor - n = 0 by omega,
          drop_zero, drop_zero]
      · rw [decide_eq_true_eq] at hlt
        rw [ih (n + 1) hl, show cursor - n = cursor - (n + 1) + 1 by omega, drop_succ_cons]
  exact key _ _ h.entries_consecutive

section

variable (hc : log.InWindow cursor)
include hc

theorem entriesAfter_consecutive :
    Consecutive cursor ((log.entriesAfter cursor).map LogEntry.seq) := by
  have hadd := h.windowStart_add
  obtain ⟨hlo, hhi⟩ := hc
  rw [h.entriesAfter_eq_drop, map_drop]
  have hdrop := h.entries_consecutive.drop (k := cursor - log.windowStart)
    (by rw [length_map]; omega)
  rw [show log.lastSequence - log.entries.length = log.windowStart from rfl,
    Nat.add_sub_cancel' hlo] at hdrop
  exact hdrop

theorem entriesAfter_length : cursor + (log.entriesAfter cursor).length = log.lastSequence := by
  have hadd := h.windowStart_add
  obtain ⟨hlo, hhi⟩ := hc
  rw [h.entriesAfter_eq_drop, length_drop]
  omega

theorem entriesAfter_add (k : ℕ) :
    log.entriesAfter (cursor + k) = (log.entriesAfter cursor).drop k := by
  rw [h.entriesAfter_eq_drop, h.entriesAfter_eq_drop, drop_drop,
    Nat.sub_add_comm hc.1]

end

theorem sized_entriesAfter (cursor : ℕ) : Sized (log.entriesAfter cursor) :=
  fun e he => h.entries_sized e (mem_of_mem_filter he)

theorem entriesAfter_accepted (cursor : ℕ) : log.entriesAfter cursor ⊆ accepted := by
  intro e he
  obtain ⟨gone, hgone, -, -⟩ := h.retained
  rw [hgone]
  exact mem_append_right gone (mem_of_mem_filter he)

end Log.Inv

/-! ## One page -/

variable (request : ReplayRequest)

theorem pageLoop_skip (l : List LogEntry) :
    ∀ (acc : List LogEntry) (bytes : ℤ) (last : ℕ), pageLoop request l acc bytes last =
      pageLoop request (l.filter fun e => request.afterSequence < e.seq) acc bytes last := by
  induction l with
  | nil => intros; rfl
  | cons e l ih =>
    intro acc bytes last
    rw [filter_cons]
    split_ifs with he
    · simp only [pageLoop, ih]
    · rw [decide_eq_true_eq, not_lt] at he
      rw [pageLoop, if_pos he, ih]

/-- The failure of a page whose first entry does not fit. -/
def ReplayRequest.tooLarge (e : LogEntry) : ResourceExhaustedError :=
  { lastDelivered := request.afterSequence, maxEvents := request.maxEvents,
    maxBytes := request.maxBytes, resource := .eventReplayBytes,
    limit := nonnegativeUint64 request.maxBytes, observed := nonnegativeUint64 e.bytes }

/-- The loop over entries that all follow the cursor: it extends `acc` to the longest page, unless
the very first entry is too large. -/
theorem pageLoop_fresh (hevents : 1 ≤ request.maxEvents) (rest : List LogEntry) :
    ∀ (acc : List LogEntry) (last : ℕ), request.afterSequence ≤ last →
      Consecutive last (rest.map LogEntry.seq) → Sized rest →
      (acc.length : ℤ) ≤ request.maxEvents → 0 ≤ totalBytes acc →
      totalBytes acc ≤ request.maxBytes →
      (∃ taken, pageLoop request rest acc (totalBytes acc) last =
          .ok (acc ++ taken, last + taken.length) ∧ (rest = [] ∨ acc ++ taken ≠ []) ∧
        IsLongestPrefix LogEntry.bytes request.maxEvents request.maxBytes (acc ++ rest)
          (acc ++ taken)) ∨
      (acc = [] ∧ ∃ e left, rest = e :: left ∧ request.maxBytes < e.bytes ∧
        pageLoop request rest acc (totalBytes acc) last = .error (request.tooLarge e)) := by
  induction rest with
  | nil =>
    intro acc last _ _ _ hlen _ hbytes
    refine .inl ⟨[], ?_, .inl rfl, ?_⟩
    · rw [pageLoop, append_nil, length_nil, add_zero]
    · rw [append_nil]
      exact .of_all hlen hbytes
  | cons e rest ih =>
    intro acc last hafter hseq hsized hlen hnn hbytes
    rw [map_cons, Consecutive.cons_iff] at hseq
    obtain ⟨he, hseq⟩ := hseq
    have hpos : 0 < e.bytes := hsized.pos mem_cons_self
    have hnonneg : ∀ x ∈ rest, 0 ≤ x.bytes := fun x hx => (hsized.of_cons.pos hx).le
    rw [pageLoop, if_neg (by omega)]
    by_cases hfull : (acc.length : ℤ) = request.maxEvents
    · rw [if_pos hfull]
      have hacc : acc ≠ [] := length_pos_iff.mp (by omega)
      refine .inl ⟨[], ?_, .inr ?_, ?_⟩ <;> rw [append_nil]
      · rw [length_nil, add_zero]
      · exact hacc
      · exact .of_stop hlen hbytes hnonneg (.inl hfull)
    rw [if_neg hfull]
    by_cases hbig : request.maxBytes < e.bytes ∨ request.maxBytes - e.bytes < totalBytes acc
    · rw [if_pos hbig]
      by_cases hacc : acc.length = 0
      · obtain rfl := length_eq_zero_iff.mp hacc
        rw [totalBytes_nil] at hbig
        exact .inr ⟨rfl, e, rest, rfl, by omega, by rw [if_pos hacc]; rfl⟩
      · rw [if_neg hacc]
        have hover : request.maxBytes < totalBytes acc + e.bytes := by omega
        refine .inl ⟨[], ?_, .inr ?_, ?_⟩ <;> rw [append_nil]
        · rw [length_nil, add_zero]
        · exact length_pos_iff.mp (by omega)
        · exact .of_stop hlen hbytes hnonneg (.inr hover)
    rw [if_neg hbig]
    have hsum : totalBytes acc + e.bytes = totalBytes (acc ++ [e]) := by simp
    have hlen' : ((acc ++ [e]).length : ℤ) ≤ request.maxEvents := by
      rw [length_append, length_singleton]
      push_cast
      omega
    have hbytes' : 0 ≤ totalBytes (acc ++ [e]) ∧ totalBytes (acc ++ [e]) ≤ request.maxBytes := by
      rw [← hsum]
      omega
    rw [hsum, he]
    rcases ih (acc ++ [e]) (last + 1) (by omega) hseq hsized.of_cons hlen' hbytes'.1 hbytes'.2 with
      ⟨taken, heq, -, hpage⟩ | ⟨hnil, -⟩
    · refine .inl ⟨e :: taken, ?_, .inr (by simp), ?_⟩
      · rw [heq, append_assoc, singleton_append, length_cons]
        congr 2
        omega
      · simpa only [append_assoc, singleton_append] using hpage
    · simp at hnil

/-- A page of the log: its bounds, its end and whether more follows. -/
def Log.pageTo (log : Log) (last : ℕ) : ReplayPage :=
  { earliestSequence := log.bounds.1, latestSequence := log.bounds.2, pageLastSequence := last,
    hasMore := last < log.bounds.2 }

/-- The recovery facts of a cursor outside the window. -/
def Log.outOfRange (log : Log) (cursor : ℕ) : OutOfRangeError :=
  { requestedAfter := cursor, earliest := log.bounds.1, latest := log.bounds.2,
    recoveryAfter := if cursor < log.bounds.1 then log.windowStart else log.lastSequence }

/-- A cursor outside the window and a first entry that is too large are refused, and otherwise the
longest page after the cursor is taken. -/
def Log.Pages {α : Type} (log : Log) (request : ReplayRequest) (outcome : Log × Except LogError α)
    (page : List LogEntry → Log × α) : Prop :=
  (¬log.InWindow request.afterSequence ∧
    outcome = (log, .error (.outOfRange (log.outOfRange request.afterSequence)))) ∨
  (log.InWindow request.afterSequence ∧
    ∃ e left, log.entriesAfter request.afterSequence = e :: left ∧ request.maxBytes < e.bytes ∧
      outcome = (log.countExhaustion, .error (.resourceExhausted (request.tooLarge e)))) ∨
  (log.InWindow request.afterSequence ∧
    ∃ taken, IsLongestPrefix LogEntry.bytes request.maxEvents request.maxBytes
        (log.entriesAfter request.afterSequence) taken ∧
      outcome = ((page taken).1, .ok (page taken).2))

namespace Log.Inv

variable {start : ℕ} {accepted : List LogEntry} {log : Log}

theorem replayPage_cases (h : log.Inv start accepted) (request : ReplayRequest)
    (hevents : 1 ≤ request.maxEvents) (hbytes : 1 ≤ request.maxBytes) :
    log.Pages request (log.replayPage request) fun taken =>
      (log, taken, log.pageTo (request.afterSequence + taken.length)) := by
  have hlt := h.windowStart_lt
  unfold maxUint64 at hlt
  by_cases hin : log.InWindow request.afterSequence
  · have hinside : replayCursorOutside request.afterSequence log.bounds.1 log.bounds.2 ≠ true :=
      fun hout => (h.outside_iff _).mp hout hin
    have hloop := pageLoop_skip request log.entries [] 0 request.afterSequence
    rw [← entriesAfter] at hloop
    rcases pageLoop_fresh request hevents (log.entriesAfter request.afterSequence) []
        request.afterSequence le_rfl (h.entriesAfter_consecutive hin)
        (h.sized_entriesAfter request.afterSequence) (by simp only [length_nil]; omega)
        le_rfl (by rw [totalBytes_nil]; omega) with ⟨taken, heq, hmoved, hpage⟩ |
          ⟨-, e, left, hrest, hbig, heq⟩
    · refine .inr (.inr ⟨hin, taken, hpage, ?_⟩)
      have hlength := h.entriesAfter_length hin
      rw [totalBytes_nil, ← hloop, nil_append] at heq
      rw [replayPage, if_neg hinside]
      simp only [heq, pageTo]
      by_cases hmore : request.afterSequence + taken.length < log.bounds.2
      · -- the first entry fits, so a page with entries left over is not empty
        have hne : taken.length ≠ 0 := by
          intro hzero
          obtain rfl := length_eq_zero_iff.mp hzero
          rcases hmoved with hnil | hne
          · rw [hnil, length_nil] at hlength
            rw [h.bounds_eq, length_nil] at hmore
            simp only at hmore
            omega
          · exact hne rfl
        rw [if_pos hmore, if_neg hne, decide_eq_true hmore]
      · rw [if_neg hmore, decide_eq_false hmore]
    · refine .inr (.inl ⟨hin, e, left, hrest, hbig, ?_⟩)
      rw [totalBytes_nil, ← hloop] at heq
      rw [replayPage, if_neg hinside]
      simp only [heq]
  · refine .inl ⟨hin, ?_⟩
    have hwrap : (log.bounds.1 + maxUint64) % 2 ^ 64 = log.windowStart := by
      rw [h.bounds_eq]
      unfold maxUint64
      simp only
      omega
    have hlatest : log.bounds.2 = log.lastSequence := by rw [h.bounds_eq]
    rw [replayPage, if_pos ((h.outside_iff _).mpr hin), outOfRange, hwrap, hlatest]

end Log.Inv

/-! ## Replay and Subscribe -/

/-- The bounds that `Replay` accepts from a caller. -/
structure Log.Admits (log : Log) (request : ReplayRequest) : Prop where
  events_pos : 1 ≤ request.maxEvents
  events_le : request.maxEvents ≤ log.limits.subscriberMaxEvents
  bytes_pos : 1 ≤ request.maxBytes
  bytes_le : request.maxBytes ≤ log.limits.subscriberMaxBytes

variable {ctxErr : Bool} {request}

theorem Log.replayCheck_eq_none {log : Log} :
    log.replayCheck ctxErr request = none ↔ ctxErr = false ∧ log.Admits request := by
  unfold replayCheck
  constructor
  · intro h
    split_ifs at h with hctx
    refine ⟨by simpa using hctx, ?_⟩
    constructor <;> omega
  · rintro ⟨rfl, h₁, h₂, h₃, h₄⟩
    rw [if_neg (by decide), if_neg (by omega), if_neg (by omega)]

/-- The page of the entries `taken`. -/
def Log.pageOf (log : Log) (request : ReplayRequest) (taken : List LogEntry) : ReplayPage :=
  { log.pageTo (request.afterSequence + taken.length) with events := taken.map LogEntry.envelope }

/-- The log and the page after a successful `Replay` of the entries `taken`. -/
def Log.replayed (log : Log) (request : ReplayRequest) (ref : ℕ) (taken : List LogEntry) :
    Log × ReplayPage :=
  if request.tail && !(log.pageOf request taken).hasMore && !log.closed then
    ((log.register ref).1, { log.pageOf request taken with tail := some ref, tailing := true })
  else (log, log.pageOf request taken)

theorem Log.replayed_page (log : Log) (request : ReplayRequest) (ref : ℕ) (taken : List LogEntry) :
    ∃ tailing tail, (log.replayed request ref taken).2 =
      { log.pageOf request taken with tailing := tailing, tail := tail } := by
  unfold replayed
  split_ifs
  · exact ⟨true, some ref, rfl⟩
  · exact ⟨false, none, rfl⟩

variable {taken : List LogEntry}

theorem Log.replayed_of_hasMore {log : Log} (h : (log.pageOf request taken).hasMore = true)
    (ref : ℕ) : log.replayed request ref taken = (log, log.pageOf request taken) := by
  unfold replayed
  rw [h, Bool.not_true, Bool.and_false, Bool.false_and, if_neg (by decide)]

theorem Log.register_sameHistory (log : Log) (ref : ℕ) :
    log.SameHistory (log.register ref).1 := ⟨rfl, rfl, rfl, rfl, rfl, rfl, rfl⟩

theorem Log.countExhaustion_sameHistory (log : Log) : log.SameHistory log.countExhaustion :=
  ⟨rfl, rfl, rfl, rfl, rfl, rfl, rfl⟩

theorem Log.replayExhaustion_lastDelivered {log : Log} {last : ℕ} {replay : List LogEntry}
    {failure : ResourceExhaustedError}
    (h : log.replayExhaustion last replay = .resourceExhausted failure) :
    failure.lastDelivered = last := by
  unfold replayExhaustion at h
  split_ifs at h
  · cases h
    rfl
  · split at h <;> cases h
    rfl

variable {page : ReplayPage}

namespace Log.Inv

variable {start : ℕ} {accepted : List LogEntry} {log : Log}

theorem replay_cases (h : log.Inv start accepted) (hr : log.Admits request) (ref : ℕ) :
    log.Pages request (log.replay false request ref) (log.replayed request ref) := by
  have hcheck := replayCheck_eq_none.mpr ⟨rfl, hr⟩
  rcases h.replayPage_cases request hr.events_pos hr.bytes_pos with
    ⟨hout, heq⟩ | ⟨hin, e, left, hafter, hbig, heq⟩ | ⟨hin, taken, hpage, heq⟩
  · exact .inl ⟨hout, by simp only [replay, hcheck, heq]⟩
  · exact .inr (.inl ⟨hin, e, left, hafter, hbig, by simp only [replay, hcheck, heq]⟩)
  · refine .inr (.inr ⟨hin, taken, hpage, ?_⟩)
    simp only [replay, hcheck, heq]
    unfold replayed pageOf
    split_ifs <;> rfl

variable {ref : ℕ} {log' : Log} {err : LogError}

variable (h : log.Inv start accepted)
include h

theorem replay_ok (heq : log.replay ctxErr request ref = (log', .ok page)) :
    log.InWindow request.afterSequence ∧
      ∃ taken, IsLongestPrefix LogEntry.bytes request.maxEvents request.maxBytes
          (log.entriesAfter request.afterSequence) taken ∧
        log.replayed request ref taken = (log', page) := by
  cases hcheck : log.replayCheck ctxErr request with
  | some failure => simp [replay, hcheck] at heq
  | none =>
    obtain ⟨rfl, hadmits⟩ := replayCheck_eq_none.mp hcheck
    rcases h.replay_cases hadmits ref with
      ⟨-, hr⟩ | ⟨-, _, _, -, -, hr⟩ | ⟨hin, taken, hpage, hr⟩ <;> rw [hr] at heq <;> cases heq
    exact ⟨hin, taken, hpage, rfl⟩

theorem replay_tailing (heq : log.replay ctxErr request ref = (log', .ok page)) :
    page.tailing = false ∧ log' = log ∨
    page.tailing = true ∧ log' = (log.register ref).1 ∧ log.closed = false ∧
      page.pageLastSequence = log.lastSequence := by
  obtain ⟨hin, taken, hpage, hr⟩ := h.replay_ok heq
  have hlength := h.entriesAfter_length hin
  have hle := hpage.isPrefix.length_le
  have hlatest : log.bounds.2 = log.lastSequence := by rw [h.bounds_eq]
  unfold replayed at hr
  split_ifs at hr with htail <;> cases hr
  · simp only [Bool.and_eq_true, Bool.not_eq_true', pageOf, pageTo,
      decide_eq_false_iff_not] at htail
    refine .inr ⟨rfl, rfl, htail.2, ?_⟩
    show request.afterSequence + taken.length = log.lastSequence
    omega
  · exact .inl ⟨rfl, rfl⟩

theorem inWindow_add (hc : log.InWindow cursor) (ht : taken <+: log.entriesAfter cursor) :
    log.InWindow (cursor + taken.length) := by
  have hlength := h.entriesAfter_length hc
  have hle := ht.length_le
  exact ⟨by have := hc.1; omega, by omega⟩

/-- A subscription that its initial page exceeds names the bound: an entry after the page is still
retained. -/
theorem replayExhaustion_eq {last : ℕ} (hin : log.InWindow last) (hlt : last < log.lastSequence)
    (replay : List LogEntry) :
    ∃ failure, log.replayExhaustion last replay = .resourceExhausted failure := by
  unfold replayExhaustion
  split_ifs with hevents
  · exact ⟨_, rfl⟩
  · have hlength := h.entriesAfter_length hin
    cases hafter : log.entriesAfter last with
    | nil =>
      rw [hafter, length_nil] at hlength
      omega
    | cons e rest =>
      have hfind : (log.entries.find? fun e => last < e.seq) = some e := by
        rw [← head?_filter, ← entriesAfter, hafter, head?_cons]
      rw [hfind]
      exact ⟨_, rfl⟩

/-- `Subscribe` reports a cursor outside the window, or fails on a bound with nothing registered, or
registers a subscription whose queue is all that follows the cursor. -/
theorem subscribe_cases (cursor ref : ℕ) :
    (¬log.InWindow cursor ∧ log.subscribe false cursor ref =
      (log, .error (.outOfRange (log.outOfRange cursor)))) ∨
    (log.InWindow cursor ∧ ∃ failure, log.subscribe false cursor ref =
      (log.countExhaustion, .error (.resourceExhausted failure))) ∨
    (log.InWindow cursor ∧
      IsLongestPrefix LogEntry.bytes log.limits.subscriberMaxEvents log.limits.subscriberMaxBytes
        (log.entriesAfter cursor) (log.entriesAfter cursor) ∧
      log.subscribe false cursor ref = ((log.register ref).1, .ok (log.entriesAfter cursor))) := by
  have hcases := h.replayPage_cases (log.subscribeRequest cursor) h.limits.subscriberEvents
    h.limits.subscriberBytes
  unfold Pages at hcases
  rw [show (log.subscribeRequest cursor).afterSequence = cursor from rfl] at hcases
  rcases hcases with
    ⟨hout, heq⟩ | ⟨hin, e, left, hafter, hbig, heq⟩ | ⟨hin, taken, hpage, heq⟩
  · refine .inl ⟨hout, ?_⟩
    simp only [subscribe, Bool.false_eq_true, if_false, heq]
  · refine .inr (.inl ⟨hin, (log.subscribeRequest cursor).tooLarge e, ?_⟩)
    simp only [subscribe, Bool.false_eq_true, if_false, heq]
  · have hlength := h.entriesAfter_length hin
    have hlatest : log.bounds.2 = log.lastSequence := by rw [h.bounds_eq]
    by_cases hmore : cursor + taken.length < log.bounds.2
    · obtain ⟨failure, hfailure⟩ :=
        h.replayExhaustion_eq (h.inWindow_add hin hpage.isPrefix) (hlatest ▸ hmore) taken
      refine .inr (.inl ⟨hin, failure, ?_⟩)
      simp only [subscribe, Bool.false_eq_true, if_false, heq, pageTo, hfailure]
      rw [if_pos (decide_eq_true hmore)]
    · obtain rfl : taken = log.entriesAfter cursor :=
        hpage.isPrefix.eq_of_length_le (by omega)
      refine .inr (.inr ⟨hin, hpage, ?_⟩)
      simp only [subscribe, Bool.false_eq_true, if_false, heq, pageTo]
      rw [if_neg (by simpa using hmore)]

theorem subscribe_ok {replay : List LogEntry}
    (heq : log.subscribe ctxErr cursor ref = (log', .ok replay)) :
    log.InWindow cursor ∧
      IsLongestPrefix LogEntry.bytes log.limits.subscriberMaxEvents log.limits.subscriberMaxBytes
        (log.entriesAfter cursor) (log.entriesAfter cursor) ∧
      log' = (log.register ref).1 ∧ replay = log.entriesAfter cursor := by
  cases ctxErr with
  | true => cases heq
  | false =>
    rcases h.subscribe_cases cursor ref with ⟨-, hr⟩ | ⟨-, _, hr⟩ | ⟨hin, hpage, hr⟩ <;>
      rw [hr] at heq <;> cases heq
    exact ⟨hin, hpage, rfl, rfl⟩

/-- A refused `Subscribe` names the caller's own cursor if the first entry after it is too large;
otherwise it names the end of a page that nobody has received. -/
theorem subscribe_refused {failure : ResourceExhaustedError}
    (heq : log.subscribe false cursor ref = (log', .error (.resourceExhausted failure))) :
    log' = log.countExhaustion ∧ log.InWindow cursor ∧
      ((failure.lastDelivered = cursor ∧ ∃ e left, log.entriesAfter cursor = e :: left ∧
          log.limits.subscriberMaxBytes < e.bytes) ∨
        ∃ taken, taken ≠ [] ∧
          IsLongestPrefix LogEntry.bytes log.limits.subscriberMaxEvents
            log.limits.subscriberMaxBytes (log.entriesAfter cursor) taken ∧
          failure.lastDelivered = cursor + taken.length) := by
  have hcases := h.replayPage_cases (log.subscribeRequest cursor) h.limits.subscriberEvents
    h.limits.subscriberBytes
  unfold Pages at hcases
  rw [show (log.subscribeRequest cursor).afterSequence = cursor from rfl] at hcases
  rcases hcases with ⟨-, hr⟩ | ⟨hin, e, left, hafter, hbig, hr⟩ | ⟨hin, taken, hpage, hr⟩ <;>
    simp only [subscribe, Bool.false_eq_true, if_false, hr] at heq
  · cases heq
  · cases heq
    exact ⟨rfl, hin, .inl ⟨rfl, e, left, hafter, hbig⟩⟩
  · split_ifs at heq with hmore
    swap
    · cases heq
    obtain ⟨hlog, herr⟩ := Prod.mk.inj heq
    have hlast := replayExhaustion_lastDelivered (Except.error.inj herr)
    refine ⟨hlog.symm, hin, ?_⟩
    by_cases htaken : taken = []
    · -- an empty page that is not the last one stands before an entry that does not fit
      subst htaken
      refine .inl ⟨hlast, ?_⟩
      have hlength := h.entriesAfter_length hin
      have hshort : cursor < log.bounds.2 := of_decide_eq_true hmore
      rw [h.bounds_eq] at hshort
      cases hafter : log.entriesAfter cursor with
      | nil =>
        rw [hafter, length_nil] at hlength
        simp only at hshort
        omega
      | cons e left =>
        rw [hafter] at hpage
        refine ⟨e, left, rfl, ?_⟩
        by_contra hfit
        exact hpage.ne_nil h.limits.subscriberEvents (not_lt.mp hfit) rfl
    · exact .inr ⟨taken, htaken, hpage, hlast⟩

theorem replay_failure (heq : log.replay ctxErr request ref = (log', .error err)) :
    (log' = log ∨ log' = log.countExhaustion) ∧
      (err = .context ∨ (∃ bound limit, err = .replayBound bound limit) ∨
        (∃ failure, err = .resourceExhausted failure) ∨
        ¬log.InWindow request.afterSequence ∧
          err = .outOfRange (log.outOfRange request.afterSequence)) := by
  cases hcheck : log.replayCheck ctxErr request with
  | some failure =>
    simp only [replay, hcheck, Prod.mk.injEq, Except.error.injEq] at heq
    obtain ⟨rfl, rfl⟩ := heq
    refine ⟨.inl rfl, ?_⟩
    unfold replayCheck at hcheck
    split_ifs at hcheck <;> cases hcheck
    · exact .inl rfl
    · exact .inr (.inl ⟨_, _, rfl⟩)
    · exact .inr (.inl ⟨_, _, rfl⟩)
  | none =>
    obtain ⟨rfl, hadmits⟩ := replayCheck_eq_none.mp hcheck
    rcases h.replay_cases hadmits ref with
      ⟨hout, hr⟩ | ⟨-, _, _, -, -, hr⟩ | ⟨-, _, -, hr⟩ <;> rw [hr] at heq <;> cases heq
    · exact ⟨.inl rfl, .inr (.inr (.inr ⟨hout, rfl⟩))⟩
    · exact ⟨.inr rfl, .inr (.inr (.inl ⟨_, rfl⟩))⟩

theorem subscribe_failure (heq : log.subscribe ctxErr cursor ref = (log', .error err)) :
    (log' = log ∨ log' = log.countExhaustion) ∧
      (err = .context ∨ (∃ failure, err = .resourceExhausted failure) ∨
        ¬log.InWindow cursor ∧ err = .outOfRange (log.outOfRange cursor)) := by
  cases ctxErr with
  | true =>
    cases heq
    exact ⟨.inl rfl, .inl rfl⟩
  | false =>
    rcases h.subscribe_cases cursor ref with ⟨hout, hr⟩ | ⟨-, _, hr⟩ | ⟨-, -, hr⟩ <;>
      rw [hr] at heq <;> cases heq
    · exact ⟨.inl rfl, .inr (.inr ⟨hout, rfl⟩)⟩
    · exact ⟨.inr rfl, .inr (.inl ⟨_, rfl⟩)⟩

theorem recovery_inWindow (cursor : ℕ) : log.InWindow (log.outOfRange cursor).recoveryAfter := by
  have hadd := h.windowStart_add
  unfold outOfRange Log.InWindow
  simp only
  split_ifs <;> omega

end Log.Inv

/-! ## Repeated replay -/

/-- Repeats `Replay` from a cursor, each call with its own bounds, until a page has no successor.
`none` stands for a call that fails and for a run that needs more than the given number of calls. -/
def replayAll (bounds : ℕ → ReplayRequest) (ref : ℕ) :
    ℕ → ℕ → Log → ℕ → Option (Log × List ReplayPage)
  | 0, _, _, _ => none
  | fuel + 1, call, log, cursor =>
    match log.replay false { bounds call with afterSequence := cursor } ref with
    | (_, .error _) => none
    | (log', .ok page) =>
      if page.hasMore then
        (replayAll bounds ref fuel (call + 1) log' page.pageLastSequence).map
          fun r => (r.1, page :: r.2)
      else some (log', [page])

/-- A page is right for its request: it holds the longest run of entries after the cursor within
both bounds, and more follows exactly when it ends before the captured latest sequence. -/
structure Log.PageAt (log : Log) (request : ReplayRequest) (page : ReplayPage) : Prop where
  longest : ∃ taken, IsLongestPrefix LogEntry.bytes request.maxEvents request.maxBytes
      (log.entriesAfter request.afterSequence) taken ∧
    page.events = taken.map LogEntry.envelope ∧
    page.pageLastSequence = request.afterSequence + taken.length
  latest : page.latestSequence = log.lastSequence
  hasMore : page.hasMore = true ↔ page.pageLastSequence < page.latestSequence

/-- The pages of repeated calls: each is right for the cursor where the one before it ended, and the
last one has no successor. -/
def Log.PagesFrom (log : Log) (bounds : ℕ → ReplayRequest) : ℕ → ℕ → List ReplayPage → Prop
  | _, _, [] => False
  | call, cursor, page :: rest =>
    log.PageAt { bounds call with afterSequence := cursor } page ∧
      if page.hasMore then log.PagesFrom bounds (call + 1) page.pageLastSequence rest else rest = []

namespace Log.Inv

variable {start : ℕ} {accepted : List LogEntry} {log : Log}

variable (h : log.Inv start accepted)
include h

theorem pageAt_replayed (ref : ℕ)
    (hpage : IsLongestPrefix LogEntry.bytes request.maxEvents request.maxBytes
      (log.entriesAfter request.afterSequence) taken) :
    log.PageAt request (log.replayed request ref taken).2 := by
  obtain ⟨tailing, tail, hp⟩ := log.replayed_page request ref taken
  rw [hp]
  refine ⟨⟨taken, hpage, rfl, rfl⟩, ?_, decide_eq_true_iff⟩
  show log.bounds.2 = log.lastSequence
  rw [h.bounds_eq]

/-- From a cursor in the window whose following entries all fit, `Replay` returns the right page; a
page with a successor has moved the cursor and left the log alone. -/
theorem replay_fits (hr : log.Admits request) (hin : log.InWindow request.afterSequence)
    (hfit : ∀ e ∈ log.entriesAfter request.afterSequence, e.bytes ≤ request.maxBytes) (ref : ℕ) :
    ∃ log' page, log.replay false request ref = (log', .ok page) ∧ log.PageAt request page ∧
      (page.hasMore = true → log' = log ∧ request.afterSequence < page.pageLastSequence) := by
  rcases h.replay_cases hr ref with
    ⟨hout, -⟩ | ⟨-, e, left, hafter, hbig, -⟩ | ⟨-, taken, hpage, heq⟩
  · exact absurd hin hout
  · exact absurd (hfit e (hafter ▸ mem_cons_self)) (not_le.mpr hbig)
  · refine ⟨_, _, heq, h.pageAt_replayed ref hpage, fun hmore => ?_⟩
    obtain ⟨tailing, tail, hp⟩ := log.replayed_page request ref taken
    rw [hp] at hmore
    rw [replayed_of_hasMore hmore ref]
    refine ⟨rfl, ?_⟩
    show request.afterSequence < request.afterSequence + taken.length
    have hlength := h.entriesAfter_length hin
    have hshort : request.afterSequence + taken.length < log.bounds.2 := of_decide_eq_true hmore
    rw [h.bounds_eq] at hshort
    cases hafter : log.entriesAfter request.afterSequence with
    | nil =>
      rw [hafter, length_nil] at hlength
      simp only at hshort
      omega
    | cons e left =>
      rw [hafter] at hpage hfit
      have hne := hpage.ne_nil hr.events_pos (hfit e mem_cons_self)
      have hpos := length_pos_iff.mpr hne
      omega

theorem pageAt_cursor (hp : log.PageAt request page) (hin : log.InWindow request.afterSequence) :
    log.InWindow page.pageLastSequence ∧
      page.events ++ (log.entriesAfter page.pageLastSequence).map LogEntry.envelope =
        (log.entriesAfter request.afterSequence).map LogEntry.envelope := by
  obtain ⟨taken, hpage, hevents, hlast⟩ := hp.longest
  rw [hlast, hevents, h.entriesAfter_add hin, ← map_append]
  refine ⟨h.inWindow_add hin hpage.isPrefix, ?_⟩
  congr 1
  nth_rewrite 1 [prefix_iff_eq_take.mp hpage.isPrefix]
  exact take_append_drop taken.length _

/-- Repeated replay ends, at the latest with one call for each entry after the cursor, and each of
its pages is right. -/
theorem replayAll_pages {bounds : ℕ → ReplayRequest} (hr : ∀ call, log.Admits (bounds call))
    (ref : ℕ) :
    ∀ (fuel call cursor : ℕ), log.InWindow cursor → log.lastSequence - cursor < fuel →
      (∀ call, ∀ e ∈ log.entriesAfter cursor, e.bytes ≤ (bounds call).maxBytes) →
      ∃ log' pages, replayAll bounds ref fuel call log cursor = some (log', pages) ∧
        log.PagesFrom bounds call cursor pages := by
  intro fuel
  induction fuel with
  | zero => intro _ _ _ hfuel; omega
  | succ fuel ih =>
    intro call cursor hin hfuel hfit
    have hadmits : log.Admits { bounds call with afterSequence := cursor } :=
      ⟨(hr call).events_pos, (hr call).events_le, (hr call).bytes_pos, (hr call).bytes_le⟩
    obtain ⟨log', page, heq, hpage, hmove⟩ := h.replay_fits hadmits hin (hfit call) ref
    by_cases hmore : page.hasMore = true
    · obtain ⟨hsame, hlt⟩ := hmove hmore
      rw [hsame] at heq
      obtain ⟨hin', -⟩ := h.pageAt_cursor hpage hin
      have hle := hin'.2
      simp only at hlt
      obtain ⟨log', pages, hall, hpages⟩ := ih (call + 1) page.pageLastSequence hin' (by omega)
        fun call e he => hfit call e (log.entriesAfter_subset hlt.le he)
      refine ⟨log', page :: pages, ?_, hpage, ?_⟩
      · rw [replayAll, heq]
        simp only [if_pos hmore, hall]
        rfl
      · rwa [if_pos hmore]
    · refine ⟨log', [page], ?_, hpage, ?_⟩
      · rw [replayAll, heq]
        simp only [if_neg hmore]
      · rw [if_neg hmore]

/-- The pages of repeated calls together are the retained entries after the cursor. -/
theorem pagesFrom_events {bounds : ℕ → ReplayRequest} :
    ∀ (pages : List ReplayPage) (call cursor : ℕ), log.InWindow cursor →
      log.PagesFrom bounds call cursor pages →
      pages.flatMap ReplayPage.events = (log.entriesAfter cursor).map LogEntry.envelope := by
  intro pages
  induction pages with
  | nil => exact fun _ _ _ hnone => hnone.elim
  | cons page rest ih =>
    rintro call cursor hin ⟨hpage, hrest⟩
    obtain ⟨hin', hsplit⟩ := h.pageAt_cursor hpage hin
    rw [flatMap_cons]
    split_ifs at hrest with hmore
    · rw [ih _ _ hin' hrest]
      exact hsplit
    · -- nothing follows a page that reaches the latest sequence
      have hend := mt hpage.hasMore.mpr hmore
      have hlength := h.entriesAfter_length hin'
      rw [hpage.latest] at hend
      rw [length_eq_zero_iff.mp (show (log.entriesAfter page.pageLastSequence).length = 0 by
        omega), map_nil, append_nil] at hsplit
      rw [hrest, flatMap_nil, append_nil]
      exact hsplit

theorem entriesAfter_head {e : LogEntry} (he : e ∈ log.entries) (hseq : e.seq = cursor + 1) :
    log.InWindow cursor ∧ ∃ rest, log.entriesAfter cursor = e :: rest := by
  have hadd := h.windowStart_add
  have hbounds := h.entries_consecutive.mem (mem_map_of_mem he)
  rw [length_map] at hbounds
  have hin : log.InWindow cursor := by
    unfold Log.InWindow windowStart
    unfold windowStart at hadd
    omega
  refine ⟨hin, ?_⟩
  have hmem : e ∈ log.entriesAfter cursor := mem_filter.mpr ⟨he, by simp [hseq]⟩
  have hcons := h.entriesAfter_consecutive hin
  cases hafter : log.entriesAfter cursor with
  | nil => simp [hafter] at hmem
  | cons x rest =>
    rw [hafter, map_cons, Consecutive.cons_iff] at hcons
    rw [hafter] at hmem
    rcases mem_cons.mp hmem with rfl | hrest
    · exact ⟨rest, rfl⟩
    · -- the entries behind the head have larger sequences
      have hlater := hcons.2.mem (mem_map_of_mem hrest)
      omega

/-- `Replay` from a cursor whose next entry is retained and fits starts with that entry. -/
theorem replay_head {e : LogEntry} (hr : log.Admits request) (he : e ∈ log.entries)
    (hseq : e.seq = request.afterSequence + 1) (hfit : e.bytes ≤ request.maxBytes) (ref : ℕ) :
    ∃ log' page, log.replay false request ref = (log', .ok page) ∧
      page.events.head? = some e.envelope := by
  obtain ⟨hin, rest, hafter⟩ := h.entriesAfter_head he hseq
  rcases h.replay_cases hr ref with ⟨hout, -⟩ | ⟨-, x, left, hx, hbig, -⟩ | ⟨-, taken, hpage, heq⟩
  · exact absurd hin hout
  · rw [hafter] at hx
    cases hx
    exact absurd hfit (not_le.mpr hbig)
  · refine ⟨_, _, heq, ?_⟩
    obtain ⟨tailing, tail, hp⟩ := log.replayed_page request ref taken
    rw [hp]
    rw [hafter] at hpage
    cases htaken : taken with
    | nil => exact absurd htaken (hpage.ne_nil hr.events_pos hfit)
    | cons x left =>
      have hhead := hpage.isPrefix
      rw [htaken, cons_prefix_cons] at hhead
      rw [hhead.1]
      rfl

end Log.Inv

end SpiceAgent.Event
