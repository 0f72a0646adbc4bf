import SpiceAgent.Event.Subscription

/-!
# The invariant of one subscription

`Subscription.Inv`: the queue and the entry in flight continue what the consumer has received,
within the bounds, and an exhaustion records the cursor. `Stable` says which steps leave alone how
far the subscription is queued; the runs of the log use it to keep the subscriptions in step with
the log.
-/

namespace SpiceAgent.Event

open SpiceAgent.Lib List Option

namespace Subscription

variable (s : Subscription)

/-- Entries that the consumer has received and the loop has yet to record. -/
def unrecorded : ℕ :=
  match s.phase with
  | .sent _ => 1
  | _ => 0

/-- The entry that the loop has taken from the head of the queue. -/
def inFlight : Option LogEntry :=
  match s.phase with
  | .sending e | .sent e => some e
  | _ => none

def exited : Bool :=
  match s.phase with
  | .returned | .hookStopped | .unregistered | .done | .closed => true
  | _ => false

/-- The invariant of one subscription of a log with the given limits. -/
structure Inv (limits : LogLimits) (s : Subscription) : Prop where
  maxEvents : s.maxEvents = limits.subscriberMaxEvents
  maxBytes : s.maxBytes = limits.subscriberMaxBytes
  received : Consecutive s.start (s.delivered.map Envelope.sequence)
  cursor : s.lastDelivered + s.unrecorded = s.start + s.delivered.length
  queued : Consecutive s.lastDelivered (s.queue.map LogEntry.seq)
  sized : Sized s.queue
  bytes : s.queuedBytes = totalBytes s.queue
  length_le : (s.queue.length : ℤ) ≤ limits.subscriberMaxEvents
  bytes_le : s.queuedBytes ≤ limits.subscriberMaxBytes
  flying : ∀ e, s.inFlight = some e → e.seq = s.lastDelivered + 1 ∧
    (s.queue.head? = some e ∨ s.queue = [] ∧ s.err ≠ none)
  failed : s.err ≠ none → s.terminal = true ∧ s.queue = []
  aborted : s.abort = true → s.err ≠ none
  exhausted : ∀ failure, s.err = some (.resourceExhausted failure) →
    failure.lastDelivered = s.lastDelivered
  ended : s.exited = true → s.terminal = true

/-- The sequence up to which the subscription is queued. -/
def reach : ℕ := s.lastDelivered + s.queue.length

variable {s} {s' : Subscription} {limits : LogLimits} {phase : Phase}

/-- A subscription as it is created: its queue follows its cursor within the bounds. -/
theorem inv_new {after : ℕ} {replay : List LogEntry}
    (hseq : Consecutive after (replay.map LogEntry.seq)) (hsized : Sized replay)
    (hlen : (replay.length : ℤ) ≤ limits.subscriberMaxEvents)
    (hbytes : totalBytes replay ≤ limits.subscriberMaxBytes) (id : ℕ) (ctxDone : Bool)
    (hphase : phase = .created ∨ phase = .top) :
    (newSubscription id ctxDone after limits replay phase).Inv limits := by
  have hflight : (newSubscription id ctxDone after limits replay phase).inFlight = none := by
    rcases hphase with rfl | rfl <;> rfl
  have hexit : (newSubscription id ctxDone after limits replay phase).exited = false := by
    rcases hphase with rfl | rfl <;> rfl
  have hrec : (newSubscription id ctxDone after limits replay phase).unrecorded = 0 := by
    rcases hphase with rfl | rfl <;> rfl
  exact { maxEvents := rfl, maxBytes := rfl, received := trivial, cursor := by rw [hrec]; rfl,
          queued := hseq, sized := hsized, bytes := rfl, length_le := hlen, bytes_le := hbytes,
          flying := fun e he => by simp [hflight] at he,
          failed := fun h => absurd rfl h, aborted := fun h => by simp [newSubscription] at h,
          exhausted := fun f hf => by simp [newSubscription] at hf,
          ended := fun h => by simp [hexit] at h }

section

variable (h : s.Inv limits)
include h

theorem Inv.terminate (hl : limits.Valid) {err : LogError}
    (herr : ∀ failure, err = .resourceExhausted failure → failure.lastDelivered = s.lastDelivered) :
    (s.terminate err).Inv limits := by
  unfold Subscription.terminate
  split_ifs with hterm
  · exact h
  · have hle := hl.subscriberEvents
    have hlb := hl.subscriberBytes
    exact { maxEvents := h.maxEvents, maxBytes := h.maxBytes, received := h.received,
            cursor := h.cursor, queued := trivial, sized := by simp [Sized], bytes := rfl,
            length_le := by simp only [length_nil]; omega, bytes_le := by simp only; omega,
            flying := fun e he => ⟨(h.flying e he).1, .inr ⟨rfl, by simp⟩⟩,
            failed := fun _ => ⟨rfl, rfl⟩, aborted := fun _ => by simp,
            exhausted := fun f hf => herr f (some.inj hf), ended := fun _ => rfl }

theorem Inv.finish : s.finish.Inv limits := by
  unfold Subscription.finish
  split_ifs with hterm
  · exact h
  · have hnone : s.err = none := by
      by_contra hsome
      exact hterm (h.failed hsome).1
    exact { h with
            flying := fun e he => by
              have hf := h.flying e he
              rw [hnone] at hf
              exact hf
            failed := fun hne => absurd rfl hne
            aborted := fun ha => absurd hnone (h.aborted ha)
            exhausted := nofun
            ended := fun _ => rfl }

theorem Inv.err_none (hterm : s.terminal = false) : s.err = none := by
  by_contra hsome
  rw [(h.failed hsome).1] at hterm
  cases hterm

/-- An offer extends the queue by the next entry or disconnects the subscriber at its cursor. -/
theorem Inv.offer (hl : limits.Valid) {entry : LogEntry}
    (hnext : s.terminal = false → entry.seq = s.reach + 1)
    (hsize : entry.bytes = entry.envelope.encodedSize) : (s.offer entry).1.Inv limits := by
  have hfull : ∀ resource limit observed,
      (s.terminate (s.exhausted resource limit observed)).Inv limits := by
    intro resource limit observed
    refine h.terminate hl fun failure hf => ?_
    cases hf
    rfl
  unfold Subscription.offer
  split_ifs with hterm hevents hbig
  · exact h
  · exact hfull _ _ _
  · exact hfull _ _ _
  · rw [Bool.not_eq_true] at hterm
    have hnone := h.err_none hterm
    have hlen := h.maxEvents
    have hmax := h.maxBytes
    have hbytes := h.bytes
    refine { h with queued := ?_, sized := ?_, bytes := ?_, length_le := ?_, bytes_le := ?_,
                    flying := ?_, failed := ?_ }
    · have hconcat := h.queued.concat
      rw [length_map, ← Subscription.reach, ← hnext hterm] at hconcat
      rw [map_append]
      exact hconcat
    · intro e he
      rcases mem_append.mp he with he | he
      · exact h.sized e he
      · rw [mem_singleton.mp he]
        exact hsize
    · simp only [totalBytes_append, totalBytes_cons, totalBytes_nil]
      omega
    · simp only [length_append, length_singleton]
      push_cast
      omega
    · simp only
      omega
    · intro e he
      obtain ⟨hseq, hhead | ⟨-, herr⟩⟩ := h.flying e he
      · exact ⟨hseq, .inl (by rw [head?_append, hhead]; rfl)⟩
      · exact absurd hnone herr
    · exact fun herr => absurd hnone herr

end

@[simp] theorem moveCursor_eq_none {err : Option LogError} {seq : ℕ} :
    moveCursor err seq = none ↔ err = none := by
  unfold moveCursor
  split <;> simp

theorem moveCursor_exhausted {err : Option LogError} {seq : ℕ} {failure : ResourceExhaustedError}
    (h : moveCursor err seq = some (.resourceExhausted failure)) : failure.lastDelivered = seq := by
  unfold moveCursor at h
  split at h
  · cases h
    rfl
  · next hne => exact absurd h (hne failure)

variable {e : LogEntry}

theorem Inv.record_eq (h : s.Inv limits) (he : s.inFlight = some e) :
    s.record e = { s with queue := s.queue.tail, queuedBytes := totalBytes s.queue.tail
                          lastDelivered := e.seq, err := moveCursor s.err e.seq } := by
  have hbytes := h.bytes
  unfold Subscription.record
  obtain ⟨-, hhead | ⟨hnil, -⟩⟩ := h.flying e he
  · cases hq : s.queue with
    | nil => simp [hq] at hhead
    | cons x rest =>
      obtain rfl : x = e := by simpa [hq] using hhead
      rw [hq, totalBytes_cons] at hbytes
      simp only [if_true, tail_cons, hbytes, add_sub_cancel_left]
  · rw [hnil, totalBytes_nil] at hbytes
    simp only [hnil, tail_nil, totalBytes_nil, ← hbytes]

theorem Inv.tail (h : s.Inv limits) :
    Consecutive (s.lastDelivered + 1) (s.queue.tail.map LogEntry.seq) ∧ Sized s.queue.tail ∧
      s.queue.tail.length ≤ s.queue.length ∧ totalBytes s.queue.tail ≤ s.queuedBytes := by
  have hq := h.queued
  have hs := h.sized
  rw [h.bytes]
  cases hqueue : s.queue with
  | nil => simp [Sized]
  | cons x rest =>
    rw [hqueue] at hq hs
    have hpos := hs.pos mem_cons_self
    refine ⟨hq.2, hs.of_cons, by simp, ?_⟩
    rw [tail_cons, totalBytes_cons]
    omega

theorem Inv.record (h : s.Inv limits) (he : s.phase = .sent e) :
    { s.record e with phase := .top }.Inv limits := by
  have hfly : s.inFlight = some e := by simp [inFlight, he]
  have hcur := h.cursor
  have hseq := (h.flying e hfly).1
  have hlen := h.length_le
  have hble := h.bytes_le
  obtain ⟨htail, hsized, htlen, htbytes⟩ := h.tail
  rw [show s.unrecorded = 1 by simp [unrecorded, he]] at hcur
  rw [h.record_eq hfly]
  exact
    { maxEvents := h.maxEvents, maxBytes := h.maxBytes, received := h.received
      cursor := by
        show e.seq + 0 = s.start + s.delivered.length
        omega
      queued := hseq ▸ htail
      sized := hsized, bytes := rfl, length_le := by simp only; omega
      bytes_le := by simp only; omega
      flying := nofun
      failed := fun herr => by
        have hold := h.failed fun hnone => herr (moveCursor_eq_none.mpr hnone)
        exact ⟨hold.1, by simp [hold.2]⟩
      aborted := fun ha hnone => h.aborted ha (moveCursor_eq_none.mp hnone)
      exhausted := fun failure hf => moveCursor_exhausted hf
      ended := nofun }

/-- The moves of the loop that leave the queue and the error alone. -/
inductive Moves (s : Subscription) : Phase → Prop
  | stay : Moves s s.phase
  | drained : s.phase = .top → s.queue = [] → s.terminal = true → Moves s .returned
  | take {e : LogEntry} : s.phase = .top → s.queue.head? = some e → Moves s (.sending e)
  | abort {e : LogEntry} : s.phase = .sending e → s.abort = true → Moves s .returned
  | cancel {e : LogEntry} : s.phase = .sending e → s.ctxDone = true → Moves s .cancelled
  | exit {phase : Phase} : s.exited = true → { s with phase := phase }.exited = true → Moves s phase

variable {action : Action}

/-- What one step of a goroutine can do: move, terminate with the context's error, hand an entry to
the consumer, or record it. -/
theorem step_cases (h : s.step action = some s') :
    (∃ ctxDone hook phase, s' = { s with ctxDone := ctxDone, hook := hook, phase := phase } ∧
      s.Moves phase) ∨
    (action = .contextTerminate ∧ s' = { s.terminate .context with hook := .stopped }) ∨
    (action = .ctxTerminate ∧ s.phase = .cancelled ∧
      s' = { s.terminate .context with phase := .returned }) ∨
    (∃ e, s.phase = .sending e ∧
      s' = { s with phase := .sent e, delivered := s.delivered ++ [e.envelope] }) ∨
    (∃ e, s.phase = .sent e ∧ s' = { s.record e with phase := .top }) := by
  cases action <;> simp only [Subscription.step] at h
  case cancel =>
    split at h
    · cases h
    · exact .inl ⟨true, _, s.phase, (some.inj h).symm, .stay⟩
  case contextTerminate =>
    split at h
    · exact .inr (.inl ⟨rfl, (some.inj h).symm⟩)
    · cases h
  case pick =>
    split at h
    · next htop =>
      split at h
      · next hnil =>
        split at h
        · next hterm =>
          exact .inl ⟨s.ctxDone, s.hook, _, (some.inj h).symm, .drained htop hnil hterm⟩
        · cases h
      · next e rest hcons =>
        exact .inl ⟨s.ctxDone, s.hook, _, (some.inj h).symm, .take htop (by rw [hcons]; rfl)⟩
    · cases h
  case abortExit =>
    split at h
    · next e hsending =>
      split at h
      · next ha => exact .inl ⟨s.ctxDone, s.hook, _, (some.inj h).symm, .abort hsending ha⟩
      · cases h
    · cases h
  case ctxExit =>
    split at h
    · next e hsending =>
      split at h
      · next hc => exact .inl ⟨s.ctxDone, s.hook, _, (some.inj h).symm, .cancel hsending hc⟩
      · cases h
    · cases h
  case ctxTerminate =>
    split at h
    · next hc => exact .inr (.inr (.inl ⟨rfl, hc, (some.inj h).symm⟩))
    · cases h
  case send =>
    split at h
    · next e hsending => exact .inr (.inr (.inr (.inl ⟨e, hsending, (some.inj h).symm⟩)))
    · cases h
  case record =>
    split at h
    · next e hsent => exact .inr (.inr (.inr (.inr ⟨e, hsent, (some.inj h).symm⟩)))
    · cases h
  case stopHook =>
    split at h
    · next hp =>
      exact .inl ⟨s.ctxDone, _, _, (some.inj h).symm, .exit (by simp [exited, hp]) rfl⟩
    · cases h
  case closeDone =>
    split at h
    · next hp =>
      exact .inl ⟨s.ctxDone, s.hook, _, (some.inj h).symm, .exit (by simp [exited, hp]) rfl⟩
    · cases h
  case closeEvents =>
    split at h
    · next hp =>
      exact .inl ⟨s.ctxDone, s.hook, _, (some.inj h).symm, .exit (by simp [exited, hp]) rfl⟩
    · cases h

theorem idle_of_exited (h : s.exited = true) : s.unrecorded = 0 ∧ s.inFlight = none := by
  unfold exited at h
  unfold unrecorded inFlight
  split at h <;> simp_all

/-- A move puts into flight only the head of the queue, and leaves the loop only of an ended
subscription. -/
theorem Inv.moves (h : s.Inv limits) {ctxDone : Bool} {hook : ContextHook} (hm : s.Moves phase) :
    { s with ctxDone := ctxDone, hook := hook, phase := phase }.Inv limits := by
  have hcur := h.cursor
  cases hm with
  | stay => exact { h with }
  | drained htop hnil hterm =>
    rw [show s.unrecorded = 0 by simp [unrecorded, htop]] at hcur
    exact { h with cursor := hcur, flying := nofun, ended := fun _ => hterm }
  | take htop hhead =>
    rw [show s.unrecorded = 0 by simp [unrecorded, htop]] at hcur
    refine { h with cursor := hcur, flying := fun x hx => ?_, ended := nofun }
    cases hx
    refine ⟨?_, .inl hhead⟩
    have hq := h.queued
    obtain ⟨rest, hrest⟩ := head?_eq_some_iff.mp hhead
    rw [hrest] at hq
    exact hq.1
  | abort hsending ha =>
    rw [show s.unrecorded = 0 by simp [unrecorded, hsending]] at hcur
    exact { h with cursor := hcur, flying := nofun,
                   ended := fun _ => (h.failed (h.aborted ha)).1 }
  | cancel hsending hc =>
    rw [show s.unrecorded = 0 by simp [unrecorded, hsending]] at hcur
    exact { h with cursor := hcur, flying := nofun,
                   ended := nofun }
  | exit hold hnew =>
    obtain ⟨hrec, -⟩ := idle_of_exited hold
    obtain ⟨hrec', hfly'⟩ := idle_of_exited hnew
    rw [hrec] at hcur
    refine { h with cursor := ?_, flying := fun e he => ?_, ended := fun _ => h.ended hold }
    · show s.lastDelivered + { s with phase := phase }.unrecorded = s.start + s.delivered.length
      rw [hrec']
      exact hcur
    · cases hfly'.symm.trans he

theorem Inv.send (h : s.Inv limits) (he : s.phase = .sending e) :
    { s with phase := .sent e, delivered := s.delivered ++ [e.envelope] }.Inv limits := by
  have hfly : s.inFlight = some e := by simp [inFlight, he]
  have hseq := (h.flying e hfly).1
  have hcur := h.cursor
  rw [show s.unrecorded = 0 by simp [unrecorded, he], add_zero] at hcur
  refine { h with received := ?_, cursor := ?_, flying := fun x hx => ?_,
                  ended := nofun }
  · have hconcat := h.received.concat
    rw [length_map, ← hcur, ← hseq] at hconcat
    rw [map_append]
    exact hconcat
  · show s.lastDelivered + 1 = s.start + (s.delivered ++ [e.envelope]).length
    rw [length_append, length_singleton]
    omega
  · cases hx
    exact h.flying e hfly

theorem Inv.step (h : s.Inv limits) (hl : limits.Valid) (hstep : s.step action = some s') :
    s'.Inv limits := by
  have hend : (s.terminate .context).Inv limits := h.terminate hl nofun
  rcases step_cases hstep with ⟨ctxDone, hook, phase, rfl, hm⟩ | ⟨-, rfl⟩ | ⟨-, hc, rfl⟩ |
    ⟨e, he, rfl⟩ | ⟨e, he, rfl⟩
  · exact h.moves hm
  · exact hend.moves .stay
  · have hterm : (s.terminate .context).terminal = true := by
      unfold Subscription.terminate
      split_ifs with ht
      · exact ht
      · rfl
    have hphase : (s.terminate .context).phase = .cancelled := by
      unfold Subscription.terminate
      split_ifs <;> exact hc
    have hcur := hend.cursor
    rw [show (s.terminate .context).unrecorded = 0 by simp [unrecorded, hphase]] at hcur
    exact { hend with cursor := hcur, flying := nofun, ended := fun _ => hterm }
  · exact h.send he
  · exact h.record he

/-- How far a subscription is queued survives the step, unless the step ends it with an error. -/
structure Stable (s s' : Subscription) : Prop where
  id : s'.id = s.id
  created : s.phase = .created → s'.phase = .created
  live : s'.terminal = false → s.terminal = false ∧ s'.reach = s.reach
  clean : s'.terminal = true → s'.err = none →
    s.terminal = true ∧ s.err = none ∧ s'.reach = s.reach

theorem terminate_stable (s : Subscription) (err : LogError) (hook : ContextHook)
    (hphase : s.phase = .created → phase = .created) :
    s.Stable { s.terminate err with hook := hook, phase := phase } := by
  unfold Subscription.terminate
  split_ifs with hterm
  · exact ⟨rfl, hphase, fun h => ⟨h, rfl⟩, fun h h' => ⟨h, h', rfl⟩⟩
  · exact ⟨rfl, hphase, fun h => Bool.noConfusion h, nofun⟩

theorem Inv.record_stable (h : s.Inv limits) (he : s.phase = .sent e) :
    s.Stable { s.record e with phase := .top } := by
  have hfly : s.inFlight = some e := by simp [inFlight, he]
  have hnew : s.phase = .created → Phase.top = .created := fun hp => by cases he.symm.trans hp
  obtain ⟨hseq, hhead | ⟨-, herr⟩⟩ := h.flying e hfly
  · have hreach : e.seq + s.queue.tail.length = s.reach := by
      obtain ⟨rest, hrest⟩ := head?_eq_some_iff.mp hhead
      rw [Subscription.reach, hrest, tail_cons, length_cons]
      omega
    rw [h.record_eq hfly]
    exact ⟨rfl, hnew, fun ht => ⟨ht, hreach⟩, fun ht hn => ⟨ht, moveCursor_eq_none.mp hn, hreach⟩⟩
  · have hterm := (h.failed herr).1
    rw [h.record_eq hfly]
    refine ⟨rfl, hnew, fun ht => ?_, fun _ hn => absurd (moveCursor_eq_none.mp hn) herr⟩
    cases hterm.symm.trans ht

theorem Moves.created (hm : s.Moves phase) (hp : s.phase = .created) : phase = .created := by
  cases hm with
  | stay => exact hp
  | drained h | take h | abort h | cancel h => cases hp.symm.trans h
  | exit h => simp [exited, hp] at h

theorem Inv.step_stable (h : s.Inv limits) (hstep : s.step action = some s') : s.Stable s' := by
  rcases step_cases hstep with ⟨ctxDone, hook, phase, rfl, hm⟩ | ⟨-, rfl⟩ | ⟨-, hc, rfl⟩ |
    ⟨e, he, rfl⟩ | ⟨e, he, rfl⟩
  · exact ⟨rfl, hm.created, fun ht => ⟨ht, rfl⟩, fun ht hn => ⟨ht, hn, rfl⟩⟩
  · refine s.terminate_stable .context .stopped fun hp => ?_
    unfold Subscription.terminate
    split_ifs <;> exact hp
  · exact s.terminate_stable .context (s.terminate .context).hook
      fun hp => by cases hc.symm.trans hp
  · exact ⟨rfl, fun hp => (by cases he.symm.trans hp), fun ht => ⟨ht, rfl⟩,
      fun ht hn => ⟨ht, hn, rfl⟩⟩
  · exact h.record_stable he

theorem finish_eq (s : Subscription) :
    s.finish.id = s.id ∧ s.finish.terminal = true ∧ s.finish.reach = s.reach ∧
      s.finish.phase = s.phase ∧
      (s.finish.err = none → s.terminal = false ∨ s.terminal = true ∧ s.err = none) := by
  unfold Subscription.finish
  split_ifs with hterm
  · exact ⟨rfl, hterm, rfl, rfl, fun h => .inr ⟨hterm, h⟩⟩
  · exact ⟨rfl, rfl, rfl, rfl, fun _ => .inl (by simpa using hterm)⟩

theorem offer_stable (s : Subscription) (entry : LogEntry) :
    (s.offer entry).1.id = s.id ∧
      ((s.offer entry).1.terminal = false →
        s.terminal = false ∧ (s.offer entry).1.reach = s.reach + 1) ∧
      ((s.offer entry).1.terminal = true → (s.offer entry).1.err = none →
        s.terminal = true ∧ s.err = none ∧ (s.offer entry).1.reach = s.reach) := by
  have hfull : ∀ err, s.terminal ≠ true → (s.terminate err).id = s.id ∧
      ((s.terminate err).terminal = false →
        s.terminal = false ∧ (s.terminate err).reach = s.reach + 1) ∧
      ((s.terminate err).terminal = true → (s.terminate err).err = none →
        s.terminal = true ∧ s.err = none ∧ (s.terminate err).reach = s.reach) := by
    intro err hterm
    rw [Subscription.terminate, if_neg hterm]
    exact ⟨rfl, fun h => Bool.noConfusion h, nofun⟩
  unfold Subscription.offer
  split_ifs with hterm hevents hbig
  · exact ⟨rfl, fun h => Bool.noConfusion (hterm.symm.trans h), fun h h' => ⟨h, h', rfl⟩⟩
  · exact hfull _ hterm
  · exact hfull _ hterm
  · refine ⟨rfl, fun h => ⟨h, ?_⟩, fun h _ => absurd h hterm⟩
    simp only [Subscription.reach, length_append, length_singleton]
    omega

/-! ## The stream -/

/-- The consumer's stream goes on from the same starting cursor. -/
structure Extends (s s' : Subscription) : Prop where
  start : s'.start = s.start
  delivered : s.delivered <+: s'.delivered

section

variable (s)

theorem Extends.refl : s.Extends s := ⟨rfl, prefix_rfl⟩

theorem terminate_extends (err : LogError) : s.Extends (s.terminate err) := by
  unfold Subscription.terminate
  split_ifs <;> exact ⟨rfl, prefix_rfl⟩

theorem finish_extends : s.Extends s.finish := by
  unfold Subscription.finish
  split_ifs <;> exact ⟨rfl, prefix_rfl⟩

theorem offer_extends (entry : LogEntry) : s.Extends (s.offer entry).1 := by
  unfold Subscription.offer
  split_ifs
  · exact .refl s
  · exact s.terminate_extends _
  · exact s.terminate_extends _
  · exact ⟨rfl, prefix_rfl⟩

theorem record_extends (e : LogEntry) : s.Extends (s.record e) := by
  unfold Subscription.record
  split
  · split_ifs <;> exact ⟨rfl, prefix_rfl⟩
  · exact ⟨rfl, prefix_rfl⟩

end

theorem step_extends (h : s.step action = some s') : s.Extends s' := by
  rcases step_cases h with ⟨ctxDone, hook, phase, rfl, -⟩ | ⟨-, rfl⟩ | ⟨-, -, rfl⟩ |
    ⟨e, -, rfl⟩ | ⟨e, -, rfl⟩
  · exact ⟨rfl, prefix_rfl⟩
  · exact ⟨(s.terminate_extends _).start, (s.terminate_extends _).delivered⟩
  · exact ⟨(s.terminate_extends _).start, (s.terminate_extends _).delivered⟩
  · exact ⟨rfl, prefix_append _ _⟩
  · exact ⟨(s.record_extends e).start, (s.record_extends e).delivered⟩

/-! ## Provenance -/

/-- Everything a subscription queues, sends or has delivered is among the given entries. -/
structure From (accepted : List LogEntry) (s : Subscription) : Prop where
  queue : s.queue ⊆ accepted
  inFlight : ∀ e, s.inFlight = some e → e ∈ accepted
  delivered : ∀ envelope ∈ s.delivered, ∃ e ∈ accepted, e.envelope = envelope

variable {accepted accepted' : List LogEntry}

theorem From.mono (h : s.From accepted) (hsub : accepted ⊆ accepted') : s.From accepted' :=
  ⟨fun _ he => hsub (h.queue he), fun e he => hsub (h.inFlight e he), fun x hx => by
    obtain ⟨e, he, hex⟩ := h.delivered x hx
    exact ⟨e, hsub he, hex⟩⟩

theorem from_new (accepted : List LogEntry) {replay : List LogEntry} (hsub : replay ⊆ accepted)
    (id : ℕ) (ctxDone : Bool) (after : ℕ) (limits : LogLimits)
    (hphase : phase = .created ∨ phase = .top) :
    (newSubscription id ctxDone after limits replay phase).From accepted := by
  refine ⟨hsub, fun e he => ?_, nofun⟩
  rcases hphase with rfl | rfl <;> cases he

variable (h : s.From accepted)
include h

theorem From.terminate (err : LogError) : (s.terminate err).From accepted := by
  unfold Subscription.terminate
  split_ifs
  · exact h
  · exact ⟨nil_subset _, h.inFlight, h.delivered⟩

theorem From.finish : s.finish.From accepted := by
  unfold Subscription.finish
  split_ifs
  · exact h
  · exact ⟨h.queue, h.inFlight, h.delivered⟩

theorem From.offer {entry : LogEntry} (he : entry ∈ accepted) :
    (s.offer entry).1.From accepted := by
  unfold Subscription.offer
  split_ifs
  · exact h
  · exact h.terminate _
  · exact h.terminate _
  · exact ⟨append_subset.mpr ⟨h.queue, by simpa using he⟩, h.inFlight, h.delivered⟩

theorem From.moves {ctxDone : Bool} {hook : ContextHook} (hm : s.Moves phase) :
    { s with ctxDone := ctxDone, hook := hook, phase := phase }.From accepted := by
  refine ⟨h.queue, fun e he => ?_, h.delivered⟩
  cases hm with
  | stay => exact h.inFlight e he
  | take _ hhead =>
    cases he
    exact h.queue (mem_of_mem_head? hhead)
  | drained | abort | cancel => cases he
  | exit _ hnew => exact absurd ((idle_of_exited hnew).2.symm.trans he) nofun

theorem From.step (hinv : s.Inv limits) (hstep : s.step action = some s') : s'.From accepted := by
  have hend := h.terminate .context
  rcases step_cases hstep with ⟨ctxDone, hook, phase, rfl, hm⟩ | ⟨-, rfl⟩ | ⟨-, hc, rfl⟩ |
    ⟨e, he, rfl⟩ | ⟨e, he, rfl⟩
  · exact h.moves hm
  · exact hend.moves .stay
  · exact ⟨hend.queue, nofun, hend.delivered⟩
  · have hfly : e ∈ accepted := h.inFlight e (by simp [Subscription.inFlight, he])
    refine ⟨h.queue, fun x hx => ?_, fun x hx => ?_⟩
    · exact some.inj hx ▸ hfly
    · rcases mem_append.mp hx with hx | hx
      · exact h.delivered x hx
      · exact ⟨e, hfly, (mem_singleton.mp hx).symm⟩
  · rw [hinv.record_eq (by simp [Subscription.inFlight, he])]
    exact ⟨fun x hx => h.queue (mem_of_mem_tail hx), nofun, h.delivered⟩

end Subscription

end SpiceAgent.Event
