import SpiceAgent.Daemon.PendingSteps

/-!
# Pending observation is a faithful replica

The contract of the hub's subscriptions over all runs: what a consumer has received is the log of
its client from its snapshot on, replaying it gives the pending set of every revision on the way,
and a fenced observer receives nothing more. `LastDelivered` is the revision that the consumer
received last, except between the receive and the call of `delivered`.
-/

namespace SpiceAgent.Daemon

open SpiceAgent.Lib List Finset Option System
open Function (update update_of_ne update_self)

namespace PendingHub

variable {hub hub' hub'' : PendingHub} {ref : ℕ} {watcher watcher' : Watcher} {client : String}

/-! ## What an operation leaves alone -/

/-- No goroutine of an observer moves, and the recorded views only grow. -/
structure Quiet (hub hub' : PendingHub) : Prop where
  watcherWG : hub'.watcherWG = hub.watcherWG
  closed : hub.closed → hub'.closed
  progress : ∀ ref,
    (hub'.watchers ref).map Watcher.progress = (hub.watchers ref).map Watcher.progress
  clients : hub.clients ⊆ hub'.clients
  views : ∀ c ∈ hub.clients, (hub.partition c).views <+: (hub'.partition c).views

theorem Quiet.refl (hub : PendingHub) : hub.Quiet hub :=
  ⟨rfl, id, fun _ => rfl, fun _ hc => hc, fun _ _ => prefix_rfl⟩

theorem Quiet.trans (h : hub.Quiet hub') (h' : hub'.Quiet hub'') : hub.Quiet hub'' where
  watcherWG := h'.watcherWG.trans h.watcherWG
  closed := h'.closed ∘ h.closed
  progress ref := (h'.progress ref).trans (h.progress ref)
  clients := h.clients.trans h'.clients
  views c hc := (h.views c hc).trans (h'.views c (h.clients hc))

theorem Aside.quiet (h : hub.Aside hub') : hub.Quiet hub' where
  watcherWG := h.watcherWG
  closed hc := h.closed ▸ hc
  progress := h.progress
  clients := h.clients ▸ Finset.Subset.refl _
  views c _ := h.views c ▸ prefix_rfl

theorem Quiet.of_same (hwg : hub'.watcherWG = hub.watcherWG) (hclosed : hub.closed → hub'.closed)
    (hwatchers : hub'.watchers = hub.watchers) (hclients : hub'.clients = hub.clients)
    (hviews : ∀ c, (hub'.partition c).views = (hub.partition c).views) : hub.Quiet hub' where
  watcherWG := hwg
  closed := hclosed
  progress ref := by rw [hwatchers]
  clients := hclients ▸ Finset.Subset.refl _
  views c _ := hviews c ▸ prefix_rfl

theorem PendingStep.quiet {q : AList fun _ : PendingKey => ℕ} (hs : hub.PendingStep hub' client q) :
    hub.Quiet hub' where
  watcherWG := hs.watcherWG
  closed h := hs.closed ▸ h
  progress ref := by rw [hs.watchers]
  clients := hs.clients ▸ Finset.Subset.refl _
  views c _ := by
    rcases eq_or_ne c client with rfl | hne
    · rw [hs.here.views]
    · rw [hs.elsewhere c hne]

theorem publish_quiet (hub : PendingHub) (client : String) (kind : DeltaKind) (pending : Pending) :
    hub.Quiet (hub.publish client kind pending) := by
  have hpublished : hub.Quiet (hub.setPartition client (hub.published client kind pending)) := by
    refine ⟨rfl, id, fun _ => rfl, Finset.Subset.refl _, fun c _ => ?_⟩
    rcases eq_or_ne c client with rfl | hne
    · rw [setPartition_self]
      exact prefix_append ..
    · rw [setPartition_ne _ hne]
  exact hpublished.trans (publish_aside ..).quiet

theorem createPartition_quiet (hc : hub.createPartition client = some hub') : hub.Quiet hub' := by
  unfold createPartition at hc
  split_ifs at hc with hin hfull
  · cases hc
    exact .refl hub
  · cases hc
    refine ⟨rfl, id, fun _ => rfl, subset_insert .., fun c hknown => ?_⟩
    have hne : c ≠ client := by
      rintro rfl
      exact hin hknown
    show _ <+: ((hub.setPartition client .new).partition c).views
    rw [setPartition_ne _ hne]

theorem setPartition_views {p : Partition} (hp : p.views = (hub.partition client).views)
    (c : String) : ((hub.setPartition client p).partition c).views = (hub.partition c).views := by
  rcases eq_or_ne c client with rfl | hne
  · rw [setPartition_self, hp]
  · rw [setPartition_ne _ hne]

variable {allowed : Pending → Prop}

theorem Edit.quiet (h : hub.Edit allowed hub') : hub.Quiet hub' := by
  cases h with
  | shut => exact .of_same rfl (fun _ => rfl) rfl rfl fun _ => rfl
  | stopAccepting ref => exact (hub.stopAccepting_aside ref).quiet
  | release ref binding hbinding =>
    exact (setBinding_aside { binding with accepting := false, once := true } hbinding rfl).quiet
  | removeReleasedBinding ref => exact (hub.removeReleasedBinding_aside ref).quiet
  | createPartition client hcreate => exact createPartition_quiet hcreate
  | bind ref client runID _ => exact .of_same rfl id rfl rfl (setPartition_views rfl)
  | openCall ref binding state value hfresh hadmits _ =>
    exact (recorded_step value hadmits.binding hfresh).quiet.trans (publish_quiet ..)
  | finishCall client key ref call result _ hcall =>
    exact ((settled_step client hcall key result).quiet.trans (publish_quiet ..)).trans
      (removeReleasedBinding_aside ..).quiet
  | closeDone ref call _ => exact .of_same rfl id rfl rfl fun _ => rfl
  | finishWatcher ref err exhausted => exact (hub.finishWatcher_aside ref err exhausted).quiet

theorem Edits.quiet (h : hub.Edits allowed hub') : hub.Quiet hub' := by
  induction h with
  | refl => exact .refl hub
  | tail _ hedit ih => exact ih.trans hedit.quiet

theorem close_closed (hub : PendingHub) : hub.close.1.closed :=
  (show Edits (fun _ => True) _ _ from closed_edits hub).quiet.closed rfl

/-! ## The goroutines that run -/

/-- `watcherWG` counts the goroutines that have not ended. -/
def Running (hub : PendingHub) : Prop :=
  ∃ refs : Finset ℕ, refs.card = hub.watcherWG ∧
    ∀ ref, ref ∈ refs ↔ ∃ watcher, hub.watchers ref = some watcher ∧ watcher.phase ≠ .gone

theorem Quiet.watcher_new (h : hub.Quiet hub') (hw : hub.watchers ref = some watcher) :
    ∃ watcher', hub'.watchers ref = some watcher' ∧ watcher'.progress = watcher.progress := by
  have hp := h.progress ref
  rw [hw, map_some] at hp
  exact map_eq_some_iff.mp hp

theorem Quiet.watcher_old (h : hub.Quiet hub') (hw : hub'.watchers ref = some watcher') :
    ∃ watcher, hub.watchers ref = some watcher ∧ watcher.progress = watcher'.progress := by
  have hp := h.progress ref
  rw [hw, map_some] at hp
  exact map_eq_some_iff.mp hp.symm

theorem phase_of_progress (h : watcher'.progress = watcher.progress) : watcher'.phase =
    watcher.phase :=
  congrArg (·.2.2.1) h

theorem Running.quiet (h : hub.Running) (hq : hub.Quiet hub') : hub'.Running := by
  obtain ⟨refs, hcard, hrefs⟩ := h
  refine ⟨refs, hcard.trans hq.watcherWG.symm, fun ref => (hrefs ref).trans ⟨?_, ?_⟩⟩
  · rintro ⟨watcher, hw, hphase⟩
    obtain ⟨watcher', hw', hp⟩ := hq.watcher_new hw
    exact ⟨watcher', hw', phase_of_progress hp ▸ hphase⟩
  · rintro ⟨watcher', hw', hphase⟩
    obtain ⟨watcher, hw, hp⟩ := hq.watcher_old hw'
    exact ⟨watcher, hw, phase_of_progress hp ▸ hphase⟩

/-- What one step does to the hub. -/
inductive Move (hub : PendingHub) : PendingHub → Prop
  | quiet {hub' : PendingHub} (h : hub.Quiet hub') : Move hub hub'
  /-- A subscription begins. -/
  | join {hub' : PendingHub} (h : hub.Quiet hub') (ref : ℕ) (client : String)
      (href : hub'.watchers ref = none)
      (hclosed : hub.closed = false) : Move hub (hub'.register ref client)
  /-- The goroutine of an observer goes on. -/
  | deliver {hub' : PendingHub} (ref : ℕ) (watcher watcher' : Watcher)
      (hw : hub.watchers ref = some watcher)
      (hwatchers : hub'.watchers = update hub.watchers ref (some watcher'))
      (hclients : hub'.clients = hub.clients)
      (hviews : ∀ c, (hub'.partition c).views = (hub.partition c).views)
      (hclosed : hub'.closed = hub.closed) (hrunning : watcher.phase ≠ .gone)
      (hwg : hub'.watcherWG =
        if watcher'.phase = .gone then hub.watcherWG - 1 else hub.watcherWG)
      (hdone : watcher.done → watcher'.done ∧ watcher'.received = watcher.received) : Move hub hub'

theorem Running.move (h : hub.Running) (hm : hub.Move hub') : hub'.Running := by
  cases hm with
  | quiet hq => exact h.quiet hq
  | join hq ref client href hclosed =>
    obtain ⟨refs, hcard, hrefs⟩ := h.quiet hq
    have hnew : ref ∉ refs := by
      rw [hrefs, href]
      rintro ⟨_, hnone, -⟩
      cases hnone
    refine ⟨insert ref refs, ?_, fun i => ?_⟩
    · rw [card_insert_of_notMem hnew, hcard]
      rfl
    · rw [mem_insert, hrefs, register_watchers]
      rcases eq_or_ne i ref with rfl | hne
      · rw [update_self]
        exact ⟨fun _ => ⟨_, rfl, nofun⟩, fun _ => .inl rfl⟩
      · rw [update_of_ne hne]
        exact ⟨fun hi => hi.resolve_left hne, .inr⟩
  | deliver ref watcher watcher' hw hwatchers _ _ _ hrunning hwg _ =>
    obtain ⟨refs, hcard, hrefs⟩ := h
    have hin : ref ∈ refs := (hrefs ref).mpr ⟨watcher, hw, hrunning⟩
    by_cases hgone : watcher'.phase = .gone
    · refine ⟨refs.erase ref, ?_, fun i => ?_⟩
      · rw [card_erase_of_mem hin, hcard, hwg, if_pos hgone]
      · rw [mem_erase, hrefs, hwatchers]
        rcases eq_or_ne i ref with rfl | hne
        · rw [update_self]
          refine ⟨fun hi => absurd rfl hi.1, ?_⟩
          rintro ⟨w, hsome, hphase⟩
          exact absurd hgone (some.inj hsome ▸ hphase)
        · rw [update_of_ne hne]
          exact ⟨fun hi => hi.2, fun hi => ⟨hne, hi⟩⟩
    · refine ⟨refs, ?_, fun i => ?_⟩
      · rw [hcard, hwg, if_neg hgone]
      · rw [hrefs, hwatchers]
        rcases eq_or_ne i ref with rfl | hne
        · rw [update_self]
          exact ⟨fun _ => ⟨watcher', rfl, hgone⟩, fun _ => ⟨watcher, hw, hrunning⟩⟩
        · rw [update_of_ne hne]

theorem Move.closed (hm : hub.Move hub') (h : hub.closed) : hub'.closed := by
  cases hm with
  | quiet hq => exact hq.closed h
  | join hq ref client href hclosed => exact hq.closed h
  | deliver ref _ _ _ _ _ _ hclosed _ _ _ => exact hclosed ▸ h

theorem Move.views (hm : hub.Move hub') {c : String} (hc : c ∈ hub.clients) :
    c ∈ hub'.clients ∧ (hub.partition c).views <+: (hub'.partition c).views := by
  cases hm with
  | quiet hq => exact ⟨hq.clients hc, hq.views c hc⟩
  | @join hub' hq ref client href hclosed =>
    refine ⟨hq.clients hc, (hq.views c hc).trans ?_⟩
    rcases eq_or_ne c client with rfl | hne
    · rw [register_partition_self]
      exact prefix_rfl
    · rw [register_partition_ne hub' ref hne]
  | deliver ref _ _ _ _ hclients hviews _ _ _ _ =>
    exact ⟨hclients ▸ hc, hviews c ▸ prefix_rfl⟩

section

variable (hw : hub.watchers ref = some watcher)
include hw

/-- An observer stays, and once its channels are closed its consumer receives nothing more. -/
theorem Move.watcher_new (hm : hub.Move hub') :
    ∃ watcher', hub'.watchers ref = some watcher' ∧
      (watcher.done → watcher'.done ∧ watcher'.received = watcher.received) := by
  cases hm with
  | quiet hq =>
    obtain ⟨watcher', hw', hp⟩ := hq.watcher_new hw
    exact ⟨watcher', hw', fun hdone =>
      ⟨(congrArg (·.2.2.2.2) hp).trans hdone, congrArg (·.2.2.2.1) hp⟩⟩
  | join hq i client href hclosed =>
    obtain ⟨watcher', hw', hp⟩ := hq.watcher_new hw
    have hne : ref ≠ i := by
      rintro rfl
      rw [href] at hw'
      cases hw'
    refine ⟨watcher', ?_, fun hdone =>
      ⟨(congrArg (·.2.2.2.2) hp).trans hdone, congrArg (·.2.2.2.1) hp⟩⟩
    rw [register_watchers, update_of_ne hne, hw']
  | deliver i w w' hi hwatchers _ _ _ _ _ hdone =>
    rw [hwatchers]
    rcases eq_or_ne ref i with rfl | hne
    · cases hi.symm.trans hw
      exact ⟨w', update_self .., hdone⟩
    · exact ⟨watcher, by rw [update_of_ne hne, hw], fun h => ⟨h, rfl⟩⟩

theorem delivered_move {item : QueuedDelta} (hphase : watcher.phase = .sent item)
    (hdone : watcher.done = false) : hub.Move (hub.delivered ref watcher item) := by
  have hrunning : watcher.phase ≠ .gone := by simp [hphase]
  unfold delivered
  dsimp only
  split_ifs
  · exact .deliver ref watcher _ hw rfl rfl (fun _ => rfl) rfl hrunning rfl fun h => by
      simp [hdone] at h
  · exact .deliver ref watcher _ hw rfl rfl (setPartition_views rfl) rfl hrunning rfl fun h => by
      simp [hdone] at h

theorem Delivery.move (hd : hub.Delivery ref watcher hub') (h : hub.Inv) : hub.Move hub' := by
  have hdone := (h.owing.watchers ref watcher hw).done
  -- in the first four phases the channels are open
  have hset : ∀ watcher' : Watcher, watcher.phase ≠ .gone → watcher'.phase ≠ .gone →
      watcher.ended = false → hub.Move (hub.setWatcher ref watcher') :=
    fun watcher' hold hnew hended => .deliver ref watcher watcher' hw rfl rfl
      (fun _ => rfl) rfl hold (if_neg hnew).symm fun hd => by simp [hdone, hended] at hd
  cases hd with
  | leave _ hphase =>
    rcases hphase with hphase | ⟨item, hphase⟩ <;>
      exact hset _ (by simp [hphase]) (by simp) (by simp [Watcher.ended, hphase])
  | take item rest hphase _ =>
    exact hset _ (by simp [hphase]) (by simp) (by simp [Watcher.ended, hphase])
  | send item hphase => exact hset _ (by simp [hphase]) (by simp) (by simp [Watcher.ended, hphase])
  | delivered item hphase =>
    refine delivered_move hw hphase ?_
    rw [hdone]
    simp [Watcher.ended, hphase]
  | discard hphase => exact hset _ (by simp [hphase]) (by simp) (by simp [Watcher.ended, hphase])
  | stopped hphase =>
    exact .deliver ref watcher { watcher with phase := .gone } hw rfl rfl
      (setPartition_views rfl) rfl (by simp [hphase]) (if_pos rfl).symm fun hd => ⟨hd, rfl⟩

end

theorem Turn.move (ht : hub.Turn allowed hub') (h : hub.Inv) : hub.Move hub' := by
  cases ht with
  | edits he => exact .quiet he.quiet
  | join ref client hopen hcreate hfresh =>
    exact .join (createPartition_quiet hcreate) ref client hfresh hopen
  | deliver ref watcher hw hd => exact hd.move hw h

end PendingHub

namespace PendingWorld

variable {isJson : List UInt8 → Bool} {w w' : PendingWorld} {ref : ℕ} {watcher : Watcher}

/-! ## The invariant of the system -/

/-- The invariant of the system. -/
structure Inv (w : PendingWorld) : Prop where
  hub : w.hub.Inv
  running : w.hub.Running
  closed : w.closing ≠ .notCalled → w.hub.closed
  finished : w.closing = .finished → w.hub.watcherWG = 0
  fences : ∀ id, w.fences id = some (.refused .closed) → w.closing = .finished

theorem init_inv (isJson : List UInt8 → Bool) (limits : PendingLimits) :
    (pendingSystem isJson limits).init.Inv where
  hub := ⟨⟨PendingHub.partitionOk_new _, fun _ _ h => by cases h⟩, fun _ => rfl⟩
  running :=
    ⟨∅, rfl, fun ref => ⟨fun h => absurd h (notMem_empty ref), fun ⟨_, h, _⟩ => by cases h⟩⟩
  closed h := absurd rfl h
  finished h := by cases h
  fences _ h := by cases h

theorem Inv.joined (h : w.Inv) {hub' : PendingHub} (hm : w.hub.Move hub')
    (hfinished : w.closing = .finished) : hub'.watcherWG = 0 := by
  have hzero := h.finished hfinished
  have hclosed := h.closed (by rw [hfinished]; nofun)
  cases hm with
  | quiet hq => rw [hq.watcherWG, hzero]
  | join hq ref client href hopen => simp [hopen] at hclosed
  | deliver ref watcher _ hw _ _ _ _ hrunning _ _ =>
    obtain ⟨refs, hcard, hrefs⟩ := h.running
    rw [hzero, card_eq_zero] at hcard
    have hin := (hrefs ref).mpr ⟨watcher, hw, hrunning⟩
    rw [hcard] at hin
    exact absurd hin (notMem_empty ref)

variable {id : ℕ}

theorem stepFence_rest {fence : Fence} (hstep : w.stepFence id fence = some w') :
    w'.closing = w.closing ∧ ∃ fence',
      w'.fences = update w.fences id (some fence') ∧
        (fence' = .refused .closed → w.closing = .finished) := by
  unfold stepFence at hstep
  split at hstep
  · split_ifs at hstep
    cases hstep
    exact ⟨rfl, _, rfl, nofun⟩
  · split_ifs at hstep with hfinished
    cases hstep
    exact ⟨rfl, _, rfl, fun _ => hfinished⟩
  · cases hstep
  · cases hstep

theorem beginFence_rest (w : PendingWorld) (id : ℕ) (client : String) :
    (w.beginFence id client).closing = w.closing ∧ ∃ fence,
      (w.beginFence id client).fences = update w.fences id (some fence) ∧
        fence ≠ .refused .closed := by
  unfold beginFence
  split
  · exact ⟨rfl, _, rfl, nofun⟩
  split_ifs
  · exact ⟨rfl, _, rfl, nofun⟩
  · exact ⟨rfl, _, rfl, nofun⟩
  · exact ⟨rfl, _, rfl, nofun⟩

theorem stepClose_rest (hstep : w.stepClose = some w') :
    w'.fences = w.fences ∧ (w.closing = .notCalled → w'.hub.closed) ∧ w.closing ≠ .finished ∧
      (w'.closing = .finished → w'.hub.watcherWG = 0) := by
  unfold stepClose at hstep
  split at hstep
  next hphase =>
    cases hstep
    exact ⟨rfl, fun _ => w.hub.close_closed, by simp [hphase], nofun⟩
  next hphase =>
    cases hstep
    exact ⟨rfl, by simp [hphase], by simp [hphase], nofun⟩
  next ref rest hphase =>
    cases hstep
    exact ⟨(w.closeDone_rest ref).2, by simp [hphase], by simp [hphase], nofun⟩
  next hphase =>
    split_ifs at hstep with hzero
    cases hstep
    exact ⟨rfl, by simp [hphase], by simp [hphase], fun _ => hzero⟩
  · cases hstep

theorem Inv.setFence (h : w.Inv) {fence : Fence}
    (hfences : w'.fences = update w.fences id (some fence))
    (hrefused : fence = .refused .closed → w.closing = .finished) (i : ℕ)
    (hf : w'.fences i = some (.refused .closed)) : w.closing = .finished := by
  rw [hfences] at hf
  rcases eq_or_ne i id with rfl | hi
  · rw [update_self] at hf
    exact hrefused (some.inj hf)
  · rw [update_of_ne hi] at hf
    exact h.fences i hf

theorem Inv.step (h : w.Inv) {l : Label} (hstep : w.step isJson l = some w') :
    w'.Inv ∧ w.hub.Move w'.hub := by
  obtain ⟨hturn, hrest⟩ := step_turn hstep
  have hmove := hturn.move h.hub
  refine ⟨?_, hmove⟩
  have hkeep : w'.closing = w.closing →
      (∀ id, w'.fences id = some (.refused .closed) → w.closing = .finished) → w'.Inv :=
    fun hclosing hfences => ⟨hturn.inv h.hub, h.running.move hmove,
      fun hc => hmove.closed (h.closed (hclosing ▸ hc)), fun hc => h.joined hmove (hclosing ▸ hc),
      fun id hf => hclosing ▸ hfences id hf⟩
  cases hrest with
  | same hclosing hfences => exact hkeep hclosing fun id hf => h.fences id (hfences ▸ hf)
  | fence id client _ heq =>
    subst heq
    obtain ⟨hclosing, fence, hfences, hne⟩ := w.beginFence_rest id client
    exact hkeep hclosing (h.setFence hfences fun heq => absurd heq hne)
  | runFence id fence _ hgo =>
    obtain ⟨hclosing, fence', hfences, hrefused⟩ := stepFence_rest hgo
    exact hkeep hclosing (h.setFence hfences hrefused)
  | close hgo =>
    obtain ⟨hfences, hclosed, hnot, hzero⟩ := stepClose_rest hgo
    refine ⟨hturn.inv h.hub, h.running.move hmove, fun _ => ?_, hzero, fun id hf => ?_⟩
    · by_cases hc : w.closing = .notCalled
      · exact hclosed hc
      · exact hmove.closed (h.closed hc)
    · exact absurd (h.fences id (hfences ▸ hf)) hnot

variable {limits : PendingLimits}

theorem reachable_inv (h : (pendingSystem isJson limits).Reachable w) : w.Inv :=
  h.invariant (init_inv isJson limits) fun _ hinv hstep => (Inv.step hinv hstep).1

/-! ## Fences -/

/-- What a call of `FenceObservers` guarantees of an observer that it found. -/
def FencedBy (w : PendingWorld) (id ref : ℕ) : Prop :=
  ∃ watcher fence, w.hub.watchers ref = some watcher ∧ w.fences id = some fence ∧
    match fence with
    | .waiting _ watchers => watcher.done ∨ ref ∈ watchers
    | .closed => True
    | .returned _ _ => watcher.done
    | .refused err => err = .closed → watcher.done

variable (h : w.Inv)
include h

/-- `FenceObservers` finds every observer of the client whose goroutine still runs. -/
theorem Inv.fencedBy (hw : w.hub.watchers ref = some watcher) (id : ℕ) :
    (w.beginFence id watcher.client).FencedBy id ref := by
  have hok := h.hub.owing.watchers ref watcher hw
  have hself : ∀ (w : PendingWorld) fence, (w.setFence id fence).fences id = some fence :=
    fun w fence => update_self ..
  unfold beginFence
  split
  · exact ⟨watcher, _, hw, hself .., nofun⟩
  split_ifs with hclosed hknown
  · exact ⟨watcher, _, hw, hself .., trivial⟩
  · obtain ⟨watcher', hw', hp⟩ :=
      (w.hub.finishWatchers_aside watcher.client .fenced).quiet.watcher_new hw
    refine ⟨watcher', _, hw', hself .., ?_⟩
    rcases hok.stopping with hactive | hstopping | hgone
    · have hl := hok.registered hactive
      refine .inr (mem_append_right _ (mem_map.mpr ⟨⟨watcher.id, ref⟩, ?_, rfl⟩))
      exact AList.mem_lookup_iff.mp hl
    · exact .inr (mem_append_left _ hstopping)
    · refine .inl ((congrArg (·.2.2.2.2) hp).trans ?_)
      show watcher.done = true
      rw [hok.done]
      simp [Watcher.ended, hgone]
  · exact absurd hok.known hknown

theorem Inv.ended_of_finished (hfinished : w.closing = .finished)
    (hw : w.hub.watchers ref = some watcher) : watcher.done := by
  obtain ⟨refs, hcard, hrefs⟩ := h.running
  rw [h.finished hfinished, card_eq_zero] at hcard
  have hgone : watcher.phase = .gone := by
    by_contra hne
    have hin := (hrefs ref).mpr ⟨watcher, hw, hne⟩
    rw [hcard] at hin
    exact absurd hin (notMem_empty ref)
  rw [(h.hub.owing.watchers ref watcher hw).done]
  simp [Watcher.ended, hgone]

theorem FencedBy.step (hf : w.FencedBy id ref) {l : Label}
    (hstep : w.step isJson l = some w') : w'.FencedBy id ref := by
  obtain ⟨watcher, fence, hw, hfence, hkept⟩ := hf
  obtain ⟨watcher', hw', hdone⟩ := (h.step hstep).2.watcher_new hw
  have hsame : w'.fences id = some fence → w'.FencedBy id ref := fun hfence' => by
    refine ⟨watcher', fence, hw', hfence', ?_⟩
    cases fence with
    | waiting client watchers => exact hkept.imp_left fun hd => (hdone hd).1
    | closed => trivial
    | returned client watchers => exact (hdone hkept).1
    | refused err => exact fun herr => (hdone (hkept herr)).1
  cases (step_turn hstep).2 with
  | same _ hfences => exact hsame (hfences ▸ hfence)
  | fence i client hnone heq =>
    subst heq
    obtain ⟨-, f, hfences, -⟩ := w.beginFence_rest i client
    have hne : id ≠ i := by
      rintro rfl
      rw [hnone] at hfence
      cases hfence
    exact hsame (by rw [hfences, update_of_ne hne, hfence])
  | runFence i f hi hgo =>
    rcases eq_or_ne id i with rfl | hne
    · cases hfence.symm.trans hi
      cases fence with
      | waiting client watchers =>
        simp only [stepFence] at hgo
        split_ifs at hgo with hall
        cases hgo
        refine ⟨watcher, _, hw, update_self .., hkept.elim (·) fun hin => ?_⟩
        have hended := all_eq_true.mp hall ref hin
        rwa [hasEnded, hw] at hended
      | closed =>
        simp only [stepFence] at hgo
        split_ifs at hgo with hfinished
        cases hgo
        exact ⟨watcher, _, hw, update_self .., fun _ => h.ended_of_finished hfinished hw⟩
      | returned client watchers => cases hgo
      | refused err => cases hgo
    · obtain ⟨-, f', hfences, -⟩ := stepFence_rest hgo
      exact hsame (by rw [hfences, update_of_ne hne, hfence])
  | close hgo => exact hsame ((stepClose_rest hgo).1 ▸ hfence)

variable {ls : List Label}

theorem FencedBy.run (hf : w.FencedBy id ref)
    (hrun : (pendingSystem isJson limits).run w ls = some w') : w'.Inv ∧ w'.FencedBy id ref :=
  run_invariant (I := fun w => w.Inv ∧ w.FencedBy id ref)
    (fun hi hstep => ⟨(hi.1.step hstep).1, hi.2.step hi.1 hstep⟩) hrun ⟨h, hf⟩

theorem Inv.received_run (hw : w.hub.watchers ref = some watcher) (hdone : watcher.done)
    (hrun : (pendingSystem isJson limits).run w ls = some w') :
    ∃ watcher', w'.hub.watchers ref = some watcher' ∧ watcher'.received = watcher.received := by
  have hkept := run_invariant
    (I := fun w => w.Inv ∧ ∃ watcher', w.hub.watchers ref = some watcher' ∧ watcher'.done ∧
      watcher'.received = watcher.received) ?_ hrun ⟨h, watcher, hw, hdone, rfl⟩
  · obtain ⟨-, watcher', hw', -, heq⟩ := hkept
    exact ⟨watcher', hw', heq⟩
  · rintro v l v' ⟨hv, watcher₁, hw₁, hdone₁, heq₁⟩ hstep
    obtain ⟨hinv, hmove⟩ := hv.step hstep
    obtain ⟨watcher₂, hw₂, hkept⟩ := hmove.watcher_new hw₁
    exact ⟨hinv, watcher₂, hw₂, (hkept hdone₁).1, (hkept hdone₁).2.trans heq₁⟩

theorem Inv.views_run {client : String} (hc : client ∈ w.hub.clients)
    (hrun : (pendingSystem isJson limits).run w ls = some w') :
    (w.hub.partition client).views <+: (w'.hub.partition client).views := by
  refine (run_invariant (I := fun v => v.Inv ∧ client ∈ v.hub.clients ∧
    (w.hub.partition client).views <+: (v.hub.partition client).views)
    (fun {v _ _} hi hstep => ?_) hrun ⟨h, hc, prefix_rfl⟩).2.2
  obtain ⟨hinv, hmove⟩ := hi.1.step hstep
  obtain ⟨hc', hviews⟩ := hmove.views hi.2.1
  exact ⟨hinv, hc', hi.2.2.trans hviews⟩

end PendingWorld

/-! ## The contract -/

/-- What the consumer of a subscription can rely on. -/
structure Watcher.Replica (watcher : Watcher) (hub : PendingHub) : Prop where
  /-- The deltas are those of the client's own log, right after the snapshot. -/
  log : watcher.received <+: (hub.partition watcher.client).log.drop watcher.snapshot.revision
  own : ∀ d ∈ watcher.received, ∃ call, hub.CallOf watcher.client call d.pending
  revisions : watcher.received.map (·.revision) =
    range' (watcher.snapshot.revision + 1) watcher.received.length
  /-- Replaying the first `k` deltas gives the pending set `k` revisions after the snapshot. -/
  replay : ∀ k ≤ watcher.received.length,
    (hub.partition watcher.client).views[watcher.snapshot.revision + k]? =
      some ((watcher.received.take k).foldl Delta.apply watcher.snapshot.set)
  exhausted : ∀ resource limit observed lastDelivered,
    watcher.wait = some (.exhausted resource limit observed lastDelivered) →
      lastDelivered = watcher.lastReceived

namespace PendingHub

variable {hub : PendingHub} {ref : ℕ} {watcher : Watcher}

theorem WatcherOk.cursor_iff (h : hub.WatcherOk ref watcher []) :
    watcher.lastDelivered = watcher.lastReceived ↔ ∀ item, watcher.phase ≠ .sent item := by
  have hcursor := h.cursor
  unfold Watcher.CursorOk at hcursor
  split at hcursor
  next item hphase =>
    refine ⟨fun heq => ?_, fun hnot => absurd hphase (hnot item)⟩
    rw [Watcher.lastReceived, hcursor.1] at heq
    have hnext := hcursor.2
    simp only [map_some, getD_some] at heq
    omega
  next hnot => exact ⟨fun _ item hphase => hnot item hphase, fun _ => hcursor⟩

theorem Inv.replica (h : hub.Inv) (hw : hub.watchers ref = some watcher) : watcher.Replica hub := by
  have hok := h.owing.watchers ref watcher hw
  have hp := h.owing.partitions watcher.client
  have hlog := (received_begins watcher).trans hok.ended
  refine ⟨hlog, fun d hd => ?_, ?_, fun k hk => ?_, fun resource limit observed last hwait => ?_⟩
  · exact hp.owned d (mem_of_mem_drop (hlog.subset hd))
  · refine ext_getElem (by simp) fun i hi hi' => ?_
    rw [getElem_map, getElem_range']
    have hi : i < watcher.received.length := by simpa using hi
    rw [hp.numbered_drop hlog (getElem?_eq_getElem hi)]
    omega
  · have hlen := hlog.length_le
    rw [length_drop] at hlen
    have hrev := hok.revision
    have htake : watcher.received.take k =
        ((hub.partition watcher.client).log.drop watcher.snapshot.revision).take k := by
      rw [prefix_iff_eq_take.mp hlog, take_take, Nat.min_eq_left hk]
    rw [htake]
    exact hp.follows.fold hok.snapshot (by omega)
  · have hdone : watcher.done := by
      unfold Watcher.wait at hwait
      split_ifs at hwait with hd
      exact hd
    have hnot : ∀ item, watcher.phase ≠ .sent item := fun item hphase => by
      rw [hok.done] at hdone
      simp [Watcher.ended, hphase] at hdone
    rw [← hok.cursor_iff.mpr hnot]
    simp only [Watcher.wait, hdone, if_true, some.injEq, Watcher.terminalError] at hwait
    split_ifs at hwait
    split at hwait
    · exact (Terminal.exhausted.inj hwait).2.2.2.symm
    · cases hwait

end PendingHub

/-- In every state of every run the recorded views have the pending set of every client at its
revision and are only added to, every observer is a replica of its client's pending set, its
`LastDelivered` is the revision that the consumer received last unless `delivered` has yet to run
for it, and an observer that `FenceObservers` found receives nothing after it has returned. -/
theorem pending_replica (isJson : List UInt8 → Bool) (limits : PendingLimits) {w : PendingWorld}
    (hw : (pendingSystem isJson limits).Reachable w) :
    (∀ client, (w.hub.partition client).views[(w.hub.partition client).revision]? =
      some (w.hub.view client)) ∧
    (∀ client ∈ w.hub.clients, ∀ ls w', (pendingSystem isJson limits).run w ls = some w' →
      (w.hub.partition client).views <+: (w'.hub.partition client).views) ∧
    (∀ ref watcher, w.hub.watchers ref = some watcher →
      watcher.Replica w.hub ∧
        (watcher.lastDelivered = watcher.lastReceived ↔ ∀ item, watcher.phase ≠ .sent item)) ∧
    ∀ id ref watcher w₁ ls w₂ ls' w₃, w.hub.watchers ref = some watcher →
      w.step isJson (.fence id watcher.client) = some w₁ →
      (pendingSystem isJson limits).run w₁ ls = some w₂ →
      ((∃ watchers, w₂.fences id = some (.returned watcher.client watchers)) ∨
        w₂.fences id = some (.refused .closed)) →
      (pendingSystem isJson limits).run w₂ ls' = some w₃ →
      ∃ watcher₂ watcher₃, w₂.hub.watchers ref = some watcher₂ ∧
        w₃.hub.watchers ref = some watcher₃ ∧ watcher₃.received = watcher₂.received := by
  have h := PendingWorld.reachable_inv hw
  refine ⟨fun client => ?_, fun client hc ls w' hrun => h.views_run hc hrun,
    fun ref watcher hwatcher =>
    ⟨h.hub.replica hwatcher, (h.hub.owing.watchers ref watcher hwatcher).cursor_iff⟩, ?_⟩
  · have hp := h.hub.owing.partitions client
    have hlast := h.hub.current client
    rwa [getLast?_eq_getElem?, hp.follows.length, Nat.add_sub_cancel, hp.revision] at hlast
  · intro id ref watcher w₁ ls w₂ ls' w₃ hwatcher hfence hrun hover hrun'
    have h₁ := (h.step hfence).1
    have hfenced : w₁.FencedBy id ref := by
      simp only [PendingWorld.step] at hfence
      split_ifs at hfence
      cases hfence
      exact h.fencedBy hwatcher id
    obtain ⟨h₂, watcher₂, fence, hw₂, hf, hkept⟩ := hfenced.run h₁ hrun
    have hdone : watcher₂.done := by
      rcases hover with ⟨watchers, hreturned⟩ | hrefused
      · cases hf.symm.trans hreturned
        exact hkept
      · cases hf.symm.trans hrefused
        exact hkept rfl
    obtain ⟨watcher₃, hw₃, heq⟩ := h₂.received_run hw₂ hdone hrun'
    exact ⟨watcher₂, watcher₃, hw₂, hw₃, heq⟩

def sampleLimits : PendingLimits :=
  { clients := 4, runs := 4, runsPerClient := 4, pending := 4, pendingPerClient := 4,
    pendingBytes := 4096, pendingBytesPerClient := 4096, observers := 4, observersPerClient := 4,
    observerQueueEntries := 4, observerQueueBytes := 1024, reservedQueueEntries := 16,
    reservedQueueEntriesPerClient := 16, reservedQueueBytes := 4096,
    reservedQueueBytesPerClient := 4096, queuedEntries := 16, queuedEntriesPerClient := 16,
    queuedBytes := 4096, queuedBytesPerClient := 4096 }

abbrev sampleSystem := pendingSystem (fun _ => true) sampleLimits

/-- A run asks, and the observer of its client receives the opened interaction. -/
def openedRun : List PendingWorld.Label :=
  [.bind 0 "c" "r", .subscribe 0 "c" false, .request 0 "r" ⟨[113], [97], [112], [123, 125]⟩ false,
    .deliver 0 false, .deliver 0 false]

/-- The interaction is answered, which the observer receives, too. -/
def answeredRun : List PendingWorld.Label :=
  openedRun ++ [.deliver 0 false, .respond 0 "c" "r" ⟨[113], [123, 125]⟩, .deliver 0 false,
    .deliver 0 false, .deliver 0 false]

theorem pending_replica_answered :
    ∃ w watcher, sampleSystem.after answeredRun = some w ∧
      w.hub.watchers 0 = some watcher ∧ watcher.received.map (·.kind) = [.opened, .closed] ∧
      watcher.Replica w.hub ∧ watcher.lastDelivered = watcher.lastReceived := by
  have hrun : sampleSystem.after answeredRun = some _ := rfl
  have h := (pending_replica _ _ (reachable_of_run hrun)).2.2.1 0 _ rfl
  exact ⟨_, _, hrun, rfl, by decide, h.1, h.2.mpr nofun⟩

/-- The consumer has received revision 1 while `LastDelivered` is still the snapshot's revision
0. -/
theorem lastDelivered_lags :
    ∃ w watcher, sampleSystem.Reachable w ∧
      w.hub.watchers 0 = some watcher ∧ watcher.lastReceived = 1 ∧ watcher.lastDelivered = 0 := by
  have hrun : sampleSystem.after openedRun = some _ := rfl
  exact ⟨_, _, reachable_of_run hrun, rfl, by decide, by decide⟩

end SpiceAgent.Daemon
