import SpiceAgent.Daemon.PendingDesk

/-!
# The edits of the pending hub

Every critical section of the hub is a sequence of few edits, and the goroutine of an observer makes
one of six moves. What a step does to the hub is said here once; an invariant of the hub needs one
case for each edit and each move.
-/

namespace SpiceAgent.Daemon

open SpiceAgent.Lib Relation Option List

namespace PendingHub

variable {hub hub' : PendingHub} {allowed : Pending → Prop}

/-! ## Edits -/

/-- One edit of the hub; a request makes an `allowed` value pending. -/
inductive Edit (allowed : Pending → Prop) (hub : PendingHub) : PendingHub → Prop
  | shut : Edit allowed hub { hub with closed := true }
  | stopAccepting (ref : ℕ) : Edit allowed hub (hub.stopAccepting ref)
  | release (ref : ℕ) (binding : RunBinding) (hbinding : hub.bindings ref = some binding) :
      Edit allowed hub (hub.setBinding ref { binding with accepting := false, once := true })
  | removeReleasedBinding (ref : ℕ) : Edit allowed hub (hub.removeReleasedBinding ref)
  | createPartition (client : String) {hub' : PendingHub}
      (hcreate : hub.createPartition client = some hub') : Edit allowed hub hub'
  | bind (ref : ℕ) (client runID : String) (hfresh : hub.bindings ref = none) :
      Edit allowed hub (hub.bound ref client runID)
  | openCall (ref binding : ℕ) (state : RunBinding) (value : Pending)
      (hfresh : hub.calls ref = none)
      (hadmits : hub.Admits binding state value) (hallowed : allowed value) :
      Edit allowed hub (hub.openCall ref binding state value)
  | finishCall (client : String) (key : PendingKey) (ref : ℕ) (call : PendingCall)
      (result : PendingResult) (hkey : (hub.partition client).pending.lookup key = some ref)
      (hcall : hub.calls ref = some call) :
      Edit allowed hub (hub.finishCall client key ref call result)
  | closeDone (ref : ℕ) (call : PendingCall) (hcall : hub.calls ref = some call) :
      Edit allowed hub (hub.setCall ref { call with done := true })
  | finishWatcher (ref : ℕ) (err : HubError) (exhausted : Bool) :
      Edit allowed hub (hub.finishWatcher ref err exhausted)

/-- A sequence of edits. -/
def Edits (allowed : Pending → Prop) : PendingHub → PendingHub → Prop := ReflTransGen (Edit allowed)

theorem Edit.edits (h : hub.Edit allowed hub') : hub.Edits allowed hub' := .single h

theorem Edits.foldl {α : Type*} {f : PendingHub → α → PendingHub}
    (hf : ∀ (hub : PendingHub) a, hub.Edits allowed (f hub a)) (l : List α) (hub : PendingHub) :
    hub.Edits allowed (l.foldl f hub) := by
  induction l generalizing hub with
  | nil => exact .refl
  | cons a l ih => exact (hf hub a).trans (ih (f hub a))

theorem createPartition_fresh {client : String} (h : hub.createPartition client = some hub') :
    hub'.bindings = hub.bindings ∧ hub'.watchers = hub.watchers := by
  unfold createPartition at h
  split_ifs at h <;> exact some.inj h ▸ ⟨rfl, rfl⟩

theorem bindRun_edits {ref : ℕ} (hfresh : hub.bindings ref = none) (client runID : String) :
    hub.Edits allowed (hub.bindRun ref client runID).1 := by
  rcases hub.bindRun_cases ref client runID with heq | ⟨hub', hcreate, heq | heq⟩ <;> rw [heq]
  · exact .refl
  · exact (Edit.createPartition client hcreate).edits
  · have hbindings := (createPartition_fresh hcreate).1
    exact (Edit.createPartition client hcreate).edits.tail
      (.bind ref client runID (by rw [hbindings, hfresh]))

theorem release_edits (hub : PendingHub) (ref : ℕ) : hub.Edits allowed (hub.release ref) := by
  unfold release
  split
  · exact .refl
  next binding hbinding =>
    split_ifs
    · exact .refl
    · exact (Edit.release ref binding hbinding).edits.tail (.removeReleasedBinding ref)

theorem complete_edits {ref : ℕ} {call : PendingCall} (hcall : hub.calls ref = some call)
    (proposed : PendingResult) : hub.Edits allowed (hub.complete ref call proposed).1 := by
  unfold complete
  split
  · exact .refl
  split_ifs with hpending
  · exact (Edit.finishCall _ _ ref call proposed hpending.2 hcall).edits
  · exact .refl

theorem finishWatchers_edits (hub : PendingHub) (client : String) (err : HubError) :
    hub.Edits allowed (hub.finishWatchers client err) := by
  refine Edits.foldl (fun hub id => ?_) _ hub
  split
  · exact .refl
  · exact (Edit.finishWatcher _ err false).edits

/-- The calls that `Close` ends are pending when their turn comes: they are pending in the beginning
and have distinct keys. -/
theorem closeCalls_edits {entries : List (String × PendingKey × ℕ)}
    (hpending : ∀ e ∈ entries, hub.desk.pending e.1 e.2.1 = some e.2.2)
    (hnodup : (entries.map fun e => (e.1, e.2.1)).Nodup) :
    hub.Edits allowed (entries.foldl (fun hub e => hub.closeCall e.1 e.2) hub) := by
  induction entries generalizing hub with
  | nil => exact .refl
  | cons e rest ih =>
    obtain ⟨client, key, ref⟩ := e
    rw [map_cons, nodup_cons] at hnodup
    have hrest := fun e he => hpending e (mem_cons_of_mem _ he)
    rw [foldl_cons, closeCall]
    cases hcall : hub.calls ref with
    | none => exact ih hrest hnodup.2
    | some call =>
      refine (Edit.finishCall client key ref call (.failed .closed) (hpending _ mem_cons_self)
        hcall).edits.trans (ih (fun e he => ?_) hnodup.2)
      rw [finishCall_desk, Desk.settle_pending, if_neg]
      · exact hrest e he
      · rintro ⟨hclient, hkey⟩
        refine hnodup.1 (mem_map.mpr ⟨e, he, ?_⟩)
        rw [hclient, hkey]

theorem closed_edits (hub : PendingHub) :
    Edits allowed { hub with closed := true } hub.close.1 := by
  have hstop :=
    Aside.foldl stopAccepting_aside (hub.runs.entries.map (·.2)) { hub with closed := true }
  have hpending : ∀ e ∈ hub.closeEntries, ((hub.runs.entries.map (·.2)).foldl stopAccepting
      { hub with closed := true }).desk.pending e.1 e.2.1 = some e.2.2 := by
    intro e he
    rw [hstop.desk]
    obtain ⟨client, -, hin⟩ := mem_flatMap.mp he
    obtain ⟨entry, hentry, rfl⟩ := mem_map.mp hin
    exact mem_sortedCalls.mp hentry
  exact (((Edits.foldl (fun hub ref => (Edit.stopAccepting ref).edits) _ _).trans
    (closeCalls_edits hpending hub.nodup_closeCalls)).trans
      (Edits.foldl (fun hub ref => (Edit.removeReleasedBinding ref).edits) _ _)).trans
        (Edits.foldl (fun hub client => hub.finishWatchers_edits client .closed) _ _)

/-! ## Moves of an observer -/

/-- One move of the goroutine of an observer. -/
inductive Delivery (hub : PendingHub) (ref : ℕ) (watcher : Watcher) : PendingHub → Prop
  | leave (hstop : watcher.stop)
      (hphase : watcher.phase = .idle ∨ ∃ item, watcher.phase = .holding item) :
      Delivery hub ref watcher (hub.setWatcher ref { watcher with phase := .leaving })
  | take (item : QueuedDelta) (rest : List QueuedDelta) (hphase : watcher.phase = .idle)
      (hqueue : watcher.queue = item :: rest) :
      Delivery hub ref watcher
        (hub.setWatcher ref { watcher with queue := rest, phase := .holding item })
  | send (item : QueuedDelta) (hphase : watcher.phase = .holding item) :
      Delivery hub ref watcher (hub.setWatcher ref
        { watcher with received := watcher.received ++ [item.delta], phase := .sent item })
  | delivered (item : QueuedDelta) (hphase : watcher.phase = .sent item) :
      Delivery hub ref watcher (hub.delivered ref watcher item)
  | discard (hphase : watcher.phase = .leaving) :
      Delivery hub ref watcher
        (hub.setWatcher ref { watcher with queue := [], done := true, phase := .stopped })
  | stopped (hphase : watcher.phase = .stopped) :
      Delivery hub ref watcher (hub.watcherStopped ref watcher)

theorem Delivery.desk {ref : ℕ} {watcher : Watcher} (h : hub.Delivery ref watcher hub') :
    hub'.desk = hub.desk := by
  cases h with
  | leave | take | send | discard => rfl
  | delivered => exact delivered_desk ..
  | stopped => exact watcherStopped_desk ..

/-- What one step does to the hub. -/
inductive Turn (allowed : Pending → Prop) (hub : PendingHub) : PendingHub → Prop
  | edits {hub' : PendingHub} (h : hub.Edits allowed hub') : Turn allowed hub hub'
  /-- A subscription begins. -/
  | join {hub' : PendingHub} (ref : ℕ) (client : String) (hopen : hub.closed = false)
      (hcreate : hub.createPartition client = some hub') (hfresh : hub'.watchers ref = none) :
      Turn allowed hub (hub'.register ref client)
  | deliver {hub' : PendingHub} (ref : ℕ) (watcher : Watcher) (hw : hub.watchers ref = some watcher)
      (h : hub.Delivery ref watcher hub') : Turn allowed hub hub'

theorem Turn.refl (hub : PendingHub) : hub.Turn allowed hub := .edits .refl

theorem Edit.turn (h : hub.Edit allowed hub') : hub.Turn allowed hub' := .edits h.edits

theorem subscribe_turn {ref : ℕ} (hfresh : hub.watchers ref = none) (client : String)
    (ctxDone : Bool) : hub.Turn allowed (hub.subscribe ref client ctxDone).1 := by
  rcases hub.subscribe_cases ref client ctxDone with heq | ⟨hopen, hub', hcreate, heq | heq⟩ <;>
    rw [heq]
  · exact .refl hub
  · exact (Edit.createPartition client hcreate).turn
  · have hwatchers := (createPartition_fresh hcreate).2
    exact .join ref client hopen hcreate (by rw [hwatchers, hfresh])

end PendingHub

namespace PendingWorld

variable {isJson : List UInt8 → Bool} {w w' : PendingWorld} {allowed : Pending → Prop}

/-- What a step may make pending. -/
def Label.Opens (isJson : List UInt8 → Bool) : Label → Pending → Prop
  | .request _ runID asked _, value =>
    value = ⟨runID, asked⟩ ∧ Interaction.validScope runID ∧ asked.validate isJson
  | _, _ => False

/-- What a step does to the fences and to `Close`. -/
inductive Rest (w w' : PendingWorld) : Prop
  | same (hclosing : w'.closing = w.closing) (hfences : w'.fences = w.fences)
  | fence (id : ℕ) (client : String) (hnew : w.fences id = none) (heq : w' = w.beginFence id client)
  | runFence (id : ℕ) (fence : Fence) (hfence : w.fences id = some fence)
      (hgo : w.stepFence id fence = some w')
  | close (hgo : w.stepClose = some w')

theorem closeDone_rest (w : PendingWorld) (ref : ℕ) :
    (w.closeDone ref).closing = w.closing ∧ (w.closeDone ref).fences = w.fences := by
  unfold closeDone
  split <;> exact ⟨rfl, rfl⟩

theorem closeDone_turn (w : PendingWorld) (ref : ℕ) : w.hub.Turn allowed (w.closeDone ref).hub := by
  unfold closeDone
  split
  · exact .refl _
  next call hcall => exact (PendingHub.Edit.closeDone ref call hcall).turn

theorem stepDeliver_delivery {ref : ℕ} {watcher : Watcher} {stop : Bool}
    (hstep : w.stepDeliver ref watcher stop = some w') :
    ∃ hub, w' = { w with hub } ∧ w.hub.Delivery ref watcher hub := by
  unfold stepDeliver at hstep
  split at hstep
  next hphase =>
    split_ifs at hstep with _ hstop
    · exact ⟨_, (some.inj hstep).symm, .leave hstop (.inl hphase)⟩
    · split at hstep
      · cases hstep
      next item rest hqueue => exact ⟨_, (some.inj hstep).symm, .take item rest hphase hqueue⟩
  next item hphase =>
    split_ifs at hstep with _ hstop
    · exact ⟨_, (some.inj hstep).symm, .leave hstop (.inr ⟨item, hphase⟩)⟩
    · exact ⟨_, (some.inj hstep).symm, .send item hphase⟩
  next item hphase => exact ⟨_, (some.inj hstep).symm, .delivered item hphase⟩
  next hphase => exact ⟨_, (some.inj hstep).symm, .discard hphase⟩
  next hphase => exact ⟨_, (some.inj hstep).symm, .stopped hphase⟩
  · cases hstep

theorem beginRequest_turn {id : ℕ} (hfresh : w.hub.calls id = none) (runID : String)
    (request : Interaction.Request) (ctxDone : Bool) :
    w.hub.Turn ((Label.request id runID request ctxDone).Opens isJson)
        (w.beginRequest isJson id runID request ctxDone).hub ∧
      w.Rest (w.beginRequest isJson id runID request ctxDone) := by
  unfold beginRequest
  rcases w.hub.request_cases isJson id runID request ctxDone with
    ⟨err, heq⟩ | ⟨binding, state, heq, htoken, hvalid, hadmits⟩ <;> rw [heq]
  · exact ⟨.refl _, .same rfl rfl⟩
  · exact ⟨(PendingHub.Edit.openCall id binding state ⟨runID, request⟩ hfresh hadmits
      ⟨rfl, htoken, hvalid⟩).turn, .same rfl rfl⟩

theorem stepRequest_turn {id : ℕ} {thread : RequestThread} {ctx : Bool}
    (hstep : w.stepRequest id thread ctx = some w') :
    w.hub.Turn allowed w'.hub ∧ w'.closing = w.closing ∧ w'.fences = w.fences := by
  unfold stepRequest at hstep
  split at hstep
  · split_ifs at hstep
    · cases hstep
      exact ⟨.refl _, rfl, rfl⟩
    · obtain ⟨call, -, hresult⟩ := bind_eq_some_iff.mp hstep
      obtain ⟨result, -, rfl⟩ := map_eq_some_iff.mp hresult
      exact ⟨.refl _, rfl, rfl⟩
  · obtain ⟨call, hcall, rfl⟩ := map_eq_some_iff.mp hstep
    have hedits : w.hub.Edits allowed _ := PendingHub.complete_edits hcall (.failed .context)
    rcases hc : w.hub.complete id call (.failed .context) with ⟨hub', result, own⟩
    rw [hc] at hedits
    cases own <;> exact ⟨.edits hedits, rfl, rfl⟩
  · cases hstep
    exact ⟨w.closeDone_turn id, w.closeDone_rest id⟩
  · split_ifs at hstep
    cases hstep
    exact ⟨.refl _, rfl, rfl⟩
  · cases hstep

theorem beginRespond_turn (id : ℕ) (client runID : String) (response : Interaction.Response) :
    w.hub.Turn allowed (w.beginRespond isJson id client runID response).hub ∧
      w.Rest (w.beginRespond isJson id client runID response) := by
  unfold beginRespond
  rcases w.hub.respond_cases isJson client runID response with
    ⟨err, heq⟩ | ⟨ref, call, hkey, hcall, heq⟩ <;> rw [heq]
  · exact ⟨.refl _, .same rfl rfl⟩
  · exact ⟨(PendingHub.Edit.finishCall _ _ ref call _ hkey hcall).turn, .same rfl rfl⟩

theorem beginFence_turn (w : PendingWorld) (id : ℕ) (client : String) :
    w.hub.Turn allowed (w.beginFence id client).hub := by
  unfold beginFence
  split
  · exact .refl _
  split_ifs
  · exact .refl _
  · exact .edits (w.hub.finishWatchers_edits client .fenced)
  · exact .refl _

theorem stepFence_hub {id : ℕ} {fence : Fence} (hstep : w.stepFence id fence = some w') :
    w'.hub = w.hub := by
  unfold stepFence at hstep
  split at hstep
  · split_ifs at hstep
    exact some.inj hstep ▸ rfl
  · split_ifs at hstep
    exact some.inj hstep ▸ rfl
  · cases hstep
  · cases hstep

theorem stepClose_turn (hstep : w.stepClose = some w') : w.hub.Turn allowed w'.hub := by
  unfold stepClose at hstep
  split at hstep
  · cases hstep
    exact .edits (PendingHub.Edit.shut.edits.trans w.hub.closed_edits)
  · cases hstep
    exact .refl _
  · cases hstep
    exact w.closeDone_turn _
  · split_ifs at hstep
    cases hstep
    exact .refl _
  · cases hstep

theorem step_turn {l : Label} (hstep : w.step isJson l = some w') :
    w.hub.Turn (l.Opens isJson) w'.hub ∧ w.Rest w' := by
  cases l with
  | bind ref client runID =>
    simp only [step] at hstep
    split_ifs at hstep with hfresh
    cases hstep
    exact ⟨.edits (PendingHub.bindRun_edits (by simpa using hfresh) client runID), .same rfl rfl⟩
  | release ref =>
    cases hstep
    exact ⟨.edits (w.hub.release_edits ref), .same rfl rfl⟩
  | request id runID request ctxDone =>
    simp only [step] at hstep
    split_ifs at hstep with hused
    cases hstep
    rw [not_or] at hused
    exact beginRequest_turn (by simpa using hused.2) runID request ctxDone
  | runRequest id ctx =>
    obtain ⟨thread, -, hgo⟩ := bind_eq_some_iff.mp hstep
    obtain ⟨hturn, hclosing, hfences⟩ := stepRequest_turn hgo
    exact ⟨hturn, .same hclosing hfences⟩
  | cancel id =>
    obtain ⟨thread, -, rfl⟩ := map_eq_some_iff.mp hstep
    exact ⟨.refl _, .same rfl rfl⟩
  | respond id client runID response =>
    simp only [step] at hstep
    split_ifs at hstep
    cases hstep
    exact beginRespond_turn id client runID response
  | runRespond id =>
    obtain ⟨thread, -, hgo⟩ := bind_eq_some_iff.mp hstep
    split at hgo
    next ref _ =>
      cases hgo
      exact ⟨w.closeDone_turn ref, .same (w.closeDone_rest ref).1 (w.closeDone_rest ref).2⟩
    · cases hgo
  | subscribe ref client ctxDone =>
    simp only [step] at hstep
    split_ifs at hstep with hfresh
    cases hstep
    exact ⟨PendingHub.subscribe_turn (by simpa using hfresh) client ctxDone, .same rfl rfl⟩
  | detach ref =>
    cases hstep
    exact ⟨(PendingHub.Edit.finishWatcher ref .context false).turn, .same rfl rfl⟩
  | deliver ref stop =>
    obtain ⟨watcher, hw, hgo⟩ := bind_eq_some_iff.mp hstep
    obtain ⟨hub, rfl, hdelivery⟩ := stepDeliver_delivery hgo
    exact ⟨.deliver ref watcher hw hdelivery, .same rfl rfl⟩
  | fence id client =>
    simp only [step] at hstep
    split_ifs at hstep with hused
    cases hstep
    exact ⟨w.beginFence_turn id client, .fence id client (by simpa using hused) rfl⟩
  | runFence id =>
    obtain ⟨fence, hfence, hgo⟩ := bind_eq_some_iff.mp hstep
    exact ⟨stepFence_hub hgo ▸ .refl _, .runFence id fence hfence hgo⟩
  | close => exact ⟨stepClose_turn hstep, .close hstep⟩

end PendingWorld

end SpiceAgent.Daemon
