import SpiceAgent.Daemon.PendingDesk
import SpiceAgent.Lib.StateLog

/-!
# The invariant of the pending hub

Every partition has a log of all its deltas and the pending set at every revision; every observer
has received, holds or has queued exactly the deltas after its snapshot (`WatcherOk`). While
`publishLocked` visits the observers, those not yet visited are owed the new delta: the invariant
carries what is owed, and one round of the loop pays one observer (`Inv.offer`).
-/

namespace SpiceAgent.Daemon

open SpiceAgent.Lib List Function

def Delta.apply (set : PendingSet) (delta : Delta) : PendingSet :=
  match delta.kind with
  | .opened => set.insert delta.pending.key delta.pending
  | .closed => set.erase delta.pending.key

def PendingSnapshot.set (snapshot : PendingSnapshot) : PendingSet :=
  snapshot.pending.foldl (fun set value => set.insert value.key value) ∅

namespace Watcher

variable (watcher : Watcher)

def queued : List Delta := watcher.queue.map (·.delta)

/-- What the consumer has received and will receive if it goes on and the observer is not ended. -/
def stream : List Delta :=
  match watcher.phase with
  | .idle | .sent _ => watcher.received ++ watcher.queued
  | .holding item => watcher.received ++ item.delta :: watcher.queued
  | .leaving | .stopped | .gone => watcher.received

/-- The revision of the last delta that the consumer received. -/
def lastReceived : ℕ :=
  (watcher.received.getLast?.map (·.revision)).getD watcher.snapshot.revision

def left : Bool :=
  match watcher.phase with
  | .leaving | .stopped | .gone => true
  | .idle | .holding _ | .sent _ => false

def ended : Bool :=
  match watcher.phase with
  | .stopped | .gone => true
  | .idle | .holding _ | .sent _ | .leaving => false

/-- What `LastDelivered` is in each phase: it lags while `delivered` has yet to run. -/
def CursorOk : Prop :=
  match watcher.phase with
  | .sent item => watcher.received.getLast? = some item.delta ∧
      watcher.lastDelivered + 1 = item.delta.revision
  | _ => watcher.lastDelivered = watcher.lastReceived

end Watcher

/-- The partitions differ only in their counters. -/
structure Partition.SameCore (p p' : Partition) : Prop where
  revision : p'.revision = p.revision
  nextWatcher : p'.nextWatcher = p.nextWatcher
  pending : p'.pending = p.pending
  watchers : p'.watchers = p.watchers
  stopping : p'.stopping = p.stopping
  log : p'.log = p.log
  views : p'.views = p.views

theorem Partition.SameCore.refl (p : Partition) : p.SameCore p :=
  ⟨rfl, rfl, rfl, rfl, rfl, rfl, rfl⟩

namespace PendingHub

variable {hub hub' hub'' : PendingHub} {ref : ℕ} {watcher watcher' : Watcher} {client : String}
  {owed owed' : String → ℕ → List Delta}

variable (hub)

/-- The call belongs to a run of the client and waits for `value`. -/
def CallOf (client : String) (ref : ℕ) (value : Pending) : Prop :=
  ∃ call binding, hub.calls ref = some call ∧ call.value = value ∧
    hub.bindings call.binding = some binding ∧ binding.clientID = client

/-- What holds of an observer that is owed some deltas. -/
@[mk_iff] structure WatcherOk (ref : ℕ) (watcher : Watcher) (owed : List Delta) : Prop where
  known : watcher.client ∈ hub.clients
  registered : watcher.active → (hub.partition watcher.client).watchers.lookup watcher.id = some ref
  stopping : watcher.active ∨ ref ∈ (hub.partition watcher.client).stopping ∨ watcher.phase = .gone
  stop : watcher.stop = !watcher.active
  left : watcher.left → watcher.active = false
  done : watcher.done = watcher.ended
  revision : watcher.snapshot.revision ≤ (hub.partition watcher.client).log.length
  snapshot : (hub.partition watcher.client).views[watcher.snapshot.revision]? =
    some watcher.snapshot.set
  live : watcher.active →
    watcher.stream ++ owed = (hub.partition watcher.client).log.drop watcher.snapshot.revision
  ended : watcher.stream <+: (hub.partition watcher.client).log.drop watcher.snapshot.revision
  cursor : watcher.CursorOk

/-- What holds of the partition of a client. -/
@[mk_iff] structure PartitionOk (client : String) (p : Partition) : Prop where
  revision : p.log.length = p.revision
  room : p.revision + p.pending.keys.length ≤ maxRevision
  numbered : ∀ i d, p.log[i]? = some d → d.revision = i + 1
  follows : Follows Delta.apply p.views p.log
  pending : ∀ key ref, p.pending.lookup key = some ref →
    ∃ value, hub.CallOf client ref value ∧ value.key = key
  owned : ∀ d ∈ p.log, ∃ ref, hub.CallOf client ref d.pending
  watchers : ∀ id ref, p.watchers.lookup id = some ref → id ≤ p.nextWatcher ∧
    ∃ watcher, hub.watchers ref = some watcher ∧ watcher.id = id ∧ watcher.client = client ∧
      watcher.active

/-- The invariant of the hub, where each observer is owed some deltas. -/
structure InvOwing (owed : String → ℕ → List Delta) : Prop where
  partitions : ∀ c, hub.PartitionOk c (hub.partition c)
  watchers : ∀ ref watcher, hub.watchers ref = some watcher →
    hub.WatcherOk ref watcher (owed watcher.client watcher.id)

/-- The last view of a partition is its pending set. -/
def Current : Prop :=
  ∀ c, (hub.partition c).views.getLast? = some (hub.view c)

/-- The invariant of the hub. -/
structure Inv : Prop where
  owing : hub.InvOwing fun _ _ => []
  current : hub.Current

variable {hub}

/-! ## Changes that the invariant does not see -/

/-- Only counters, bindings and the state of calls change. -/
structure Frame (hub hub' : PendingHub) : Prop where
  clients : ∀ c ∈ hub.clients, c ∈ hub'.clients
  core : ∀ c, (hub.partition c).SameCore (hub'.partition c)
  watchers : hub'.watchers = hub.watchers
  values : ∀ ref, (hub'.calls ref).map (·.value) = (hub.calls ref).map (·.value)
  calls : ∀ c ref value, hub.CallOf c ref value → hub'.CallOf c ref value

theorem Frame.refl (hub : PendingHub) : hub.Frame hub :=
  ⟨fun _ h => h, fun _ => .refl _, rfl, fun _ => rfl, fun _ _ _ h => h⟩

section

variable {due : List Delta} (h : hub.WatcherOk ref watcher due)
  (hclients : ∀ c ∈ hub.clients, c ∈ hub'.clients)
include h hclients

theorem WatcherOk.congr
    (hwatchers : (hub'.partition watcher.client).watchers = (hub.partition watcher.client).watchers)
    (hstopping : (hub'.partition watcher.client).stopping = (hub.partition watcher.client).stopping)
    (hlog : (hub'.partition watcher.client).log = (hub.partition watcher.client).log)
    (hviews : (hub'.partition watcher.client).views = (hub.partition watcher.client).views) :
    hub'.WatcherOk ref watcher due := by
  simp only [watcherOk_iff, hwatchers, hstopping, hlog, hviews] at *
  exact h.imp_left (hclients _)

theorem WatcherOk.frame
    (hcore : (hub.partition watcher.client).SameCore (hub'.partition watcher.client)) :
    hub'.WatcherOk ref watcher due :=
  h.congr hclients hcore.watchers hcore.stopping hcore.log hcore.views

end

theorem PartitionOk.frame (h : hub.PartitionOk client (hub.partition client))
    (hf : hub.Frame hub') : hub'.PartitionOk client (hub'.partition client) := by
  obtain ⟨hrev, hnext, hpending, hwatchers, -, hlog, hviews⟩ := hf.core client
  have hcalls := hf.calls client
  simp only [partitionOk_iff, hrev, hnext, hpending, hwatchers, hlog, hviews, hf.watchers] at *
  grind

theorem InvOwing.frame (h : hub.InvOwing owed) (hf : hub.Frame hub') : hub'.InvOwing owed where
  partitions c := (h.partitions c).frame hf
  watchers ref watcher hw :=
    (h.watchers ref watcher (hf.watchers ▸ hw)).frame hf.clients (hf.core _)

theorem Frame.valueOf (hf : hub.Frame hub') (ref : ℕ) : hub'.valueOf ref = hub.valueOf ref := by
  unfold PendingHub.valueOf
  rw [hf.values]

theorem Frame.view (hf : hub.Frame hub') (c : String) : hub'.view c = hub.view c := by
  unfold PendingHub.view
  simp only [(hf.core c).pending, hf.valueOf]

theorem Frame.current (hf : hub.Frame hub') (h : hub.Current) : hub'.Current := fun c => by
  rw [(hf.core c).views, hf.view]
  exact h c

theorem Inv.frame (h : hub.Inv) (hf : hub.Frame hub') : hub'.Inv :=
  ⟨h.owing.frame hf, hf.current h.current⟩

/-! ## Changes of one observer -/

variable (hub)

theorem setWatcher_self (ref : ℕ) (watcher : Watcher) :
    (hub.setWatcher ref watcher).watchers ref = some watcher :=
  update_self ..

theorem setWatcher_ne {i ref : ℕ} (hne : i ≠ ref) (watcher : Watcher) :
    (hub.setWatcher ref watcher).watchers i = hub.watchers i :=
  update_of_ne hne ..

theorem setPartition_self (client : String) (p : Partition) :
    (hub.setPartition client p).partition client = p :=
  update_self ..

theorem setPartition_ne {c client : String} (hne : c ≠ client) (p : Partition) :
    (hub.setPartition client p).partition c = hub.partition c :=
  update_of_ne hne ..

variable {hub}

/-- Only the observer at `ref` changes, apart from counters and, if it ends, its registration. -/
@[mk_iff] structure WatcherStep (hub hub' : PendingHub) (ref : ℕ) (watcher watcher' : Watcher) :
    Prop where
  old : hub.watchers ref = some watcher
  new : hub'.watchers ref = some watcher'
  id : watcher'.id = watcher.id
  client : watcher'.client = watcher.client
  snapshot : watcher'.snapshot = watcher.snapshot
  others : ∀ i, i ≠ ref → hub'.watchers i = hub.watchers i
  clients : hub'.clients = hub.clients
  calls : hub'.calls = hub.calls
  bindings : hub'.bindings = hub.bindings
  elsewhere : ∀ c, c ≠ watcher.client → hub'.partition c = hub.partition c
  revision : (hub'.partition watcher.client).revision = (hub.partition watcher.client).revision
  nextWatcher :
    (hub'.partition watcher.client).nextWatcher = (hub.partition watcher.client).nextWatcher
  pending : (hub'.partition watcher.client).pending = (hub.partition watcher.client).pending
  log : (hub'.partition watcher.client).log = (hub.partition watcher.client).log
  views : (hub'.partition watcher.client).views = (hub.partition watcher.client).views
  registered : ∀ id, (hub'.partition watcher.client).watchers.lookup id =
    if id = watcher.id ∧ watcher.active ∧ !watcher'.active then none
    else (hub.partition watcher.client).watchers.lookup id
  stopping : ∀ i, i ≠ ref → i ∈ (hub.partition watcher.client).stopping →
    i ∈ (hub'.partition watcher.client).stopping

section

variable (h : hub.WatcherStep hub' ref watcher watcher')
include h

theorem WatcherStep.callOf {c : String} {i : ℕ} {value : Pending} (hc : hub.CallOf c i value) :
    hub'.CallOf c i value := by
  unfold CallOf
  rw [h.calls, h.bindings]
  exact hc

theorem WatcherStep.partitionOk
    (hp : hub.PartitionOk watcher.client (hub.partition watcher.client)) :
    hub'.PartitionOk watcher.client (hub'.partition watcher.client) := by
  have hof : ∀ i value, hub.CallOf watcher.client i value → hub'.CallOf watcher.client i value :=
    fun _ _ => h.callOf
  refine ⟨?_, ?_, ?_, ?_, fun key i hl => ?_, fun d hd => ?_, fun id i hl => ?_⟩
  · rw [h.log, h.revision]
    exact hp.revision
  · rw [h.revision, h.pending]
    exact hp.room
  · rw [h.log]
    exact hp.numbered
  · rw [h.log, h.views]
    exact hp.follows
  · grind [hp.pending key i (h.pending ▸ hl)]
  · grind [hp.owned d (h.log ▸ hd)]
  · rw [h.registered] at hl
    split_ifs at hl with hend
    obtain ⟨hle, w, hw, hid, hclient, hact⟩ := hp.watchers id i hl
    rw [h.nextWatcher]
    rcases eq_or_ne i ref with rfl | hne
    · cases h.old.symm.trans hw
      refine ⟨hle, watcher', h.new, h.id.trans hid, h.client.trans hclient, ?_⟩
      by_contra hnot
      exact hend ⟨hid.symm, hact, by simpa using hnot⟩
    · exact ⟨hle, w, (h.others i hne).trans hw, hid, hclient, hact⟩

theorem WatcherStep.partitionOk_ne {c : String} (hne : c ≠ watcher.client)
    (hp : hub.PartitionOk c (hub.partition c)) : hub'.PartitionOk c (hub'.partition c) := by
  have hof : ∀ i value, hub.CallOf c i value → hub'.CallOf c i value := fun _ _ => h.callOf
  rw [h.elsewhere c hne]
  refine ⟨hp.revision, hp.room, hp.numbered, hp.follows, fun key i hl => ?_, fun d hd => ?_,
    fun id i hl => ?_⟩
  · grind [hp.pending key i hl]
  · grind [hp.owned d hd]
  · obtain ⟨hle, w, hw, hid, hclient, hact⟩ := hp.watchers id i hl
    have hi : i ≠ ref := by
      rintro rfl
      cases h.old.symm.trans hw
      exact hne hclient.symm
    exact ⟨hle, w, (h.others i hi).trans hw, hid, hclient, hact⟩

theorem WatcherStep.watcherOk
    (hreg : watcher.active → (hub.partition watcher.client).watchers.lookup watcher.id = some ref)
    {i : ℕ} (hne : i ≠ ref) {w : Watcher} {owed owed' : List Delta} (hok : hub.WatcherOk i w owed)
    (howed : w.active → ¬(w.client = watcher.client ∧ w.id = watcher.id ∧ watcher.active) →
      owed' = owed) : hub'.WatcherOk i w owed' := by
  have hdistinct : w.active →
      ¬(w.client = watcher.client ∧ w.id = watcher.id ∧ watcher.active) := by
    rintro hact ⟨hclient, hid, hwact⟩
    have hi := hok.registered hact
    rw [hclient, hid, hreg hwact] at hi
    exact hne (Option.some.inj hi).symm
  by_cases hclient : w.client = watcher.client
  · have hstopping := h.stopping i hne
    simp only [watcherOk_iff, hclient, h.clients, h.registered, h.log, h.views] at hok ⊢
    grind
  · simp only [watcherOk_iff, h.clients, h.elsewhere w.client hclient] at hok ⊢
    grind

end

theorem InvOwing.watcherStep (h : hub.InvOwing owed)
    (hs : hub.WatcherStep hub' ref watcher watcher')
    (hok : hub'.WatcherOk ref watcher' (owed' watcher'.client watcher'.id))
    (howed : ∀ c id, ¬(c = watcher.client ∧ id = watcher.id ∧ watcher.active) →
      owed' c id = owed c id) : hub'.InvOwing owed' := by
  refine ⟨fun c => ?_, fun i w hw => ?_⟩
  · rcases eq_or_ne c watcher.client with rfl | hne
    · exact hs.partitionOk (h.partitions _)
    · exact hs.partitionOk_ne hne (h.partitions c)
  · rcases eq_or_ne i ref with rfl | hne
    · exact Option.some.inj (hs.new.symm.trans hw) ▸ hok
    · exact hs.watcherOk (h.watchers ref watcher hs.old).registered hne
        (h.watchers i w ((hs.others i hne) ▸ hw)) fun _ hnot => howed _ _ hnot

theorem view_congr {c : String} (hpending : (hub'.partition c).pending = (hub.partition c).pending)
    (hcalls : hub'.calls = hub.calls) : hub'.view c = hub.view c := by
  unfold PendingHub.view PendingHub.valueOf
  rw [hpending, hcalls]

theorem Current.of_same (h : hub.Current) (hcalls : hub'.calls = hub.calls)
    (hpending : ∀ c, (hub'.partition c).pending = (hub.partition c).pending)
    (hviews : ∀ c, (hub'.partition c).views = (hub.partition c).views) : hub'.Current := fun c => by
  rw [view_congr (hpending c) hcalls, hviews]
  exact h c

theorem Aside.views (ha : hub.Aside hub') (c : String) :
    (hub'.partition c).views = (hub.partition c).views :=
  congrArg (·.2.2.2.2) (ha.account c)

theorem Aside.current (ha : hub.Aside hub') (h : hub.Current) : hub'.Current :=
  h.of_same ha.calls (fun c => congrArg (·.2.1) (ha.account c)) ha.views

theorem WatcherStep.current (hs : hub.WatcherStep hub' ref watcher watcher') (h : hub.Current) :
    hub'.Current := by
  refine h.of_same hs.calls (fun c => ?_) fun c => ?_ <;>
    rcases eq_or_ne c watcher.client with rfl | hne
  · exact hs.pending
  · rw [hs.elsewhere c hne]
  · exact hs.views
  · rw [hs.elsewhere c hne]

/-! ## Offering a delta -/

/-- A change of one observer that keeps it registered as it is, apart from counters. -/
theorem WatcherStep.of_counters (p : Partition) (hw : hub.watchers ref = some watcher)
    (hid : watcher'.id = watcher.id) (hclient : watcher'.client = watcher.client)
    (hsnapshot : watcher'.snapshot = watcher.snapshot) (hactive : watcher'.active = watcher.active)
    (hp : (hub.partition watcher.client).SameCore p)
    (hwatchers : hub'.watchers = (hub.setWatcher ref watcher').watchers)
    (hpartition : hub'.partition = (hub.setPartition watcher.client p).partition)
    (hclients : hub'.clients = hub.clients) (hcalls : hub'.calls = hub.calls)
    (hbindings : hub'.bindings = hub.bindings) : hub.WatcherStep hub' ref watcher watcher' := by
  have hself : hub'.partition watcher.client = p := by rw [hpartition, setPartition_self]
  obtain ⟨hrev, hnext, hpending, hlookup, hstopping, hlog, hviews⟩ := hp
  simp only [watcherStep_iff, hself, hwatchers, hrev, hnext, hpending, hlookup, hstopping,
    hlog, hviews, hactive]
  refine ⟨hw, setWatcher_self .., hid, hclient, hsnapshot, fun i hne => setWatcher_ne _ hne _,
    hclients, hcalls, hbindings, fun c hne => by rw [hpartition, setPartition_ne _ hne], trivial,
    trivial, trivial,
    trivial, trivial, fun id => ?_, fun i _ hi => hi⟩
  rw [if_neg]
  cases watcher.active <;> simp

theorem pushed_step (hw : hub.watchers ref = some watcher) (delta : Delta) :
    hub.WatcherStep (hub.pushed ref watcher delta) ref watcher (watcher.push delta) :=
  .of_counters
    { hub.partition watcher.client with
      queuedEntries := (hub.partition watcher.client).queuedEntries + 1
      queuedBytes := (hub.partition watcher.client).queuedBytes + delta.bytes }
    hw rfl rfl rfl rfl ⟨rfl, rfl, rfl, rfl, rfl, rfl, rfl⟩ rfl rfl rfl rfl rfl

theorem finishWatcher_step (hw : hub.watchers ref = some watcher) (hactive : watcher.active)
    (err : HubError) (exhausted : Bool) :
    hub.WatcherStep (hub.finishWatcher ref err exhausted) ref watcher
        (watcher.finish err exhausted) ∧
      ref ∈ ((hub.finishWatcher ref err exhausted).partition watcher.client).stopping := by
  have hself := hub.setPartition_self watcher.client (hub.endWatcher ref watcher)
  unfold finishWatcher
  simp only [hw, hactive, Bool.not_true, Bool.false_eq_true, if_false]
  refine ⟨⟨hw, hub.setWatcher_self ref _, rfl, rfl, rfl, fun i hne => hub.setWatcher_ne hne _, rfl,
    rfl, rfl, fun c hne => hub.setPartition_ne hne _, (congrArg Partition.revision hself).trans rfl,
    (congrArg Partition.nextWatcher hself).trans rfl, (congrArg Partition.pending hself).trans rfl,
    (congrArg Partition.log hself).trans rfl, (congrArg Partition.views hself).trans rfl,
    fun id => ?_, fun i _ hi => ?_⟩, ?_⟩
  · refine (congrArg (AList.lookup id) (congrArg Partition.watchers hself)).trans ?_
    rcases eq_or_ne id watcher.id with rfl | hne
    · simp [endWatcher, Watcher.finish, hactive]
    · simp [endWatcher, hne]
  · exact (congrArg Partition.stopping hself).symm ▸ mem_cons_of_mem _ hi
  · exact (congrArg Partition.stopping hself).symm ▸ mem_cons_self

theorem stream_push (delta : Delta) (hleft : watcher.left = false) :
    (watcher.push delta).stream = watcher.stream ++ [delta] := by
  unfold Watcher.left at hleft
  cases hphase : watcher.phase <;>
    simp_all [Watcher.stream, Watcher.push, Watcher.queued]

theorem WatcherOk.push {delta : Delta} (h : hub.WatcherOk ref watcher [delta])
    (hactive : watcher.active) (hs : hub.WatcherStep hub' ref watcher (watcher.push delta)) :
    hub'.WatcherOk ref (watcher.push delta) [] := by
  have hleft : watcher.left = false := by
    by_contra hnot
    exact absurd (h.left (by simpa using hnot)) (by simp [hactive])
  have hstream : (watcher.push delta).stream =
      (hub.partition watcher.client).log.drop watcher.snapshot.revision := by
    rw [stream_push delta hleft]
    exact h.live hactive
  have hregistered := (hs.registered watcher.id).trans (if_neg (by simp [Watcher.push, hactive]))
  rw [watcherOk_iff, hstream, hs.clients, show (watcher.push delta).client =
    watcher.client from rfl, hs.log, hs.views]
  exact ⟨h.known, fun _ => hregistered.trans (h.registered hactive), .inl hactive, h.stop,
    h.left, h.done, h.revision, h.snapshot, fun _ => append_nil _, prefix_rfl, h.cursor⟩

theorem WatcherOk.finish {owed owed' : List Delta} (h : hub.WatcherOk ref watcher owed)
    {err : HubError} {exhausted : Bool}
    (hs : hub.WatcherStep hub' ref watcher (watcher.finish err exhausted))
    (hstopping : ref ∈ (hub'.partition watcher.client).stopping) :
    hub'.WatcherOk ref (watcher.finish err exhausted) owed' :=
  { known := hs.clients ▸ h.known
    registered := nofun
    stopping := .inr (.inl hstopping)
    stop := rfl
    left := fun _ => rfl
    done := h.done
    revision := hs.log ▸ h.revision
    snapshot := (congrArg (·[watcher.snapshot.revision]?) hs.views).trans h.snapshot
    live := nofun
    ended := (congrArg (drop watcher.snapshot.revision) hs.log).symm ▸ h.ended
    cursor := h.cursor }

/-- `finishWatcherLocked` keeps the invariant, and an observer that ends is owed nothing. -/
theorem InvOwing.finishWatcher (h : hub.InvOwing owed) (ref : ℕ) (err : HubError) (exhausted : Bool)
    (howed : ∀ c id, owed' c id = owed c id ∨
      ∃ watcher, hub.watchers ref = some watcher ∧ watcher.active ∧ c = watcher.client ∧
        id = watcher.id) : (hub.finishWatcher ref err exhausted).InvOwing owed' := by
  by_cases hlive : ∃ watcher, hub.watchers ref = some watcher ∧ watcher.active
  · obtain ⟨watcher, hw, hactive⟩ := hlive
    obtain ⟨hs, hstopping⟩ := finishWatcher_step hw hactive err exhausted
    refine h.watcherStep hs ((h.watchers ref watcher hw).finish hs hstopping) fun c id hne => ?_
    grind
  · -- nothing ends, so nothing that is owed changes
    have heq : hub.finishWatcher ref err exhausted = hub := by
      unfold PendingHub.finishWatcher
      split
      · rfl
      next watcher hw => rw [if_pos (by simpa using fun hactive => hlive ⟨watcher, hw, hactive⟩)]
    have howed' : owed' = owed := by
      funext c id
      grind
    rwa [heq, howed']

/-- What is owed after the observer `id` of a client was visited. -/
def paid (owed : String → ℕ → List Delta) (client : String) (id : ℕ) : String → ℕ → List Delta :=
  fun c i => if c = client ∧ i = id then [] else owed c i

theorem InvOwing.offer (h : hub.InvOwing owed) {delta : Delta} {id : ℕ}
    (howed : owed client id = [delta]) :
    (hub.offer client delta id).InvOwing (paid owed client id) := by
  unfold PendingHub.offer
  cases hlookup : (hub.partition client).watchers.lookup id with
  | none =>
    refine ⟨h.partitions, fun i w hw => ?_⟩
    have hok := h.watchers i w hw
    refine { hok with live := fun hact => ?_ }
    have hne : ¬(w.client = client ∧ w.id = id) := by
      rintro ⟨rfl, rfl⟩
      rw [hok.registered hact] at hlookup
      cases hlookup
    rw [paid, if_neg hne]
    exact hok.live hact
  | some ref =>
    obtain ⟨-, watcher, hw, hid, hclient, hactive⟩ := (h.partitions client).watchers id ref hlookup
    subst hid hclient
    have hok := h.watchers ref watcher hw
    rw [howed] at hok
    simp only [hw, hactive, Bool.not_true, Bool.false_eq_true, if_false]
    split
    · have hs := pushed_step hw delta
      refine h.watcherStep hs ?_ ?_
      · rw [paid, if_pos ⟨rfl, rfl⟩]
        exact hok.push hactive hs
      · intro c i hne
        rw [paid, if_neg fun hboth => hne ⟨hboth.1, hboth.2, hactive⟩]
    · refine h.finishWatcher ref _ true fun c i => ?_
      by_cases hboth : c = watcher.client ∧ i = watcher.id
      · exact .inr ⟨watcher, hw, hactive, hboth⟩
      · exact .inl (if_neg hboth)

/-! ## Publishing -/

/-- What is owed while the observers `ids` of a client have yet to be visited. -/
def owing (client : String) (delta : Delta) (ids : List ℕ) : String → ℕ → List Delta :=
  fun c i => if c = client ∧ i ∈ ids then [delta] else []

theorem InvOwing.offers {delta : Delta} {ids : List ℕ} (hnodup : ids.Nodup)
    (h : hub.InvOwing (owing client delta ids)) :
    (ids.foldl (fun hub id => hub.offer client delta id) hub).InvOwing (fun _ _ => []) := by
  induction ids generalizing hub with
  | nil =>
    have hnone : owing client delta [] = fun _ _ => [] := by
      funext c i
      simp [owing]
    exact hnone ▸ h
  | cons id rest ih =>
    obtain ⟨hid, hrest⟩ := nodup_cons.mp hnodup
    have hoffer :=
      h.offer (show owing client delta (id :: rest) client id = [delta] by simp [owing])
    have hpaid : paid (owing client delta (id :: rest)) client id = owing client delta rest := by
      funext c i
      unfold paid owing
      grind
    exact ih hrest (hpaid ▸ hoffer)

/-- What must hold of a client's partition for a change to be published. -/
structure Publishable (hub : PendingHub) (client : String) (kind : DeltaKind) (pending : Pending) :
    Prop where
  room : (hub.partition client).revision + 1 + (hub.partition client).pending.keys.length ≤
    maxRevision
  view : ∃ set, (hub.partition client).views.getLast? = some set ∧ hub.view client =
    Delta.apply set ⟨(hub.partition client).revision + 1, kind, pending⟩
  owned : ∃ ref, hub.CallOf client ref pending

variable {kind : DeltaKind} {pending : Pending}

theorem Publishable.revision (hpub : hub.Publishable client kind pending) :
    ((hub.partition client).revision + 1) % 2 ^ 64 = (hub.partition client).revision + 1 := by
  have hroom := hpub.room
  unfold maxRevision at hroom
  exact Nat.mod_eq_of_lt (by omega)

/-- The partition after the revision was raised and before the observers are visited. -/
theorem PartitionOk.published (h : hub.PartitionOk client (hub.partition client))
    (hpub : hub.Publishable client kind pending) :
    hub.PartitionOk client (hub.published client kind pending) := by
  have hrev := hpub.revision
  obtain ⟨set, hlast, hview⟩ := hpub.view
  have hlen := h.revision
  refine ⟨?_, ?_, fun i d hd => ?_, ?_, h.pending, fun d hd => ?_, h.watchers⟩
  · simp only [PendingHub.published, length_append, length_singleton, hrev, hlen]
  · simp only [PendingHub.published, hrev]
    exact hpub.room
  · rw [PendingHub.published, hrev] at hd
    rcases Nat.lt_or_ge i (hub.partition client).log.length with hi | hi
    · rw [getElem?_append_left hi] at hd
      exact h.numbered i d hd
    · obtain ⟨hlt, heq⟩ := List.getElem?_eq_some_iff.mp hd
      rw [length_append, length_singleton] at hlt
      obtain rfl : i = (hub.partition client).log.length := by omega
      simp only [getElem_concat_length] at heq
      rw [← heq, hlen]
  · simp only [PendingHub.published, hrev, hview]
    exact h.follows.snoc hlast _
  · rw [PendingHub.published, mem_append, mem_singleton] at hd
    rcases hd with hd | rfl
    · exact h.owned d hd
    · exact hpub.owned

theorem PartitionOk.mono {p : Partition} (h : hub.PartitionOk client p)
    (hof : ∀ ref value, hub.CallOf client ref value → hub'.CallOf client ref value)
    (hwatchers : hub'.watchers = hub.watchers) : hub'.PartitionOk client p := by
  simp only [partitionOk_iff, hwatchers] at *
  grind

theorem mem_sortedWatcherIDs {watchers : AList fun _ : ℕ => ℕ} {id ref : ℕ}
    (h : watchers.lookup id = some ref) : id ∈ sortedWatcherIDs watchers := by
  refine (perm_insertionSort _ _).mem_iff.mpr ?_
  exact AList.mem_keys.mp (AList.lookup_isSome.mp (by rw [h]; rfl))

theorem nodup_sortedWatcherIDs (watchers : AList fun _ : ℕ => ℕ) :
    (sortedWatcherIDs watchers).Nodup :=
  (perm_insertionSort _ _).nodup_iff.mpr watchers.keys_nodup

/-- Every registered observer of the client is owed the delta that was added to the log. -/
theorem WatcherOk.published (h : hub.WatcherOk ref watcher [])
    (hpartition :
    hub'.partition = (hub.setPartition client (hub.published client kind pending)).partition)
    (hclients : hub'.clients = hub.clients) :
    hub'.WatcherOk ref watcher (owing client
      ⟨((hub.partition client).revision + 1) % 2 ^ 64, kind, pending⟩
      (sortedWatcherIDs (hub.partition client).watchers) watcher.client watcher.id) := by
  rcases eq_or_ne watcher.client client with rfl | hne
  · have hself : hub'.partition watcher.client = hub.published watcher.client kind pending := by
      rw [hpartition, setPartition_self]
    have hdrop : ∀ tail : List Delta,
        ((hub.partition watcher.client).log ++ tail).drop watcher.snapshot.revision =
          (hub.partition watcher.client).log.drop watcher.snapshot.revision ++ tail :=
      fun _ => drop_append_of_le_length h.revision
    rw [watcherOk_iff, hself, hclients]
    refine ⟨h.known, h.registered, h.stopping, h.stop, h.left, h.done, ?_, ?_, fun hact => ?_,
      ?_, h.cursor⟩
    · rw [PendingHub.published, length_append]
      exact h.revision.trans (Nat.le_add_right _ _)
    · rw [PendingHub.published, getElem?_append_left]
      · exact h.snapshot
      · exact (List.getElem?_eq_some_iff.mp h.snapshot).1
    · have howed := mem_sortedWatcherIDs (h.registered hact)
      rw [PendingHub.published, hdrop, owing, if_pos ⟨rfl, howed⟩, ← h.live hact, append_nil]
    · rw [PendingHub.published, hdrop]
      exact h.ended.trans (prefix_append _ _)
  · have hsame : hub'.partition watcher.client = hub.partition watcher.client := by
      rw [hpartition, setPartition_ne _ hne]
    rw [owing, if_neg fun hboth => hne hboth.1]
    exact h.frame (fun c hc => hclients ▸ hc) (hsame ▸ .refl _)

theorem InvOwing.publish (h : hub.InvOwing fun _ _ => [])
    (hpub : hub.Publishable client kind pending)
    (hcurrent : ∀ c, c ≠ client → (hub.partition c).views.getLast? = some (hub.view c)) :
    (hub.publish client kind pending).Inv := by
  have hready : (hub.setPartition client (hub.published client kind pending)).InvOwing
      (owing client ⟨((hub.partition client).revision + 1) % 2 ^ 64, kind, pending⟩
        (sortedWatcherIDs (hub.partition client).watchers)) := by
    refine ⟨fun c => ?_, fun i w hw => (h.watchers i w hw).published rfl rfl⟩
    rcases eq_or_ne c client with rfl | hne
    · rw [setPartition_self]
      exact ((h.partitions c).published hpub).mono (fun _ _ hc => hc) rfl
    · rw [setPartition_ne _ hne]
      exact (h.partitions c).mono (fun _ _ hc => hc) rfl
  refine ⟨hready.offers (nodup_sortedWatcherIDs _), (hub.publish_aside ..).current fun c => ?_⟩
  rcases eq_or_ne c client with rfl | hne
  · have hself := hub.setPartition_self c (hub.published c kind pending)
    rw [view_congr ((congrArg Partition.pending hself).trans rfl) rfl, hself, PendingHub.published,
      getLast?_concat]
  · have hsame := hub.setPartition_ne hne (hub.published client kind pending)
    rw [view_congr (congrArg Partition.pending hsame) rfl, hsame]
    exact hcurrent c hne

end PendingHub

end SpiceAgent.Daemon
