import SpiceAgent.Daemon.PendingEdits
import SpiceAgent.Daemon.PendingInvariant

/-!
# Every operation of the pending hub keeps its invariant

One lemma for each function that runs under the hub's lock, and from them the step lemma of the
system and the invariant of its runs.
-/

namespace SpiceAgent.Daemon

open SpiceAgent.Lib Finmap List
open Function (update update_apply update_of_ne update_self)

namespace PendingHub

variable {hub hub' : PendingHub} {ref : ℕ} {watcher watcher' : Watcher} {client : String}
  {owed : String → ℕ → List Delta}

/-! ## Opening and closing interactions -/

theorem lookup_view (hub : PendingHub) (c : String) (key : PendingKey) :
    (hub.view c).lookup key = ((hub.partition c).pending.lookup key).map hub.valueOf := by
  unfold PendingHub.view
  rw [dlookup_list_toFinmap]
  exact @dlookup_map₂ PendingKey _ (fun _ => ℕ) (fun _ => Pending) _ (fun _ => hub.valueOf) key

variable {c : String} {value : Pending}

theorem valueOf_eq (h : hub.CallOf c ref value) : hub.valueOf ref = value := by
  obtain ⟨call, binding, hcall, hvalue, -⟩ := h
  simp [PendingHub.valueOf, hcall, hvalue]

/-- No call or binding is lost, and all keep their value and their client. -/
structure Keeps (hub hub' : PendingHub) : Prop where
  calls : ∀ i call, hub.calls i = some call → ∃ call', hub'.calls i = some call' ∧
    call'.value = call.value ∧ call'.binding = call.binding
  bindings : ∀ i binding, hub.bindings i = some binding → ∃ binding', hub'.bindings i =
    some binding' ∧ binding'.clientID = binding.clientID

section

variable (hk : hub.Keeps hub')
include hk

theorem Keeps.callOf (h : hub.CallOf c ref value) : hub'.CallOf c ref value := by
  obtain ⟨call, binding, hcall, hvalue, hbinding, hclient⟩ := h
  obtain ⟨call', hcall', hvalue', hsame⟩ := hk.calls ref call hcall
  obtain ⟨binding', hbinding', hclient'⟩ := hk.bindings _ binding hbinding
  exact ⟨call', binding', hcall', hvalue'.trans hvalue, hsame ▸ hbinding', hclient'.trans hclient⟩

theorem Keeps.valueOf (h : hub.CallOf c ref value) : hub'.valueOf ref = hub.valueOf ref :=
  (valueOf_eq (hk.callOf h)).trans (valueOf_eq h).symm

theorem Keeps.map_valueOf (hp : hub.PartitionOk c (hub.partition c)) (key : PendingKey) :
    ((hub.partition c).pending.lookup key).map hub'.valueOf =
      ((hub.partition c).pending.lookup key).map hub.valueOf := by
  cases hl : (hub.partition c).pending.lookup key with
  | none => rfl
  | some ref =>
    obtain ⟨value, hcall, -⟩ := hp.pending key ref hl
    exact congrArg some (hk.valueOf hcall)

theorem Keeps.view (hp : hub.PartitionOk c (hub.partition c))
    (hpending : (hub'.partition c).pending = (hub.partition c).pending) :
    hub'.view c = hub.view c := by
  refine ext_lookup fun key => ?_
  rw [lookup_view, lookup_view, hpending]
  exact hk.map_valueOf hp key

end

/-- A change of what is pending for one client, before it is published. -/
structure PendingStep (hub hub' : PendingHub) (client : String)
    (q : AList fun _ : PendingKey => ℕ) : Prop where
  keeps : hub.Keeps hub'
  clients : hub'.clients = hub.clients
  watchers : hub'.watchers = hub.watchers
  watcherWG : hub'.watcherWG = hub.watcherWG
  closed : hub'.closed = hub.closed
  elsewhere : ∀ c, c ≠ client → hub'.partition c = hub.partition c
  here : ({ hub.partition client with pending := q } : Partition).SameCore (hub'.partition client)

variable {q : AList fun _ : PendingKey => ℕ}

theorem PendingStep.invOwing (hs : hub.PendingStep hub' client q) (h : hub.InvOwing owed)
    (hroom : (hub.partition client).revision + q.keys.length ≤ maxRevision)
    (hpending : ∀ key ref, q.lookup key = some ref →
      ∃ value, hub'.CallOf client ref value ∧ value.key = key) : hub'.InvOwing owed := by
  refine ⟨fun c => ?_, fun ref w hw => ?_⟩
  · have hp := h.partitions c
    rcases eq_or_ne c client with rfl | hne
    · obtain ⟨hrev, hnext, hpend, hwatch, -, hlog, hviews⟩ := hs.here
      simp only [partitionOk_iff, hrev, hnext, hpend, hwatch, hlog, hviews, hs.watchers] at hp ⊢
      refine ⟨hp.1, hroom, hp.2.2.1, hp.2.2.2.1, hpending, fun d hd => ?_, hp.2.2.2.2.2.2⟩
      exact (hp.2.2.2.2.2.1 d hd).imp fun ref => hs.keeps.callOf
    · rw [hs.elsewhere c hne]
      exact hp.mono (fun _ _ hc => hs.keeps.callOf hc) hs.watchers
  · have hok := h.watchers ref w (hs.watchers ▸ hw)
    have hcore : (hub'.partition w.client).watchers = (hub.partition w.client).watchers ∧
        (hub'.partition w.client).stopping = (hub.partition w.client).stopping ∧
        (hub'.partition w.client).log = (hub.partition w.client).log ∧
        (hub'.partition w.client).views = (hub.partition w.client).views := by
      rcases eq_or_ne w.client client with heq | hne
      · rw [heq]
        exact ⟨hs.here.watchers, hs.here.stopping, hs.here.log, hs.here.views⟩
      · simp [hs.elsewhere _ hne]
    exact hok.congr (fun c hin => hs.clients ▸ hin) hcore.1 hcore.2.1 hcore.2.2.1 hcore.2.2.2

theorem PendingStep.publish (hs : hub.PendingStep hub' client q) (h : hub.Inv) (kind : DeltaKind)
    (value : Pending) (hroom : (hub.partition client).revision + 1 + q.keys.length ≤ maxRevision)
    (hpending : ∀ key ref, q.lookup key = some ref →
      ∃ value, hub'.CallOf client ref value ∧ value.key = key)
    (hview : hub'.view client =
      Delta.apply (hub.view client) ⟨(hub.partition client).revision + 1, kind, value⟩)
    (howned : ∃ ref, hub'.CallOf client ref value) : (hub'.publish client kind value).Inv := by
  have howing := hs.invOwing h.owing (by omega) hpending
  obtain ⟨hrev, -, hpend, -, -, -, hviews⟩ := hs.here
  refine howing.publish ⟨?_, ⟨hub.view client, ?_, ?_⟩, howned⟩ fun c hne => ?_
  · rwa [hrev, hpend]
  · rw [hviews]
    exact h.current client
  · rwa [hrev]
  · rw [hs.elsewhere c hne, hs.keeps.view (h.owing.partitions c) (by rw [hs.elsewhere c hne])]
    exact h.current c

theorem Keeps.setBinding {i : ℕ} {binding : RunBinding} (binding' : RunBinding)
    (h : hub.bindings i = some binding) (hclient : binding'.clientID = binding.clientID)
    (hcalls : hub'.calls = hub.calls)
    (hbindings : hub'.bindings = update hub.bindings i (some binding')) : hub.Keeps hub' := by
  refine ⟨fun j call hcall => ⟨call, hcalls ▸ hcall, rfl, rfl⟩, fun j st hst => ?_⟩
  rw [hbindings, update_apply]
  split_ifs with hj
  · exact ⟨binding', rfl, by grind⟩
  · exact ⟨st, hst, rfl⟩

/-- The hub with a new pending call, before it is published. -/
def recorded (hub : PendingHub) (ref binding : ℕ) (state : RunBinding) (value : Pending) :
    PendingHub :=
  let p := hub.partition state.clientID
  { ((hub.setPartition state.clientID { p with
      pending := p.pending.insert value.key ref
      pendingBytes := p.pendingBytes + value.bytes }).setCall ref
        { value, binding, done := false, result := none }).setBinding binding
          { state with active := state.active + 1 } with
    pendingCount := hub.pendingCount + 1
    pendingBytes := hub.pendingBytes + value.bytes }

theorem recorded_step {binding : ℕ} {state : RunBinding} (value : Pending)
    (hbinding : hub.bindings binding = some state) (href : hub.calls ref = none) :
    hub.PendingStep (hub.recorded ref binding state value) state.clientID
      ((hub.partition state.clientID).pending.insert value.key ref) := by
  refine ⟨⟨fun i call hcall => ?_, fun i st hst => ?_⟩, rfl, rfl, rfl, rfl,
    fun c hne => hub.setPartition_ne hne _, ?_⟩
  · have hne : i ≠ ref := by
      rintro rfl
      rw [href] at hcall
      cases hcall
    exact ⟨call, (update_of_ne hne _ _).trans hcall, rfl, rfl⟩
  · rcases eq_or_ne i binding with rfl | hne
    · cases hbinding.symm.trans hst
      exact ⟨_, update_self .., rfl⟩
    · exact ⟨st, (update_of_ne hne _ _).trans hst, rfl⟩
  · have hself := hub.setPartition_self state.clientID { hub.partition state.clientID with
      pending := (hub.partition state.clientID).pending.insert value.key ref
      pendingBytes := (hub.partition state.clientID).pendingBytes + value.bytes }
    exact hself ▸ ⟨rfl, rfl, rfl, rfl, rfl, rfl, rfl⟩

theorem recorded_callOf (hub : PendingHub) (ref binding : ℕ) (state : RunBinding)
    (value : Pending) : (hub.recorded ref binding state value).CallOf state.clientID ref value :=
  ⟨_, _, update_self .., rfl, update_self .., rfl⟩

theorem Inv.openCall (h : hub.Inv) {binding : ℕ} {state : RunBinding} (href : hub.calls ref = none)
    (hadmits : hub.Admits binding state value) : (hub.openCall ref binding state value).Inv := by
  have hroom := hadmits.room
  have hs := recorded_step value hadmits.binding href
  have hnew := hub.recorded_callOf ref binding state value
  have hp := h.owing.partitions state.clientID
  refine hs.publish h .opened value ?_ (fun key i hl => ?_) ?_ ⟨ref, hnew⟩
  · rw [AList.keys_insert, length_cons, erase_of_not_mem (AList.mem_keys.not.mp hadmits.key)]
    omega
  · rcases eq_or_ne key value.key with rfl | hne
    · rw [AList.lookup_insert, Option.some.injEq] at hl
      exact ⟨value, hl ▸ hnew, rfl⟩
    · rw [AList.lookup_insert_ne hne] at hl
      obtain ⟨v, hcall, hv⟩ := hp.pending key i hl
      exact ⟨v, hs.keeps.callOf hcall, hv⟩
  · refine ext_lookup fun key => ?_
    rw [lookup_view, hs.here.pending, Delta.apply]
    rcases eq_or_ne key value.key with rfl | hne
    · rw [AList.lookup_insert, lookup_insert, Option.map_some, valueOf_eq hnew]
    · rw [AList.lookup_insert_ne hne, lookup_insert_of_ne _ hne, lookup_view]
      exact hs.keeps.map_valueOf hp key

/-- The hub without a pending call, before that is published. -/
def settled (hub : PendingHub) (client : String) (key : PendingKey) (ref : ℕ) (call : PendingCall)
    (result : PendingResult) : PendingHub :=
  let p := hub.partition client
  let size := call.value.bytes
  let hub := { (hub.setPartition client { p with
      pending := p.pending.erase key
      pendingBytes := p.pendingBytes - size }).setCall ref { call with result := some result } with
    pendingCount := hub.pendingCount - 1
    pendingBytes := hub.pendingBytes - size }
  match hub.bindings call.binding with
  | none => hub
  | some binding => hub.setBinding call.binding { binding with active := binding.active - 1 }

variable {call : PendingCall}

theorem settled_step (client : String) (hcall : hub.calls ref = some call) (key : PendingKey)
    (result : PendingResult) :
    hub.PendingStep (hub.settled client key ref call result) client
      ((hub.partition client).pending.erase key) := by
  have hcore : ({ hub.partition client with
      pending := (hub.partition client).pending.erase key } : Partition).SameCore
      ((hub.setPartition client { hub.partition client with
        pending := (hub.partition client).pending.erase key
        pendingBytes := (hub.partition client).pendingBytes - call.value.bytes }).partition
          client) := by
    rw [setPartition_self]
    exact ⟨rfl, rfl, rfl, rfl, rfl, rfl, rfl⟩
  have hcalls : ∀ i c, hub.calls i = some c →
      ∃ c', update hub.calls ref (some { call with result := some result }) i = some c' ∧
        c'.value = c.value ∧ c'.binding = c.binding := by
    intro i c hc
    rcases eq_or_ne i ref with rfl | hne
    · cases hcall.symm.trans hc
      exact ⟨_, update_self .., rfl, rfl⟩
    · exact ⟨c, (update_of_ne hne _ _).trans hc, rfl, rfl⟩
  unfold settled
  cases hb : hub.bindings call.binding with
  | none =>
    simp only [setPartition, setCall, hb]
    exact ⟨⟨hcalls, fun i st hst => ⟨st, hst, rfl⟩⟩, rfl, rfl, rfl, rfl,
      fun c hne => hub.setPartition_ne hne _, hcore⟩
  | some binding =>
    simp only [setPartition, setCall, hb]
    refine ⟨⟨hcalls, fun i st hst => ?_⟩, rfl, rfl, rfl, rfl,
      fun c hne => hub.setPartition_ne hne _, hcore⟩
    rcases eq_or_ne i call.binding with rfl | hne
    · cases hb.symm.trans hst
      exact ⟨_, update_self .., rfl⟩
    · exact ⟨st, (update_of_ne hne _ _).trans hst, rfl⟩

theorem Frame.of_keeps (hk : hub.Keeps hub') (hvalues : hub'.calls = hub.calls)
    (hclients : hub'.clients = hub.clients) (hwatchers : hub'.watchers = hub.watchers)
    (hcore : ∀ c, (hub.partition c).SameCore (hub'.partition c)) : hub.Frame hub' :=
  ⟨fun _ hc => hclients ▸ hc, hcore, hwatchers, fun _ => by rw [hvalues], fun _ _ _ => hk.callOf⟩

theorem Frame.setPartition (client : String) (p : Partition)
    (hp : (hub.partition client).SameCore p)
    (hk : hub.Keeps hub') (hcalls : hub'.calls = hub.calls) (hclients : hub'.clients = hub.clients)
    (hwatchers : hub'.watchers = hub.watchers)
    (hpartition : hub'.partition = (hub.setPartition client p).partition) : hub.Frame hub' := by
  refine .of_keeps hk hcalls hclients hwatchers fun c => ?_
  rw [hpartition]
  rcases eq_or_ne c client with rfl | hne
  · rw [setPartition_self]
    exact hp
  · rw [setPartition_ne _ hne]
    exact .refl _

theorem removeReleasedBinding_frame (hub : PendingHub) (ref : ℕ) :
    hub.Frame (hub.removeReleasedBinding ref) := by
  unfold removeReleasedBinding
  split
  · exact .refl hub
  next binding hbinding =>
    split_ifs
    · exact .refl hub
    · exact .setPartition binding.clientID { hub.partition binding.clientID with
          boundRuns := (hub.partition binding.clientID).boundRuns - 1 }
        ⟨rfl, rfl, rfl, rfl, rfl, rfl, rfl⟩
        (.setBinding { binding with released := true } hbinding rfl rfl rfl) rfl rfl rfl rfl
    · exact .refl hub

theorem Inv.finishCall (h : hub.Inv) {key : PendingKey}
    (hkey : (hub.partition client).pending.lookup key = some ref)
    (hcall : hub.calls ref = some call) (result : PendingResult) :
    (hub.finishCall client key ref call result).Inv := by
  have hs := settled_step client hcall key result
  have hp := h.owing.partitions client
  obtain ⟨value, hof, hvalue⟩ := hp.pending key ref hkey
  obtain rfl : call.value = value := by
    obtain ⟨call', -, hcall', rfl, -⟩ := hof
    rw [Option.some.inj (hcall.symm.trans hcall')]
  have hmem : key ∈ (hub.partition client).pending.keys :=
    AList.mem_keys.mp (AList.lookup_isSome.mp (by rw [hkey]; rfl))
  have hpub := hs.publish h .closed call.value ?_ (fun k i hl => ?_) ?_
    ⟨ref, hs.keeps.callOf hof⟩
  · have hframe := removeReleasedBinding_frame
      ((hub.settled client key ref call result).publish client .closed call.value) call.binding
    exact hpub.frame hframe
  · have hroom := hp.room
    have hpos := length_pos_of_mem hmem
    rw [AList.keys_erase, length_erase_of_mem hmem]
    omega
  · have hne : k ≠ key := by
      rintro rfl
      rw [AList.lookup_erase] at hl
      cases hl
    rw [AList.lookup_erase_ne hne] at hl
    obtain ⟨v, hv, hk⟩ := hp.pending k i hl
    exact ⟨v, hs.keeps.callOf hv, hk⟩
  · refine ext_lookup fun k => ?_
    rw [lookup_view, hs.here.pending, Delta.apply, hvalue]
    rcases eq_or_ne k key with rfl | hne
    · rw [AList.lookup_erase, lookup_erase, Option.map_none]
    · rw [AList.lookup_erase_ne hne, lookup_erase_ne hne, lookup_view]
      exact hs.keeps.map_valueOf hp k

/-! ## Runs and calls -/

theorem partitionOk_new (hub : PendingHub) (c : String) : hub.PartitionOk c .new where
  revision := rfl
  room := Nat.zero_le _
  numbered _ _ h := by cases h
  follows := .init _ _
  pending _ _ h := by cases h
  owned _ h := by cases h
  watchers _ _ h := by cases h

/-- `partitionLocked` keeps the invariant: no observer has a client without a partition. -/
theorem Inv.createPartition (h : hub.Inv) (hc : hub.createPartition client = some hub') :
    hub'.Inv ∧ client ∈ hub'.clients := by
  unfold PendingHub.createPartition at hc
  split_ifs at hc with hin hfull
  · cases hc
    exact ⟨h, hin⟩
  · cases hc
    refine ⟨⟨⟨fun c => ?_, fun i w hw => ?_⟩, fun c => ?_⟩, Finset.mem_insert_self ..⟩
    · show PartitionOk _ c ((hub.setPartition client .new).partition c)
      rcases eq_or_ne c client with rfl | hne
      · rw [setPartition_self]
        exact partitionOk_new _ c
      · rw [setPartition_ne _ hne]
        exact (h.owing.partitions c).mono (fun _ _ hc => hc) rfl
    · have hok := h.owing.watchers i w hw
      have hne : w.client ≠ client := fun heq => hin (heq ▸ hok.known)
      have hsame := hub.setPartition_ne hne .new
      exact hok.frame (fun _ hc => Finset.mem_insert_of_mem hc) (hsame.symm ▸ .refl _)
    · show ((hub.setPartition client .new).partition c).views.getLast? =
        some ((hub.setPartition client .new).view c)
      rcases eq_or_ne c client with rfl | hne
      · rw [setPartition_self, view, setPartition_self]
        rfl
      · have hview : (hub.setPartition client .new).view c = hub.view c :=
          view_congr (by rw [setPartition_ne _ hne]) rfl
        rw [setPartition_ne _ hne, hview]
        exact h.current c

theorem bound_frame (hfresh : hub.bindings ref = none) (client runID : String) :
    hub.Frame (hub.bound ref client runID) := by
  refine .setPartition client
    { hub.partition client with boundRuns := (hub.partition client).boundRuns + 1 }
    ⟨rfl, rfl, rfl, rfl, rfl, rfl, rfl⟩
    ⟨fun i call hcall => ⟨call, hcall, rfl, rfl⟩, fun i st hst => ⟨st, ?_, rfl⟩⟩ rfl rfl rfl rfl
  exact (update_of_ne (by grind) _ _).trans hst

theorem setBinding_frame {binding : RunBinding} (binding' : RunBinding)
    (h : hub.bindings ref = some binding) (hclient : binding'.clientID = binding.clientID) :
    hub.Frame (hub.setBinding ref binding') :=
  .of_keeps (.setBinding binding' h hclient rfl rfl) rfl rfl rfl fun _ => .refl _

theorem stopAccepting_frame (hub : PendingHub) (ref : ℕ) : hub.Frame (hub.stopAccepting ref) := by
  unfold stopAccepting
  split
  · exact .refl hub
  next binding hbinding =>
    exact setBinding_frame { binding with accepting := false } hbinding rfl

theorem setCall_frame (call' : PendingCall) (h : hub.calls ref = some call)
    (hvalue : call'.value = call.value) (hbinding : call'.binding = call.binding) :
    hub.Frame (hub.setCall ref call') := by
  have hk : hub.Keeps (hub.setCall ref call') := by
    refine ⟨fun i c hc => ?_, fun i st hst => ⟨st, hst, rfl⟩⟩
    simp only [setCall, update_apply]
    split_ifs with hi
    · exact ⟨call', rfl, by grind⟩
    · exact ⟨c, hc, rfl, rfl⟩
  refine ⟨fun _ hc => hc, fun _ => .refl _, rfl, fun i => ?_, fun _ _ _ => hk.callOf⟩
  simp only [setCall, update_apply]
  split_ifs with hi
  · simp [hi, h, hvalue]
  · rfl

/-! ## Subscriptions -/

theorem lookup_foldl_insert (values : List Pending)
    (hkeys : ∀ v ∈ values, ∀ v' ∈ values, v.key = v'.key → v = v') (set : PendingSet) :
    (∀ v ∈ values, (values.foldl (fun set value => set.insert value.key value) set).lookup v.key =
      some v) ∧
    ∀ key, (∀ v ∈ values, v.key ≠ key) →
      (values.foldl (fun set value => set.insert value.key value) set).lookup key =
        set.lookup key := by
  induction values generalizing set with
  | nil => exact ⟨by simp, fun _ _ => rfl⟩
  | cons a rest ih =>
    obtain ⟨hin, hout⟩ := ih (fun v hv v' hv' => hkeys v (mem_cons_of_mem a hv) v'
      (mem_cons_of_mem a hv')) (set.insert a.key a)
    rw [foldl_cons]
    refine ⟨fun v hv => ?_, fun key hkey => ?_⟩
    · rcases mem_cons.mp hv with rfl | hv
      · by_cases hlater : ∃ v' ∈ rest, v'.key = v.key
        · -- a later value with the same key is the same value
          obtain ⟨v', hv', hkey⟩ := hlater
          obtain rfl := hkeys v' (mem_cons_of_mem _ hv') v mem_cons_self hkey
          exact hin v' hv'
        · rw [hout v.key fun v' hv' hkey => hlater ⟨v', hv', hkey⟩]
          exact lookup_insert _
      · exact hin v hv
    · rw [hout key fun v hv => hkey v (mem_cons_of_mem a hv)]
      exact lookup_insert_of_ne _ (hkey a mem_cons_self).symm

theorem mem_snapshot {v : Pending} : v ∈ (hub.snapshot client).pending ↔
    ∃ key ref, (hub.partition client).pending.lookup key = some ref ∧ hub.valueOf ref = v := by
  rw [PendingHub.snapshot, (perm_insertionSort _ _).mem_iff, mem_map]
  constructor
  · rintro ⟨⟨key, ref⟩, hmem, rfl⟩
    exact ⟨key, ref, AList.mem_lookup_iff.mpr hmem, rfl⟩
  · rintro ⟨key, ref, hl, rfl⟩
    exact ⟨⟨key, ref⟩, AList.mem_lookup_iff.mp hl, rfl⟩

theorem PartitionOk.snapshot (hp : hub.PartitionOk client (hub.partition client)) :
    (hub.snapshot client).set = hub.view client := by
  have hkey : ∀ key ref, (hub.partition client).pending.lookup key = some ref →
      (hub.valueOf ref).key = key := by
    intro key ref hl
    obtain ⟨value, hcall, hk⟩ := hp.pending key ref hl
    rw [valueOf_eq hcall, hk]
  obtain ⟨hin, hout⟩ := lookup_foldl_insert (hub.snapshot client).pending (by
    intro v hv v' hv' heq
    obtain ⟨key, ref, hl, rfl⟩ := mem_snapshot.mp hv
    obtain ⟨key', ref', hl', rfl⟩ := mem_snapshot.mp hv'
    rw [hkey key ref hl, hkey key' ref' hl'] at heq
    rw [heq, hl'] at hl
    rw [Option.some.inj hl]) ∅
  refine ext_lookup fun key => ?_
  rw [lookup_view]
  cases hl : (hub.partition client).pending.lookup key with
  | none =>
    refine (hout key fun v hv heq => ?_).trans (by simp)
    obtain ⟨key', ref, hl', rfl⟩ := mem_snapshot.mp hv
    rw [hkey key' ref hl'] at heq
    rw [heq, hl] at hl'
    cases hl'
  | some ref =>
    have hv := hin (hub.valueOf ref) (mem_snapshot.mpr ⟨key, ref, hl, rfl⟩)
    rw [hkey key ref hl] at hv
    exact hv

variable (hub)

/-- The partition of a client with one more observer. -/
def enlisted (ref : ℕ) (client : String) : Partition :=
  let p := hub.partition client
  { p with
    nextWatcher := p.nextWatcher + 1
    watchers := p.watchers.insert (p.nextWatcher + 1) ref
    reservedEntries := p.reservedEntries + hub.limits.observerQueueEntries
    reservedBytes := p.reservedBytes + hub.limits.observerQueueBytes }

def observer (client : String) : Watcher :=
  let p := hub.partition client
  { client, id := p.nextWatcher + 1, snapshot := hub.snapshot client, queue := [], active := true,
    err := none, exhausted := false, lastDelivered := p.revision, queuedCount := 0,
    queuedBytes := 0, stop := false, done := false, phase := .idle, received := [] }

theorem register_partition_self (ref : ℕ) (client : String) :
    (hub.register ref client).partition client = hub.enlisted ref client :=
  hub.setPartition_self client _

theorem register_partition_ne (ref : ℕ) {client : String} (hne : c ≠ client) :
    (hub.register ref client).partition c = hub.partition c :=
  hub.setPartition_ne hne _

theorem register_watchers (ref : ℕ) (client : String) : (hub.register ref client).watchers =
      update hub.watchers ref (some (hub.observer client)) := rfl

variable {hub}

theorem InvOwing.id_le (h : hub.InvOwing owed) (hw : hub.watchers ref = some watcher)
    (hactive : watcher.active) : watcher.id ≤ (hub.partition watcher.client).nextWatcher :=
  ((h.partitions _).watchers _ ref ((h.watchers ref watcher hw).registered hactive)).1

theorem InvOwing.enlisted (h : hub.InvOwing owed) (href : hub.watchers ref = none) (c : String) :
    (hub.register ref client).PartitionOk c ((hub.register ref client).partition c) := by
  have hp := h.partitions c
  have hold : ∀ {i : ℕ} {w : Watcher}, hub.watchers i = some w →
      (hub.register ref client).watchers i = some w := fun {i w} hw => by
    rw [register_watchers, update_of_ne (by grind), hw]
  rcases eq_or_ne c client with rfl | hne
  · rw [register_partition_self]
    refine ⟨hp.revision, hp.room, hp.numbered, hp.follows, hp.pending, hp.owned, fun id i hl => ?_⟩
    simp only [PendingHub.enlisted] at hl ⊢
    rcases eq_or_ne id ((hub.partition c).nextWatcher + 1) with rfl | hid
    · rw [AList.lookup_insert, Option.some.injEq] at hl
      refine ⟨le_rfl, hub.observer c, ?_, rfl, rfl, rfl⟩
      rw [register_watchers, hl, update_self]
    · rw [AList.lookup_insert_ne hid] at hl
      obtain ⟨hle, w, hw, hrest⟩ := hp.watchers id i hl
      exact ⟨by omega, w, hold hw, hrest⟩
  · rw [register_partition_ne hub ref hne]
    refine ⟨hp.revision, hp.room, hp.numbered, hp.follows, hp.pending, hp.owned, fun id i hl => ?_⟩
    obtain ⟨hle, w, hw, hrest⟩ := hp.watchers id i hl
    exact ⟨hle, w, hold hw, hrest⟩

theorem Inv.observer (h : hub.Inv) (hclient : client ∈ hub.clients) :
    (hub.register ref client).WatcherOk ref (hub.observer client) [] := by
  have hp := h.owing.partitions client
  have hself := hub.register_partition_self ref client
  have hlast := h.current client
  rw [getLast?_eq_getElem?, hp.follows.length, Nat.add_sub_cancel, hp.revision] at hlast
  have hdrop : (hub.partition client).log.drop (hub.partition client).revision = [] :=
    drop_eq_nil_of_le hp.revision.le
  simp only [watcherOk_iff, show (hub.observer client).client = client from rfl, hself]
  exact ⟨hclient, fun _ => AList.lookup_insert _, .inl rfl, rfl, nofun, rfl, hp.revision.ge,
    hlast.trans (congrArg some hp.snapshot.symm), fun _ => hdrop.symm, nil_prefix, rfl⟩

theorem Inv.register (h : hub.Inv) (hclient : client ∈ hub.clients)
    (href : hub.watchers ref = none) : (hub.register ref client).Inv := by
  refine ⟨⟨h.owing.enlisted href, fun i w hw => ?_⟩, fun c => ?_⟩
  · rw [register_watchers, update_apply] at hw
    split_ifs at hw with hi
    · cases hw
      exact hi ▸ h.observer hclient
    · have hok := h.owing.watchers i w hw
      rcases eq_or_ne w.client client with rfl | hne
      · have hid := h.owing.id_le hw
        simp only [watcherOk_iff, register_partition_self, PendingHub.enlisted] at hok ⊢
        refine hok.imp_right (And.imp_left fun hreg hact => ?_)
        rw [AList.lookup_insert_ne (by have := hid hact; omega)]
        exact hreg hact
      · have hsame := hub.register_partition_ne ref hne
        exact hok.frame (fun _ hc => hc) (hsame.symm ▸ .refl _)
  · have hpending : ((hub.register ref client).partition c).pending = (hub.partition c).pending ∧
        ((hub.register ref client).partition c).views = (hub.partition c).views := by
      rcases eq_or_ne c client with rfl | hne
      · exact hub.register_partition_self ref c ▸ ⟨rfl, rfl⟩
      · exact hub.register_partition_ne ref hne ▸ ⟨rfl, rfl⟩
    rw [hpending.2, view_congr hpending.1 rfl]
    exact h.current c

/-! ## Delivery -/

theorem PartitionOk.numbered_drop (hp : hub.PartitionOk client (hub.partition client)) {r : ℕ}
    {l : List Delta} (hl : l <+: (hub.partition client).log.drop r) {i : ℕ} {d : Delta}
    (hd : l[i]? = some d) : d.revision = r + i + 1 := by
  obtain ⟨hlt, rfl⟩ := List.getElem?_eq_some_iff.mp hd
  have hlog := prefix_iff_getElem?.mp hl i hlt
  rw [getElem?_drop] at hlog
  exact hp.numbered (r + i) _ hlog

theorem received_begins (watcher : Watcher) : watcher.received <+: watcher.stream := by
  unfold Watcher.stream
  split
  any_goals exact prefix_append ..
  all_goals exact prefix_rfl

theorem WatcherOk.lastReceived {owed : List Delta} (h : hub.WatcherOk ref watcher owed)
    (hp : hub.PartitionOk watcher.client (hub.partition watcher.client)) :
    watcher.lastReceived = watcher.snapshot.revision + watcher.received.length := by
  have hprefix := (received_begins watcher).trans h.ended
  unfold Watcher.lastReceived
  cases hlast : watcher.received.getLast? with
  | none => simp [getLast?_eq_none_iff.mp hlast]
  | some d =>
    rw [getLast?_eq_getElem?] at hlast
    have hlt := (List.getElem?_eq_some_iff.mp hlast).1
    have hd := hp.numbered_drop hprefix hlast
    rw [Option.map_some, Option.getD_some, hd]
    omega

theorem WatcherOk.advance {owed : List Delta} (h : hub.WatcherOk ref watcher owed)
    (hs : hub.WatcherStep hub' ref watcher watcher') (hactive : watcher'.active = watcher.active)
    (hstop : watcher'.stop = watcher.stop) (hleft : watcher'.left → watcher.active = false)
    (hdone : watcher'.done = watcher'.ended)
    (hstopping : ref ∈ (hub.partition watcher.client).stopping →
      ref ∈ (hub'.partition watcher.client).stopping ∨ watcher'.phase = .gone)
    (hgone : watcher.phase ≠ .gone) (hstream : watcher'.stream <+: watcher.stream)
    (hkept : watcher.active → watcher'.stream = watcher.stream) (hcursor : watcher'.CursorOk) :
    hub'.WatcherOk ref watcher' owed := by
  have hc := hs.client
  have hsnap := hs.snapshot
  refine ⟨?_, fun hact => ?_, ?_, ?_, ?_, hdone, ?_, ?_, fun hact => ?_, ?_, hcursor⟩
  · rw [hc, hs.clients]
    exact h.known
  · rw [hactive] at hact
    rw [hc, hs.id, hs.registered, if_neg (by simp [hactive, hact])]
    exact h.registered hact
  · rw [hc, hactive]
    rcases h.stopping with hact | hin | hg
    · exact .inl hact
    · exact .inr (hstopping hin)
    · exact absurd hg hgone
  · rw [hstop, hactive]
    exact h.stop
  · rw [hactive]
    exact hleft
  · rw [hsnap, hc, hs.log]
    exact h.revision
  · rw [hsnap, hc, hs.views]
    exact h.snapshot
  · rw [hactive] at hact
    rw [hsnap, hc, hs.log, hkept hact]
    exact h.live hact
  · rw [hsnap, hc, hs.log]
    exact hstream.trans h.ended

theorem setWatcher_step (hw : hub.watchers ref = some watcher) (hid : watcher'.id = watcher.id)
    (hclient : watcher'.client = watcher.client) (hsnapshot : watcher'.snapshot = watcher.snapshot)
    (hactive : watcher'.active = watcher.active) :
    hub.WatcherStep (hub.setWatcher ref watcher') ref watcher watcher' :=
  .of_counters (hub.partition watcher.client) hw hid hclient hsnapshot hactive (.refl _) rfl
    (Function.update_eq_self ..).symm rfl rfl rfl

theorem Inv.watcherStep (h : hub.Inv) (hs : hub.WatcherStep hub' ref watcher watcher')
    (hok : hub'.WatcherOk ref watcher' []) : hub'.Inv :=
  ⟨h.owing.watcherStep hs hok fun _ _ _ => rfl, hs.current h.current⟩

variable {item : QueuedDelta}

/-- The observer after `delivered`. -/
def caughtUp (watcher : Watcher) (item : QueuedDelta) (count bytes : ℤ) : Watcher :=
  { watcher with
    lastDelivered := max watcher.lastDelivered item.delta.revision, phase := .idle
    queuedCount := count, queuedBytes := bytes }

theorem Inv.caughtUp (h : hub.Inv) (hphase : watcher.phase = .sent item) (count bytes : ℤ)
    (hs : hub.WatcherStep hub' ref watcher (caughtUp watcher item count bytes))
    (hstopping :
      (hub'.partition watcher.client).stopping = (hub.partition watcher.client).stopping) :
    hub'.Inv := by
  have hok := h.owing.watchers ref watcher hs.old
  have hdone := hok.done
  have hcursor := hok.cursor
  simp only [Watcher.CursorOk, hphase] at hcursor
  obtain ⟨hlast, hnext⟩ := hcursor
  have hmax : max watcher.lastDelivered item.delta.revision = item.delta.revision := by omega
  have hstream : (PendingHub.caughtUp watcher item count bytes).stream = watcher.stream := by
    simp [Watcher.stream, Watcher.queued, PendingHub.caughtUp, hphase]
  refine h.watcherStep hs
    (hok.advance hs rfl rfl (fun hleft => by cases hleft) ?_ (fun hin => .inl (hstopping ▸ hin))
    (by simp [hphase]) (hstream ▸ prefix_rfl) (fun _ => hstream) ?_)
  · simpa [Watcher.ended, PendingHub.caughtUp, hphase] using hdone
  · simp [Watcher.CursorOk, PendingHub.caughtUp, Watcher.lastReceived, hlast, hmax]

section

variable (h : hub.Inv) (hw : hub.watchers ref = some watcher)
include h hw

theorem Inv.leave (hstop : watcher.stop)
    (hphase : watcher.phase = .idle ∨ ∃ item, watcher.phase = .holding item) :
    (hub.setWatcher ref { watcher with phase := .leaving }).Inv := by
  have hok := h.owing.watchers ref watcher hw
  have hs : hub.WatcherStep _ ref watcher { watcher with phase := .leaving } :=
    setWatcher_step hw rfl rfl rfl rfl
  have hactive : watcher.active = false := by
    have hrel := hok.stop
    rw [hstop] at hrel
    simpa using hrel.symm
  have hcursor := hok.cursor
  have hdone := hok.done
  refine h.watcherStep hs (hok.advance hs rfl rfl (fun _ => hactive) ?_ .inl ?_
    (received_begins watcher) (by simp [hactive]) ?_)
  all_goals rcases hphase with hp | ⟨item, hp⟩
  all_goals simp_all [Watcher.ended, Watcher.CursorOk, Watcher.lastReceived]

/-- An observer takes a step that leaves its stream. -/
theorem Inv.setWatcher (hid : watcher'.id = watcher.id) (hclient : watcher'.client = watcher.client)
    (hsnapshot : watcher'.snapshot = watcher.snapshot) (hactive : watcher'.active = watcher.active)
    (hstop : watcher'.stop = watcher.stop) (hleft : watcher'.left → watcher.active = false)
    (hgone : watcher.phase ≠ .gone) (hstream : watcher'.stream = watcher.stream)
    (hdone : watcher'.done = watcher'.ended) (hcursor : watcher'.CursorOk) :
    (hub.setWatcher ref watcher').Inv := by
  have hs := setWatcher_step hw hid hclient hsnapshot hactive
  have hok := h.owing.watchers ref watcher hw
  exact h.watcherStep hs (hok.advance hs hactive hstop hleft hdone .inl hgone
    (hstream ▸ prefix_rfl) (fun _ => hstream) hcursor)

theorem Inv.take {rest : List QueuedDelta} (hphase : watcher.phase = .idle)
    (hqueue : watcher.queue = item :: rest) :
    (hub.setWatcher ref { watcher with queue := rest, phase := .holding item }).Inv := by
  have hok := h.owing.watchers ref watcher hw
  have hcursor := hok.cursor
  have hdone := hok.done
  refine h.setWatcher hw rfl rfl rfl rfl rfl nofun (by simp [hphase]) ?_ ?_ ?_
  · simp [Watcher.stream, hphase, Watcher.queued, hqueue]
  · simpa [Watcher.ended, hphase] using hdone
  · simpa [Watcher.CursorOk, Watcher.lastReceived, hphase] using hcursor

theorem Inv.send (hphase : watcher.phase = .holding item) :
    (hub.setWatcher ref
      { watcher with received := watcher.received ++ [item.delta], phase := .sent item }).Inv := by
  have hok := h.owing.watchers ref watcher hw
  have hp := h.owing.partitions watcher.client
  have hheld : watcher.stream = watcher.received ++ item.delta :: watcher.queued := by
    simp [Watcher.stream, hphase]
  have hcursor := hok.cursor
  have hdone := hok.done
  simp only [Watcher.CursorOk, hphase] at hcursor
  have hnext : item.delta.revision = watcher.snapshot.revision + watcher.received.length + 1 := by
    refine hp.numbered_drop hok.ended ?_
    rw [hheld, getElem?_append_right le_rfl, Nat.sub_self]
    rfl
  refine h.setWatcher hw rfl rfl rfl rfl rfl (fun hleft => by cases hleft)
    (by simp [hphase]) ?_ ?_ ?_
  · rw [hheld]
    simp [Watcher.stream, Watcher.queued]
  · simpa [Watcher.ended, hphase] using hdone
  · refine ⟨getLast?_concat .., ?_⟩
    show watcher.lastDelivered + 1 = item.delta.revision
    rw [hcursor, hok.lastReceived hp, hnext]

theorem Inv.delivered (hphase : watcher.phase = .sent item) :
    (hub.delivered ref watcher item).Inv := by
  unfold PendingHub.delivered
  dsimp only
  split_ifs with hactive
  · exact h.caughtUp hphase watcher.queuedCount watcher.queuedBytes
      (setWatcher_step hw rfl rfl rfl rfl) rfl
  · have hself := hub.setPartition_self watcher.client { hub.partition watcher.client with
      queuedEntries := (hub.partition watcher.client).queuedEntries - 1
      queuedBytes := (hub.partition watcher.client).queuedBytes - item.bytes }
    exact h.caughtUp hphase (watcher.queuedCount - 1) (watcher.queuedBytes - item.bytes)
      (.of_counters { hub.partition watcher.client with
        queuedEntries := (hub.partition watcher.client).queuedEntries - 1
        queuedBytes := (hub.partition watcher.client).queuedBytes - item.bytes } hw rfl rfl rfl rfl
        ⟨rfl, rfl, rfl, rfl, rfl, rfl, rfl⟩ rfl rfl rfl rfl rfl)
      ((congrArg Partition.stopping hself).trans rfl)

theorem Inv.discard (hphase : watcher.phase = .leaving) :
    (hub.setWatcher ref { watcher with queue := [], done := true, phase := .stopped }).Inv := by
  have hok := h.owing.watchers ref watcher hw
  have hcursor := hok.cursor
  refine h.setWatcher hw rfl rfl rfl rfl rfl (fun _ => hok.left (by simp [Watcher.left, hphase]))
    (by simp [hphase]) (by simp [Watcher.stream, hphase]) rfl ?_
  simpa [Watcher.CursorOk, Watcher.lastReceived, hphase] using hcursor

theorem Inv.watcherStopped (hphase : watcher.phase = .stopped) :
    (hub.watcherStopped ref watcher).Inv := by
  have hok := h.owing.watchers ref watcher hw
  have hself := hub.setPartition_self watcher.client { hub.partition watcher.client with
    stopping := (hub.partition watcher.client).stopping.erase ref }
  have hs : hub.WatcherStep (hub.watcherStopped ref watcher) ref watcher
      { watcher with phase := .gone } := by
    refine ⟨hw, hub.setWatcher_self ref _, rfl, rfl, rfl, fun i hne => hub.setWatcher_ne hne _,
      rfl, rfl, rfl, fun c hne => hub.setPartition_ne hne _,
      (congrArg Partition.revision hself).trans rfl,
      (congrArg Partition.nextWatcher hself).trans rfl,
        (congrArg Partition.pending hself).trans rfl,
      (congrArg Partition.log hself).trans rfl, (congrArg Partition.views hself).trans rfl,
      fun id => ?_, fun i hne hi => ?_⟩
    · rw [if_neg (by cases watcher.active <;> simp)]
      exact congrArg (AList.lookup id) ((congrArg Partition.watchers hself).trans rfl)
    · exact (congrArg Partition.stopping hself).symm ▸ (mem_erase_of_ne hne).mpr hi
  have hdone := hok.done
  have hcursor := hok.cursor
  have hstream : Watcher.stream { watcher with phase := .gone } = watcher.stream := by
    simp [Watcher.stream, hphase]
  refine h.watcherStep hs
    (hok.advance hs rfl rfl (fun _ => hok.left (by simp [Watcher.left, hphase]))
    ?_ (fun _ => .inr rfl) (by simp [hphase]) (hstream ▸ prefix_rfl) (fun _ => hstream) ?_)
  · simpa [Watcher.ended, hphase] using hdone
  · simpa [Watcher.CursorOk, Watcher.lastReceived, hphase] using hcursor

end

/-! ## Fencing and closing -/

theorem Inv.finishWatcher (h : hub.Inv) (ref : ℕ) (err : HubError) (exhausted : Bool) :
    (hub.finishWatcher ref err exhausted).Inv :=
  ⟨h.owing.finishWatcher ref err exhausted fun _ _ => .inl rfl,
    (hub.finishWatcher_aside ..).current h.current⟩

/-! ## Every step -/

variable {allowed : Pending → Prop}

theorem Edit.inv (he : hub.Edit allowed hub') (h : hub.Inv) : hub'.Inv := by
  cases he with
  | shut => exact h.frame ⟨fun _ hc => hc, fun _ => .refl _, rfl, fun _ => rfl, fun _ _ _ hc => hc⟩
  | stopAccepting ref => exact h.frame (hub.stopAccepting_frame ref)
  | release ref binding hbinding => exact h.frame (setBinding_frame _ hbinding rfl)
  | removeReleasedBinding ref => exact h.frame (hub.removeReleasedBinding_frame ref)
  | createPartition client hcreate => exact (h.createPartition hcreate).1
  | bind ref client runID hfresh => exact h.frame (bound_frame hfresh client runID)
  | openCall ref binding state value hfresh hadmits _ => exact h.openCall hfresh hadmits
  | finishCall client key ref call result hkey hcall => exact h.finishCall hkey hcall result
  | closeDone ref call hcall => exact h.frame (setCall_frame _ hcall rfl rfl)
  | finishWatcher ref err exhausted => exact h.finishWatcher ref err exhausted

theorem Edits.inv (he : hub.Edits allowed hub') (h : hub.Inv) : hub'.Inv := by
  induction he with
  | refl => exact h
  | tail _ hedit ih => exact hedit.inv ih

theorem Delivery.inv (hd : hub.Delivery ref watcher hub') (hw : hub.watchers ref = some watcher)
    (h : hub.Inv) : hub'.Inv := by
  cases hd with
  | leave hstop hphase => exact h.leave hw hstop hphase
  | take item rest hphase hqueue => exact h.take hw hphase hqueue
  | send item hphase => exact h.send hw hphase
  | delivered item hphase => exact h.delivered hw hphase
  | discard hphase => exact h.discard hw hphase
  | stopped hphase => exact h.watcherStopped hw hphase

theorem Turn.inv (ht : hub.Turn allowed hub') (h : hub.Inv) : hub'.Inv := by
  cases ht with
  | edits he => exact he.inv h
  | join ref client _ hcreate hfresh =>
    obtain ⟨hinv, hclient⟩ := h.createPartition hcreate
    exact hinv.register hclient hfresh
  | deliver ref watcher hw hd => exact hd.inv hw h

end PendingHub

end SpiceAgent.Daemon
