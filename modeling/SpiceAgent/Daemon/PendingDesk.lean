import SpiceAgent.Daemon.PendingSystem
import SpiceAgent.Lib.KeyCount

/-!
# The interactions of the pending hub

What `Request`, `Respond`, `complete` and `Close` share of the hub is small: the pending calls of
every client, the calls themselves and the client that owns each binding. `PendingHub.desk` is that
part, and every function of the hub is an operation on it. The observers, the counters and the
leases of the bindings do not touch it.
-/

namespace SpiceAgent.Daemon

open SpiceAgent.Lib List
open Function (update update_apply update_of_ne update_self)

/-- What the consumer and the goroutine of an observer have done. -/
def Watcher.progress (watcher : Watcher) :
    String × PendingSnapshot × DeliverPhase × List Delta × Bool :=
  (watcher.client, watcher.snapshot, watcher.phase, watcher.received, watcher.done)

/-- What a partition says about the interactions of its client. -/
def Partition.account (p : Partition) :
    ℕ × (AList fun _ : PendingKey => ℕ) × ℤ × List Delta × List PendingSet :=
  (p.revision, p.pending, p.pendingBytes, p.log, p.views)

/-- The part of the hub that decides which result a call gets. -/
@[ext]
structure Desk where
  clients : Finset String
  /-- The client of a binding. -/
  owner : ℕ → Option String
  pending : String → PendingKey → Option ℕ
  calls : ℕ → Option PendingCall
  closed : Bool

variable {client : String} {ref : ℕ} {call : PendingCall}

namespace Desk

variable (desk : Desk) (client)

def addClient : Desk :=
  { desk with clients := insert client desk.clients }

def addOwner (ref : ℕ) (client : String) : Desk :=
  { desk with owner := update desk.owner ref (some client) }

def enter (ref : ℕ) (value : Pending) (binding : ℕ) : Desk :=
  { desk with
    pending := update desk.pending client
      (update (desk.pending client) value.key (some ref))
    calls := update desk.calls ref (some ⟨value, binding, false, none⟩) }

def settle (key : PendingKey) (ref : ℕ) (call : PendingCall) (result : PendingResult) : Desk :=
  { desk with
    pending := update desk.pending client
      (update (desk.pending client) key none)
    calls := update desk.calls ref (some { call with result := some result }) }

/-- The calls of a list get the result of `Close`. -/
def shutDown (entries : List (String × PendingKey × ℕ)) : Desk :=
  { desk with
    pending := fun client key =>
      if (client, key) ∈ entries.map (fun e => (e.1, e.2.1)) then none else desk.pending client key
    calls := fun ref =>
      if ref ∈ entries.map (·.2.2) then
        (desk.calls ref).map fun call => { call with result := some (.failed .closed) }
      else desk.calls ref
    closed := true }

def closeDone (ref : ℕ) : Desk :=
  { desk with
    calls := update desk.calls ref
      ((desk.calls ref).map fun call => { call with done := true }) }

/-- The invariant: the pending calls of a client are its calls without a result. -/
@[mk_iff] structure Ok (desk : Desk) : Prop where
  known : ∀ client key ref, desk.pending client key = some ref → client ∈ desk.clients
  pending : ∀ client key ref, desk.pending client key = some ref → ∃ call,
    desk.calls ref = some call ∧ call.value.key = key ∧ call.result = none ∧
      desk.owner call.binding = some client
  waits : ∀ ref call, desk.calls ref = some call → call.result = none → ∃ client,
    desk.owner call.binding = some client ∧ desk.pending client call.value.key = some ref
  owned : ∀ ref call, desk.calls ref = some call → (desk.owner call.binding).isSome
  closed : desk.closed → ∀ client key, desk.pending client key = none

variable {desk} {desk' : Desk} {client}

theorem Ok.grow (h : desk.Ok) (hclients : desk.clients ⊆ desk'.clients)
    (howner : ∀ i client, desk.owner i = some client → desk'.owner i = some client)
    (hpending : desk'.pending = desk.pending) (hcalls : desk'.calls = desk.calls)
    (hclosed : desk'.closed = desk.closed) : desk'.Ok := by
  simp only [ok_iff, hpending, hcalls, hclosed, Option.isSome_iff_exists] at *
  grind

theorem settle_pending (desk : Desk) (client : String) (key : PendingKey) (ref : ℕ)
    (call : PendingCall) (result : PendingResult) (c : String) (key' : PendingKey) :
    (desk.settle client key ref call result).pending c key' =
      if c = client ∧ key' = key then none else desk.pending c key' := by
  simp only [settle, update_apply]
  grind

theorem Ok.enter (h : desk.Ok) {value : Pending} {binding : ℕ} (hcall : desk.calls ref = none)
    (howner : desk.owner binding = some client) (hclient : client ∈ desk.clients)
    (hfree : desk.pending client value.key = none) (hopen : desk.closed = false) :
    (desk.enter client ref value binding).Ok := by
  simp only [ok_iff, Desk.enter, update_apply] at *
  generalize hnew : PendingCall.mk value binding false none = new
  refine ⟨by grind, fun c key i hl => ?_, by grind, by grind, by grind⟩
  by_cases hi : i = ref
  · exact ⟨new, by grind⟩
  · grind

theorem Ok.settle (h : desk.Ok) {key : PendingKey} (hpending : desk.pending client key = some ref)
    (hcall : desk.calls ref = some call) (result : PendingResult) :
    (desk.settle client key ref call result).Ok := by
  -- a call is pending in one place only
  simp only [ok_iff, Desk.settle, update_apply] at *
  grind

variable {i : ℕ}

theorem closeDone_calls (desk : Desk) (hi : (desk.closeDone ref).calls i = some call) :
    ∃ call₀, desk.calls i = some call₀ ∧
      call.value = call₀.value ∧ call.binding = call₀.binding ∧ call.result = call₀.result := by
  simp only [closeDone, update_apply] at hi
  grind [Option.map_eq_some_iff]

theorem calls_closeDone (desk : Desk) (ref : ℕ) (hi : desk.calls i = some call) :
    ∃ call', (desk.closeDone ref).calls i = some call' ∧
      call'.value = call.value ∧ call'.binding = call.binding ∧ call'.result = call.result := by
  simp only [closeDone, update_apply]
  grind

theorem Ok.closeDone (h : desk.Ok) (ref : ℕ) : (desk.closeDone ref).Ok where
  known := h.known
  pending c key i hl := by
    obtain ⟨call, hi, hkey, hresult, howner⟩ := h.pending c key i hl
    obtain ⟨call', hi', hvalue, hbinding, hresult'⟩ := desk.calls_closeDone ref hi
    refine ⟨call', hi', ?_, hresult'.trans hresult, ?_⟩
    · rw [hvalue, hkey]
    · rw [hbinding]
      exact howner
  waits i call hi hresult := by
    obtain ⟨call₀, hi₀, hvalue, hbinding, hresult₀⟩ := desk.closeDone_calls hi
    rw [hvalue, hbinding]
    exact h.waits i call₀ hi₀ (hresult₀.symm.trans hresult)
  owned i call hi := by
    obtain ⟨call₀, hi₀, -, hbinding, -⟩ := desk.closeDone_calls hi
    rw [hbinding]
    exact h.owned i call₀ hi₀
  closed := h.closed

variable {entries : List (String × PendingKey × ℕ)}

theorem shutDown_pending
    (hall : ∀ client key ref, (client, key, ref) ∈ entries ↔ desk.pending client key = some ref)
    (client : String) (key : PendingKey) : (desk.shutDown entries).pending client key = none := by
  change ite _ _ _ = _
  split_ifs with hin
  · rfl
  · cases hl : desk.pending client key with
    | none => rfl
    | some ref =>
      exact absurd (mem_map.mpr ⟨_, (hall client key ref).mpr hl, rfl⟩) hin

theorem shutDown_calls (hi : (desk.shutDown entries).calls i = some call) :
    ∃ call₀, desk.calls i = some call₀ ∧
      call.value = call₀.value ∧ call.binding = call₀.binding ∧
      (call.result = none → i ∉ entries.map (·.2.2) ∧ call₀.result = none) := by
  change ite _ _ _ = _ at hi
  split_ifs at hi with hin
  · obtain ⟨call₀, hi₀, rfl⟩ := Option.map_eq_some_iff.mp hi
    exact ⟨call₀, hi₀, rfl, rfl, nofun⟩
  · exact ⟨call, hi, rfl, rfl, fun hresult => ⟨hin, hresult⟩⟩

theorem Ok.shutDown (h : desk.Ok)
    (hall : ∀ client key ref, (client, key, ref) ∈ entries ↔ desk.pending client key = some ref) :
    (desk.shutDown entries).Ok where
  known c key i hl := by
    rw [shutDown_pending hall] at hl
    cases hl
  pending c key i hl := by
    rw [shutDown_pending hall] at hl
    cases hl
  waits i call hi hresult := by
    obtain ⟨call₀, hi₀, -, -, hrest⟩ := shutDown_calls hi
    obtain ⟨hnot, hresult₀⟩ := hrest hresult
    obtain ⟨c, -, hl⟩ := h.waits i call₀ hi₀ hresult₀
    exact absurd (mem_map.mpr ⟨_, (hall c _ i).mpr hl, rfl⟩) hnot
  owned i call hi := by
    obtain ⟨call₀, hi₀, -, hbinding, -⟩ := shutDown_calls hi
    rw [hbinding]
    exact h.owned i call₀ hi₀
  closed _ := shutDown_pending hall

end Desk

namespace PendingHub

variable {hub hub' hub'' : PendingHub}

def desk (hub : PendingHub) : Desk where
  clients := hub.clients
  owner ref := (hub.bindings ref).map (·.clientID)
  pending client key := (hub.partition client).pending.lookup key
  calls := hub.calls
  closed := hub.closed

/-! ## What the desk does not see -/

/-- The other one has the same accounts, and no goroutine of an observer has moved. -/
@[mk_iff] structure Aside (hub hub' : PendingHub) : Prop where
  limits : hub'.limits = hub.limits
  clients : hub'.clients = hub.clients
  closed : hub'.closed = hub.closed
  watcherWG : hub'.watcherWG = hub.watcherWG
  calls : hub'.calls = hub.calls
  owner : ∀ i, (hub'.bindings i).map (·.clientID) = (hub.bindings i).map (·.clientID)
  account : ∀ c, (hub'.partition c).account = (hub.partition c).account
  progress : ∀ i, (hub'.watchers i).map Watcher.progress = (hub.watchers i).map Watcher.progress

theorem Aside.refl (hub : PendingHub) : hub.Aside hub :=
  ⟨rfl, rfl, rfl, rfl, rfl, fun _ => rfl, fun _ => rfl, fun _ => rfl⟩

theorem Aside.trans (h : hub.Aside hub') (h' : hub'.Aside hub'') : hub.Aside hub'' := by
  simp_all [aside_iff]

theorem Aside.foldl {α : Type*} {f : PendingHub → α → PendingHub}
    (hf : ∀ (hub : PendingHub) a, hub.Aside (f hub a)) (l : List α) (hub : PendingHub) :
    hub.Aside (l.foldl f hub) := by
  induction l generalizing hub with
  | nil => exact .refl hub
  | cons a l ih => exact (hf hub a).trans (ih (f hub a))

variable (hub)

theorem finishWatcher_aside (ref : ℕ) (err : HubError) (exhausted : Bool) :
    hub.Aside (hub.finishWatcher ref err exhausted) := by
  unfold finishWatcher
  split
  · exact .refl hub
  next watcher hw =>
    split_ifs
    · exact .refl hub
    · exact ⟨rfl, rfl, rfl, rfl, rfl, fun _ => rfl, apply_update (g := Partition.account) rfl,
        map_update hw rfl⟩

theorem offer_aside (client : String) (delta : Delta) (id : ℕ) :
    hub.Aside (hub.offer client delta id) := by
  unfold offer
  split
  · exact .refl hub
  next ref _ =>
    split
    · exact .refl hub
    next watcher hw =>
      split_ifs
      · exact .refl hub
      split
      · exact ⟨rfl, rfl, rfl, rfl, rfl, fun _ => rfl, apply_update (g := Partition.account) rfl,
          map_update hw rfl⟩
      · exact hub.finishWatcher_aside ref _ true

def published (client : String) (kind : DeltaKind) (pending : Pending) : Partition :=
  let p := hub.partition client
  let revision := (p.revision + 1) % 2 ^ 64
  { p with
    revision, log := p.log ++ [⟨revision, kind, pending⟩], views := p.views ++ [hub.view client] }

theorem publish_aside (client : String) (kind : DeltaKind) (pending : Pending) :
    (hub.setPartition client (hub.published client kind pending)).Aside
      (hub.publish client kind pending) :=
  .foldl (fun hub id => hub.offer_aside client _ id) _ _

theorem removeReleasedBinding_aside (ref : ℕ) : hub.Aside (hub.removeReleasedBinding ref) := by
  unfold removeReleasedBinding
  split
  · exact .refl hub
  next binding hbinding =>
    split_ifs
    · exact .refl hub
    · exact ⟨rfl, rfl, rfl, rfl, rfl, map_update hbinding rfl,
        apply_update (g := Partition.account) rfl, fun _ => rfl⟩
    · exact .refl hub

variable {hub}

theorem setBinding_aside {binding : RunBinding} (binding' : RunBinding)
    (h : hub.bindings ref = some binding) (hclient : binding'.clientID = binding.clientID) :
    hub.Aside (hub.setBinding ref binding') :=
  ⟨rfl, rfl, rfl, rfl, rfl, map_update h hclient, fun _ => rfl, fun _ => rfl⟩

theorem stopAccepting_aside (hub : PendingHub) (ref : ℕ) : hub.Aside (hub.stopAccepting ref) := by
  unfold stopAccepting
  split
  · exact .refl hub
  next binding hbinding => exact setBinding_aside { binding with accepting := false } hbinding rfl

theorem Aside.desk (h : hub.Aside hub') : hub'.desk = hub.desk := by
  refine Desk.ext h.clients (funext h.owner) (funext fun c => funext fun key => ?_) h.calls h.closed
  exact congrArg (fun a => AList.lookup key a.2.1) (h.account c)

theorem desk_congr (hclients : hub'.clients = hub.clients)
    (howner : ∀ i, (hub'.bindings i).map (·.clientID) = (hub.bindings i).map (·.clientID))
    (hpending : ∀ c, (hub'.partition c).pending = (hub.partition c).pending)
    (hcalls : hub'.calls = hub.calls) (hclosed : hub'.closed = hub.closed) :
    hub'.desk = hub.desk := by
  refine Desk.ext hclients (funext howner) (funext fun c => funext fun key => ?_) hcalls hclosed
  exact congrArg (AList.lookup key) (hpending c)

variable (hub)

theorem publish_desk (client : String) (kind : DeltaKind) (pending : Pending) :
    (hub.publish client kind pending).desk = hub.desk :=
  (publish_aside ..).desk.trans
    (desk_congr rfl (fun _ => rfl) (apply_update (g := Partition.pending) rfl) rfl rfl)

theorem release_desk (ref : ℕ) : (hub.release ref).desk = hub.desk := by
  unfold release
  split
  · rfl
  next binding hbinding =>
    split_ifs
    · rfl
    · have hset := setBinding_aside { binding with accepting := false, once := true } hbinding rfl
      exact (hset.trans (removeReleasedBinding_aside _ ref)).desk

theorem finishWatchers_aside (client : String) (err : HubError) :
    hub.Aside (hub.finishWatchers client err) := by
  refine .foldl (fun hub id => ?_) _ hub
  split
  · exact .refl hub
  · exact hub.finishWatcher_aside ..

theorem delivered_desk (ref : ℕ) (watcher : Watcher) (item : QueuedDelta) :
    (hub.delivered ref watcher item).desk = hub.desk := by
  unfold delivered
  dsimp only
  split_ifs
  · rfl
  · exact desk_congr rfl (fun _ => rfl) (apply_update (g := Partition.pending) rfl) rfl rfl

theorem watcherStopped_desk (ref : ℕ) (watcher : Watcher) :
    (hub.watcherStopped ref watcher).desk = hub.desk :=
  desk_congr rfl (fun _ => rfl) (apply_update (g := Partition.pending) rfl) rfl rfl

theorem register_desk (ref : ℕ) (client : String) : (hub.register ref client).desk = hub.desk :=
  desk_congr rfl (fun _ => rfl) (apply_update (g := Partition.pending) rfl) rfl rfl

variable {hub}

/-! ## What it sees -/

theorem createPartition_desk (h : hub.desk.Ok) (hc : hub.createPartition client = some hub') :
    hub'.desk = hub.desk.addClient client := by
  unfold createPartition at hc
  split_ifs at hc with hmem
  · cases hc
    exact Desk.ext (Finset.insert_eq_of_mem hmem).symm rfl rfl rfl rfl
  · cases hc
    refine Desk.ext rfl rfl (funext fun c => funext fun key => ?_) rfl rfl
    change (update hub.partition client .new c).pending.lookup key = hub.desk.pending c key
    rcases eq_or_ne c client with rfl | hne
    · rw [update_self]
      cases hl : hub.desk.pending c key with
      | none => rfl
      | some ref => exact absurd (h.known c key ref hl) hmem
    · rw [update_of_ne hne]
      rfl

/-- The hub with a new binding. -/
def bound (hub : PendingHub) (ref : ℕ) (client runID : String) : PendingHub :=
  let p := hub.partition client
  { (hub.setPartition client { p with boundRuns := p.boundRuns + 1 }).setBinding ref
      { clientID := client, runID, accepting := true, active := 0, released := false,
        once := false } with
    runs := hub.runs.insert runID ref }

theorem bindRun_cases (hub : PendingHub) (ref : ℕ) (client runID : String) :
    (hub.bindRun ref client runID).1 = hub ∨ ∃ hub', hub.createPartition client = some hub' ∧
      ((hub.bindRun ref client runID).1 = hub' ∨
        (hub.bindRun ref client runID).1 = hub'.bound ref client runID) := by
  unfold bindRun
  split
  · exact .inl rfl
  split_ifs
  any_goals exact .inl rfl
  split
  · exact .inl rfl
  next hub' hcreate =>
    refine .inr ⟨hub', hcreate, ?_⟩
    dsimp only
    split_ifs
    · exact .inl rfl
    · exact .inr rfl

theorem bound_desk (hub : PendingHub) (ref : ℕ) (client runID : String) :
    (hub.bound ref client runID).desk = hub.desk.addOwner ref client := by
  refine Desk.ext rfl (funext fun i => ?_) (funext fun c => funext fun key => ?_) rfl rfl
  · change (update hub.bindings ref _ i).map _ = update hub.desk.owner ref _ i
    rcases eq_or_ne i ref with rfl | hne
    · rw [update_self, update_self]
      rfl
    · rw [update_of_ne hne, update_of_ne hne]
      rfl
  · have hpending := apply_update (f := hub.partition) (k := client) (g := Partition.pending)
      (b := { hub.partition client with boundRuns := (hub.partition client).boundRuns + 1 }) rfl c
    exact congrArg (AList.lookup key) hpending

theorem bindRun_desk (h : hub.desk.Ok) (ref : ℕ) (client runID : String) :
    (hub.bindRun ref client runID).1.desk = hub.desk ∨
      (hub.bindRun ref client runID).1.desk = hub.desk.addClient client ∨
      (hub.bindRun ref client runID).1.desk = (hub.desk.addClient client).addOwner ref client := by
  rcases hub.bindRun_cases ref client runID with heq | ⟨hub', hcreate, heq | heq⟩ <;> rw [heq]
  · exact .inl rfl
  · exact .inr (.inl (createPartition_desk h hcreate))
  · exact .inr (.inr ((hub'.bound_desk ..).trans (by rw [createPartition_desk h hcreate])))

theorem subscribe_cases (hub : PendingHub) (ref : ℕ) (client : String) (ctxDone : Bool) :
    (hub.subscribe ref client ctxDone).1 = hub ∨ hub.closed = false ∧
      ∃ hub', hub.createPartition client = some hub' ∧
        ((hub.subscribe ref client ctxDone).1 = hub' ∨
          (hub.subscribe ref client ctxDone).1 = hub'.register ref client) := by
  unfold subscribe
  split
  · exact .inl rfl
  split
  · exact .inl rfl
  split
  · exact .inl rfl
  next hopen =>
    split
    · exact .inl rfl
    next hub' hcreate =>
      refine .inr ⟨Bool.eq_false_of_not_eq_true hopen, hub', hcreate, ?_⟩
      dsimp only
      split_ifs
      any_goals exact .inl rfl
      exact .inr rfl

theorem subscribe_desk (h : hub.desk.Ok) (ref : ℕ) (client : String) (ctxDone : Bool) :
    (hub.subscribe ref client ctxDone).1.desk = hub.desk ∨
      (hub.subscribe ref client ctxDone).1.desk = hub.desk.addClient client := by
  rcases hub.subscribe_cases ref client ctxDone with heq | ⟨-, hub', hcreate, heq | heq⟩ <;>
    rw [heq]
  · exact .inl rfl
  · exact .inr (createPartition_desk h hcreate)
  · exact .inr ((hub'.register_desk ref client).trans (createPartition_desk h hcreate))

theorem pending_update (hub : PendingHub) (client : String) (p : Partition) :
    (fun c key => (update hub.partition client p c).pending.lookup key) =
      update hub.desk.pending client fun key => p.pending.lookup key :=
  Function.comp_update (fun (p : Partition) key => p.pending.lookup key) ..

theorem finishCall_desk (hub : PendingHub) (client : String) (key : PendingKey) (ref : ℕ)
    (call : PendingCall) (result : PendingResult) :
    (hub.finishCall client key ref call result).desk =
      hub.desk.settle client key ref call result := by
  refine (removeReleasedBinding_aside _ _).desk.trans ((publish_desk ..).trans ?_)
  have hsettle : ∀ b : ℤ, ((hub.setPartition client { hub.partition client with
      pending := (hub.partition client).pending.erase key
      pendingBytes := b }).setCall ref { call with result := some result }).desk =
      hub.desk.settle client key ref call result := by
    intro b
    refine Desk.ext rfl rfl ((pending_update ..).trans (congrArg _ (funext fun k => ?_))) rfl rfl
    rcases eq_or_ne k key with rfl | hk
    · rw [update_self]
      exact AList.lookup_erase _ _
    · rw [update_of_ne hk]
      exact AList.lookup_erase_ne hk
  split
  · exact hsettle _
  next binding hbinding =>
    exact (setBinding_aside { binding with active := binding.active - 1 } hbinding rfl).desk.trans
      (hsettle ((hub.partition client).pendingBytes - call.value.bytes))

theorem openCall_desk {binding : ℕ} {state : RunBinding}
    (hbinding : hub.bindings binding = some state) (ref : ℕ) (value : Pending) :
    (hub.openCall ref binding state value).desk =
      hub.desk.enter state.clientID ref value binding := by
  refine (publish_desk _ _ _ _).trans ?_
  refine Desk.ext rfl (funext (map_update hbinding rfl)) ((pending_update ..).trans
    (congrArg _ (funext fun k => ?_))) rfl rfl
  rcases eq_or_ne k value.key with rfl | hk
  · rw [update_self]
    exact AList.lookup_insert _
  · rw [update_of_ne hk]
    exact AList.lookup_insert_ne hk

/-- The checks that `Request` makes of a call before it records it. -/
structure Admits (hub : PendingHub) (binding : ℕ) (state : RunBinding) (value : Pending) :
    Prop where
  binding : hub.bindings binding = some state
  client : state.clientID ∈ hub.clients
  key : value.key ∉ (hub.partition state.clientID).pending
  closed : hub.closed = false
  capacity : hub.hasPendingCapacity (hub.partition state.clientID) value.bytes
  room : (hub.partition state.clientID).revision +
    ((hub.partition state.clientID).pending.keys.length + 2) ≤ maxRevision

section

variable (hub) (isJson : List UInt8 → Bool)

theorem request_cases (ref : ℕ) (runID : String) (request : Interaction.Request) (ctxDone : Bool) :
    (∃ err, hub.request isJson ref runID request ctxDone = (hub, some err)) ∨
      ∃ binding state, hub.request isJson ref runID request ctxDone =
          (hub.openCall ref binding state ⟨runID, request⟩, none) ∧
        Interaction.validScope runID ∧ request.validate isJson ∧
        hub.Admits binding state ⟨runID, request⟩ := by
  unfold PendingHub.request
  split_ifs with _ htoken hvalid hclosed
  any_goals exact .inl ⟨_, rfl⟩
  split
  · exact .inl ⟨_, rfl⟩
  next binding _ =>
    split
    · exact .inl ⟨_, rfl⟩
    next state hstate =>
      dsimp only
      split_ifs with haccepting hpending hcapacity hroom
      any_goals exact .inl ⟨_, rfl⟩
      refine .inr ⟨binding, state, rfl, by simpa using htoken, by simpa using hvalid, ?_⟩
      exact ⟨hstate, not_not.mp fun hc => haccepting (.inr hc), hpending,
        Bool.eq_false_of_not_eq_true hclosed, by simpa using hcapacity, by omega⟩

theorem request_desk (ref : ℕ) (runID : String) (request : Interaction.Request) (ctxDone : Bool) :
    (∃ err, hub.request isJson ref runID request ctxDone = (hub, some err)) ∨
      ∃ client binding, hub.desk.owner binding = some client ∧ client ∈ hub.desk.clients ∧
        hub.desk.pending client (Pending.key ⟨runID, request⟩) = none ∧ hub.desk.closed = false ∧
        (hub.request isJson ref runID request ctxDone).2 = none ∧
        (hub.request isJson ref runID request ctxDone).1.desk =
          hub.desk.enter client ref ⟨runID, request⟩ binding := by
  rcases hub.request_cases isJson ref runID request ctxDone with
    herr | ⟨binding, state, heq, -, -, hadmits⟩
  · exact .inl herr
  · refine .inr ⟨state.clientID, binding, ?_, hadmits.client, AList.lookup_eq_none.mpr hadmits.key,
      hadmits.closed, by rw [heq], by rw [heq, openCall_desk hadmits.binding]⟩
    change (hub.bindings binding).map _ = _
    rw [hadmits.binding, Option.map_some]

theorem respond_cases (client runID : String) (response : Interaction.Response) :
    (∃ err, hub.respond isJson client runID response = (hub, .error err)) ∨
      ∃ ref call, (hub.partition client).pending.lookup ⟨runID, response.id⟩ = some ref ∧
        hub.calls ref = some call ∧ hub.respond isJson client runID response =
          (hub.finishCall client ⟨runID, response.id⟩ ref call (.response response), .ok ref) := by
  unfold PendingHub.respond
  split
  · exact .inl ⟨_, rfl⟩
  split_ifs
  any_goals exact .inl ⟨_, rfl⟩
  split
  · exact .inl ⟨_, rfl⟩
  split_ifs
  · exact .inl ⟨_, rfl⟩
  split
  · exact .inl ⟨_, rfl⟩
  next ref hpending =>
    split
    · exact .inl ⟨_, rfl⟩
    next call hcall => exact .inr ⟨ref, call, hpending, hcall, rfl⟩

/-- `Respond` settles the call that its client waits to answer, or leaves the hub. -/
theorem respond_desk (client runID : String) (response : Interaction.Response) :
    (∃ err, hub.respond isJson client runID response = (hub, .error err)) ∨
      ∃ ref call, hub.desk.pending client ⟨runID, response.id⟩ = some ref ∧
        hub.desk.calls ref = some call ∧
        (hub.respond isJson client runID response).2 = .ok ref ∧
        (hub.respond isJson client runID response).1.desk =
          hub.desk.settle client ⟨runID, response.id⟩ ref call (.response response) := by
  rcases hub.respond_cases isJson client runID response with
    herr | ⟨ref, call, hpending, hcall, heq⟩
  · exact .inl herr
  · exact .inr ⟨ref, call, hpending, hcall, by rw [heq], by rw [heq, finishCall_desk]⟩

end

/-- `complete` settles a pending call and otherwise returns the result that the call has. -/
theorem complete_desk (h : hub.desk.Ok) (hcall : hub.desk.calls ref = some call)
    (proposed : PendingResult) :
    (∃ client, hub.desk.pending client call.value.key = some ref ∧
        (hub.complete ref call proposed).1.desk =
          hub.desk.settle client call.value.key ref call proposed ∧
        (hub.complete ref call proposed).2 = (proposed, true)) ∨
      ∃ result, call.result = some result ∧ hub.complete ref call proposed =
        (hub, result, false) := by
  have howner := h.owned ref call hcall
  unfold PendingHub.complete
  split
  next hnone =>
    rw [show hub.desk.owner call.binding = none from hnone] at howner
    cases howner
  next client hclient =>
    split_ifs with hpending
    · exact .inl ⟨client, hpending.2, finishCall_desk .., rfl⟩
    · refine .inr ?_
      cases hresult : call.result with
      | some result => exact ⟨result, rfl, rfl⟩
      | none =>
        -- a call without a result is pending for its owner
        obtain ⟨c, hc, hlookup⟩ := h.waits ref call hcall hresult
        obtain rfl : client = c := Option.some.inj (hclient.symm.trans hc)
        exact absurd ⟨h.known _ _ _ hlookup, hlookup⟩ hpending

theorem closeCalls_desk (entries : List (String × PendingKey × ℕ)) (hub : PendingHub)
    (h : ∀ e ∈ entries, (hub.calls e.2.2).isSome) (hclosed : hub.closed = true) :
    (entries.foldl (fun hub c => hub.closeCall c.1 c.2) hub).desk = hub.desk.shutDown entries := by
  induction entries generalizing hub with
  | nil => exact Desk.ext rfl rfl rfl rfl hclosed
  | cons e entries ih =>
    obtain ⟨client, key, ref⟩ := e
    obtain ⟨call, hcall⟩ := Option.isSome_iff_exists.mp (h _ mem_cons_self)
    have hdesk : (hub.closeCall client (key, ref)).desk =
        hub.desk.settle client key ref call (.failed .closed) := by
      unfold closeCall
      rw [hcall]
      exact finishCall_desk ..
    have hcalls : (hub.closeCall client (key, ref)).calls =
        update hub.calls ref (some { call with result := some (.failed .closed) }) :=
      congrArg Desk.calls hdesk
    rw [foldl_cons, ih]
    · rw [hdesk]
      refine Desk.ext rfl rfl (funext fun c => funext fun k => ?_) (funext fun i => ?_) rfl
      · change ite _ _ (update hub.desk.pending client _ c k) = ite _ _ (hub.desk.pending c k)
        by_cases hin : (c, k) = (client, key)
        · obtain ⟨rfl, rfl⟩ := Prod.mk.inj hin
          rw [update_self, update_self, ite_self]
          exact (if_pos mem_cons_self).symm
        · refine if_congr (mem_cons.trans (or_iff_right hin)).symm rfl ?_
          rcases eq_or_ne c client with rfl | hne
          · rw [update_self, update_of_ne fun hk => hin (by rw [hk])]
          · rw [update_of_ne hne]
      · change ite _ (Option.map _ (update hub.calls ref _ i))
          (update hub.calls ref _ i) = ite _ (Option.map _ (hub.calls i)) (hub.calls i)
        rcases eq_or_ne i ref with rfl | hne
        · rw [update_self, Option.map_some, ite_self, hcall]
          exact (if_pos mem_cons_self).symm
        · rw [update_of_ne hne]
          exact if_congr (mem_cons.trans (or_iff_right hne)).symm rfl rfl
    · intro e' he'
      rw [hcalls]
      rcases eq_or_ne e'.2.2 ref with heq | hne
      · rw [heq, update_self]
        rfl
      · rw [update_of_ne hne]
        exact h e' (mem_cons_of_mem _ he')
    · exact (congrArg Desk.closed hdesk).trans hclosed

theorem mem_sortedCalls {c : PendingKey × ℕ} :
    c ∈ hub.sortedCalls client ↔ (hub.partition client).pending.lookup c.1 = some c.2 := by
  rw [sortedCalls, (perm_insertionSort _ _).mem_iff, mem_map]
  constructor
  · rintro ⟨e, hmem, rfl⟩
    exact AList.mem_lookup_iff.mpr hmem
  · intro hl
    exact ⟨⟨c.1, c.2⟩, AList.mem_lookup_iff.mp hl, rfl⟩

theorem nodup_sortedCalls (hub : PendingHub) (client : String) :
    ((hub.sortedCalls client).map (·.1)).Nodup := by
  have hperm := (perm_insertionSort (fun a b : PendingKey × ℕ => a.1.le b.1)
    ((hub.partition client).pending.entries.map fun e => (e.1, e.2))).map Prod.fst
  refine hperm.nodup_iff.mpr ?_
  rw [map_map]
  exact (hub.partition client).pending.keys_nodup

/-- The pending calls that `Close` ends. -/
def closeEntries (hub : PendingHub) : List (String × PendingKey × ℕ) :=
  hub.sortedClients.flatMap fun client => (hub.sortedCalls client).map fun entry => (client, entry)

theorem nodup_closeCalls (hub : PendingHub) :
    (hub.closeEntries.map fun c => (c.1, c.2.1)).Nodup := by
  rw [closeEntries, map_flatMap, nodup_flatMap]
  constructor
  · intro client _
    rw [map_map]
    have hkeys := (hub.nodup_sortedCalls client).map (f := fun key => (client, key))
      fun _ _ heq => congrArg Prod.snd heq
    rw [map_map] at hkeys
    exact hkeys
  · refine (Finset.sort_nodup ..).imp fun {a b} hne => ?_
    intro x ha hb
    obtain ⟨ca, hca, rfl⟩ := mem_map.mp ha
    obtain ⟨cb, hcb, heq⟩ := mem_map.mp hb
    obtain ⟨ea, -, rfl⟩ := mem_map.mp hca
    obtain ⟨eb, -, rfl⟩ := mem_map.mp hcb
    exact hne (congrArg Prod.fst heq).symm

variable (h : hub.desk.Ok)
include h

theorem mem_closeEntries {key : PendingKey} :
    (client, key, ref) ∈ hub.closeEntries ↔ hub.desk.pending client key = some ref := by
  rw [closeEntries, mem_flatMap]
  constructor
  · rintro ⟨c, -, hin⟩
    obtain ⟨entry, hentry, heq⟩ := mem_map.mp hin
    cases heq
    exact mem_sortedCalls.mp hentry
  · intro hpending
    have hclient := h.known client key ref hpending
    exact ⟨client, (Finset.mem_sort (· ≤ ·)).mpr hclient,
      mem_map.mpr ⟨(key, ref), mem_sortedCalls.mpr hpending, rfl⟩⟩

theorem nodup_closeEntries : (hub.closeEntries.map (·.2.2)).Nodup := by
  rw [nodup_map_iff_inj_on hub.nodup_closeCalls.of_map]
  rintro ⟨c, k, ref⟩ hmem ⟨c', k', ref'⟩ hmem' rfl
  obtain ⟨call, hcall, rfl, -, howner⟩ := h.pending c k ref ((mem_closeEntries h).mp hmem)
  obtain ⟨call', hcall', rfl, -, howner'⟩ := h.pending c' k' ref ((mem_closeEntries h).mp hmem')
  cases hcall.symm.trans hcall'
  cases howner.symm.trans howner'
  rfl

theorem close_desk : hub.close.1.desk = hub.desk.shutDown hub.closeEntries := by
  have hstop : ((hub.runs.entries.map (·.2)).foldl stopAccepting { hub with closed := true }).desk =
      { hub.desk with closed := true } := (Aside.foldl stopAccepting_aside _ _).desk
  refine (Aside.foldl (fun hub client => hub.finishWatchers_aside client .closed) _ _).desk.trans ?_
  refine (Aside.foldl removeReleasedBinding_aside _ _).desk.trans ?_
  have hcalls := congrArg Desk.calls hstop
  refine (closeCalls_desk hub.closeEntries _ (fun e he => ?_) (congrArg Desk.closed hstop)).trans ?_
  · obtain ⟨call, hcall, -⟩ := h.pending _ _ _ ((mem_closeEntries h).mp he)
    exact Option.isSome_iff_exists.mpr ⟨call, (congrFun hcalls e.2.2).trans hcall⟩
  · rw [hstop]
    rfl

end PendingHub

end SpiceAgent.Daemon
