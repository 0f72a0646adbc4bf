import SpiceAgent.Daemon.PendingBudget
import SpiceAgent.GrpcServer.StreamInteractions
import SpiceAgent.Lib.JoinedKey
import SpiceAgent.Wire.InitializeContract

/-!
# Pending sets on the wire

The hub bounds what is pending for a client by its own count of bytes, and the run host accepts
limits only if that and an overhead for every item fit into one message. So the snapshot of every
pending set and every delta after it passes the checks of the stream contract, if the identities and
kinds are UTF-8 without control characters: the interaction package accepts other bytes, the
contract does not. The encoder of the messages demands UTF-8 of the prompts as well.
-/

namespace SpiceAgent.Grpcserver

open SpiceAgent.Lib SpiceAgent.Lib.ProtoSize SpiceAgent.Commonv1 SpiceAgent.Enginev1
  SpiceAgent.Daemon
open Interaction

variable {isJson : List UInt8 → Bool} {limits : Limits} {pending : PendingLimits}
  {set : PendingSet} {items : List PendingInteraction}

/-! ## Interactions -/

variable (isJson) in
/-- An admitted request whose identities and kind are tokens of the contract. -/
structure Representable (value : Pending) : Prop where
  runID : IsByteToken (utf8 value.runID) 128
  id : IsByteToken value.request.id 128
  kind : IsByteToken value.request.kind 128
  text : validUTF8 value.request.prompt = true
  valid : value.request.validate isJson = true

variable {maximum : ℕ}

namespace Representable

variable {value : Pending}

section

variable (h : Representable isJson value)
include h

theorem prompt : trimmedBytes value.request.prompt = true ∧
    value.request.prompt.length ≤ maximumInteractionBytes := by
  have hvalid := h.valid
  simp only [Interaction.Request.validate, Bool.and_eq_true, decide_eq_true_eq] at hvalid
  exact ⟨hvalid.1.1.2, hvalid.1.2⟩

theorem schema : value.request.schema ≠ [] ∧
    isJson value.request.schema = true ∧ value.request.schema.length ≤ maximumInteractionBytes := by
  have hvalid := h.valid
  simp only [Interaction.Request.validate, validateJSON, Bool.and_eq_true,
    decide_eq_true_eq, Bool.not_eq_true', List.isEmpty_eq_false_iff] at hvalid
  exact ⟨hvalid.2.1.1, hvalid.2.1.2, hvalid.2.2⟩

theorem encodable : (wireInteraction value).encodable = true := by
  simp [PendingInteraction.encodable, wireInteraction, h.runID.utf8, h.id.utf8, h.kind.utf8, h.text]

theorem accepted : validatePendingInteraction isJson (some (wireInteraction value)) = .ok () := by
  obtain ⟨htrimmed, hprompt⟩ := h.prompt
  obtain ⟨hne, hjson, hschema⟩ := h.schema
  simp only [validatePendingInteraction, validateBoundedJSON, wireInteraction, check_bind_ok,
    token_ok, refuseIf_ok, not_or, not_lt, List.length_eq_zero_iff, Bool.not_eq_false]
  exact ⟨h.runID, h.id, h.kind, refuseIf_ok.mpr (by simp [htrimmed, hprompt]), hne, hschema, hjson⟩

theorem converts : pendingInteractionToWire isJson value = .ok (wireInteraction value) := by
  have hscope : validScope value.runID = true := by
    simp [validScope, Interaction.token, h.runID.trimmed, h.runID.length_le]
  simp [pendingInteractionToWire, refuseIf, hscope, h.valid, h.accepted, Except.mapError]

end

theorem bytesField_le (field overhead : ℕ) {length : ℕ} (hlength : length ≤ maximum)
    (hoverhead : tagSize field + varintSize maximum ≤ overhead) :
    bytesField field length ≤ length + overhead := by
  have := varintSize_mono hlength
  unfold bytesField lengthField
  split_ifs <;> omega

theorem size_le (h : Representable isJson value) :
    ((wireInteraction value).size : ℤ) ≤ value.bytes + 17 ∧
      (wireInteraction value).size < 2 ^ 21 := by
  have h1 := bytesField_le 1 3 h.runID.length_le (by decide)
  have h2 := bytesField_le 2 3 h.id.length_le (by decide)
  have h3 := bytesField_le 3 3 h.kind.length_le (by decide)
  have h4 := bytesField_le 4 4 h.prompt.2 (by decide)
  have h5 := bytesField_le 5 4 h.schema.2.2 (by decide)
  have hmaximum : maximumInteractionBytes = 524288 := rfl
  have hlength := length_utf8 value.runID
  have := h.runID.length_le
  have := h.id.length_le
  have := h.kind.length_le
  have := h.prompt.2
  have := h.schema.2.2
  simp only [PendingInteraction.size, Pending.bytes, wireInteraction]
  omega

end Representable

/-! ## Snapshots -/

theorem noNul {value : List UInt8} (h : IsByteToken value maximum) : 0 ∉ value :=
  fun hc => absurd (List.any_eq_false.mp h.clean 0 hc) (by decide)

section

variable {a b : Pending} (ha : Representable isJson a) (hb : Representable isJson b)
include ha hb

theorem interactionKey_inj
    (h : interactionKey (wireInteraction a) = interactionKey (wireInteraction b)) :
    a.key = b.key := by
  obtain ⟨hrun, hid⟩ := joined_inj (noNul ha.runID) (noNul hb.runID) h
  exact PendingKey.mk.injEq .. ▸ ⟨utf8_injective hrun, hid⟩

theorem interactionKey_lt (h : a.key.le b.key) (hne : a.key ≠ b.key) :
    interactionKey (wireInteraction a) < interactionKey (wireInteraction b) := by
  refine joined_lt (noNul ha.runID) (noNul hb.runID)
    (h.imp_right fun ⟨hrun, hle⟩ => ⟨congrArg utf8 hrun, ?_⟩)
  exact lt_of_le_of_ne hle fun hid => hne (PendingKey.mk.injEq .. ▸ ⟨hrun, hid⟩)

end

theorem validatePendings_iff {index : ℕ} {previous : List UInt8} :
    validatePendings isJson index previous items = .ok () ↔
      (∀ item ∈ items, validatePendingInteraction isJson (some item) = .ok ()) ∧
        (previous :: items.map interactionKey).IsChain (· < ·) := by
  induction items generalizing index previous with
  | nil => simp [validatePendings]
  | cons item rest ih =>
    simp only [validatePendings, check_bind_ok, wrap_ok, refuseIf_ok, not_le, ih, List.map_cons,
      List.isChain_cons_cons, List.forall_mem_cons]
    tauto

/-- The limits of a session with interaction streams, on a server whose host accepts the limits of
its hub. -/
structure Served (pending : PendingLimits) (limits : Limits) : Prop where
  hub : validatePendingLimits pending = .ok ()
  negotiated : ∃ host request server n, validateRunHostLimits pending host = .ok () ∧
    server.limits = some host ∧ preflightInitialize (some request) server = .ok n ∧
    interactionStreamMinimumMinor ≤ n.protocol.minor ∧ n.limits = limits

/-- What the stream relies on in the limits of a session. -/
structure Roomy (pending : PendingLimits) (limits : Limits) : Prop where
  valid : validateLimits (some limits) = .ok ()
  control : 158 ≤ limits.maxMessageBytes
  count_pos : 1 ≤ pending.pendingPerClient
  bytes_pos : 1 ≤ pending.pendingBytesPerClient
  count_le : pending.pendingPerClient ≤ limits.maxCollectionItems
  bytes_le : pending.pendingBytesPerClient + pending.pendingPerClient * 32 + 32 ≤
    limits.maxMessageBytes

theorem validateLimits_preflight {request : InitializeRequest} {server : InitializeServer}
    {n : InitializeNegotiation} (h : preflightInitialize (some request) server = .ok n) :
    validateLimits (some n.limits) = .ok () := by
  have hvalid := (negotiated_of_preflight h).preview_valid
  simp only [validateInitializeResponse, initializeSuccessResponse, validateStatus_okStatus,
    asError_okStatus, check_bind_ok, true_and] at hvalid
  exact hvalid.2.2.2.2.2.1

theorem requested_ge {version : ProtocolVersion} {requested server : Limits}
    (h : validateInteractionStreamRequestedLimits version requested server = .ok ())
    (hminor : interactionStreamMinimumMinor ≤ version.minor) :
    server.maxMessageBytes ≤ requested.maxMessageBytes ∧
      server.maxCollectionItems ≤ requested.maxCollectionItems := by
  unfold validateInteractionStreamRequestedLimits at h
  rw [if_neg (not_lt.mpr hminor), refuseIf_ok, not_or, not_lt, not_lt] at h
  exact h

/-- A session with interaction streams has the message and collection limits of the server. -/
theorem server_limits {request : InitializeRequest} {server : InitializeServer}
    {n : InitializeNegotiation} {host : Limits} (hserver : server.limits = some host)
    (h : preflightInitialize (some request) server = .ok n)
    (hminor : interactionStreamMinimumMinor ≤ n.protocol.minor) :
    n.limits.maxMessageBytes = host.maxMessageBytes ∧
      n.limits.maxCollectionItems = host.maxCollectionItems := by
  simp only [preflightInitialize, check_bind_ok, mapError_ok] at h
  obtain ⟨-, -, h⟩ := h
  simp only [negotiateInitialize, bind_ok, mapError_eq_ok, Except.ok.injEq] at h
  obtain ⟨version, -, _, -, _, hrequested, limits, hlimits, _, -, _, -, _, -, _, -, _,
    -, _, -, _, -, rfl⟩ := h
  rw [hserver] at hlimits
  have hrequested := requested_ge hrequested hminor
  unfold negotiateLimits at hlimits
  split at hlimits
  · cases hlimits
  · cases hlimits
  · next requested available _ _ hreq havailable =>
    obtain rfl := Except.ok.inj hlimits
    cases havailable
    rw [hreq, hserver] at hrequested
    exact ⟨min_eq_right hrequested.1, min_eq_right hrequested.2⟩
  · cases hlimits

theorem Served.roomy (h : Served pending limits) : Roomy pending limits := by
  obtain ⟨host, request, server, n, hhost, hserver, hpreflight, hminor, rfl⟩ := h.negotiated
  obtain ⟨hmessage, hitems⟩ := server_limits hserver hpreflight hminor
  have hhub := h.hub
  simp only [validatePendingLimits, validatePendingCountLimits, validatePendingByteLimits,
    validateGlobalClientBound, check_bind_ok, refuseIf_ok, not_or, not_lt] at hhub
  obtain ⟨⟨-, -, hcount, -⟩, ⟨hbytes, -⟩, -⟩ := hhub
  simp only [validateRunHostLimits, check_bind_ok, refuseIf_ok, not_or, not_lt] at hhost
  obtain ⟨-, -, -, hcountLe, -, hbytesLe⟩ := hhost
  refine ⟨validateLimits_preflight hpreflight,
    NegotiatedLimits.message_bound ⟨request, server, n, hpreflight, rfl⟩, hcount.2.2.1,
    hbytes.2.2.1,
    hitems ▸ hcountLe, hmessage ▸ hbytesLe⟩

theorem lengthField_le (field overhead : ℕ) {length : ℕ} (hlength : length ≤ maximum)
    (hoverhead : tagSize field + varintSize maximum ≤ overhead) :
    lengthField field length ≤ length + overhead := by
  have := varintSize_mono hlength
  unfold lengthField
  omega

theorem Representable.field_le {value : Pending} (h : Representable isJson value) (field : ℕ)
    (hfield : tagSize field = 1) :
    (lengthField field (wireInteraction value).size : ℤ) ≤ value.bytes + 21 := by
  obtain ⟨hbytes, hlt⟩ := h.size_le
  have hvarint : varintSize (2 ^ 21 - 1) = 3 := by decide
  have := lengthField_le field 4 (Nat.le_sub_one_of_lt hlt) (by omega)
  omega

theorem frame_le (field size : ℕ) (hfield : tagSize field = 1) :
    lengthField field size ≤ size + 11 := by
  have := varintSize_le size
  unfold lengthField
  omega

/-- The interactions are those of a pending set, in the order of the contract. -/
structure Presents (set : PendingSet) (items : List PendingInteraction) : Prop where
  values : (items : Multiset PendingInteraction) = set.entries.map fun e => wireInteraction e.2
  sorted : (items.map interactionKey).Pairwise (· < ·)

namespace Presents

variable (h : Presents set items) (hfits : Fits pending (Representable isJson) set)
include h

theorem length_eq : items.length = count set := by
  have hcard := congrArg Multiset.card h.values
  rwa [Multiset.coe_card, Multiset.card_map] at hcard

include hfits

theorem mem {item : PendingInteraction} (hitem : item ∈ items) :
    ∃ value, Representable isJson value ∧ wireInteraction value = item := by
  rw [← Multiset.mem_coe, h.values] at hitem
  obtain ⟨⟨key, value⟩, hmem, rfl⟩ := Multiset.mem_map.mp hitem
  exact ⟨value, (hfits.values key value (lookup_eq_some_iff.mpr hmem)).2, rfl⟩

theorem fields_le : (repeatedField 2 (items.map (·.size)) : ℤ) ≤
    total Pending.bytes set + 21 * count set := by
  have hsum : (repeatedField 2 (items.map (·.size)) : ℤ) =
      (set.entries.map fun e => (lengthField 2 (wireInteraction e.2).size : ℤ)).sum := by
    have hmap := congrArg (Multiset.map fun item => (lengthField 2 item.size : ℤ)) h.values
    rw [Multiset.map_map, Multiset.map_coe] at hmap
    have heq := congrArg Multiset.sum hmap
    rw [Multiset.sum_coe] at heq
    refine Eq.trans ?_ heq
    simp [repeatedField, Nat.cast_list_sum, Function.comp_def]
  have hle : (set.entries.map fun e => (lengthField 2 (wireInteraction e.2).size : ℤ)).sum ≤
      (set.entries.map fun e => e.2.bytes + 21).sum := by
    refine Multiset.sum_map_le_sum_map _ _ fun e he => ?_
    exact (hfits.values e.1 e.2 (lookup_eq_some_iff.mpr he)).2.field_le 2 (by decide)
  rw [hsum]
  refine hle.trans (le_of_eq ?_)
  rw [Multiset.sum_map_add, Multiset.map_const', Multiset.sum_replicate, nsmul_eq_mul, mul_comm]
  rfl

theorem accepted (hroom : Roomy pending limits) (revision : ℕ) :
    validateInteractionSnapshot isJson (some ⟨revision, items⟩) limits = .ok () ∧
      (StreamInteractionsResponse.snapshot ⟨revision, items⟩).size ≤ limits.maxMessageBytes := by
  have hfields := h.fields_le hfits
  have hlength := h.length_eq
  have hcount := hfits.count_le
  have htotal := hfits.total_le
  have hcountLe := hroom.count_le
  have hbytesLe := hroom.bytes_le
  have hcontrol := hroom.control
  have hrevision := uintField_le 1 revision
  have htag : tagSize 1 = 1 := by decide
  have hframe := frame_le 1 (InteractionSnapshot.size ⟨revision, items⟩) htag
  have hsize : InteractionSnapshot.size ⟨revision, items⟩ =
    uintField 1 revision + repeatedField 2 (items.map (·.size)) := rfl
  have hfits' : (StreamInteractionsResponse.snapshot ⟨revision, items⟩).size ≤
      limits.maxMessageBytes := by
    simp only [StreamInteractionsResponse.size]
    omega
  refine ⟨?_, hfits'⟩
  simp only [validateInteractionSnapshot, check_bind_ok, refuseIf_ok,
    validateEncodedSize_ok, not_lt]
  refine ⟨hroom.valid, by omega, validatePendings_iff.mpr ⟨fun item hitem => ?_, ?_⟩, by omega,
    by omega⟩
  · obtain ⟨value, hvalue, rfl⟩ := h.mem hfits hitem
    exact hvalue.accepted
  · refine List.isChain_iff_pairwise.mpr (List.pairwise_cons.mpr ⟨fun key hkey => ?_, h.sorted⟩)
    obtain ⟨item, -, rfl⟩ := List.mem_map.mp hkey
    exact empty_lt_joined ..

end Presents

/-! ## Initial pages -/

theorem mapM_wireInteraction {values : List Pending} (h : ∀ v ∈ values, Representable isJson v) :
    values.mapM (pendingInteractionToWire isJson) = .ok (values.map wireInteraction) := by
  induction values with
  | nil => rfl
  | cons v rest ih =>
    rw [List.mapM_cons, (h v List.mem_cons_self).converts,
      ih fun v hv => h v (List.mem_cons_of_mem _ hv)]
    rfl

variable {snapshot : PendingSnapshot}

theorem Ordered.mem (h : Ordered snapshot.pending) {value : Pending}
    (hvalue : value ∈ snapshot.pending) : snapshot.set.lookup value.key = some value := by
  rw [lookup_eq_some_iff, h.entries]
  exact List.mem_map.mpr ⟨value, hvalue, rfl⟩

theorem Ordered.presents (h : Ordered snapshot.pending)
    (hvalues : ∀ v ∈ snapshot.pending, Representable isJson v) :
    Presents snapshot.set (snapshot.pending.map wireInteraction) where
  values := by
    rw [h.entries, Multiset.map_coe, List.map_map]
    rfl
  sorted := by
    rw [List.map_map, List.pairwise_map]
    refine List.Pairwise.imp_of_mem (fun {a b} ha hb hab => ?_) h
    exact interactionKey_lt (hvalues a ha) (hvalues b hb) hab.1 hab.2

theorem control_size_le (snapshot : InteractionSnapshot) (tail : Bool) :
    (StreamInteractionsResponse.control (initialControl snapshot tail)).size ≤ 158 := by
  have hstatus : messageField 1 (some okStatus.size) = 4 := by decide
  have h2 := uintField_le 2 snapshot.revision
  have h3 := uintField_le 3 snapshot.revision
  have h4 := boolField_le 4 false
  have h5 := boolField_le 5 tail
  have htags : tagSize 2 = 1 ∧ tagSize 3 = 1 ∧ tagSize 4 = 1 ∧ tagSize 5 = 1 := by decide
  have hframe := frame_le 3 (initialControl snapshot tail).size (by decide)
  have hsize : (initialControl snapshot tail).size = messageField 1 (some okStatus.size) +
    uintField 2 snapshot.revision + uintField 3 snapshot.revision + boolField 4 false +
    boolField 5 tail := rfl
  simp only [StreamInteractionsResponse.size]
  omega

theorem validateStreamPage_ok (hroom : Roomy pending limits)
    (hfits : Fits pending (Representable isJson) set) (h : Presents set items) (revision : ℕ)
    (tail : Bool) :
    validateInteractionStreamPage isJson [.snapshot ⟨revision, items⟩,
      .control (initialControl ⟨revision, items⟩ tail)] tail limits = .ok () := by
  obtain ⟨hsnapshot, hframe⟩ := h.accepted hfits hroom revision
  have hcontrol := control_size_le ⟨revision, items⟩ tail
  have hbound := hroom.control
  have hok : okStatus.code = .ok := rfl
  simp only [validateInteractionStreamPage, validatePageFrames, check_bind_ok, wrap_ok,
    validateEncodedSize_ok, StreamInteractionsResponse.getSnapshot,
    StreamInteractionsResponse.getControl]
  refine ⟨hroom.valid, ⟨by omega, hframe⟩, ⟨by omega, by omega⟩, hsnapshot, ?_, ?_⟩
  · simp [validateInteractionStreamControl, initialControl, hok]
  · simp [initialControl]

theorem encodable_snapshot (hordered : Ordered snapshot.pending)
    (hfits : Fits pending (Representable isJson) snapshot.set) :
    ∀ item ∈ snapshot.pending.map wireInteraction, item.encodable = true := by
  intro item hitem
  obtain ⟨v, hv, rfl⟩ := List.mem_map.mp hitem
  exact (hfits.values v.key v (Ordered.mem hordered hv)).2.encodable

theorem initialPage_ok (hroom : Roomy pending limits) (hordered : Ordered snapshot.pending)
    (hfits : Fits pending (Representable isJson) snapshot.set) (tail : Bool) :
    initialPage isJson snapshot tail limits =
      .ok (⟨snapshot.revision, snapshot.pending.map wireInteraction⟩,
        initialControl ⟨snapshot.revision, snapshot.pending.map wireInteraction⟩ tail) := by
  have hvalues : ∀ v ∈ snapshot.pending, Representable isJson v := fun v hv =>
    (hfits.values v.key v (Ordered.mem hordered hv)).2
  have hpresents := Ordered.presents hordered hvalues
  have hsnapshot := (hpresents.accepted hfits hroom snapshot.revision).1
  have hpage := validateStreamPage_ok hroom hfits hpresents snapshot.revision tail
  have hwire : interactionSnapshotToWire isJson snapshot limits =
      .ok ⟨snapshot.revision, snapshot.pending.map wireInteraction⟩ :=
    bind_ok.mpr
      ⟨_, mapM_wireInteraction hvalues, check_bind_ok.mpr ⟨mapError_ok.mpr hsnapshot, rfl⟩⟩
  exact bind_ok.mpr ⟨_, mapError_eq_ok.mpr hwire, check_bind_ok.mpr ⟨mapError_ok.mpr hpage, rfl⟩⟩

/-! ## The tail -/

def wireKey (value : Pending) : List UInt8 := interactionKey (wireInteraction value)

variable {m : AList fun _ : List UInt8 => PendingInteraction}

theorem sortedItems_perm :
    (sortedItems m : Multiset PendingInteraction) = m.toFinmap.entries.map fun e => e.2 := by
  have hperm : (sortedItems m).Perm (m.keys.filterMap m.lookup) :=
    (List.perm_insertionSort ..).filterMap _
  rw [Multiset.coe_eq_coe.mpr hperm, AList.toFinmap_entries, Multiset.map_coe]
  refine congrArg _ ?_
  change (m.entries.map Sigma.fst).filterMap m.lookup = _
  rw [List.filterMap_map, ← List.filterMap_eq_map]
  refine List.filterMap_congr fun e he => ?_
  exact AList.mem_lookup_iff.mpr he

theorem sortedItems_keys
    (hkeys : ∀ key item, m.lookup key = some item → interactionKey item = key) :
    (sortedItems m).map interactionKey = m.keys.insertionSort (· ≤ ·) := by
  have hall : ∀ keys : List (List UInt8), (∀ key ∈ keys, key ∈ m) →
      (keys.filterMap m.lookup).map interactionKey = keys := by
    intro keys hin
    induction keys with
    | nil => rfl
    | cons key rest ih =>
      obtain ⟨item, hitem⟩ := Option.isSome_iff_exists.mp
        (AList.lookup_isSome.mpr (hin key List.mem_cons_self))
      simp only [List.filterMap_cons, hitem, List.map_cons, hkeys key item hitem,
        ih fun key hkey => hin key (List.mem_cons_of_mem _ hkey)]
  exact hall _ fun key hkey => AList.mem_keys.mpr ((List.perm_insertionSort ..).mem_iff.mp hkey)

/-- The validator follows a pending set. -/
structure Tracks (limits : Limits) (set : PendingSet) (validator : InteractionTailValidator) :
    Prop where
  limits_eq : validator.limits = limits
  image : IsImage wireKey wireInteraction set validator.pending.toFinmap

section

variable (himage : IsImage wireKey wireInteraction set m.toFinmap)
include himage

theorem presents_sortedItems : Presents set (sortedItems m) where
  values := sortedItems_perm.trans himage.values
  sorted := by
    rw [sortedItems_keys fun key item hitem => ?_]
    · have hsorted := List.pairwise_insertionSort (· ≤ ·) m.keys
      have hnodup := (List.perm_insertionSort (· ≤ ·) m.keys).nodup_iff.mpr m.keys_nodup
      exact (hsorted.and hnodup).imp fun hab => lt_of_le_of_ne hab.1 hab.2
    · have hmem := lookup_eq_some_iff.mp ((Finmap.lookup_toFinmap key m).trans hitem)
      rw [himage] at hmem
      obtain ⟨e, -, heq⟩ := Multiset.mem_map.mp hmem
      cases heq
      rfl

theorem validateRepresentable_ok (hroom : Roomy pending limits)
    (hfits : Fits pending (Representable isJson) set) (revision : ℕ) :
    validateRepresentableInteractionState isJson revision m limits = .ok () := by
  obtain ⟨hsnapshot, hframe⟩ := (presents_sortedItems himage).accepted hfits hroom revision
  have hbound := hroom.control
  simp only [validateRepresentableInteractionState, check_bind_ok, wrap_ok, validateEncodedSize_ok]
  exact ⟨hsnapshot, by omega, hframe⟩

theorem keys_length : m.keys.length = count set := by
  rw [← himage.count_eq]
  exact List.length_map _

theorem image_foldl {values : List Pending}
    (hdistinct : values.Pairwise fun a b => a.key ≠ b.key ∧ wireKey a ≠ wireKey b)
    (hnew : ∀ v ∈ values, v.key ∉ set ∧ wireKey v ∉ m.toFinmap) :
    IsImage wireKey wireInteraction (values.foldl (fun set v => set.insert v.key v) set)
      ((values.map wireInteraction).foldl
        (fun pending item => pending.insert (interactionKey item) item) m).toFinmap := by
  induction values generalizing set m with
  | nil => exact himage
  | cons a rest ih =>
    obtain ⟨hfirst, hrest⟩ := List.pairwise_cons.mp hdistinct
    obtain ⟨hset, hm⟩ := hnew a List.mem_cons_self
    have hinsert := himage.insert hset hm
    rw [Finmap.insert_toFinmap] at hinsert
    refine ih hinsert hrest fun v hv => ?_
    obtain ⟨hvset, hvm⟩ := hnew v (List.mem_cons_of_mem a hv)
    obtain ⟨hkey, hwire⟩ := hfirst v hv
    rw [← Finmap.insert_toFinmap, Finmap.mem_insert, Finmap.mem_insert, not_or, not_or]
    exact ⟨⟨hkey.symm, hvset⟩, hwire.symm, hvm⟩

end

theorem tailValidator_ok (hroom : Roomy pending limits) (hordered : Ordered snapshot.pending)
    (hfits : Fits pending (Representable isJson) snapshot.set) :
    ∃ validator, tailValidator isJson ⟨snapshot.revision, snapshot.pending.map wireInteraction⟩
        (initialControl ⟨snapshot.revision, snapshot.pending.map wireInteraction⟩ true) limits =
          .ok validator ∧
      Tracks limits snapshot.set validator ∧ validator.revision = snapshot.revision := by
  have hvalues : ∀ v ∈ snapshot.pending, Representable isJson v := fun v hv =>
    (hfits.values v.key v (Ordered.mem hordered hv)).2
  have hpage := validateStreamPage_ok hroom hfits (Ordered.presents hordered hvalues)
    snapshot.revision true
  refine ⟨_, mapError_eq_ok.mpr (check_bind_ok.mpr ⟨hpage, rfl⟩), ⟨rfl, ?_⟩, rfl⟩
  refine image_foldl .empty (List.Pairwise.imp_of_mem (fun {a b} ha hb hab => ?_) hordered)
    fun v _ => ?_
  · exact ⟨hab.2, (interactionKey_lt (hvalues a ha) (hvalues b hb) hab.1 hab.2).ne⟩
  · exact ⟨Finmap.notMem_empty, Finmap.notMem_empty⟩

variable {validator : InteractionTailValidator} {delta : Delta}

def wireDelta (delta : Delta) : InteractionDelta :=
  ⟨delta.revision, deltaKindToWire delta.kind, some (wireInteraction delta.pending)⟩

section

variable (happlies : delta.Applies set) (hfits : Fits pending (Representable isJson) set)
  (hnext : Fits pending (Representable isJson) (delta.apply set))
include happlies hfits hnext

theorem delta_value :
    Representable isJson delta.pending ∧ delta.pending.bytes ≤ pending.pendingBytesPerClient := by
  have hpart : ∀ {set : PendingSet}, Fits pending (Representable isJson) set →
      set.lookup delta.pending.key = some delta.pending →
      Representable isJson delta.pending ∧ delta.pending.bytes ≤ pending.pendingBytesPerClient :=
    fun hfits hlookup => ⟨(hfits.values _ _ hlookup).2,
      (weight_le_total hlookup Pending.bytes_nonneg).trans hfits.total_le⟩
  obtain ⟨revision, kind, value⟩ := delta
  cases kind with
  | opened => exact hpart hnext (Finmap.lookup_insert _)
  | closed => exact hpart hfits happlies

variable (hroom : Roomy pending limits) (h : Tracks limits set validator)
include hroom h

theorem change_ok :
    ∃ next, validator.change (deltaKindToWire delta.kind) (wireInteraction delta.pending) =
      .ok next ∧ IsImage wireKey wireInteraction (delta.apply set) next.toFinmap := by
  obtain ⟨revision, kind, value⟩ := delta
  have hlength := keys_length h.image
  cases kind with
  | opened =>
    have hvalue : Representable isJson value :=
      (hnext.values value.key value (by simp [Delta.apply])).2
    have hnot : wireKey value ∉ validator.pending.toFinmap := by
      refine h.image.notMem fun key other hother heq => happlies ?_
      obtain ⟨hkey, hrep⟩ := hfits.values key other hother
      change value.key ∈ set
      rw [← interactionKey_inj hrep hvalue heq, hkey]
      exact Finmap.mem_of_lookup_eq_some hother
    have hnone : validator.pending.lookup (wireKey value) = none :=
      AList.lookup_eq_none.mpr fun hin => hnot (Finmap.mem_toFinmap.mpr hin)
    have hcount := hnext.count_le
    rw [show Delta.apply set ⟨revision, .opened, value⟩ = set.insert value.key value from rfl,
      count_insert happlies] at hcount
    have hroomLe := hroom.count_le
    have hlt : ¬ limits.maxCollectionItems ≤ validator.pending.keys.length := by omega
    refine ⟨validator.pending.insert (wireKey value) (wireInteraction value), ?_, ?_⟩
    · simp only [InteractionTailValidator.change, deltaKindToWire]
      rw [show validator.pending.lookup (interactionKey (wireInteraction value)) = none from hnone]
      simp only [h.limits_eq, if_neg hlt]
      rfl
    · rw [← Finmap.insert_toFinmap]
      exact h.image.insert happlies hnot
  | closed =>
    have hlookup : validator.pending.lookup (wireKey value) = some (wireInteraction value) :=
      (Finmap.lookup_toFinmap ..).symm.trans (h.image.lookup happlies)
    refine ⟨validator.pending.erase (wireKey value), ?_, ?_⟩
    · simp only [InteractionTailValidator.change, deltaKindToWire]
      rw [show validator.pending.lookup (interactionKey (wireInteraction value)) =
        some (wireInteraction value) from hlookup]
      simp only [ne_eq, not_true_eq_false, if_false]
      rfl
    · rw [← Finmap.erase_toFinmap]
      exact h.image.erase happlies

theorem tailDelta_ok (hrevision : delta.revision = validator.revision + 1)
    (hbound : delta.revision ≤ Commonv1.maxUint64) :
    ∃ validator', tailDelta isJson validator delta = .ok validator' ∧
      Tracks limits (delta.apply set) validator' ∧ validator'.revision = delta.revision := by
  obtain ⟨next, hchange, himage⟩ := change_ok happlies hfits hnext hroom h
  obtain ⟨hvalue, hbytes⟩ := delta_value happlies hfits hnext
  have hstate := validateRepresentable_ok himage hroom hnext delta.revision
  have hdelta : validateInteractionDelta isJson (some (wireDelta delta)) = .ok () := by
    unfold wireDelta
    simp only [validateInteractionDelta, check_bind_ok, refuseIf_ok]
    refine ⟨by omega, ?_, hvalue.accepted⟩
    cases delta.kind <;> simp [deltaKindToWire]
  have hwire : interactionDeltaToWire isJson delta = .ok (wireDelta delta) :=
    bind_ok.mpr ⟨_, hvalue.converts, check_bind_ok.mpr ⟨mapError_ok.mpr hdelta, rfl⟩⟩
  have hsize : (StreamInteractionsResponse.delta (wireDelta delta)).size ≤
      limits.maxMessageBytes := by
    have hitem := hvalue.field_le 3 (by decide)
    have hkind : uintField 2 (deltaKindToWire delta.kind).number ≤ 2 := by
      cases delta.kind <;> decide
    have hnumber := uintField_le 1 delta.revision
    have htag : tagSize 1 = 1 := by decide
    have hframe := frame_le 2 (wireDelta delta).size (by decide)
    have hfield : (wireDelta delta).size = uintField 1 delta.revision +
        uintField 2 (deltaKindToWire delta.kind).number +
        lengthField 3 (wireInteraction delta.pending).size := rfl
    have hle := hroom.bytes_le
    have hpos := hroom.count_pos
    simp only [StreamInteractionsResponse.size]
    omega
  have hcontrol := hroom.control
  obtain rfl := h.limits_eq
  refine ⟨{ validator with pending := next, revision := delta.revision }, ?_, ⟨rfl, himage⟩, rfl⟩
  refine bind_ok.mpr ⟨_, mapError_eq_ok.mpr hwire, mapError_eq_ok.mpr ?_⟩
  refine check_bind_ok.mpr ⟨validateEncodedSize_ok.mpr ⟨by omega, hsize⟩,
    check_bind_ok.mpr ⟨hdelta, check_bind_ok.mpr ⟨refuseIf_ok.mpr ?_, bind_ok.mpr ⟨next, hchange,
      check_bind_ok.mpr ⟨hstate, rfl⟩⟩⟩⟩⟩
  omega

end

/-! ## Streams -/

theorem tailDeltas_ok (hroom : Roomy pending limits) {book : ClientBook}
    (hbook : book.Ok pending (Representable isJson))
    (hfollows : Follows Delta.apply book.views book.log)
    (hnumbered : ∀ (i : ℕ) (d : Delta), book.log[i]? = some d → d.revision = i + 1)
    (hlength : book.log.length ≤ Commonv1.maxUint64) {values : List Delta}
    (hview : book.views[validator.revision]? = some set)
    (hvalues : values <+: book.log.drop validator.revision) (h : Tracks limits set validator) :
    (∃ validator', tailDeltas isJson validator values = .ok validator') ∧
      ∀ d ∈ values, Representable isJson d.pending := by
  induction values generalizing set validator with
  | nil => exact ⟨⟨validator, rfl⟩, List.forall_mem_nil _⟩
  | cons d rest ih =>
    obtain ⟨after, hafter⟩ := hvalues
    have hd : book.log[validator.revision]? = some d := by
      rw [← Nat.add_zero validator.revision, ← List.getElem?_drop, ← hafter]
      rfl
    have hlt := (List.getElem?_eq_some_iff.mp hd).1
    have hrevision := hnumbered _ d hd
    have hnext := hfollows.next _ set d hview hd
    have happlies := hbook.applies _ set d hview hd
    have hfits := hbook.fits set (List.mem_of_getElem? hview)
    have hfits' := hbook.fits _ (List.mem_of_getElem? hnext)
    obtain ⟨validator', hround, htracks, hat⟩ :=
      tailDelta_ok happlies hfits hfits' hroom h hrevision (by omega)
    have hat' : validator'.revision = validator.revision + 1 := hat.trans hrevision
    obtain ⟨⟨validator'', hrest⟩, hpending⟩ := ih (by rw [hat']; exact hnext) (by
      rw [hat', ← List.drop_drop, ← hafter]
      exact ⟨after, rfl⟩) htracks
    refine ⟨⟨validator'', ?_⟩,
      List.forall_mem_cons.mpr ⟨(delta_value happlies hfits hfits').1, hpending⟩⟩
    unfold tailDeltas
    rw [List.foldlM_cons, hround]
    exact hrest

/-- Every request is for a run whose ID the contract accepts. -/
def WireRunIDs : PendingWorld → PendingWorld.Label → Prop
  | _, .request _ runID _ _ => IsByteToken (utf8 runID) 128
  | _, _ => True

/-- In addition the texts of every request are UTF-8, and its identity and kind have no control
characters. -/
def CleanRequests : PendingWorld → PendingWorld.Label → Prop
  | _, .request _ runID request _ => IsByteToken (utf8 runID) 128 ∧
      (validUTF8 request.id = true ∧ breaksBytes request.id = false) ∧
      (validUTF8 request.kind = true ∧ breaksBytes request.kind = false) ∧
      validUTF8 request.prompt = true
  | _, _ => True

theorem isByteToken_of_token {value : List UInt8} (h : Interaction.token value = true)
    (hclean : validUTF8 value = true ∧ breaksBytes value = false) : IsByteToken value 128 := by
  simp only [Interaction.token, Bool.and_eq_true, decide_eq_true_eq] at h
  exact ⟨h.1, hclean.1, hclean.2, h.2⟩

theorem representable_of_clean {w : PendingWorld} {id : ℕ} {runID : String}
    {request : Interaction.Request} {ctxDone : Bool}
    (h : CleanRequests w (.request id runID request ctxDone))
    (hvalid : request.validate isJson = true) : Representable isJson ⟨runID, request⟩ := by
  obtain ⟨hrun, hid, hkind, htext⟩ := h
  have htokens := hvalid
  simp only [Interaction.Request.validate, Bool.and_eq_true] at htokens
  exact ⟨hrun, isByteToken_of_token htokens.1.1.1.1 hid, isByteToken_of_token htokens.1.1.1.2 hkind,
    htext, hvalid⟩

theorem clean_budgeted (hroom : Roomy pending limits) {w : PendingWorld}
    (hw : (pendingSystem isJson pending).ReachableIf CleanRequests w) :
    w.hub.Budgeted pending (Representable isJson) := by
  have hcount := hroom.count_pos
  have hbytes := hroom.bytes_pos
  exact PendingWorld.reachable_budgeted (fits_empty (by omega) (by omega))
    (fun _ _ _ _ _ hclean _ hvalid => representable_of_clean hclean hvalid) hw

/-- In every run whose requests are UTF-8 without control characters in their identities and kinds,
the pending set of every client has an accepted initial page, the stream of every observer is
accepted from its initial page to its last delta, and the encoder takes all of it. -/
theorem pending_sets_observable (hserved : Served pending limits) {w : PendingWorld}
    (hw : (pendingSystem isJson pending).ReachableIf CleanRequests w) :
    (∀ client tail, ∃ page, initialPage isJson (w.hub.snapshot client) tail limits = .ok page ∧
      ∀ item ∈ page.1.pending, item.encodable = true) ∧
    ∀ ref watcher, w.hub.watchers ref = some watcher →
      ∃ snapshot control validator validator',
        initialPage isJson watcher.snapshot true limits = .ok (snapshot, control) ∧
        tailValidator isJson snapshot control limits = .ok validator ∧
        tailDeltas isJson validator watcher.stream = .ok validator' ∧
        (∀ item ∈ snapshot.pending, item.encodable = true) ∧
        ∀ delta ∈ watcher.stream, (wireInteraction delta.pending).encodable = true := by
  have hroom := hserved.roomy
  have h := clean_budgeted hroom hw
  refine ⟨fun client tail => ?_, fun ref watcher hwatcher => ?_⟩
  · have hp := h.inv.owing.partitions client
    have hfits := h.fits client
    rw [← hp.snapshot] at hfits
    exact ⟨_, initialPage_ok hroom hp.ordered hfits tail, encodable_snapshot hp.ordered hfits⟩
  · have hok := h.inv.owing.watchers ref watcher hwatcher
    have hp := h.inv.owing.partitions watcher.client
    have hbook := h.ok.clients watcher.client
    have hordered : Ordered watcher.snapshot.pending :=
      h.ok.ordered ref _ (congrArg (Option.map Watcher.snapshot) hwatcher)
    have hfits := hbook.fits _ (List.mem_of_getElem? hok.snapshot)
    obtain ⟨validator, hvalidator, htracks, hrevision⟩ := tailValidator_ok hroom hordered hfits
    have hlength : (w.hub.partition watcher.client).log.length ≤ Commonv1.maxUint64 := by
      have hle := hp.room
      rw [hp.revision]
      exact (Nat.le_add_right ..).trans hle
    have hstream : watcher.stream <+:
        (w.hub.partition watcher.client).log.drop validator.revision := by
      rw [hrevision]
      exact hok.ended
    obtain ⟨⟨validator', hdeltas⟩, hpending⟩ :=
      tailDeltas_ok hroom hbook hp.follows hp.numbered hlength
      (by rw [hrevision]; exact hok.snapshot) hstream htracks
    exact ⟨_, _, validator, validator', initialPage_ok hroom hordered hfits true,
      hvalidator, hdeltas, encodable_snapshot hordered hfits, fun delta hdelta =>
      (hpending delta hdelta).encodable⟩

/-- Limits of a hub whose snapshots fit into messages of 4096 bytes. -/
def samplePending : PendingLimits :=
  { Daemon.sampleLimits with pendingBytes := 1024, pendingBytesPerClient := 1024 }

abbrev sampleSystem := pendingSystem (fun _ => true) samplePending

theorem samplePending_served : Served samplePending smallLimits :=
  ⟨by decide, smallLimits, sampleRequest none, sampleServer, sampleNegotiation none, by decide, rfl,
    preflight_sample_fresh, by decide, rfl⟩

/-- An interaction opens after the observer has subscribed and is answered. -/
theorem pending_sets_observable_answered :
    ∃ w watcher snapshot control validator validator',
      sampleSystem.after answeredRun = some w ∧
      w.hub.watchers 0 = some watcher ∧ watcher.stream.map (·.kind) = [.opened, .closed] ∧
      initialPage (fun _ => true) watcher.snapshot true smallLimits = .ok (snapshot, control) ∧
      tailValidator (fun _ => true) snapshot control smallLimits = .ok validator ∧
      tailDeltas (fun _ => true) validator watcher.stream = .ok validator' := by
  have hrun : sampleSystem.after answeredRun = some _ := rfl
  have hclean : ∀ l ∈ answeredRun, ∀ u, CleanRequests u l := by
    intro l hl u
    revert l
    simp only [answeredRun, openedRun, List.cons_append, List.nil_append, List.forall_mem_cons]
    exact ⟨trivial, trivial, ⟨⟨by decide, by decide, by decide, by decide⟩, by decide⟩, trivial,
      trivial, trivial, trivial, trivial, trivial, trivial, by simp⟩
  obtain ⟨snapshot, control, validator, validator', hpage, hvalidator, hdeltas, -⟩ :=
    (pending_sets_observable samplePending_served (System.ReachableIf.init.run hclean hrun)).2
    0 _ rfl
  exact ⟨_, _, snapshot, control, validator, validator', hrun, rfl, by decide, hpage, hvalidator,
    hdeltas⟩

/-- A run asks a question, and then one whose identity has a tab. -/
def tabbedRun : List PendingWorld.Label :=
  [.bind 0 "c" "r", .request 0 "r" ⟨[113], [97], [112], [123, 125]⟩ false,
    .request 1 "r" ⟨[97, 9, 98], [97], [112], [123, 125]⟩ false]

/-- Both interactions are pending, and the stream of their client ends before its first frame. -/
theorem pending_sets_unobservable :
    ∃ w, sampleSystem.ReachableIf WireRunIDs w ∧
      Served samplePending smallLimits ∧
      ((w.hub.snapshot "c").pending.map fun v => v.request.id) = [[97, 9, 98], [113]] ∧
      initialPage (fun _ => true) (w.hub.snapshot "c") false smallLimits =
        .error "interaction snapshot is invalid" := by
  have hrun : sampleSystem.after tabbedRun = some _ := rfl
  refine ⟨_, System.ReachableIf.init.run (fun l hl u => ?_) hrun, samplePending_served, by decide,
    by decide +kernel⟩
  revert l
  have htoken : IsByteToken (utf8 "r") 128 := ⟨by decide, by decide, by decide, by decide⟩
  simp only [tabbedRun, List.forall_mem_cons]
  exact ⟨trivial, htoken, htoken, by simp⟩

end SpiceAgent.Grpcserver
