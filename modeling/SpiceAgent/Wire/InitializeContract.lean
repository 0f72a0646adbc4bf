import SpiceAgent.Wire.Readable

/-!
# Both sides of an initialization agree

A negotiation that `PreflightInitialize` returns can be completed for every session that the request
asks for, and the client accepts the response. A refusal is a valid typed status and nothing else,
which the client reads back.
-/

namespace SpiceAgent.Commonv1

open SpiceAgent.Lib
open ProtocolVersion

/-! ## Names and versions -/

theorem validateCapabilities_sublist {set : CapabilitySet} {names : List String}
    (h : validateCapabilities (some set) = .ok ()) (hsub : names.Sublist set.names) :
    validateCapabilities (some ⟨names⟩) = .ok () := by
  obtain ⟨_, ⟨⟩, hlen, htokens, hsorted⟩ := validateCapabilities_ok.mp h
  exact validateCapabilities_ok.mpr ⟨_, rfl, hsub.length_le.trans hlen,
    fun name hname => htokens name (hsub.subset hname), hsorted.sublist hsub⟩

variable {left right : ProtocolVersion}

theorem compareVersion_gt :
    compareVersion left right = .gt ↔ right.major < left.major ∨ right.major = left.major ∧
      (right.minor < left.minor ∨ right.minor = left.minor ∧ right.patch < left.patch) := by
  simp only [compareVersion, Ordering.then_eq_gt, Nat.compare_eq_gt, Nat.compare_eq_eq]
  omega

theorem compareVersion_lt :
    compareVersion left right = .lt ↔ left.major < right.major ∨ left.major = right.major ∧
      (left.minor < right.minor ∨ left.minor = right.minor ∧ left.patch < right.patch) := by
  simp only [compareVersion, Ordering.then_eq_lt, Nat.compare_eq_lt, Nat.compare_eq_eq]

theorem isGE_iff {o : Ordering} : o.isGE = true ↔ o ≠ .lt := by cases o <;> decide

theorem isLE_iff {o : Ordering} : o.isLE = true ↔ o ≠ .gt := by cases o <;> decide

variable (left) (right)

/-- The order of `compareVersion`. -/
def ProtocolVersion.le : Prop := compareVersion left right ≠ .gt

theorem ProtocolVersion.le_trans {a b c : ProtocolVersion} (hab : a.le b) (hbc : b.le c) :
    a.le c := by
  simp only [le, ne_eq, compareVersion_gt] at *
  omega

theorem maxVersion_ge : left.le (maxVersion left right) := by
  unfold maxVersion le
  split_ifs with h
  · simp only [ne_eq, compareVersion_gt]
    omega
  · simp only [isGE_iff, ne_eq, compareVersion_lt, compareVersion_gt, not_not] at h ⊢
    omega

theorem minVersion_le : (minVersion left right).le left := by
  unfold minVersion le
  split_ifs with h
  · simp only [ne_eq, compareVersion_gt]
    omega
  · simp only [isLE_iff, ne_eq, compareVersion_gt, not_not] at h ⊢
    omega

variable {left} {right}

theorem maxVersion_of_le (h : right.le left) : maxVersion left right = left := by
  refine if_pos (isGE_iff.mpr ?_)
  simp only [le, ne_eq, compareVersion_lt, compareVersion_gt] at h ⊢
  omega

theorem minVersion_of_le (h : left.le right) : minVersion left right = left :=
  if_pos (isLE_iff.mpr h)

section

variable {client server : Option ProtocolRange} {version : ProtocolVersion}

theorem negotiateProtocol_ok :
    negotiateProtocol client server = .ok version ↔ ∃ c s, client = some c ∧ server = some s ∧
      validateProtocolRange (some c) = .ok () ∧ validateProtocolRange (some s) = .ok () ∧
      disjointRanges c s = false ∧ version = (overlap c s).2 := by
  constructor
  · intro h
    unfold negotiateProtocol at h
    split at h
    · cases h
    · cases h
    · next c s hclient hserver =>
      split_ifs at h with hdisjoint
      exact ⟨c, s, rfl, rfl, hclient, hserver, Bool.not_eq_true _ ▸ hdisjoint,
        (Except.ok.inj h).symm⟩
    · cases h
    · cases h
  · rintro ⟨c, s, rfl, rfl, hclient, hserver, hdisjoint, rfl⟩
    unfold negotiateProtocol
    rw [hclient, hserver]
    exact if_neg (by rw [hdisjoint]; decide)

/-- The selected version alone is a range within the one that the client asked for. -/
theorem negotiateProtocol_selected (h : negotiateProtocol client server = .ok version)
    (hself : validateProtocolRange (some ⟨some version, some version⟩) = .ok ()) :
    negotiateProtocol (some ⟨some version, some version⟩) client = .ok version := by
  obtain ⟨c, s, rfl, rfl, hclient, -, hoverlap, rfl⟩ := negotiateProtocol_ok.mp h
  have hle : (overlap c s).1.le (overlap c s).2 := by
    intro hgt
    simp [disjointRanges, hgt] at hoverlap
  have hlow : c.bounds.1.le (overlap c s).2 := le_trans (maxVersion_ge _ _) hle
  have hhigh : (overlap c s).2.le c.bounds.2 := minVersion_le _ _
  have hpoint : overlap ⟨some (overlap c s).2, some (overlap c s).2⟩ c =
      ((overlap c s).2, (overlap c s).2) :=
    Prod.ext (maxVersion_of_le hlow) (minVersion_of_le hhigh)
  refine negotiateProtocol_ok.mpr ⟨_, c, rfl, rfl, hself, hclient, ?_, ?_⟩
  · have heq : compareVersion (overlap c s).2 (overlap c s).2 = .eq := by simp [compareVersion]
    simp [disjointRanges, hpoint, heq]
  · rw [hpoint]

end

/-! ## Statuses of failures -/

/-- A status that reports a failure and passes `ValidateStatus`. -/
structure IsFailure (status : Status) : Prop where
  not_ok : status.code ≠ .ok
  valid : validateStatus (some status) = .ok ()

theorem asError_of_isFailure {status : Status} (h : IsFailure status) :
    asError (some status) = some (.status status) := by
  unfold asError
  rw [h.valid]
  exact if_neg h.not_ok

theorem isFailure_of_message {code : ErrorCode} {message : String}
    (hcode : code = .invalidArgument ∨ code = .internal) (h : IsToken message maximumStatusBytes) :
    IsFailure { code, message } := by
  rcases hcode with rfl | rfl
  · refine ⟨ErrorCode.noConfusion, ?_⟩
    simp [validateStatus, h, knownErrorCode, ErrorCode.number, validateStatusDetail]
  · refine ⟨ErrorCode.noConfusion, ?_⟩
    simp [validateStatus, h, knownErrorCode, ErrorCode.number, validateStatusDetail]

theorem isFailure_invalidArgument {err : ContractError} {n : ℕ} (h : Readable n err)
    (hn : n ≤ maximumStatusBytes) : IsFailure (invalidArgumentStatus err.message) :=
  isFailure_of_message (.inl rfl) (IsToken.mono h hn)

theorem negotiateProtocol_isFailure (client server : Option ProtocolRange) :
    ErrorsIn IsFailure (negotiateProtocol client server) := by
  have hinternal : IsFailure (internalStatus "server protocol range is invalid") :=
    isFailure_of_message (.inr rfl) (by decide)
  unfold negotiateProtocol
  split
  · next err herr =>
    exact .error (isFailure_invalidArgument (validateProtocolRange_readable _ err herr) (by decide))
  · exact .error hinternal
  · next c s hclient hserver =>
    split_ifs with hdisjoint
    · refine .error ⟨ErrorCode.noConfusion, ?_⟩
      have htoken :
          IsToken "client and server protocol ranges do not overlap" maximumStatusBytes := by
        decide
      simp [validateStatus, knownErrorCode, ErrorCode.number, validateStatusDetail,
        validateVersionMismatch, htoken, hclient, hserver, hdisjoint]
    · exact .ok
  · exact .error hinternal
  · exact .error hinternal

theorem negotiateLimits_isFailure (requested available : Option Limits) :
    ErrorsIn IsFailure (negotiateLimits requested available) := by
  have hinternal : IsFailure (internalStatus "server limits are invalid") :=
    isFailure_of_message (.inr rfl) (by decide)
  unfold negotiateLimits
  split
  · next err herr =>
    have hmessage : IsToken ("requested limits" ++ ": " ++ err.message) (20 + 2 + 300) :=
      IsToken.labelled (by decide) (validateLimits_readable _ err herr)
    exact .error (isFailure_of_message (.inl rfl) (hmessage.mono (by decide)))
  · exact .error hinternal
  · exact .ok
  · exact .error hinternal

theorem validateCapabilityMismatch_difference {required available : CapabilitySet}
    (hrequired : validateCapabilities (some required) = .ok ())
    (havailable : validateCapabilities (some available) = .ok ())
    (hmissing : difference required.names available.names ≠ []) :
    validateCapabilityMismatch
      ⟨required.names, available.names, difference required.names available.names⟩ = .ok () := by
  have hsub := validateCapabilities_sublist hrequired
    (List.filter_sublist (p := fun name => decide (name ∉ available.names)))
  simp only [validateCapabilityMismatch, check_bind_ok, wrap_ok, refuseIf_ok]
  exact ⟨hrequired, havailable, hsub, by simp [hmissing]⟩

theorem negotiateCapabilities_isFailure (supported required server : Option CapabilitySet) :
    ErrorsIn IsFailure (negotiateCapabilities supported required server) := by
  have hlabelled : ∀ (label : String) (err : ContractError), IsToken label 60 → Readable 300 err →
      IsFailure (invalidArgumentStatus (label ++ ": " ++ err.message)) := fun label err hl herr =>
    isFailure_of_message (.inl rfl) ((hl.labelled herr).mono (by decide))
  have hsubset :
      IsFailure (invalidArgumentStatus "required capabilities must be client-supported") :=
    isFailure_of_message (.inl rfl) (by decide)
  unfold negotiateCapabilities
  split
  · next err herr =>
    exact .error (hlabelled "client supported capabilities" err (by decide)
      (validateCapabilities_readable _ err herr))
  · next err _ herr =>
    exact .error (hlabelled "client required capabilities" err (by decide)
      (validateCapabilities_readable _ err herr))
  · next err _ _ herr =>
    exact .error (hlabelled "server supported capabilities" err (by decide)
      (validateCapabilities_readable _ err herr))
  · next supported required server hsupported hrequired hserver =>
    split_ifs with hsub hmissing
    · exact .error hsubset
    · refine .error ⟨ErrorCode.noConfusion, ?_⟩
      have htoken : IsToken "required client capabilities are unavailable" maximumStatusBytes := by
        decide
      simp [validateStatus, knownErrorCode, ErrorCode.number, validateStatusDetail, htoken,
        validateCapabilityMismatch_difference hrequired hserver hmissing]
    · exact .ok
  · exact .error hsubset

end SpiceAgent.Commonv1

namespace SpiceAgent.Enginev1

open SpiceAgent.Lib SpiceAgent.Lib.ProtoSize SpiceAgent.Commonv1

@[simp] theorem validateStatus_okStatus : validateStatus (some okStatus) = .ok () := by decide

@[simp] theorem asError_okStatus : asError (some okStatus) = none := by decide

/-! ## Refusals -/

/-- The response carries a failure, within the bootstrap bound, and nothing else. -/
def IsRefusal (response : InitializeResponse) : Prop :=
  ∃ status, response = { status := some status } ∧ IsFailure status ∧
    response.size ≤ initializeBootstrapMaximumBytes

theorem validateInitializeResponse_refusal {response : InitializeResponse}
    (h : IsRefusal response) : ∃ status, response.status = some status ∧
      validateInitializeResponse (some response) = .error (.status status) := by
  obtain ⟨status, rfl, hstatus, hsize⟩ := h
  refine ⟨status, rfl, ?_⟩
  have hencoded : validateEncodedSize { status := some status : InitializeResponse }.size
      initializeBootstrapMaximumBytes = .ok () :=
    validateEncodedSize_ok.mpr ⟨by decide, hsize⟩
  simp only [validateInitializeResponse, hstatus.valid, asError_of_isFailure hstatus, hencoded]
  simp [refuseIf, bind, Except.bind]

theorem initializeStatusFailure_refusal {status : Status} (h : IsFailure status) :
    IsRefusal (initializeStatusFailure status) := by
  unfold initializeStatusFailure
  split
  · next hsize => exact ⟨status, rfl, h, (validateEncodedSize_ok.mp hsize).2⟩
  · exact ⟨_, rfl, isFailure_of_message (.inr rfl) (by decide), by decide⟩

theorem initializeFailure_refusal {code : ErrorCode} {message : String}
    (hcode : code = .invalidArgument ∨ code = .internal) (h : IsToken message maximumStatusBytes) :
    IsRefusal (initializeFailure code message) :=
  initializeStatusFailure_refusal (isFailure_of_message hcode h)

theorem negotiateInitialize_refusal {request : InitializeRequest} {server : InitializeServer}
    (hsize : request.size < 2 ^ 63) : ErrorsIn IsRefusal (negotiateInitialize request server) := by
  have hinvalid : ∀ message, IsToken message maximumStatusBytes →
      IsRefusal (initializeFailure .invalidArgument message) := fun _ =>
    initializeFailure_refusal (.inl rfl)
  have hinternal : ∀ message, IsToken message maximumStatusBytes →
      IsRefusal (initializeFailure .internal message) :=
      fun _ => initializeFailure_refusal (.inr rfl)
  have hstatus : ∀ {α : Type} {x : Except Status α}, ErrorsIn IsFailure x →
      ErrorsIn IsRefusal (x.mapError initializeStatusFailure) := fun h =>
    .mapError (h.mono fun _ => initializeStatusFailure_refusal)
  refine .bind (hstatus (negotiateProtocol_isFailure _ _)) fun version _ => ?_
  refine .bind (.mapError fun _ _ => hinternal _ (by decide)) fun _ _ => ?_
  refine .bind (.mapError fun err herr => hinvalid _ ?_) fun _ _ => ?_
  · unfold validateInteractionStreamRequestedLimits at herr
    split_ifs at herr
    rw [← (refuseIf_error.mp herr).2]
    exact (show IsToken _ _ by decide)
  refine .bind (hstatus (negotiateLimits_isFailure _ _)) fun limits _ => ?_
  refine .bind (.mapError fun err herr => hinvalid _ ?_) fun _ _ => ?_
  · exact IsToken.mono (validateEncodedSize_readable (hsize.trans (by decide)) err herr) (by decide)
  refine .bind (hstatus (negotiateCapabilities_isFailure _ _ _)) fun capabilities _ => ?_
  refine .bind (.refuse (hinvalid _ (by decide))) fun _ _ => ?_
  refine .bind (.refuse (hinvalid _ (by decide))) fun _ _ => ?_
  refine .bind (.mapError fun _ _ => hinvalid _ (by decide)) fun _ _ => ?_
  refine .bind (.mapError fun _ _ => hinvalid _ (by decide)) fun _ _ => ?_
  exact .bind (.mapError fun _ _ => hinternal _ (by decide)) fun _ _ => .ok

theorem preflightInitialize_refusal {request : Option InitializeRequest} {server : InitializeServer}
    (hsize : ∀ r ∈ request, r.size < 2 ^ 63) :
    ErrorsIn IsRefusal (preflightInitialize request server) := by
  refine .bind (.mapError fun err herr => initializeFailure_refusal (.inl rfl) ?_) fun _ _ => ?_
  · exact IsToken.mono (validateInitializeRequest_readable request hsize err herr) (by decide)
  refine .bind (.mapError fun err herr => initializeFailure_refusal (.inr rfl) ?_) fun _ _ => ?_
  · exact IsToken.mono (validateInitializeServer_readable server err herr) (by decide)
  cases request with
  | none => exact .error (initializeFailure_refusal (.inl rfl) (by decide))
  | some request => exact negotiateInitialize_refusal (hsize request rfl)

/-! ## Accepted requests -/

/-- What a negotiation keeps of the request and the server. -/
structure Negotiated (request : InitializeRequest) (server : InitializeServer)
    (n : InitializeNegotiation) : Prop where
  request_valid : validateInitializeRequest (some request) = .ok ()
  server_valid : validateInitializeServer server = .ok ()
  protocol : negotiateProtocol request.protocol server.range = .ok n.protocol
  limits : negotiateLimits request.requestedLimits server.limits = .ok n.limits
  request_fits : validateEncodedSize request.size n.limits.maxMessageBytes = .ok ()
  capabilities : negotiateCapabilities request.supportedCapabilities request.requiredCapabilities
    (server.capabilities.map (snapshotCapabilitiesForProtocol n.protocol)) = .ok n.capabilities
  claim : n.reconnectClaim = request.reconnectClaim
  attempt : n.attemptID = request.initializationAttemptID
  health : n.health = server.health.getD ⟨.unspecified, [], 0, none⟩
  preview_fits : (initializeSuccessResponse n previewClientID maxUint64).size ≤
    n.limits.maxMessageBytes
  preview_valid : validateInitializeResponse
    (some (initializeSuccessResponse n previewClientID maxUint64)) = .ok ()

theorem negotiated_of_preflight {request : InitializeRequest} {server : InitializeServer}
    {n : InitializeNegotiation} (h : preflightInitialize (some request) server = .ok n) :
    Negotiated request server n := by
  simp only [preflightInitialize, check_bind_ok, mapError_ok] at h
  obtain ⟨hrequest, hserver, h⟩ := h
  simp only [negotiateInitialize, bind_ok, mapError_eq_ok, Except.ok.injEq] at h
  obtain ⟨version, hversion, _, -, _, -, limits, hlimits, _, hfits, capabilities, hcaps,
    _, -, _, -, _, -, _, hpreview, _, hvalid, rfl⟩ := h
  exact ⟨hrequest, hserver, hversion, hlimits, hfits, hcaps, rfl, rfl, rfl,
    (validateEncodedSize_ok.mp hpreview).2, hvalid⟩

/-- Limits that an initialization has negotiated. -/
def NegotiatedLimits (limits : Limits) : Prop :=
  ∃ request server n, preflightInitialize (some request) server = .ok n ∧ n.limits = limits

/-- Another identity of the session leaves a successful response valid, if it is no longer. -/
theorem validateInitializeResponse_session {n : InitializeNegotiation} {id id' : String}
    {epoch epoch' : ℕ}
    (h : validateInitializeResponse (some (initializeSuccessResponse n id epoch)) = .ok ())
    (hid : IsToken id' 128) (hepoch : epoch' ≠ 0)
    (hsize : (initializeSuccessResponse n id' epoch').size ≤ n.limits.maxMessageBytes) :
    validateInitializeResponse (some (initializeSuccessResponse n id' epoch')) = .ok () := by
  simp only [validateInitializeResponse, initializeSuccessResponse, validateStatus_okStatus,
    asError_okStatus, check_bind_ok, validateToken_ok, validateEncodedSize_ok, true_and] at h ⊢
  obtain ⟨h1, h2, h3, h4, h5, h6, h7, h8, h9, h10, -, -, h11, h12, -⟩ := h
  exact ⟨h1, h2, h3, h4, h5, h6, h7, h8, h9, h10, hid, refuseIf_ok.mpr hepoch, h11, h12, hsize⟩

theorem utf8ByteSize_replicate (n : ℕ) : (String.ofList (List.replicate n 'c')).utf8ByteSize =
    n := by
  have hone : 'c'.utf8Size = 1 := by decide
  rw [utf8ByteSize_ofList, List.map_replicate, List.sum_replicate, hone, smul_eq_mul, mul_one]

theorem previewClientID_size : previewClientID.utf8ByteSize = 128 := utf8ByteSize_replicate 128

theorem initializeSuccessResponse_size_le (n : InitializeNegotiation) {id : String} {epoch : ℕ}
    (hid : id.utf8ByteSize ≤ 128) (hepoch : epoch ≤ maxUint64) :
    (initializeSuccessResponse n id epoch).size ≤
      (initializeSuccessResponse n previewClientID maxUint64).size := by
  have h1 : bytesField 7 id.utf8ByteSize ≤ bytesField 7 previewClientID.utf8ByteSize := by
    rw [previewClientID_size]
    exact bytesField_mono 7 hid
  have h2 := uintField_mono 8 hepoch
  simp only [initializeSuccessResponse, InitializeResponse.size]
  omega

theorem messageField_ge (field size : ℕ) : 2 ≤ messageField field (some size) := by
  have htag : 0 < tagSize field := varintSize_pos _
  have hlength : 0 < varintSize size := varintSize_pos _
  simp only [messageField, lengthField]
  omega

theorem NegotiatedLimits.message_bound {limits : Limits} (h : NegotiatedLimits limits) :
    158 ≤ limits.maxMessageBytes := by
  obtain ⟨request, server, n, hpreflight, rfl⟩ := h
  have hfits := (negotiated_of_preflight hpreflight).preview_fits
  have hstatus : messageField 1 (some okStatus.size) = 4 := by decide
  have hid : bytesField 7 previewClientID.utf8ByteSize = 131 := by
    rw [previewClientID_size]
    decide
  have hepoch : uintField 8 maxUint64 = 11 := by decide
  have h2 := messageField_ge 2 n.protocol.size
  have h3 := messageField_ge 3 n.server.size
  have h4 := messageField_ge 4 n.capabilities.size
  have h5 := messageField_ge 5 n.limits.size
  have h6 := messageField_ge 6 n.health.size
  have h9 := messageField_ge 9 n.definitions.size
  simp only [initializeSuccessResponse, InitializeResponse.size, Option.map_some, hstatus, hid,
    hepoch] at hfits
  omega

/-- The epoch that a request asks for: the first one of a new client, or the next one of the claimed
client. -/
def demandedEpoch : Option ReconnectClaim → ℕ
  | none => 1
  | some claim => claim.expectedOwnershipEpoch + 1

theorem validateReconnectResult_demanded {claim : Option ReconnectClaim} {clientID : String}
    (hclaim : validateReconnectClaim claim = .ok ())
    (hepoch : ∀ c ∈ claim, c.expectedOwnershipEpoch ≤ maxUint64) (hid : IsToken clientID 128)
    (hclient : ∀ c ∈ claim, clientID = c.clientID) :
    validateReconnectResult claim clientID (demandedEpoch claim) = .ok () ∧
      demandedEpoch claim ≠ 0 ∧ demandedEpoch claim ≤ maxUint64 := by
  cases claim with
  | none => simp [validateReconnectResult, demandedEpoch, hid, maxUint64]
  | some claim =>
    have hle := hepoch claim rfl
    have hvalid := hclaim
    simp only [validateReconnectClaim, check_bind_ok, refuseIf_ok, not_or] at hvalid
    have hlt : claim.expectedOwnershipEpoch + 1 < 2 ^ 64 := by
      have := hvalid.2.2
      unfold maxUint64 at this hle
      omega
    have hmod : (claim.expectedOwnershipEpoch + 1) % 2 ^ 64 = claim.expectedOwnershipEpoch + 1 :=
      Nat.mod_eq_of_lt hlt
    refine ⟨?_, Nat.succ_ne_zero _, Nat.le_sub_one_of_lt hlt⟩
    simp only [validateReconnectResult, demandedEpoch, check_bind_ok, validateToken_ok, refuseIf_ok,
      hmod, ne_eq, not_true_eq_false, or_false, not_not]
    exact ⟨hid, hclaim, hclient claim rfl⟩

theorem exceedsLimits_min_left (requested available : Limits) :
    exceedsLimits (requested.min available) requested = false := by
  simp [exceedsLimits, Limits.min]

theorem exceedsLimits_min_right (requested available : Limits) :
    exceedsLimits (requested.min available) available = false := by
  simp [exceedsLimits, Limits.min]

theorem negotiateLimits_ok {requested available : Option Limits} {limits : Limits}
    (h : negotiateLimits requested available = .ok limits) :
    ∃ r a, requested = some r ∧ available = some a ∧ limits = r.min a := by
  unfold negotiateLimits at h
  split at h
  · cases h
  · cases h
  · next r a _ _ => exact ⟨r, a, rfl, rfl, (Except.ok.inj h).symm⟩
  · cases h

/-- The enabled capabilities are supported by the client and contain the required ones. -/
theorem negotiateCapabilities_ok {supported required server : Option CapabilitySet}
    {capabilities : CapabilitySet}
    (h : negotiateCapabilities supported required server = .ok capabilities) :
    (∀ name ∈ capabilities.names, name ∈ capabilityNames supported) ∧
      ∀ name ∈ capabilityNames required, name ∈ capabilities.names := by
  unfold negotiateCapabilities at h
  split at h
  · cases h
  · cases h
  · cases h
  · next supported required server _ _ _ =>
    split_ifs at h with hsub hmissing
    obtain rfl := Except.ok.inj h
    simp only [Bool.not_eq_true, Bool.not_eq_false', isSubset, List.isEmpty_iff, difference,
      List.filter_eq_nil_iff, decide_eq_true_eq, not_not, ne_eq] at hsub hmissing
    simp only [intersection, capabilityNames, Option.map_some, Option.getD_some, List.mem_filter,
      decide_eq_true_eq]
    exact ⟨fun name hname => hname.1, fun name hname => ⟨hsub name hname, hmissing name hname⟩⟩
  · cases h

namespace Negotiated

variable {request : InitializeRequest} {server : InitializeServer} {n : InitializeNegotiation}

theorem version_valid (h : Negotiated request server n) :
    validateProtocolRange (some ⟨some n.protocol, some n.protocol⟩) = .ok () := by
  have hvalid := h.preview_valid
  simp only [validateInitializeResponse, initializeSuccessResponse, validateStatus_okStatus,
    asError_okStatus, check_bind_ok, true_and] at hvalid
  exact (check_bind_ok.mp hvalid.1).1

theorem selections (h : Negotiated request server n) (clientID : String) (epoch : ℕ) :
    validateInitializeProtocolSelection request (initializeSuccessResponse n clientID epoch) =
      .ok () ∧
    validateInitializeCapabilitySelection request (initializeSuccessResponse n clientID epoch) =
      .ok () ∧
    validateInitializeLimitSelection request (initializeSuccessResponse n clientID epoch) =
      .ok () := by
  refine ⟨?_, ?_, ?_⟩
  · have hselected := negotiateProtocol_selected h.protocol h.version_valid
    exact refuseIf_ok.mpr (not_not.mpr hselected)
  · obtain ⟨hsupported, hrequired⟩ := negotiateCapabilities_ok h.capabilities
    simp only [validateInitializeCapabilitySelection, check_bind_ok, refuseIf_ok,
      not_exists, not_and, Bool.not_eq_false]
    simp only [containsCapability, decide_eq_true_eq]
    exact ⟨hsupported, hrequired⟩
  · obtain ⟨r, a, hr, ha, hmin⟩ := negotiateLimits_ok h.limits
    have hserver := h.server_valid
    simp only [validateInitializeServer, check_bind_ok, refuseIf_ok, ne_eq, not_not] at hserver
    obtain ⟨-, -, -, -, -, hhealth, -⟩ := hserver
    have hcapacity : n.health.limits = some a := by
      rw [ha] at hhealth
      obtain ⟨health, hsome, hlimits⟩ := Option.bind_eq_some_iff.mp hhealth
      rw [h.health, hsome]
      exact hlimits
    simp only [validateInitializeLimitSelection, initializeSuccessResponse, check_bind_ok,
      refuseIf_ok, wrap_ok, getLimits, hr, hmin, hcapacity, Option.bind_some, Option.getD_some,
      exceedsLimits_min_left, exceedsLimits_min_right]
    exact ⟨Bool.false_ne_true, hmin ▸ h.request_fits, Bool.false_ne_true⟩

end Negotiated

/-- Whatever `PreflightInitialize` accepts, `CompleteInitialize` completes for the session that the
request asks for, and the client accepts the response for its request. Whatever it refuses, the
client reads as the typed status of the refusal. -/
theorem initialize_agreement (request : Option InitializeRequest) (server : InitializeServer)
    -- the size is an `int` and the claimed epoch a `uint64`
    (hsize : ∀ r ∈ request, r.size < 2 ^ 63)
    (hepoch : ∀ r ∈ request, ∀ claim ∈ r.reconnectClaim,
      claim.expectedOwnershipEpoch ≤ maxUint64) :
    (∀ r ∈ request, ∀ (n : InitializeNegotiation) (clientID : String),
      preflightInitialize request server = .ok n → IsToken clientID 128 →
      (∀ claim ∈ r.reconnectClaim, clientID = claim.clientID) →
      completeInitialize n clientID (demandedEpoch r.reconnectClaim) =
        initializeSuccessResponse n clientID (demandedEpoch r.reconnectClaim) ∧
      validateInitializeResponseForRequest request
        (some (completeInitialize n clientID (demandedEpoch r.reconnectClaim))) = .ok ()) ∧
    ∀ failure, preflightInitialize request server = .error failure →
      ∃ status, failure.status = some status ∧
        validateInitializeResponse (some failure) = .error (.status status) := by
  refine ⟨?_, fun failure hfailure =>
    validateInitializeResponse_refusal (preflightInitialize_refusal hsize failure hfailure)⟩
  rintro r hr n clientID hpreflight hid hclient
  rw [Option.mem_def] at hr
  subst hr
  have h := negotiated_of_preflight hpreflight
  have hclaim : validateReconnectClaim r.reconnectClaim = .ok () := by
    have hvalid := h.request_valid
    simp only [validateInitializeRequest, check_bind_ok] at hvalid
    exact hvalid.2.2.2.2.2.2.2.1
  obtain ⟨hresult, hpositive, hle⟩ :=
    validateReconnectResult_demanded hclaim (hepoch r rfl) hid hclient
  have hfits := (initializeSuccessResponse_size_le n hid.size_le hle).trans h.preview_fits
  have hencoded : validateEncodedSize
      (initializeSuccessResponse n clientID (demandedEpoch r.reconnectClaim)).size
      n.limits.maxMessageBytes = .ok () :=
    validateEncodedSize_ok.mpr ⟨(validateEncodedSize_ok.mp h.request_fits).1, hfits⟩
  have hcomplete : completeInitialize n clientID (demandedEpoch r.reconnectClaim) =
      initializeSuccessResponse n clientID (demandedEpoch r.reconnectClaim) := by
    simp only [completeInitialize, h.claim, hresult, hencoded]
  refine ⟨hcomplete, ?_⟩
  rw [hcomplete]
  obtain ⟨hprotocol, hcapabilities, hlimits⟩ :=
    h.selections clientID (demandedEpoch r.reconnectClaim)
  simp only [validateInitializeResponseForRequest, check_bind_ok, refuseIf_ok]
  exact ⟨h.request_valid, validateInitializeResponse_session h.preview_valid hid hpositive hfits,
    hprotocol, hcapabilities, hlimits, not_not.mpr h.attempt.symm, hresult⟩

def smallLimits : Limits := ⟨4096, 16, 16, 4096, 4, 4⟩

/-- A request of the current protocol, fresh or with a claim. -/
def sampleRequest (claim : Option ReconnectClaim) : InitializeRequest where
  protocol := some ⟨some ⟨1, 3, 0⟩, some ⟨1, 3, 0⟩⟩
  client := some ⟨"spice", "1.0.0", "abc", "go1.25"⟩
  supportedCapabilities := some ⟨["snapshots"]⟩
  requiredCapabilities := some ⟨[]⟩
  requestedLimits := some smallLimits
  reconnectClaim := claim
  initializationAttemptID := List.replicate 16 1

def sampleServer : InitializeServer where
  range := some supportedProtocolRange
  build := some ⟨"spiced", "1.0.0", "abc", "go1.25"⟩
  capabilities := some ⟨["snapshots"]⟩
  limits := some smallLimits
  health := some ⟨.ready, [], 0, some smallLimits⟩
  definitions := some ⟨"1", [⟨"coder", "1", "model", 8⟩]⟩

/-- What the sample request and server negotiate. -/
def sampleNegotiation (claim : Option ReconnectClaim) : InitializeNegotiation where
  reconnectClaim := claim
  attemptID := List.replicate 16 1
  protocol := ⟨1, 3, 0⟩
  server := ⟨"spiced", "1.0.0", "abc", "go1.25"⟩
  capabilities := ⟨["snapshots"]⟩
  limits := smallLimits
  health := ⟨.ready, [], 0, some smallLimits⟩
  definitions := ⟨"1", [⟨"coder", "1", "model", 8⟩]⟩

theorem preflight_sample_fresh :
    preflightInitialize (some (sampleRequest none)) sampleServer =
      .ok (sampleNegotiation none) := by
  decide +kernel

theorem smallLimits_negotiated : NegotiatedLimits smallLimits :=
  ⟨sampleRequest none, sampleServer, sampleNegotiation none, preflight_sample_fresh, rfl⟩

/-- The request that claims the second epoch of a client. -/
def sampleClaim : ReconnectClaim := ⟨"client-a", 1⟩

theorem preflight_sample_claim :
    preflightInitialize (some (sampleRequest (some sampleClaim))) sampleServer =
      .ok (sampleNegotiation (some sampleClaim)) := by
  decide +kernel

theorem initialize_agreement_samples :
    validateInitializeResponseForRequest (some (sampleRequest none))
        (some (completeInitialize (sampleNegotiation none) "client-a" 1)) = .ok () ∧
      validateInitializeResponseForRequest (some (sampleRequest (some sampleClaim)))
        (some (completeInitialize (sampleNegotiation (some sampleClaim)) "client-a" 2)) = .ok () ∧
      (∃ failure, preflightInitialize none sampleServer = .error failure ∧
        ∃ status, validateInitializeResponse (some failure) = .error (.status status)) := by
  refine ⟨?_, ?_, ?_⟩
  · exact ((initialize_agreement (some (sampleRequest none)) sampleServer (by decide +kernel)
      (by decide +kernel)).1 _ rfl _ "client-a" preflight_sample_fresh (by decide) (by decide)).2
  · exact ((initialize_agreement (some (sampleRequest (some sampleClaim))) sampleServer
      (by decide +kernel) (by decide +kernel)).1 _ rfl _ "client-a" preflight_sample_claim
      (by decide)
      (by decide)).2
  · obtain ⟨failure, hfailure⟩ : ∃ failure, preflightInitialize none sampleServer =
        .error failure :=
      ⟨_, rfl⟩
    obtain ⟨status, -, hstatus⟩ := (initialize_agreement none sampleServer nofun nofun).2
      failure hfailure
    exact ⟨failure, hfailure, status, hstatus⟩

/-- A session of another client than the claimed one is an internal failure, however valid its
identity is. -/
theorem initialize_agreement_other_client :
    preflightInitialize (some (sampleRequest (some sampleClaim))) sampleServer =
        .ok (sampleNegotiation (some sampleClaim)) ∧
      IsToken "client-b" 128 ∧ demandedEpoch (some sampleClaim) = 2 ∧
      completeInitialize (sampleNegotiation (some sampleClaim)) "client-b" 2 =
        { status := some (internalStatus "server client ownership is invalid") } := by
  refine ⟨preflight_sample_claim, ?_, ?_, ?_⟩ <;> decide +kernel

end SpiceAgent.Enginev1
