import SpiceAgent.Wire.Initialize

/-!
# The texts of failures

The message of a status has to be a token. The checks of an initialization build theirs from fixed
texts, labels and numbers, and every one of them is a token of a bounded size.
-/

namespace SpiceAgent.Commonv1

open SpiceAgent.Lib

/-- Part of a token: no character that breaks one, and at most this many bytes. -/
structure Fragment (s : String) (n : ℕ) : Prop where
  clean : ∀ c ∈ s.toList, breaksToken c = false
  size_le : s.utf8ByteSize ≤ n

instance (s : String) (n : ℕ) : Decidable (Fragment s n) :=
  decidable_of_iff (s.toList.any breaksToken = false ∧ s.utf8ByteSize ≤ n)
    ⟨fun h => ⟨by simpa using h.1, h.2⟩, fun h => ⟨by simpa using h.clean, h.size_le⟩⟩

instance (s : String) (n : ℕ) : Decidable (IsToken s n) :=
  decidable_of_iff (trimmedToken s ∧ Fragment s n)
    ⟨fun h => ⟨h.1, h.2.clean, h.2.size_le⟩, fun h => ⟨h.trimmed, h.clean, h.size_le⟩⟩

variable {a b s : String} {m n : ℕ}

theorem Fragment.append (ha : Fragment a m) (hb : Fragment b n) : Fragment (a ++ b) (m + n) := by
  refine ⟨fun c hc => ?_, ?_⟩
  · rw [String.toList_append] at hc
    rcases List.mem_append.mp hc with hc | hc
    · exact ha.clean c hc
    · exact hb.clean c hc
  · rw [String.utf8ByteSize_append]
    exact Nat.add_le_add ha.size_le hb.size_le

theorem breaksToken_of_isDigit {c : Char} (h : c.isDigit) : breaksToken c = false := by
  unfold breaksToken
  by_contra hc
  simp only [Bool.not_eq_false, Bool.or_eq_true, beq_iff_eq] at hc
  rcases hc with ((rfl | rfl) | rfl) | rfl <;> cases h

theorem fragment_toString {k : ℕ} (hk : 0 < k) (h : n < 10 ^ k) : Fragment (toString n) k :=
  ⟨fun _ hc => breaksToken_of_isDigit (isDigit_of_mem_toString hc), utf8ByteSize_toString hk h⟩

theorem IsToken.mono (h : IsToken s m) (hmn : m ≤ n) : IsToken s n :=
  ⟨h.trimmed, h.clean, h.size_le.trans hmn⟩

theorem IsToken.fragment (h : IsToken s n) : Fragment s n := ⟨h.clean, h.size_le⟩

theorem IsToken.opens (h : IsToken s n) : Opens s := (trimmedToken_iff.mp h.trimmed).1

theorem IsToken.closes (h : IsToken s n) : Closes s := (trimmedToken_iff.mp h.trimmed).2

theorem Fragment.token (h : Fragment s n) (ho : Opens s) (hc : Closes s) : IsToken s n :=
  ⟨trimmedToken_iff.mpr ⟨ho, hc⟩, h.clean, h.size_le⟩

/-! ## Readable errors -/

def Readable (n : ℕ) (err : ContractError) : Prop := IsToken err.message n

instance (n : ℕ) (err : ContractError) : Decidable (Readable n err) :=
  inferInstanceAs (Decidable (IsToken err.message n))

theorem errorsIn_mono {α : Type} {x : Except ContractError α} (h : ErrorsIn (Readable m) x)
    (hmn : m ≤ n) : ErrorsIn (Readable n) x :=
  h.mono fun _ herr => IsToken.mono herr hmn

theorem IsToken.labelled {label message : String} (hl : IsToken label m) (h : IsToken message n) :
    IsToken (label ++ ": " ++ message) (m + 2 + n) :=
  ((hl.fragment.append (by decide)).append h.fragment).token
    ((hl.opens.append ": ").append message) (h.closes.append _)

theorem wrap_readable {label : String} {check : Check} (hl : IsToken label m)
    (h : ErrorsIn (Readable n) check) : ErrorsIn (Readable (m + 2 + n)) (wrap label check) :=
  .mapError fun err herr => hl.labelled (h err herr)

theorem validateToken_readable {label value : String} {maximum : ℕ} (hl : IsToken label 60)
    (hm : maximum < 10 ^ 20) : ErrorsIn (Readable 140) (validateToken label value maximum) := by
  refine .bind (.refuse ?_) fun _ _ => .bind (.refuse ?_) fun _ _ => .refuse ?_
  · exact ((hl.fragment.append (n := 80) (by decide)).token (hl.opens.append _)
      (Closes.append ⟨'e', by decide, by decide⟩ _))
  · exact ((hl.fragment.append (n := 80) (by decide)).token (hl.opens.append _)
      (Closes.append ⟨'s', by decide, by decide⟩ _))
  · refine IsToken.mono (m := 60 + 20 + 20 + 20) ?_ (by decide)
    exact (((hl.fragment.append (by decide)).append (fragment_toString (by decide) hm)).append
      (by decide)).token (((hl.opens.append _).append _).append _)
      (Closes.append ⟨'s', by decide, by decide⟩ _)

theorem validateNames_readable {label unsorted : String} {maximum : ℕ} (hl : IsToken label 60)
    (hm : maximum < 10 ^ 20) (hu : IsToken unsorted 200) :
    ∀ (names : List String) (index : ℕ) (previous : Option String), index + names.length < 10 ^ 20 →
      ErrorsIn (Readable 300) (validateNames label maximum unsorted index previous names)
  | [], _, _, _ => .ok
  | name :: rest, index, previous, hlen => by
    rw [List.length_cons] at hlen
    refine .bind ?_ fun _ _ => .bind (.refuse (hu.mono (by decide))) fun _ _ => ?_
    · have hnum : Fragment (toString index) 20 := fragment_toString (by decide) (by omega)
      have hlabel : IsToken (label ++ " " ++ toString index) (60 + 1 + 20) :=
        ((hl.fragment.append (by decide)).append hnum).token ((hl.opens.append _).append _)
          ((closes_toString index).append _)
      exact errorsIn_mono (wrap_readable hlabel (validateToken_readable hl hm)) (by decide)
    · exact validateNames_readable hl hm hu rest (index + 1) (some name) (by omega)

theorem validateCapabilities_readable (value : Option CapabilitySet) :
    ErrorsIn (Readable 300) (validateCapabilities value) := by
  cases value with
  | none => exact .error (by decide)
  | some value =>
    refine .bind (.refuse (by decide)) fun _ hlen => ?_
    rw [refuseIf_ok, not_lt] at hlen
    exact validateNames_readable (by decide) (by decide) (by decide) _ _ _ (by omega)

theorem validateProtocolVersion_readable (value : ProtocolVersion) :
    ErrorsIn (Readable 100) (validateProtocolVersion value) :=
  .refuse (by decide)

theorem validateProtocolRange_readable (value : Option ProtocolRange) :
    ErrorsIn (Readable 300) (validateProtocolRange value) := by
  unfold validateProtocolRange
  split
  · next minimum maximum =>
    refine .bind ?_ fun _ _ => .bind ?_ fun _ _ => .bind (.refuse ?_) fun _ _ => .refuse ?_
    · exact errorsIn_mono (wrap_readable (m := 60) (by decide)
        (validateProtocolVersion_readable minimum)) (by decide)
    · exact errorsIn_mono (wrap_readable (m := 60) (by decide)
        (validateProtocolVersion_readable maximum)) (by decide)
    · decide
    · decide
  · exact .error (by decide)

theorem validateLimits_readable (value : Option Limits) :
    ErrorsIn (Readable 300) (validateLimits value) := by
  cases value with
  | none => exact .error (by decide)
  | some value =>
    exact .bind (.refuse (by decide)) fun _ _ => .refuse (by decide)

theorem validateBuildIdentity_readable (value : Option BuildIdentity) :
    ErrorsIn (Readable 140) (validateBuildIdentity value) := by
  cases value with
  | none => exact .error (by decide)
  | some value =>
    refine .bind ?_ fun _ _ => .bind ?_ fun _ _ => .bind ?_ fun _ _ => ?_
    all_goals exact validateToken_readable (by decide) (by decide)

theorem validateEncodedSize_readable {size maximum : ℕ} (hsize : size < 10 ^ 20) :
    ErrorsIn (Readable 300) (validateEncodedSize size maximum) := by
  refine .bind (.refuse (by decide)) fun _ _ => ?_
  intro err herr
  obtain ⟨hlt, rfl⟩ := refuseIf_error.mp herr
  have hnum : Fragment (toString size) 20 := fragment_toString (by decide) hsize
  have hmax : Fragment (toString maximum) 20 := fragment_toString (by decide) (by omega)
  have hopens : Opens "encoded message size " := ⟨'e', by decide, by decide⟩
  have hparts : Fragment ("encoded message size " ++ toString size ++ " exceeds " ++
      toString maximum) (30 + 20 + 20 + 20) :=
    (((show Fragment "encoded message size " 30 by decide).append hnum).append (by decide)).append
      hmax
  exact (hparts.token (((hopens.append _).append _).append _) ((closes_toString _).append _)).mono
    (by decide)

end SpiceAgent.Commonv1

namespace SpiceAgent.Enginev1

open SpiceAgent.Lib SpiceAgent.Commonv1

theorem validateInitializationAttemptID_readable (attemptID : List UInt8) :
    ErrorsIn (Readable 300) (validateInitializationAttemptID attemptID) :=
  .bind (.refuse (by decide)) fun _ _ => .refuse (by decide)

theorem validateInitializeRequestAttempt_readable (protocol : ProtocolRange)
    (attemptID : List UInt8) :
    ErrorsIn (Readable 300) (validateInitializeRequestAttempt protocol attemptID) := by
  refine .bind (.refuse (by decide)) fun _ _ => ?_
  split_ifs
  · exact validateInitializationAttemptID_readable attemptID
  · exact .refuse (by decide)

theorem validateReconnectClaim_readable (claim : Option ReconnectClaim) :
    ErrorsIn (Readable 300) (validateReconnectClaim claim) := by
  cases claim with
  | none => exact .ok
  | some claim =>
    refine .bind ?_ fun _ _ => .refuse (by decide)
    exact errorsIn_mono (validateToken_readable (by decide) (by decide)) (by decide)

/-- The errors of `ValidateInitializeRequest` on a message whose size is an `int`. -/
theorem validateInitializeRequest_readable (request : Option InitializeRequest)
    (hsize : ∀ r ∈ request, r.size < 2 ^ 63) :
    ErrorsIn (Readable 500) (validateInitializeRequest request) := by
  cases request with
  | none => exact .error (by decide)
  | some request =>
    have hwrap : ∀ (label : String) (check : Check), IsToken label 60 →
        ErrorsIn (Readable 300) check → ErrorsIn (Readable 500) (wrap label check) :=
      fun label check hl h => errorsIn_mono (wrap_readable hl h) (by decide)
    refine .bind (errorsIn_mono (validateProtocolRange_readable _) (by decide)) fun _ _ => ?_
    refine .bind (errorsIn_mono (validateInitializeRequestAttempt_readable _ _) (by decide))
      fun _ _ => ?_
    refine .bind (hwrap _ _ (by decide) (errorsIn_mono (validateBuildIdentity_readable _)
      (by decide))) fun _ _ => ?_
    refine .bind (hwrap _ _ (by decide) (validateCapabilities_readable _)) fun _ _ => ?_
    refine .bind (hwrap _ _ (by decide) (validateCapabilities_readable _)) fun _ _ => ?_
    refine .bind (.refuse (by decide)) fun _ _ => ?_
    refine .bind (errorsIn_mono (validateLimits_readable _) (by decide)) fun _ _ => ?_
    refine .bind (errorsIn_mono (validateReconnectClaim_readable _) (by decide)) fun _ _ => ?_
    have hlt : request.size < 10 ^ 20 := (hsize request rfl).trans (by decide)
    exact errorsIn_mono (validateEncodedSize_readable hlt) (by decide)

theorem validateInitializeServer_readable (server : InitializeServer) :
    ErrorsIn (Readable 500) (validateInitializeServer server) := by
  have hreplace : ∀ (message : String) (check : Check), IsToken message 500 →
      ErrorsIn (Readable 500) (replaceError message check) :=
    fun message check h => .mapError fun _ _ => h
  refine .bind (hreplace _ _ (by decide)) fun _ _ => .bind (hreplace _ _ (by decide)) fun _ _ =>
    .bind (hreplace _ _ (by decide)) fun _ _ => .bind (hreplace _ _ (by decide)) fun _ _ =>
    .bind (hreplace _ _ (by decide)) fun _ _ => .bind (.refuse (by decide))
      fun _ _ => hreplace _ _ (by decide)

end SpiceAgent.Enginev1
