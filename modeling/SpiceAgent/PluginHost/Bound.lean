import SpiceAgent.PluginHost.Background

/-!
# The bound on plugin processes

`beginActivation` checks the retained generations and candidates before it stages more. `stage`
returns the activation token before the staged generation is published or aborted, so a second
activation can pass the check while the first one's candidates are owned by nobody, and the bound
fails (`candidates_unbounded`). It holds in the runs in which every activation that begins to stage
finds room for its set beside what the host owns and the generations that are staged and wait for
their publication or the end of their abort (`candidates_bounded`); when none waits, the check of
`beginActivation` is that condition.
-/

namespace SpiceAgent.Pluginhost

open Lib Finset Option
open AttemptPhase

variable {K : CandidateKind}

/-- The staged generation waits for its publication or the end of its abort. -/
def AttemptPhase.pending : AttemptPhase → Bool
  | .aborting staging _ _ => !staging
  | .staged _ _ => true
  | _ => false

namespace World

variable {w w' : World K} {p : Party}

/-- The number of candidates that a party holds or may still start. -/
def seat (w : World K) (p : Party) : Option ℕ := (w.phase p).bind quota

/-- A set that passes the check of `beginActivation` also fits beside the pending generations. -/
def HasRoom (w : World K) (label : HostLabel K.Input) : Prop :=
  ∀ p set, label = .attempt p .begin → w.phase p = some (.waiting set) →
    w.host.limitReached set.executables.length = false →
    ∃ S : Finset Party, (∀ q phase, w.phase q = some phase → phase.pending = true → q ∈ S) ∧
      w.host.candidateCount + ∑ q ∈ S, (w.estate.held q).length + set.executables.length ≤
        maximumRetainedCandidates ∧
      w.host.owned.card + S.card + 1 ≤ maximumRetainedGenerations

theorem hasRoom_of_alone {label : HostLabel K.Input}
    (h : ∀ q phase, w.phase q = some phase → phase.pending = false) : w.HasRoom label := by
  intro p set _ _ hlimit
  simp only [Host.limitReached, Bool.or_eq_false_iff, decide_eq_false_iff_not, not_le, not_lt]
    at hlimit
  refine ⟨∅, fun q phase hq hpending => ?_, ?_, ?_⟩
  · rw [h q phase hq] at hpending
    cases hpending
  · rw [sum_empty, Nat.add_zero]
    exact hlimit.2
  · rw [card_empty, Nat.add_zero]
    exact hlimit.1

theorem Quiet.seat (h : Quiet w w') (p : Party) : w'.seat p = w.seat p := by
  have hnone : ∀ v : World K, (∀ phase, v.phase p = some phase → phase.quota = none) →
      v.seat p = none := by
    intro v hv
    cases hp : v.phase p with
    | none => simp [World.seat, hp]
    | some phase => simp [World.seat, hp, hv phase hp]
  rcases h.phase p with hsame | ⟨hold, hnew⟩
  · simp only [World.seat, hsame]
  · rw [hnone w hold, hnone w' hnew]

end World

/-! ## The accounts -/

/-- Without a new generation, no owned generation is added and candidates stay where they are. -/
theorem Estate.Moves.shrink {e e' : Estate} (h : Estate.Moves e e')
    (hgenerations : e'.generations = e.generations) :
    e'.owned ⊆ e.owned ∧ ∀ g, (e'.entry g).candidates = (e.entry g).candidates := by
  induction h with
  | refl => exact ⟨Finset.Subset.refl _, fun _ => rfl⟩
  | @tail e₁ e₂ hmoves hmove ih =>
    have hle₁ := Moves.generations_le hmoves
    have hle₂ := Moves.generations_le (.single hmove)
    obtain ⟨howned, hcandidates⟩ := ih (by omega)
    suffices hstep : e₂.owned ⊆ e₁.owned ∧ ∀ g, (e₂.entry g).candidates =
        (e₁.entry g).candidates from
      ⟨hstep.1.trans howned, fun g => (hstep.2 g).trans (hcandidates g)⟩
    cases hmove with
    | retain p =>
      have : e₁.generations + 1 = e.generations := hgenerations
      omega
    | publish p c id =>
      have : e₁.generations + 1 = e.generations := hgenerations
      omega
    | queue g => exact ⟨Finset.Subset.refl _, candidates_setEntry _ rfl⟩
    | finish k hk =>
      refine ⟨?_, candidates_setEntry _ rfl⟩
      show (if _ then e₁.owned else e₁.owned.erase _) ⊆ e₁.owned
      split_ifs
      · exact Finset.Subset.refl _
      · exact erase_subset _ _
    | acquire l g => exact ⟨Finset.Subset.refl _, candidates_setEntry _ rfl⟩
    | release l g => exact ⟨Finset.Subset.refl _, candidates_setEntry _ rfl⟩
    | shut g => exact ⟨Finset.Subset.refl _, candidates_setEntry _ rfl⟩
    | start | abort | turnAbort | drop | turnCleanup => exact ⟨Finset.Subset.refl _, fun _ => rfl⟩

theorem AttemptPhase.hasToken_or_pending {phase : AttemptPhase} {n : ℕ} (h : phase.quota = some n) :
    phase.hasToken = true ∨ phase.pending = true := by
  cases phase with
  | aborting staging cs closer => cases staging <;> simp [hasToken, pending]
  | starting | leaving => exact .inl rfl
  | staged => exact .inr rfl
  | waiting | ended | returned => exact absurd h nofun

theorem AttemptPhase.quota_of_pending {phase : AttemptPhase} (h : phase.pending = true) :
    phase.quota = some phase.candidates.length := by
  cases phase with
  | aborting | staged => rfl
  | waiting | starting | leaving | ended | returned => exact absurd h nofun

theorem Host.retirePrevious_owned (host : Host) (g : ℕ) :
    (host.retirePrevious g).owned = host.owned ∧
      ∀ g', ((host.retirePrevious g).generation g').candidates =
        (host.generation g').candidates := by
  have hqueue : (host.queueCleanup g 0).owned = host.owned ∧
      ∀ g', ((host.queueCleanup g 0).generation g').candidates =
        (host.generation g').candidates := by
    have hledger := host.ledger_queueCleanup g 0
    have hcases : (host.queueCleanup g 0).ledger = host.ledger ∨
        (host.queueCleanup g 0).ledger = host.ledger.queue g := by
      rw [hledger]
      split_ifs
      · exact .inl rfl
      · exact .inr rfl
    rcases hcases with hsame | hqueued
    · refine ⟨congrArg Ledger.owned hsame, fun g' => ?_⟩
      exact congrArg (fun ledger => (Ledger.entry ledger g').candidates) hsame
    · refine ⟨congrArg Ledger.owned hqueued, fun g' => ?_⟩
      have hset := candidates_setEntry host.ledger (g := g)
        (x := { host.ledger.entry g with cleaning := true, cleanupErr := false }) rfl g'
      exact (congrArg (fun ledger => (Ledger.entry ledger g').candidates) hqueued).trans hset
  unfold Host.retirePrevious
  split_ifs
  · exact hqueue
  · exact ⟨rfl, fun _ => rfl⟩

/-- A publication owns the new generation with its candidates, besides those owned before. -/
theorem World.Published.owned {w : World K} {p : Party} {id : PlanID} {cs : List ℕ}
    {ended : Bool} {host : Host} (h : World.Published w id cs ended p host) :
    host.owned = insert w.host.generations w.host.owned ∧
      (host.generation w.host.generations).candidates = cs ∧
      ∀ g, g < w.host.generations →
        (host.generation g).candidates = (w.host.generation g).candidates := by
  have hexchange : ∀ g, ((w.host.exchange id cs).generation g).candidates =
      if g = w.host.generations then cs else (w.host.generation g).candidates := by
    intro g
    by_cases hg : g = w.host.generations
    · subst hg
      simp [Host.exchange, Generation.fresh]
    · by_cases hc : g = w.host.current
      · subst hc
        simp [Host.exchange, hg]
      · simp [Host.exchange, hg, hc]
  have hnew := (hexchange w.host.generations).trans (if_pos rfl)
  have hold : ∀ g, g < w.host.generations →
      ((w.host.exchange id cs).generation g).candidates = (w.host.generation g).candidates :=
    fun g hlt => (hexchange g).trans (if_neg hlt.ne)
  cases h with
  | explicit | recovery =>
    obtain ⟨howned, hcandidates⟩ := Host.retirePrevious_owned _ w.host.current
    exact ⟨howned, (hcandidates _).trans hnew, fun g hlt => (hcandidates g).trans (hold g hlt)⟩

namespace World

variable {w w' : World K} {p : Party}

/-- What the staging calls hold or may still start stays within the limits together with the owned
generations. -/
def Bounded (w : World K) : Prop :=
  ∃ S : Finset Party, (∀ p n, w.seat p = some n → p ∈ S) ∧
    w.host.candidateCount + ∑ p ∈ S, (w.seat p).getD 0 ≤ maximumRetainedCandidates ∧
    w.host.owned.card + S.card ≤ maximumRetainedGenerations

namespace Bounded

theorem quiet (hb : w.Bounded) (h : Quiet w w') (hmoves : Estate.Moves w.estate w'.estate) :
    w'.Bounded := by
  obtain ⟨howned, hcandidates⟩ := hmoves.shrink h.calm.generations
  obtain ⟨S, hS, hcount, hcard⟩ := hb
  refine ⟨S, fun p n hp => hS p n ((h.seat p).symm.trans hp), ?_, ?_⟩
  · have hle : w'.host.candidateCount ≤ w.host.candidateCount := by
      unfold Host.candidateCount
      calc ∑ g ∈ w'.host.owned, (w'.host.generation g).candidates.length
          = ∑ g ∈ w'.host.owned, (w.host.generation g).candidates.length :=
            sum_congr rfl fun g _ => congrArg List.length (hcandidates g)
        _ ≤ ∑ g ∈ w.host.owned, (w.host.generation g).candidates.length :=
            sum_le_sum_of_subset howned
    have hseats : ∑ p ∈ S, (w'.seat p).getD 0 = ∑ p ∈ S, (w.seat p).getD 0 :=
      sum_congr rfl fun p _ => congrArg (getD · 0) (h.seat p)
    omega
  · have hle : w'.host.owned.card ≤ w.host.owned.card := card_le_card howned
    omega

/-- A party that moves takes the seat of its new phase, and the others keep theirs. -/
theorem seat_moved {phase phase' : AttemptPhase} (hp : w.phase p = some phase)
    (hphase : ∀ q, w'.phase q = (w.setPhase p phase').phase q) :
    w'.seat p = phase'.quota ∧ ∀ q, q ≠ p → w'.seat q = w.seat q := by
  have hself : w'.phase p = some phase' := (hphase p).trans (phase_setPhase_self hp)
  have hother : ∀ q, q ≠ p → w'.phase q = w.phase q := fun q hq =>
    (hphase q).trans (phase_setPhase_ne hq)
  exact ⟨by simp [World.seat, hself], fun q hq => by simp [World.seat, hother q hq]⟩

theorem move (hb : w.Bounded) {phase : AttemptPhase} (phase' : AttemptPhase)
    (hp : w.phase p = some phase) (hphase : ∀ q, w'.phase q = (w.setPhase p phase').phase q)
    (hquota : phase'.quota = none ∨
      ∃ n n', phase.quota = some n ∧ phase'.quota = some n' ∧ n' ≤ n)
    (hcount : w'.host.candidateCount = w.host.candidateCount)
    (hcard : w'.host.owned.card = w.host.owned.card) : w'.Bounded := by
  obtain ⟨hseat, hseats⟩ := seat_moved hp hphase
  have hold : w.seat p = phase.quota := by simp [World.seat, hp]
  obtain ⟨S, hS, hcount', hcard'⟩ := hb
  have hle : ∀ q, (w'.seat q).getD 0 ≤ (w.seat q).getD 0 := by
    intro q
    by_cases hqp : q = p
    · subst hqp
      rw [hseat, hold]
      rcases hquota with hnone | ⟨n, n', hn, hn', hle⟩
      · rw [hnone]
        exact Nat.zero_le _
      · rw [hn, hn']
        exact hle
    · rw [hseats q hqp]
  refine ⟨S, fun q n hq => ?_, ?_, ?_⟩
  · by_cases hqp : q = p
    · subst hqp
      rw [hseat] at hq
      rcases hquota with hnone | ⟨m, _, hm, _, _⟩
      · cases hnone.symm.trans hq
      · exact hS q m (hold.trans hm)
    · exact hS q n ((hseats q hqp).symm.trans hq)
  · have hsum := sum_le_sum fun q (_ : q ∈ S) => hle q
    omega
  · omega

theorem begin (ho : w.Orderly) {set : PluginSet} (hp : w.phase p = some (.waiting set))
    (htoken : w.token = true) (hroom : w.HasRoom (.attempt p .begin))
    (hlimit : w.host.limitReached set.executables.length = false)
    (hphase : ∀ q, w'.phase q = (w.setPhase p
      (.starting w.host.beginActivation.sequence [] set.executables)).phase q)
    (hhost : w'.host = w.host.beginActivation) : w'.Bounded := by
  obtain ⟨hseat, hseats⟩ := seat_moved hp hphase
  have hseat : w'.seat p = some set.executables.length := by simpa [quota] using hseat
  -- the token is free, so whoever has a seat is pending
  have hfree : ∀ q, ¬ w.Holds q := by
    rcases ho.token with ⟨_, _, hnone⟩ | ⟨hfalse, _⟩
    · exact hnone
    · rw [htoken] at hfalse
      cases hfalse
  have hpending : ∀ q n, w.seat q = some n →
      ∃ phase, w.phase q = some phase ∧ phase.pending = true ∧ n = (w.estate.held q).length := by
    intro q n hn
    obtain ⟨phase, hq, hquota⟩ := bind_eq_some_iff.mp hn
    rcases hasToken_or_pending hquota with hheld | hpending
    · exact absurd ⟨phase, hq, hheld⟩ (hfree q)
    · refine ⟨phase, hq, hpending, ?_⟩
      rw [held_eq hq]
      exact some_inj.mp (hquota.symm.trans (quota_of_pending hpending))
  obtain ⟨S, hS, hcount, hcard⟩ := hroom p set rfl hp hlimit
  refine ⟨insert p (S.erase p), ?_, ?_, ?_⟩
  · intro q n hq
    by_cases hqp : q = p
    · exact hqp ▸ mem_insert_self _ _
    · obtain ⟨phase, hq', hwait, _⟩ := hpending q n ((hseats q hqp).symm.trans hq)
      exact mem_insert_of_mem (mem_erase.mpr ⟨hqp, hS q phase hq' hwait⟩)
  · have hsum : ∑ q ∈ S.erase p, (w'.seat q).getD 0 ≤ ∑ q ∈ S, (w.estate.held q).length := by
      calc ∑ q ∈ S.erase p, (w'.seat q).getD 0
          ≤ ∑ q ∈ S.erase p, (w.estate.held q).length := by
            refine sum_le_sum fun q hq => ?_
            rw [hseats q (ne_of_mem_erase hq)]
            cases hn : w.seat q with
            | none => exact Nat.zero_le _
            | some n =>
              obtain ⟨_, _, _, hlength⟩ := hpending q n hn
              exact hlength.le
        _ ≤ ∑ q ∈ S, (w.estate.held q).length := sum_le_sum_of_subset (erase_subset _ _)
    rw [sum_insert (notMem_erase p S), hseat, hhost]
    show w.host.candidateCount + (set.executables.length + _) ≤ _
    omega
  · have hle := card_insert_le p (S.erase p)
    have herase := card_le_card (erase_subset p S)
    rw [hhost]
    show w.host.owned.card + _ ≤ _
    omega

theorem publish (hb : w.Bounded) (hok : w.Ok) {id : PlanID} {cs : List ℕ} {ended : Bool}
    {host : Host} (hp : w.phase p = some (.staged id cs)) (hhost : Published w id cs ended p host) :
    Bounded (w.swap p cs host) := by
  obtain ⟨hseat, hseats⟩ := @seat_moved _ w (w.setPhase p (.ended true)) p _ _ hp fun _ => rfl
  have hold : w.seat p = some cs.length := by simp [World.seat, hp, quota]
  obtain ⟨S, hS, hcount, hcard⟩ := hb
  have hmem : p ∈ S := hS p _ hold
  have hnot : w.host.generations ∉ w.host.owned := fun hmem =>
    absurd (hok.estate.ledger.owned_lt _ hmem)
      (by show ¬ w.host.generations < w.host.generations; omega)
  obtain ⟨howned, hcandidates⟩ := hhost.owned
  refine ⟨S.erase p, ?_, ?_, ?_⟩
  · intro q n hq
    have hq : (w.setPhase p (.ended true)).seat q = some n := hq
    by_cases hqp : q = p
    · subst hqp
      cases hseat.symm.trans hq
    · exact mem_erase.mpr ⟨hqp, hS q n ((hseats q hqp).symm.trans hq)⟩
  · show host.candidateCount + ∑ q ∈ S.erase p, ((w.setPhase p (.ended true)).seat q).getD 0 ≤ _
    have hsum : host.candidateCount = w.host.candidateCount + cs.length := by
      unfold Host.candidateCount
      rw [howned, sum_insert hnot, hcandidates.1, Nat.add_comm]
      congr 1
      refine sum_congr rfl fun g hg => ?_
      rw [hcandidates.2 g (hok.estate.ledger.owned_lt g hg)]
    have hrest : ∑ q ∈ S.erase p, ((w.setPhase p (.ended true)).seat q).getD 0 =
        ∑ q ∈ S.erase p, (w.seat q).getD 0 :=
      sum_congr rfl fun q hq => by rw [hseats q (ne_of_mem_erase hq)]
    have hsplit := sum_erase_add S (fun q => (w.seat q).getD 0) hmem
    rw [hold, getD_some] at hsplit
    omega
  · show host.owned.card + (S.erase p).card ≤ _
    rw [howned, card_insert_of_notMem hnot]
    have := card_erase_add_one hmem
    omega

end Bounded

theorem Bounded.attempt (hb : w.Bounded) (ho : w.Orderly) (hok : w.Ok)
    {event : AttemptEvent K.Input} (hroom : w.HasRoom (.attempt p event))
    (h : Attempted w p event w') : w'.Bounded := by
  cases h with
  | refuse hp | leave hp => exact hb.move _ hp (fun _ => rfl) (.inl rfl) rfl rfl
  | begin hp htoken hlimit => exact Bounded.begin ho hp htoken hroom hlimit (fun _ => rfl) rfl
  -- what is started was reserved when the staging began
  | start hp =>
    exact hb.move _ hp (fun _ => rfl) (.inr ⟨_, _, rfl, rfl, by simp; omega⟩) rfl rfl
  | startFails hp | skip hp | fail hp | compose hp =>
    exact hb.move _ hp (fun _ => rfl) (.inr ⟨_, _, rfl, rfl, by simp⟩) rfl rfl
  | close hp | stage hp | withdraw hp =>
    exact hb.move _ hp (fun _ => rfl) (.inr ⟨_, _, rfl, rfl, le_refl _⟩) rfl rfl
  | @abort staging cs closer hp =>
    unfold endAbort
    rw [(ho.closers p staging cs closer hp).1]
    cases staging with
    | true => exact hb.move _ hp (fun _ => rfl) (.inr ⟨_, _, rfl, rfl, Nat.zero_le _⟩) rfl rfl
    | false => exact hb.move _ hp (fun _ => rfl) (.inl rfl) rfl rfl
  | publish hp hhost => exact hb.publish hok hp hhost

theorem Bounded.init (K : CandidateKind) (restart : RestartPolicy) (digest : String) :
    (World.init K restart digest).Bounded := by
  refine ⟨∅, ?_, ?_, ?_⟩
  · intro p n hp
    exact absurd hp (by simp [World.seat, phase_init])
  · simp [World.init, Host.init, Host.candidateCount, Generation.fresh]
  · simp [World.init, Host.init, maximumRetainedGenerations]

/-- The conditions under which the processes are bounded. -/
def BoundedStep (w : World K) (label : HostLabel K.Input) : Prop :=
  w.ClosesSucceed label ∧ w.HasRoom label

theorem reachable_bounded {restart : RestartPolicy} {digest : String}
    (h : (hostSystem K restart digest).ReachableIf World.BoundedStep w) :
    w.Orderly ∧ w.Bounded := by
  refine h.invariant (I := fun w => w.Orderly ∧ w.Bounded)
    ⟨Orderly.init K restart digest, Bounded.init K restart digest⟩ ?_
  rintro s l t hs ⟨ho, hb⟩ hC hst
  have hok := reachable_ok hs
  have hst : s.step l = some t := hst
  refine ⟨(ho.step hC.1 hst).1, ?_⟩
  by_cases hl : ∃ p event, l = .attempt p event
  · obtain ⟨p, event, rfl⟩ := hl
    exact hb.attempt ho hok hC.2 (attemptStep_inv hst)
  · refine hb.quiet (step_quiet (fun p event heq => hl ⟨p, event, heq⟩) hC.1 ho.faultless hst) ?_
    exact step_moves hok.estate hok.begun hst

/-- The candidates that have been started and not yet closed. -/
def unclosed (w : World K) : Set ℕ := { c | c < w.started ∧ w.closed c = false }

/-- The generations that hold a candidate that is not yet closed, staged ones included. -/
def holders (w : World K) : Set (Party ⊕ ℕ) := { x | ∃ c ∈ w.unclosed, c ∈ w.estate.home x }

theorem held_of_seat_none {q : Party} (h : w.seat q = none) : w.estate.held q = [] := by
  show ((w.phase q).map candidates).getD [] = []
  cases hq : w.phase q with
  | none => rfl
  | some phase =>
    have hquota : phase.quota = none := by simpa [World.seat, hq] using h
    exact candidates_of_quota_none hquota

theorem held_le_of_seat {q : Party} {n : ℕ} (h : w.seat q = some n) :
    (w.estate.held q).length ≤ n := by
  obtain ⟨phase, hq, hquota⟩ := bind_eq_some_iff.mp h
  rw [held_eq hq]
  exact candidates_le hquota

theorem home_cases {c : ℕ} {x : Party ⊕ ℕ} (hx : c ∈ w.estate.home x) :
    (∃ p n, x = .inl p ∧ w.seat p = some n ∧ c ∈ w.estate.held p) ∨
      ∃ g ∈ w.host.owned, x = .inr g ∧ c ∈ (w.host.generation g).candidates := by
  cases x with
  | inl p =>
    have hheld : c ∈ w.estate.held p := hx
    left
    cases hn : w.seat p with
    | none =>
      rw [held_of_seat_none hn] at hheld
      cases hheld
    | some n => exact ⟨p, n, rfl, hn, hheld⟩
  | inr g =>
    right
    have hg : c ∈ if g ∈ w.host.owned then (w.host.generation g).candidates else [] := hx
    split_ifs at hg with howned
    · exact ⟨g, howned, rfl, hg⟩
    · cases hg

theorem Bounded.unclosed (hb : w.Bounded) (hok : w.Ok) :
    w.unclosed.encard ≤ maximumRetainedCandidates := by
  obtain ⟨S, hS, hcount, _⟩ := hb
  have hsub : w.unclosed ⊆
      ↑((w.host.owned.biUnion fun g => (w.host.generation g).candidates.toFinset) ∪
        S.biUnion fun p => (w.estate.held p).toFinset) := by
    intro c hc
    rcases hok.estate.homes.accounted c hc.1 with hclosed | ⟨x, hx⟩
    · have hopen : w.estate.closed c = false := hc.2
      cases hopen.symm.trans hclosed
    · rcases home_cases hx with ⟨p, n, _, hn, hheld⟩ | ⟨g, hg, _, hgc⟩
      · refine mem_coe.mpr (mem_union_right _ (mem_biUnion.mpr ⟨p, hS p n hn, ?_⟩))
        exact List.mem_toFinset.mpr hheld
      · refine mem_coe.mpr (mem_union_left _ (mem_biUnion.mpr ⟨g, hg, ?_⟩))
        exact List.mem_toFinset.mpr hgc
  have howned : (w.host.owned.biUnion fun g => (w.host.generation g).candidates.toFinset).card ≤
      w.host.candidateCount :=
    card_biUnion_le.trans (sum_le_sum fun g _ => List.toFinset_card_le _)
  have hheld : (S.biUnion fun p => (w.estate.held p).toFinset).card ≤
      ∑ p ∈ S, (w.seat p).getD 0 := by
    refine card_biUnion_le.trans (sum_le_sum fun p _ => ?_)
    refine (List.toFinset_card_le _).trans ?_
    cases hn : w.seat p with
    | none => simp [held_of_seat_none hn]
    | some n => exact held_le_of_seat hn
  refine (Set.encard_le_encard hsub).trans ?_
  rw [Set.encard_coe_eq_coe_finsetCard]
  have hunion := card_union_le
    (w.host.owned.biUnion fun g => (w.host.generation g).candidates.toFinset)
    (S.biUnion fun p => (w.estate.held p).toFinset)
  exact_mod_cast hunion.trans ((Nat.add_le_add howned hheld).trans hcount)

theorem Bounded.holders (hb : w.Bounded) : w.holders.encard ≤ maximumRetainedGenerations := by
  obtain ⟨S, hS, _, hcard⟩ := hb
  have hsub : w.holders ⊆ ↑(S.image Sum.inl ∪ w.host.owned.image Sum.inr : Finset (Party ⊕ ℕ)) := by
    rintro x ⟨c, hc, hx⟩
    rcases home_cases hx with ⟨p, n, rfl, hn, _⟩ | ⟨g, hg, rfl, _⟩
    · exact mem_coe.mpr (mem_union_left _ (mem_image_of_mem _ (hS p n hn)))
    · exact mem_coe.mpr (mem_union_right _ (mem_image_of_mem _ hg))
  refine (Set.encard_le_encard hsub).trans ?_
  rw [Set.encard_coe_eq_coe_finsetCard]
  have hunion :=
    card_union_le (S.image (Sum.inl (β := ℕ))) (w.host.owned.image (Sum.inr (α := Party)))
  have hseats := card_image_le (s := S) (f := (Sum.inl (β := ℕ)))
  have howned := card_image_le (s := w.host.owned) (f := (Sum.inr (α := Party)))
  have hle : (S.image Sum.inl ∪ w.host.owned.image Sum.inr : Finset (Party ⊕ ℕ)).card ≤
      maximumRetainedGenerations := by omega
  exact_mod_cast hle

end World

/-- **The process bound**: when every candidate close succeeds and every activation that begins to
stage finds room beside the pending generations, the candidates that have been started and not yet
closed, and the generations that hold them, stay within the limits. -/
theorem candidates_bounded {restart : RestartPolicy} {digest : String} {w : World K}
    (h : (hostSystem K restart digest).ReachableIf World.BoundedStep w) :
    w.unclosed.encard ≤ maximumRetainedCandidates ∧
      w.holders.encard ≤ maximumRetainedGenerations := by
  have hb := (World.reachable_bounded h).2
  have hok := World.reachable_ok h.reachable
  exact ⟨hb.unclosed hok, hb.holders⟩

/-- A check for runs in which no activation begins to stage. -/
def beginsNone {I : Type} : HostLabel I → Bool
  | .attempt _ .begin => false
  | label => closesNone label

theorem beginsNone_sound (w : World K) (label : HostLabel K.Input) (h : beginsNone label = true) :
    w.BoundedStep label := by
  unfold beginsNone at h
  split at h
  case h_1 => cases h
  case h_2 hbegin =>
    refine ⟨World.atClose_of_closesNone h, ?_⟩
    rintro p set rfl
    exact absurd rfl (hbegin p)

/-- The host after two `Activate` calls have begun. -/
def activatedTwice : World plainKind :=
  (plainHost.after [.activate 0 oneExecutable, .activate 1 oneExecutable]).get rfl

/-- The first of them has staged its generation. -/
def stagedFirst : World plainKind :=
  (plainHost.run activatedTwice (((publishOne 0).drop 1).take 4)).get rfl

theorem activatedTwice_alone (q : Party) (phase : AttemptPhase)
    (hq : activatedTwice.phase q = some phase) : phase.pending = false := by
  rcases q with (_ | _ | t) | _ <;> cases hq <;> rfl

theorem stagedFirst_pending (q : Party) (phase : AttemptPhase)
    (hq : stagedFirst.phase q = some phase) (hpending : phase.pending = true) :
    q = .activation 0 := by
  rcases q with (_ | _ | t) | _ <;> cases hq
  · rfl
  · cases hpending

theorem stagedFirst_hasRoom : stagedFirst.HasRoom (.attempt (.activation 1) .begin) := by
  rintro p set heq hp -
  cases heq
  cases hp
  refine ⟨{.activation 0}, fun q phase hq hpending => ?_, by decide, by decide⟩
  exact mem_singleton.mpr (stagedFirst_pending q phase hq hpending)

/-- A second activation begins beside the generation that the first has staged, and publishes its
own. -/
theorem candidates_bounded_published : ∃ w,
    plainHost.ReachableIf World.BoundedStep w ∧
      w.started = 2 ∧ w.closed 0 = false ∧ w.closed 1 = false ∧ w.host.current = 1 ∧
      w.unclosed.encard ≤ maximumRetainedCandidates ∧
      w.holders.encard ≤ maximumRetainedGenerations := by
  have hactivated := System.ReachableIf.init.checkedRun beginsNone_sound
    (show plainHost.checkedRun (fun _ => beginsNone) _
      [.activate 0 oneExecutable, .activate 1 oneExecutable] = some activatedTwice from rfl)
  have hbegun := hactivated.step (l := .attempt (.activation 0) .begin)
    ⟨World.atClose_of_closesNone rfl, World.hasRoom_of_alone activatedTwice_alone⟩ rfl
  have hstaged := hbegun.checkedRun beginsNone_sound
    (show plainHost.checkedRun (fun _ => beginsNone) _
      (((publishOne 0).drop 2).take 3) = some stagedFirst from rfl)
  have hbeside := hstaged.step (l := .attempt (.activation 1) .begin)
    ⟨World.atClose_of_closesNone rfl, stagedFirst_hasRoom⟩ rfl
  have hreach := hbeside.checkedRun beginsNone_sound
    (show plainHost.checkedRun (fun _ => beginsNone) _
      (((publishOne 1).drop 2).take 3 ++ [.attempt (.activation 1) (.publish false)]) = some _
      from rfl)
  exact ⟨_, hreach, rfl, rfl, rfl, rfl, candidates_bounded hreach⟩

/-! ## Two activations at once -/

/-- A set of as many executables as `MaximumExecutables` allows. -/
def largestSet : PluginSet where
  executables := (List.range maximumExecutables).map fun n => String.ofList (List.replicate n 'p')
  bounded := by simp
  nodup := by
    refine List.nodup_range.map fun n m heq => ?_
    have heq : List.replicate n 'p' = List.replicate m 'p' := String.ofList_injective heq
    simpa using congrArg List.length heq

/-- The steps of an activation of the largest set up to the return of `stage`. -/
def stageLargest (t : ℕ) : List (HostLabel Unit) :=
  [.activate t largestSet, .attempt (.activation t) .begin] ++
    List.replicate maximumExecutables (.attempt (.activation t) (.start ())) ++
    [.attempt (.activation t) (.compose (some "")), .attempt (.activation t) .leave]

/-- While one generation is current, two activations stage theirs, and three times
`MaximumExecutables` candidates run. -/
theorem candidates_unbounded : ∃ w,
    plainHost.ReachableIf World.ClosesSucceed w ∧
      w.unclosed.encard = 3 * maximumExecutables ∧
      ¬ w.unclosed.encard ≤ maximumRetainedCandidates := by
  obtain ⟨w, hrun, hw⟩ := map_eq_some_iff.mp
    (show (plainHost.checkedRun (fun _ => closesNone) plainHost.init
        (stageLargest 0 ++ [.attempt (.activation 0) (.publish false)] ++ stageLargest 1 ++
          stageLargest 2)).map
        (fun w => (w.started, (List.range 384).all fun c => !w.closed c)) = some (384, true) by
      decide +kernel)
  simp only [Prod.mk.injEq] at hw
  have hall : w.unclosed = ↑(range 384) := by
    ext c
    simp only [World.unclosed, Set.mem_ofPred_eq, hw.1, coe_range, Set.mem_Iio,
      and_iff_left_iff_imp]
    intro hlt
    simpa using List.all_eq_true.mp hw.2 c (List.mem_range.mpr hlt)
  have hcard : w.unclosed.encard = 384 := by
    rw [hall, Set.encard_coe_eq_coe_finsetCard, card_range]
    rfl
  refine ⟨w, System.ReachableIf.init.checkedRun (fun _ _ => World.atClose_of_closesNone) hrun,
    ?_, ?_⟩
  · rw [hcard]
    rfl
  · rw [hcard]
    decide

end SpiceAgent.Pluginhost
