import SpiceAgent.PluginHost.Recovery

/-!
# Ownership of plugin generations

The reference count of a generation is the number of its unreleased leases, its candidates are
closed by one cleanup at a time and only when it is neither current nor leased, a lease of a plan ID
is of the generation with that plan ID, only a publication changes the current generation, and a
`Close` that returns no error has closed every candidate that was ever started.
-/

namespace SpiceAgent.Pluginhost

open Lib Function

variable {K : CandidateKind}

variable {g : ℕ}

theorem Estate.Moves.id {e e' : Estate} (h : Estate.Moves e e') (hlt : g < e.generations) :
    (e'.entry g).id = (e.entry g).id := by
  have hset : ∀ (ledger : Ledger) (g' : ℕ) (x : Entry), x.id = (ledger.entry g').id →
      (update ledger.entry g' x g).id = (ledger.entry g).id := by
    intro ledger g' x hx
    by_cases hg : g = g'
    · subst hg
      rw [update_self, hx]
    · rw [update_of_ne hg]
  induction h with
  | refl => rfl
  | @tail e₁ e₂ hmoves hmove ih =>
    have hlt₁ : g < e₁.generations := lt_of_lt_of_le hlt (Moves.generations_le hmoves)
    rw [← ih]
    cases hmove with
    | retain p => simp [yield, Ledger.retain, Ledger.adopt, Ledger.setEntry, hlt₁.ne]
    | publish p c id =>
      have hne : g ≠ e₁.generations := hlt₁.ne
      have hstep : (update e₁.entry c { e₁.entry c with current := false } g).id =
          (e₁.entry g).id := hset e₁.toLedger c _ rfl
      simpa [yield, Ledger.publish, Ledger.promote, Ledger.shut, Ledger.adopt, Ledger.setEntry, hne]
        using hstep
    | queue g' => exact hset e₁.toLedger g' _ rfl
    | finish k hk => exact hset e₁.toLedger _ _ rfl
    | acquire l g' => exact hset e₁.toLedger g' _ rfl
    | release l g' => exact hset e₁.toLedger g' _ rfl
    | shut g' => exact hset e₁.toLedger g' _ rfl
    | start | abort | turnAbort | drop | turnCleanup => rfl

namespace World

variable {w w' : World K}

/-- The lease of a generation has not been released. -/
def Unreleased (w : World K) (l g : ℕ) : Prop :=
  ∃ lease, w.leases l = some lease ∧ lease.generation = g ∧ lease.phase ≠ .released

/-- The candidate remains to be closed by a staging call's abort or by a cleanup. -/
def ToClose (w : World K) : Party ⊕ ℕ → ℕ → Prop
  | .inl p, c => ∃ staging cs closer, w.phase p = some (.aborting staging cs closer) ∧
      c ∈ closer.todo
  | .inr k, c => ∃ cleanup, w.host.cleanups k = some cleanup ∧ c ∈ cleanup.closer.todo

variable {l : ℕ}

theorem unreleased_iff : w.Unreleased l g ↔ w.estate.leases l = some g := by
  show _ ↔ (w.leases l).bind Lease.retains = some g
  cases hl : w.leases l with
  | none => simp [Unreleased, hl]
  | some lease =>
    by_cases hr : lease.phase = .released
    · simp [Unreleased, hl, Lease.retains, hr]
    · simp [Unreleased, hl, Lease.retains, hr]

section

variable (hok : w.Ok)
include hok

theorem Ok.refs_eq (hlt : g < w.host.generations) :
    {l | w.Unreleased l g}.encard = (w.host.generation g).refs := by
  have hrefs := hok.estate.refs.refs g hlt
  simp only [unreleased_iff]
  exact hrefs

theorem Ok.retired (hlt : g < w.host.generations)
    (hretired : (w.host.generation g).retired = true) :
    (w.host.generation g).current = false ∧ ∀ l, ¬ w.Unreleased l g := by
  obtain ⟨hrefs, hcurrent⟩ := (hok.estate.ledger.fits g hlt).retired hretired
  refine ⟨hcurrent, fun l hl => ?_⟩
  exact hok.estate.refs.refs_ne_zero (unreleased_iff.mp hl) hrefs

variable {x : Party ⊕ ℕ} {c : ℕ}

theorem Ok.toClose_home (h : w.ToClose x c) : (∃ p, x = .inl p ∧ c ∈ w.estate.home (.inl p)) ∨
      ∃ k cleanup, x = .inr k ∧ w.host.cleanups k = some cleanup ∧
        (w.host.generation cleanup.generation).cleaning = true ∧
        cleanup.generation < w.host.generations ∧ c ∈ w.estate.home (.inr cleanup.generation) := by
  cases x with
  | inl p =>
    obtain ⟨staging, cs, closer, hp, hc⟩ := h
    refine .inl ⟨p, rfl, ?_⟩
    exact (hok.estate.homes.aborts p closer (aborts_eq hp)).todo c hc
  | inr k =>
    obtain ⟨cleanup, hk, hc⟩ := h
    obtain ⟨_, hlt, hcleaning⟩ := hok.estate.ledger.cleanups k cleanup hk
    refine .inr ⟨k, cleanup, rfl, hk, hcleaning, hlt, ?_⟩
    have hfits := hok.estate.ledger.fits _ hlt
    have howned := hfits.owned.mpr (hfits.cleaning hcleaning)
    have hmem := (hok.estate.homes.cleanups k cleanup hk).todo c hc
    simpa [Estate.home, howned] using hmem

theorem Ok.toClose_unique {y : Party ⊕ ℕ} (hx : w.ToClose x c) (hy : w.ToClose y c) : x = y := by
  have hunique : ∀ {a b : Party ⊕ ℕ}, c ∈ w.estate.home a → c ∈ w.estate.home b → a = b :=
    fun ha hb => hok.estate.homes.exclusive.holder_unique ha hb
  rcases hok.toClose_home hx with ⟨p, rfl, hp⟩ | ⟨k, cleanup, rfl, hk, _, _, hg⟩
  · rcases hok.toClose_home hy with ⟨q, rfl, hq⟩ | ⟨k', cleanup', rfl, _, _, _, hg'⟩
    · exact hunique hp hq
    · cases hunique hp hg'
  · rcases hok.toClose_home hy with ⟨q, rfl, hq⟩ | ⟨k', cleanup', rfl, hk', _, _, hg'⟩
    · cases hunique hg hq
    · have hsame := Sum.inr.inj (hunique hg hg')
      rw [hok.estate.ledger.cleanup_unique k k' cleanup cleanup' hk hk' hsame]

theorem Ok.toClose_retired (hx : w.ToClose x c) (hlt : g < w.host.generations)
    (hc : c ∈ (w.host.generation g).candidates) :
    (w.host.generation g).current = false ∧ ∀ l, ¬ w.Unreleased l g := by
  apply hok.retired hlt
  by_cases howned : g ∈ w.host.owned
  · -- the only holder of the candidate is its generation, so the closer is the generation's cleanup
    have hhome : c ∈ w.estate.home (.inr g) := by
      show c ∈ (if g ∈ w.host.owned then (w.host.generation g).candidates else [])
      rwa [if_pos howned]
    rcases hok.toClose_home hx with ⟨p, rfl, hp⟩ | ⟨k, cleanup, rfl, hk, hcleaning, _, hg⟩
    · cases hok.estate.homes.exclusive.holder_unique hhome hp
    · have hsame := Sum.inr.inj (hok.estate.homes.exclusive.holder_unique hhome hg)
      rw [← hsame] at hcleaning
      simp [Generation.retired, hcleaning]
  · have hcleaned : ¬ (w.host.generation g).cleaned = false := fun hnot =>
      howned ((hok.estate.ledger.fits g hlt).owned.mpr hnot)
    simp only [Bool.not_eq_false] at hcleaned
    simp [Generation.retired, hcleaned]

variable {label : HostLabel K.Input}

theorem closing_step (h : w.step label = some w') (hclosing : w.host.closing = true) :
    w'.host.closing = true := by
  rw [closing_iff] at hclosing ⊢
  exact (step_moves hok.estate hok.begun h).live_none hclosing

end

theorem lease_closing (hclosing : w.host.closing = true) {request : Option String}
    (h : w.step (.lease l request) = some w') : w'.leases = w.leases := by
  cases step_inv h with
  | steer hsteer => cases hsteer
  | lease hlease =>
    cases hlease with
    | refuse => rfl
    | acquire hl hg =>
      rcases w.host.acquire_cases w.done request with ⟨hnone, _⟩ | ⟨_, _, hopen, _⟩
      · cases hnone.symm.trans hg
      · cases hclosing.symm.trans hopen
  | call hcall => cases hcall

/-! ## Leases -/

/-- A lease of a plan ID is of a generation with that plan ID. -/
def LeasesMatch (w : World K) : Prop :=
  ∀ l lease id, w.leases l = some lease → lease.request = some id →
    lease.generation < w.host.generations ∧ (w.host.generation lease.generation).id = id

/-- The leases after a step: those before, with their generations and requests, and one that `lease`
has granted. -/
theorem step_lease (h : w.step label = some w') {lease : Lease} (hl : w'.leases l = some lease) :
    (∃ lease₀, w.leases l = some lease₀ ∧ lease₀.generation = lease.generation ∧
        lease₀.request = lease.request) ∨
      (label = .lease l lease.request ∧ w.host.select lease.request = some lease.generation) := by
  -- a lease that was there before is found unless it is the one that moved
  have hold : ∀ {l' g : ℕ} {request : Option String} {phase phase' : LeasePhase},
      w.leases l' = some ⟨g, request, phase⟩ →
      update w.leases l' (some ⟨g, request, phase'⟩) l = some lease →
      ∃ lease₀, w.leases l = some lease₀ ∧ lease₀.generation = lease.generation ∧
        lease₀.request = lease.request := by
    intro l' g request phase phase' hl' hl
    rcases update_eq_some.mp hl with ⟨rfl, hv⟩ | ⟨_, hl⟩
    · cases hv
      exact ⟨_, hl', rfl, rfl⟩
    · exact ⟨lease, hl, rfl, rfl⟩
  cases hlabel : label.ofLease with
  | false =>
    rw [step_leases hlabel h] at hl
    exact .inl ⟨lease, hl, rfl, rfl⟩
  | true =>
    cases step_inv h with
    | lease hlease =>
      cases hlease with
      | refuse => exact .inl ⟨lease, hl, rfl, rfl⟩
      | @acquire l' g request _ hg =>
        rcases update_eq_some.mp hl with ⟨rfl, hv⟩ | ⟨_, hl⟩
        · cases hv
          rcases w.host.acquire_cases w.done request with ⟨hnone, _⟩ | ⟨g', hg', _, hselect, _⟩
          · cases hnone.symm.trans hg
          · cases hg.symm.trans hg'
            exact .inr ⟨rfl, hselect⟩
        · exact .inl ⟨lease, hl, rfl, rfl⟩
      | confirm hl' => exact .inl (hold hl' hl)
      | drop hl' => exact .inl (hold hl' hl)
      | release hl' => exact .inl (hold hl' hl)
    | attempt | activate | finish | observe | unobserve | change | cleanup | cleaned =>
      exact absurd hlabel nofun
    | steer hsteer => cases hsteer <;> exact absurd hlabel nofun
    | call hcall => cases hcall <;> exact absurd hlabel nofun

theorem LeasesMatch.step (hmatch : w.LeasesMatch) (hok : w.Ok) (h : w.step label = some w') :
    w'.LeasesMatch := by
  have hmoves := step_moves hok.estate hok.begun h
  have hle : w.host.generations ≤ w'.host.generations := hmoves.generations_le
  have hid : ∀ g, g < w.host.generations → (w'.host.generation g).id = (w.host.generation g).id :=
    fun g hlt => hmoves.id hlt
  intro l lease id hl hrequest
  rcases step_lease h hl with ⟨lease₀, hl₀, hgeneration, hrequest₀⟩ | ⟨_, hselect⟩
  · obtain ⟨hlt, hid₀⟩ := hmatch l lease₀ id hl₀ (hrequest₀.trans hrequest)
    rw [hgeneration] at hlt hid₀
    exact ⟨lt_of_lt_of_le hlt hle, (hid _ hlt).trans hid₀⟩
  · rw [hrequest] at hselect
    obtain ⟨_, hlt, hid₀, _⟩ := hok.estate.ledger.available id _ hselect
    exact ⟨lt_of_lt_of_le hlt hle, (hid _ hlt).trans hid₀⟩

/-! ## Publications -/

def HasPublished (w : World K) (t : ℕ) : Prop :=
  w.phase (.activation t) = some (.ended true) ∨ w.phase (.activation t) = some (.returned true)

variable {t : ℕ}

theorem HasPublished.step (hpublished : w.HasPublished t) (h : w.step label = some w') :
    w'.HasPublished t := by
  by_cases ht : label.activation? = some t
  · cases label with
    | activate t' set =>
      obtain rfl : t' = t := Option.some_inj.mp ht
      simp only [World.step, activateStep] at h
      split_ifs at h with hnew
      rcases hpublished with hp | hp <;> simp [World.phase, hnew.1] at hp
    | attempt p event =>
      cases p with
      | activation t' =>
        obtain rfl : t' = t := Option.some_inj.mp ht
        rcases hpublished with hp | hp <;> simp [World.step, attemptStep, hp] at h
      | controller => cases ht
    | finish t' =>
      obtain rfl : t' = t := Option.some_inj.mp ht
      rcases hpublished with hp | hp
      · simp only [World.step, finishStep, hp] at h
        cases h
        exact .inr (phase_setPhase_self hp)
      · simp [World.step, finishStep, hp] at h
    | _ => cases ht
  · have hsame : w'.phase (.activation t) = w.phase (.activation t) := by
      simp only [World.phase, step_activates h ht]
    simpa [HasPublished, hsame] using hpublished

/-- Only a publication changes the current generation, and only the explicit activation that began
last publishes. -/
theorem step_current (hok : w.Ok) (h : w.step label = some w') :
    w'.host.current = w.host.current ∨
      (∃ t, w'.HasPublished t ∧ ¬ w.HasPublished t ∧ ∀ a, w.activates t = some a →
        ∀ t' a', t' ≠ t → w.activates t' = some a' → a'.revision < a.revision) ∨
      w'.phase .controller = some (.ended true) ∧ w.phase .controller ≠ some (.ended true) := by
  rcases step_helm hok.current_lt h with hmove | ⟨t, _, _, _, hfinish⟩ |
    ⟨p, id, cs, ended, host, _, hp, hhost, rfl⟩
  · exact .inl hmove.current
  · exact .inl (congrArg (fun h : Helm => h.vigil.current) hfinish)
  · right
    cases hhost with
    | @explicit t a ha hcan =>
      left
      refine ⟨t, .inl (phase_setPhase_self hp), ?_, ?_⟩
      · rintro (hp' | hp') <;> cases hp.symm.trans hp'
      · intro a₀ ha₀ t' a' hne ha'
        obtain rfl : a = a₀ := Option.some_inj.mp (ha.symm.trans ha₀)
        have hlast : w.host.explicitRevision = a.revision := by
          simp only [Host.canPublishExplicit, Bool.and_eq_true, decide_eq_true_eq] at hcan
          exact hcan.1.2
        have hrevision : ∀ {s : ℕ} {b : Activation}, w.activates s = some b →
            w.helm.revision s = some b.revision := by
          intro s b hb
          simp [helm, hb]
        have hle : a'.revision ≤ w.host.explicitRevision := hok.calls.le t' _ (hrevision ha')
        have hdiff : a'.revision ≠ a.revision := by
          intro heq
          refine hne (hok.calls.injective t' t a.revision ?_ (hrevision ha))
          rw [hrevision ha', heq]
        omega
    | recovery hc hcan =>
      right
      exact ⟨phase_setPhase_self hp, by rw [hp]; simp⟩

/-- The revision of an activation that begins is above those of the activations that have begun. -/
theorem activate_revision (hok : w.Ok) {set : PluginSet} (h : w.step (.activate t set) = some w')
    {t' : ℕ} {a' : Activation} (ha' : w.activates t' = some a') :
    ∃ a, w'.activates t = some a ∧ a'.revision < a.revision := by
  simp only [step, activateStep] at h
  split_ifs at h
  cases h
  refine ⟨_, update_self .., ?_⟩
  have hle : a'.revision ≤ w.host.explicitRevision := hok.calls.le t' _ (by simp [helm, ha'])
  exact Nat.lt_succ_of_le hle

/-! ## Close -/

theorem closeProgress_done (host : Host) (attempt : ℕ) (controllerDone : Bool)
    (h : (host.closeProgress attempt controllerDone).2 = .done) :
    host.explicitActivations = 0 ∧ controllerDone = true ∧
      (host.closeProgress attempt controllerDone).1.owned = ∅ := by
  unfold Host.closeProgress at h ⊢
  by_cases hidle : (host.activations = 0 && host.explicitActivations = 0 && controllerDone : Bool) =
    true
  · simp only [hidle, if_true] at h ⊢
    have hcounts : host.explicitActivations = 0 ∧ controllerDone = true := by
      simp only [Bool.and_eq_true, decide_eq_true_eq] at hidle
      exact ⟨hidle.1.2, hidle.2⟩
    refine ⟨hcounts.1, hcounts.2, ?_⟩
    split_ifs at h ⊢ with hbusy hempty
    exact hempty
  · simp [hidle] at h

/-- When `Close` returns no error, every candidate that was started has been closed and no lease is
outstanding. -/
theorem close_done (hok : w.Ok) (h : w.step (.progress t) = some w')
    (hdone : w'.closes t = some (.returned .closed)) :
    (∀ c, c < w'.started → w'.closed c = true) ∧ (∀ l g, ¬ w'.Unreleased l g) ∧
      w'.host.closing = true := by
  have hok' := hok.step h
  have hstays : w.host.closing = true → w'.host.closing = true := closing_step hok h
  simp only [step, progressStep] at h
  split at h
  case h_2 => cases h
  case h_1 attempt ht =>
    have hclosing := hok.begun t (.inl ⟨attempt, ht⟩)
    have hcases := closeProgress_done w.host attempt w.controllerDone
    generalize w.host.closeProgress attempt w.controllerDone = r at h hcases
    obtain ⟨host, progress⟩ := r
    cases progress with
    | wait | failed =>
      cases h
      simp [setClose] at hdone
    | done =>
      obtain ⟨hexplicit, hcontroller, howned⟩ := hcases rfl
      cases h
      have howned : host.owned = ∅ := howned
      -- no staging call holds anything: the controller has stopped and every activation has
      -- returned
      have hheld : ∀ p, w.estate.held p = [] := by
        intro p
        cases p with
        | controller =>
          have hstopped : w.controller = .stopped := by simpa [controllerDone] using hcontroller
          simp [estate, World.phase, hstopped, Controller.phase]
        | activation t' =>
          cases ha : w.activates t' with
          | none => simp [estate, World.phase, ha]
          | some a =>
            have hreturned : a.phase.hasReturned = true := by
              by_contra hnot
              exact hok.calls.pos ⟨a, ha, by simpa using hnot⟩ hexplicit
            cases hphase : a.phase <;> simp [hphase, AttemptPhase.hasReturned] at hreturned
            simp [estate, World.phase, ha, hphase, AttemptPhase.candidates]
      refine ⟨?_, ?_, ?_⟩
      · intro c hc
        rcases hok'.estate.homes.accounted c hc with hclosed | ⟨x, hx⟩
        · exact hclosed
        · exfalso
          cases x with
          | inl p =>
            have hx : c ∈ w.estate.held p := hx
            rw [hheld p] at hx
            exact List.not_mem_nil hx
          | inr g =>
            have hx : c ∈ (if g ∈ host.owned then (host.generation g).candidates else []) := hx
            rw [howned] at hx
            simp at hx
      · intro l g hl
        have hlease := unreleased_iff.mp hl
        have hlt := hok'.estate.refs.lt l g hlease
        have hretired := hok'.estate.ledger.not_retired hlt
          (.inr (hok'.estate.refs.refs_ne_zero hlease))
        have hmem : g ∈ host.owned := by
          apply (hok'.estate.ledger.fits g hlt).owned.mpr
          simp only [Entry.retired, Bool.or_eq_false_iff] at hretired
          exact hretired.1.2
        rw [howned] at hmem
        exact absurd hmem (Finset.notMem_empty g)
      · exact hstays hclosing

theorem reachable_leasesMatch {restart : RestartPolicy} {digest : String}
    (h : (hostSystem K restart digest).Reachable w) : w.LeasesMatch := by
  refine h.invariant (I := World.LeasesMatch) ?_ fun hs hmatch hst =>
    hmatch.step (reachable_ok hs) hst
  intro l lease id hl
  exact absurd hl nofun

end World

/-- Ownership of generations, over every interleaving of the goroutines of a host. -/
theorem generation_ownership {restart : RestartPolicy} {digest : String} {w : World K}
    (h : (hostSystem K restart digest).Reachable w) :
    (∀ g, g < w.host.generations →
      {l | w.Unreleased l g}.encard = (w.host.generation g).refs) ∧
    (∀ x c g, w.ToClose x c → g < w.host.generations → c ∈ (w.host.generation g).candidates →
      (w.host.generation g).current = false ∧ ∀ l, ¬ w.Unreleased l g) ∧
    (∀ x y c, w.ToClose x c → w.ToClose y c → x = y) ∧
    (∀ l lease, w.leases l = some lease →
      (∀ id, lease.request = some id → (w.host.generation lease.generation).id = id) ∧
      (lease.phase ≠ .released → (w.host.generation lease.generation).retired = false)) ∧
    ∀ label w', w.step label = some w' →
      (w'.host.current = w.host.current ∨
        (∃ t, w'.HasPublished t ∧ ¬ w.HasPublished t ∧ ∀ a, w.activates t = some a →
          ∀ t' a', t' ≠ t → w.activates t' = some a' → a'.revision < a.revision) ∨
        w'.phase .controller = some (.ended true) ∧ w.phase .controller ≠ some (.ended true)) ∧
      (∀ t, w.HasPublished t → w'.HasPublished t) ∧
      (∀ t set, label = .activate t set → ∀ t' a', w.activates t' = some a' →
        ∃ a, w'.activates t = some a ∧ a'.revision < a.revision) ∧
      (∀ t, label = .progress t → w'.closes t = some (.returned .closed) →
        (∀ c, c < w'.started → w'.closed c = true) ∧ (∀ l g, ¬ w'.Unreleased l g) ∧
          w'.host.closing = true) ∧
      (w.host.closing = true → w'.host.closing = true ∧
        ∀ l request, label = .lease l request → w'.leases = w.leases) := by
  have hok := World.reachable_ok h
  refine ⟨fun g hlt => hok.refs_eq hlt, fun x c g hx hlt hc => hok.toClose_retired hx hlt hc,
    fun x y c hx hy => hok.toClose_unique hx hy, ?_, ?_⟩
  · intro l lease hl
    refine ⟨fun id hid => (World.reachable_leasesMatch h l lease id hl hid).2, fun hphase => ?_⟩
    have hlease := World.unreleased_iff.mp ⟨lease, hl, rfl, hphase⟩
    exact hok.estate.ledger.not_retired (hok.estate.refs.lt l _ hlease)
      (.inr (hok.estate.refs.refs_ne_zero hlease))
  · intro label w' hst
    refine ⟨World.step_current hok hst, fun t ht => ht.step hst, ?_, ?_, ?_⟩
    · rintro t set rfl t' a' ha'
      exact World.activate_revision hok hst ha'
    · rintro t rfl hdone
      exact World.close_done hok hst hdone
    · intro hclosing
      refine ⟨World.closing_step hok hst hclosing, ?_⟩
      rintro l request rfl
      exact World.lease_closing hclosing hst

/-- A run that leases the published generation after the compiled one has been cleaned. -/
theorem generation_ownership_leased : ∃ w, plainHost.Reachable w ∧
      (w.host.generation 1).refs = 1 ∧ {l | w.Unreleased l 1}.encard = 1 ∧
      (w.host.generation 0).cleaned = true := by
  have hrun : plainHost.after
      (publishOne 0 ++ [.finish 0, .cleaned 0, .lease 0 none, .confirm 0 true false]) = some _ :=
      rfl
  have hreach := System.reachable_of_run hrun
  have hcount := (generation_ownership hreach).1 1 (by decide)
  exact ⟨_, hreach, rfl, hcount.trans Nat.cast_one, rfl⟩

end SpiceAgent.Pluginhost
