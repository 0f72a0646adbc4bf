import SpiceAgent.Daemon.EndpointStore

/-!
# Endpoint discovery is truthful

Whoever holds the liveness lock without the metadata lock is a daemon whose record is the file: it
wrote the record before it gave up the metadata lock, and since then only it could have changed the
file, for every change needs both locks. A discovery that reads the file and finds the liveness lock
busy under one metadata lock therefore has the record of the daemon that is alive.
-/

namespace SpiceAgent.Endpoint

open SpiceAgent.Lib Option

variable {ρ : Type} {site : Site ρ} {s s' : Shared ρ} {i j k : ℕ}
  {op op' other : Op ρ} {p p' : Phase ρ} {a : Action}

namespace Phase

def holdsMetadata : Phase ρ → Bool
  | .reading | .probing _ | .checking | .claiming | .writing | .announcing | .aborting => true
  | .failing held | .failingMetadata held => held
  | .withdrawing _ _ | .removing _ | .freeing _ _ | .unlocking _ => true
  | _ => false

def holdsLiveness : Phase ρ → Bool
  | .writing | .announcing | .failing _ | .published | .polling .close => true
  | .withdrawing _ _ | .removing _ | .freeing _ _ => true
  | _ => false

/-- The call is a daemon whose record has been published. -/
def isPublished : Phase ρ → Bool
  | .published | .polling .close | .failing false => true
  | _ => false

/-- What a call with the metadata lock knows of the file. -/
def Reads (site : Site ρ) (i : ℕ) (file : Option ρ) : Phase ρ → Prop
  | .probing r => file = some r
  | .announcing => file = some (site.record i)
  | _ => True

/-- The call is a discovery that has had the liveness lock. -/
def hadLiveness : Phase ρ → Bool
  | .removing false | .freeing _ false => true
  | _ => false

def Reports (site : Site ρ) (clear : Bool) : Phase ρ → Prop
  | .unlocking (.found r k) | .returned (.found r k) => r = site.record k
  | .unlocking .notFound | .returned .notFound => clear = true
  | _ => True

theorem isPublished_of_holds : ∀ {p : Phase ρ}, p.holdsLiveness = true → p.holdsMetadata = false →
    p.isPublished = true
  | .published, _, _ | .polling .close, _, _ | .failing false, _, _ => rfl

theorem Reads.of_not_holds {file : Option ρ} :
    ∀ {p : Phase ρ}, p.holdsMetadata = false → p.Reads site i file
  | .idle, _ | .polling _, _ | .failing _, _ | .failingMetadata _, _ | .published, _
  | .returned _, _ => trivial

end Phase

/-- What holds of the directory between any two actions. -/
structure Kept (site : Site ρ) (s : Shared ρ) : Prop where
  published : ∀ k, s.liveness = some k → s.metadata = some k ∨ s.file = some (site.record k)

/-- What holds of a call. -/
structure Assertion (site : Site ρ) (s : Shared ρ) (i : ℕ) (op : Op ρ) : Prop where
  metadata : s.metadata = some i ↔
    op.phase.holdsMetadata = true ∧ s.dead (site.process i) = false
  liveness : s.liveness = some i ↔
    op.phase.holdsLiveness = true ∧ s.dead (site.process i) = false
  reads : s.dead (site.process i) = false → op.phase.Reads site i s.file
  clear : op.phase.hadLiveness = true → op.clear = true
  reports : op.phase.Reports site op.clear

/-! ## One step -/

/-- What a step of the call `i` does to the directory. -/
structure Effect (s s' : Shared ρ) (i : ℕ) : Prop where
  dead : s'.dead = s.dead
  metadata : ∀ j, j ≠ i → (s'.metadata = some j ↔ s.metadata = some j)
  liveness : ∀ j, j ≠ i → (s'.liveness = some j ↔ s.liveness = some j)
  file : s'.file = s.file ∨ s.metadata = some i ∧ s.liveness = some i

theorem Assertion.others (hj : Assertion site s j other) (hne : j ≠ i) (he : Effect s s' i) :
    Assertion site s' j other := by
  refine ⟨?_, ?_, fun hlive => ?_, hj.clear, hj.reports⟩
  · rw [he.metadata j hne, he.dead]
    exact hj.metadata
  · rw [he.liveness j hne, he.dead]
    exact hj.liveness
  · rw [he.dead] at hlive
    rcases he.file with hfile | ⟨hmeta, -⟩
    · rw [hfile]
      exact hj.reads hlive
    · refine .of_not_holds ?_
      by_contra hholds
      have hown := hj.metadata.mpr ⟨by simpa using hholds, hlive⟩
      rw [hmeta] at hown
      exact hne (some_inj.mp hown).symm

theorem Assertion.crash (h : Assertion site s i op) (k : ℕ) :
    Assertion site (s.crash site k) i op := by
  have hdead : (s.crash site k).dead (site.process i) = false ↔
      s.dead (site.process i) = false ∧ site.process i ≠ k := by
    unfold Shared.crash
    dsimp only
    rw [Function.update_apply]
    split
    · rename_i hik
      simp [hik]
    · rename_i hik
      simp [hik]
  refine ⟨?_, ?_, fun hlive => h.reads (hdead.mp hlive).1, h.clear, h.reports⟩
  · rw [hdead, ← and_assoc, ← h.metadata]
    simp [Shared.crash, filter_eq_some_iff]
  · rw [hdead, ← and_assoc, ← h.liveness]
    simp [Shared.crash, filter_eq_some_iff]

theorem Kept.crash (h : Kept site s) (k : ℕ) : Kept site (s.crash site k) := by
  refine ⟨fun i hi => ?_⟩
  simp only [Shared.crash, filter_eq_some_iff] at hi ⊢
  rcases h.published i hi.1 with hmeta | hfile
  · exact .inl ⟨hmeta, hi.2⟩
  · exact .inr hfile

/-- What a step leads to, for a call of a living process. -/
structure Step (site : Site ρ) (s s' : Shared ρ) (i : ℕ) (p : Phase ρ) (c : Bool) : Prop where
  kept : Kept site s'
  effect : Effect s s' i
  metadata : s'.metadata = some i ↔ p.holdsMetadata = true
  liveness : s'.liveness = some i ↔ p.holdsLiveness = true
  reads : p.Reads site i s'.file
  clear : p.hadLiveness = true → c = true
  reports : p.Reports site c

/-- A call of a living process, before its step. -/
structure Ready (site : Site ρ) (s : Shared ρ) (i : ℕ) (p : Phase ρ) : Prop where
  kept : Kept site s
  metadata : s.metadata = some i ↔ p.holdsMetadata = true
  liveness : s.liveness = some i ↔ p.holdsLiveness = true

namespace Step

variable {c : Bool}

variable (h : Ready site s i p)
include h

theorem setFile {file : Option ρ} (hm : p.holdsMetadata = true) (hl : p.holdsLiveness = true)
    (hmeta : p'.holdsMetadata = true) (hlive : p'.holdsLiveness = true)
    (hreads : p'.Reads site i file) (hclear : p'.hadLiveness = true → c = true)
    (hreports : p'.Reports site c) : Step site s { s with file := file } i p' c := by
  have hown := h.metadata.mpr hm
  have hown' := h.liveness.mpr hl
  refine ⟨⟨fun k hk => .inl ?_⟩, ⟨rfl, fun _ _ => .rfl, fun _ _ => .rfl, .inr ⟨hown, hown'⟩⟩,
    iff_of_true hown hmeta, iff_of_true hown' hlive, hreads, hclear, hreports⟩
  have hki := hown'.symm.trans hk
  rw [hown]
  exact hki

variable (hclear : p'.hadLiveness = true → c = true) (hreports : p'.Reports site c)
  (hreads : p'.Reads site i s.file)
include hclear hreports hreads

theorem stay (hmeta : p'.holdsMetadata = p.holdsMetadata)
    (hlive : p'.holdsLiveness = p.holdsLiveness) : Step site s s i p' c :=
  ⟨h.kept, ⟨rfl, fun _ _ => .rfl, fun _ _ => .rfl, .inl rfl⟩, hmeta ▸ h.metadata,
    hlive ▸ h.liveness, hreads, hclear, hreports⟩

theorem lockMetadata (hfree : s.metadata = none) (hmeta : p'.holdsMetadata = true)
    (hlive : p'.holdsLiveness = p.holdsLiveness) :
    Step site s { s with metadata := some i } i p' c := by
  refine ⟨⟨fun k hk => .inr ?_⟩, ⟨rfl, fun j hj => ?_, fun _ _ => .rfl, .inl rfl⟩,
    iff_of_true rfl hmeta, hlive ▸ h.liveness, hreads, hclear, hreports⟩
  · exact (h.kept.published k hk).resolve_left (by simp [hfree])
  · simp [hfree, hj.symm]

/-- The metadata lock is given up by a call without liveness, or by a daemon whose record is the
file. -/
theorem unlockMetadata (hheld : p.holdsMetadata = true) (hmeta : p'.holdsMetadata = false)
    (hlive : p'.holdsLiveness = p.holdsLiveness)
    (hfile : p.holdsLiveness = true → s.file = some (site.record i)) :
      Step site s { s with metadata := none } i p' c := by
  have hown := h.metadata.mpr hheld
  refine ⟨⟨fun k hk => .inr ?_⟩, ⟨rfl, fun j hj => ?_, fun _ _ => .rfl, .inl rfl⟩,
    iff_of_false (by simp) (by simp [hmeta]), hlive ▸ h.liveness, hreads, hclear, hreports⟩
  · by_cases hki : k = i
    · subst hki
      exact hfile (h.liveness.mp hk)
    · refine (h.kept.published k hk).resolve_left fun hmk => hki ?_
      rw [hown] at hmk
      exact (some_inj.mp hmk).symm
  · simp [hown, hj.symm]

theorem lockLiveness (hfree : s.liveness = none) (hheld : p.holdsMetadata = true)
    (hmeta : p'.holdsMetadata = true) (hlive : p'.holdsLiveness = true) :
    Step site s { s with liveness := some i } i p' c := by
  have hown := h.metadata.mpr hheld
  refine ⟨⟨fun k hk => .inl ?_⟩, ⟨rfl, fun _ _ => .rfl, fun j hj => ?_, .inl rfl⟩,
    iff_of_true hown hmeta, iff_of_true rfl hlive, hreads, hclear, hreports⟩
  · cases hk
    exact hown
  · simp [hfree, hj.symm]

theorem unlockLiveness (hheld : p.holdsLiveness = true) (hmeta : p'.holdsMetadata = p.holdsMetadata)
    (hlive : p'.holdsLiveness = false) : Step site s { s with liveness := none } i p' c := by
  have hown := h.liveness.mpr hheld
  refine ⟨⟨fun k hk => by simp at hk⟩, ⟨rfl, fun _ _ => .rfl, fun j hj => ?_, .inl rfl⟩,
    hmeta ▸ h.metadata, iff_of_false (by simp) (by simp [hlive]), hreads, hclear, hreports⟩
  simp [hown, hj.symm]

end Step

/-! ## All steps -/

theorem reports_withdrawal (ok closing c : Bool) (hc : closing = false → c = true) :
    (Phase.unlocking (withdrawal ok closing)).Reports site c := by
  cases ok with
  | false => trivial
  | true =>
    cases closing with
    | false => exact hc rfl
    | true => trivial

theorem Ready.file_of_liveness (h : Ready site s i p) (hm : p.holdsMetadata = true)
    (hl : p.holdsLiveness = false) (hk : s.liveness = some k) : s.file = some (site.record k) := by
  refine (h.kept.published k hk).resolve_left fun hmk => ?_
  cases (h.metadata.mpr hm).symm.trans hmk
  exact absurd (h.liveness.mp hk) (by simp [hl])

theorem advance_step [DecidableEq ρ] (h : Ready site s i p) (hreads : p.Reads site i s.file)
    {c : Bool} (hclear : p.hadLiveness = true → c = true) (hreports : p.Reports site c)
    (hc : s.liveness = none ∨ s.liveness = some i → c = true)
    (hstep : advance site s i p a = some (s', p')) : Step site s s' i p' c := by
  have hno {P : Prop} (hfalse : false = true) : P := absurd hfalse Bool.false_ne_true
  unfold advance at hstep
  split at hstep
  · cases hstep
    exact .stay h hno trivial trivial rfl rfl
  · cases hstep
    exact .stay h hno trivial trivial rfl rfl
  · cases hstep
    exact .stay h hno trivial trivial rfl rfl
  · -- the metadata lock is polled
    rename_i purpose
    split at hstep
    · rename_i hfree
      cases hstep
      cases purpose <;> exact .lockMetadata h hno trivial trivial hfree rfl rfl
    · cases hstep
      exact .stay h hno trivial trivial rfl rfl
  · rename_i purpose
    cases hstep
    cases purpose <;> exact .stay h hno trivial trivial rfl rfl
  · cases hstep
    exact .stay h hno trivial trivial rfl rfl
  · -- a discovery reads the record
    cases hstep
    split
    · rename_i hnone
      refine .stay h hno (hc (.inl ?_)) trivial rfl rfl
      by_contra hlive
      obtain ⟨k, hk⟩ := ne_none_iff_exists'.mp hlive
      have hfile := h.file_of_liveness rfl rfl hk
      rw [hnone] at hfile
      cases hfile
    · split
      · rename_i hsome _
        exact .stay h hno trivial hsome rfl rfl
      · exact .stay h hno trivial trivial rfl rfl
  · cases hstep
    exact .stay h hno trivial trivial rfl rfl
  · -- a discovery probes the liveness
    split at hstep
    · rename_i k hk
      cases hstep
      refine .stay h hno ?_ trivial rfl rfl
      exact some_inj.mp (hreads.symm.trans (h.file_of_liveness rfl rfl hk))
    · rename_i hfree
      cases hstep
      exact .lockLiveness h hno trivial trivial hfree rfl rfl rfl
  · cases hstep
    exact .stay h hno trivial trivial rfl rfl
  · cases hstep
    split <;> exact .stay h hno trivial trivial rfl rfl
  · cases hstep
    exact .stay h hno trivial trivial rfl rfl
  · split at hstep
    · cases hstep
      exact .stay h hno trivial trivial rfl rfl
    · rename_i hfree
      cases hstep
      exact .lockLiveness h hno trivial trivial hfree rfl rfl rfl
  · -- a daemon writes its record
    rename_i ok done
    split at hstep
    · simp at hstep
    · rename_i hdone
      cases hstep
      cases ok with
      | false => exact .setFile h rfl rfl rfl rfl trivial hno trivial
      | true =>
        obtain rfl : done = true := by simpa using hdone
        exact .setFile h rfl rfl rfl rfl rfl hno trivial
  · rename_i ok
    cases hstep
    cases ok <;> exact .unlockMetadata h hno trivial trivial rfl rfl rfl (fun _ => hreads)
  · rename_i held _
    cases hstep
    exact .unlockLiveness h hno trivial trivial rfl rfl rfl
  · rename_i held _
    cases hstep
    cases held with
    | false => exact .stay h hno trivial trivial rfl rfl
    | true => exact .unlockMetadata h hno trivial trivial rfl rfl rfl hno
  · cases hstep
    exact .unlockMetadata h hno trivial trivial rfl rfl rfl hno
  · cases hstep
    exact .stay h (fun _ => hc (.inr (h.liveness.mpr rfl))) trivial trivial rfl rfl
  · cases hstep
    have hown := hc (.inr (h.liveness.mpr rfl))
    split
    · exact .stay h (fun _ => hown) trivial trivial rfl rfl
    · split <;> exact .stay h (fun _ => hown) trivial trivial rfl rfl
  · split at hstep
    · simp at hstep
    · cases hstep
      exact .setFile h rfl rfl rfl rfl trivial (fun _ => hc (.inr (h.liveness.mpr rfl))) trivial
  · rename_i ok closing ok'
    cases hstep
    refine .unlockLiveness h hno (reports_withdrawal _ _ _ fun hclosing => ?_) trivial rfl rfl rfl
    rw [hclosing] at hclear
    exact hclear rfl
  · rename_i outcome ok
    cases hstep
    refine .unlockMetadata h hno ?_ trivial rfl rfl rfl hno
    cases ok with
    | false => trivial
    | true => cases outcome <;> exact hreports
  · simp at hstep

/-! ## Runs -/

/-- What an action of the call `i` can be. -/
inductive Acted (site : Site ρ) (s : Shared ρ) (i : ℕ) (op : Op ρ) : Shared ρ → Op ρ → Prop
  | crash (k : ℕ) : Acted site s i op (s.crash site k) op
  | step {s' : Shared ρ} {op' : Op ρ} (halive : s.dead (site.process i) = false)
      (h : Step site s s' i op'.phase op'.clear) : Acted site s i op s' op'

theorem Phase.Reports.mono {c c' : Bool} (h : p.Reports site c) (hc : c = true → c' = true) :
    p.Reports site c' := by
  unfold Phase.Reports at h ⊢
  split
  · exact h
  · exact h
  · exact hc h
  · exact hc h
  · trivial

theorem act_acted [DecidableEq ρ] (hk : Kept site s) (h : Assertion site s i op)
    (hact : act site s i op a = some (s', op')) : Acted site s i op s' op' := by
  unfold act at hact
  split at hact
  · cases hact
    exact .crash _
  · split at hact
    · simp at hact
    · rename_i halive
      have halive : s.dead (site.process i) = false := by simpa using halive
      obtain ⟨⟨t, q⟩, hstep, heq⟩ := map_eq_some_iff.mp hact
      cases heq
      have hready : Ready site s i op.phase :=
        ⟨hk, by simpa [halive] using h.metadata, by simpa [halive] using h.liveness⟩
      refine .step halive (advance_step hready (h.reads halive) (fun hp => ?_)
        (h.reports.mono fun hc => ?_) (fun hl => ?_) hstep)
      · simp [h.clear hp]
      · simp [hc]
      · simp [hl]

section

variable (ha : Acted site s i op s' op')
include ha

theorem Acted.own (hk : Kept site s) (h : Assertion site s i op) :
    Kept site s' ∧ Assertion site s' i op' := by
  cases ha with
  | crash k => exact ⟨hk.crash k, h.crash k⟩
  | step halive hs =>
    refine ⟨hs.kept, ?_, ?_, fun _ => hs.reads, hs.clear, hs.reports⟩
    · rw [hs.effect.dead, halive]
      simpa using hs.metadata
    · rw [hs.effect.dead, halive]
      simpa using hs.liveness

theorem Acted.others (hj : Assertion site s j other) (hne : j ≠ i) : Assertion site s' j other := by
  cases ha with
  | crash k => exact hj.crash k
  | step _ hs => exact hj.others hne hs.effect

theorem Acted.file_eq (hi : s.liveness ≠ some i) : s'.file = s.file := by
  cases ha with
  | crash k => rfl
  | step _ hs => exact hs.effect.file.resolve_right fun h => hi h.2

end

theorem outline [DecidableEq ρ] (site : Site ρ) :
    (store site).Outline (fun _ _ _ _ => True) (Kept site) (Assertion site) where
  init_shared := ⟨by simp [store]⟩
  init_thread i := ⟨by simp [store, Phase.holdsMetadata], by simp [store, Phase.holdsLiveness],
    fun _ => trivial, nofun, trivial⟩
  own hk h _ hact := (act_acted hk h hact).own hk h
  others hk h hj hne _ hact := (act_acted hk h hact).others hj hne

theorem act_probe [DecidableEq ρ] {r : ρ} (hp : op.phase = .probing r)
    (hlive : s.liveness = some k) (hact : act site s i op .attempt = some (s', op')) :
    s.dead (site.process i) = false ∧ op'.phase = .unlocking (.found r k) := by
  unfold act at hact
  dsimp only at hact
  split at hact
  · simp at hact
  · rename_i halive
    obtain ⟨x, hstep, heq⟩ := map_eq_some_iff.mp hact
    obtain ⟨rfl, rfl⟩ := Prod.ext_iff.mp heq
    rw [hp] at hstep
    unfold advance at hstep
    dsimp only at hstep
    rw [hlive] at hstep
    cases hstep
    exact ⟨by simpa using halive, rfl⟩

/-- In every interleaving of the calls of all processes, with failures and crashes, at most one call
has the liveness lock; a discovery returns the record of the daemon whose liveness lock its probe
found busy, which has published that record; nobody but the holder of the liveness lock changes the
file; and exact absence is returned only by a discovery during which nobody else held the liveness
lock at some step. -/
theorem discovery_truthful [DecidableEq ρ] (site : Site ρ) {w : Pool (Shared ρ) (Op ρ)}
    (h : (store site).system.Reachable w) :
    (∀ i j, (w.threads i).phase.holdsLiveness = true → w.shared.dead (site.process i) = false →
      (w.threads j).phase.holdsLiveness = true → w.shared.dead (site.process j) = false → i = j) ∧
    (∀ i r k, (w.threads i).phase = .returned (.found r k) → r = site.record k) ∧
    (∀ i r k w', (w.threads i).phase = .probing r → w.shared.liveness = some k →
      (store site).system.step w (i, .attempt) = some w' →
      (w'.threads i).phase = .unlocking (.found r k) ∧ r = site.record k ∧
      w.shared.file = some (site.record k) ∧ (w.threads k).phase.isPublished = true ∧
      w.shared.dead (site.process k) = false) ∧
    (∀ i k a w', w.shared.liveness = some k → i ≠ k →
      (store site).system.step w (i, a) = some w' → w'.shared.file = w.shared.file) ∧
    ∀ i, (w.threads i).phase = .returned .notFound → (w.threads i).clear = true := by
  obtain ⟨hk, ha⟩ := (outline site).holds h
  refine ⟨fun i j hi hi' hj hj' => ?_, fun i r k hp => ?_, fun i r k w' hp hlive hstep => ?_,
    fun i k a w' hlive hne hstep => ?_, fun i hp => ?_⟩
  · have hown := (ha i).liveness.mpr ⟨hi, hi'⟩
    rw [(ha j).liveness.mpr ⟨hj, hj'⟩] at hown
    exact (some_inj.mp hown).symm
  · have hreports := (ha i).reports
    rw [hp] at hreports
    exact hreports
  · obtain ⟨hact, -⟩ := Threads.step_eq_some hstep
    obtain ⟨halive, hphase⟩ := act_probe hp hlive hact
    have hready : Ready site w.shared i (w.threads i).phase :=
      ⟨hk, by simpa [halive] using (ha i).metadata, by simpa [halive] using (ha i).liveness⟩
    have hreads := (ha i).reads halive
    rw [hp] at hready hreads
    have hfile := hready.file_of_liveness rfl rfl hlive
    obtain ⟨hholds, hdead⟩ := (ha k).liveness.mp hlive
    refine ⟨hphase, some_inj.mp (hreads.symm.trans hfile), hfile,
      Phase.isPublished_of_holds hholds ?_, hdead⟩
    -- the discovery has the metadata lock, so the daemon has not
    by_contra hmeta
    have hown := (ha k).metadata.mpr ⟨by simpa using hmeta, hdead⟩
    cases (hready.metadata.mpr rfl).symm.trans hown
    exact absurd (hready.liveness.mp hlive) nofun
  · obtain ⟨hact, -⟩ := Threads.step_eq_some hstep
    refine (act_acted hk (ha i) hact).file_eq fun hown => hne ?_
    rw [hlive] at hown
    exact (some_inj.mp hown).symm
  · have hreports := (ha i).reports
    rw [hp] at hreports
    exact hreports

/-- Each call in a process of its own, with a record of its own. -/
def exampleSite : Site ℕ := ⟨id, fun i => 100 + i, fun _ => true, none⟩

/-- A daemon publishes its record, and a discovery finds it. -/
def publishAndDiscover : List (ℕ × Action) :=
  [(0, .callPublish), (0, .attempt), (0, .read), (0, .attempt), (0, .write true true),
    (0, .unlock true), (1, .callDiscover), (1, .attempt), (1, .read), (1, .attempt),
    (1, .unlock true)]

theorem discovery_truthful_published :
    ∃ w, (store exampleSite).system.Reachable w ∧
      (w.threads 1).phase = .returned (.found 100 0) ∧ 100 = exampleSite.record 0 := by
  have hrun : (store exampleSite).system.run (store exampleSite).system.init publishAndDiscover =
      some _ := rfl
  have hw := System.reachable_of_run hrun
  exact ⟨_, hw, rfl, (discovery_truthful exampleSite hw).2.1 1 100 0 rfl⟩

/-- However earlier daemons ended, a discovery that runs alone and without a failure once the
metadata lock is free settles the directory: it returns the record of the daemon with the liveness
lock, or withdraws what a dead daemon left and reports absence. -/
theorem discovery_settles [DecidableEq ρ] (site : Site ρ) {w : Pool (Shared ρ) (Op ρ)} {i : ℕ}
    (h : (store site).system.Reachable w) (hfree : w.shared.metadata = none)
    (hphase : (w.threads i).phase = .polling .discover)
    (halive : w.shared.dead (site.process i) = false)
    (hreadable : ∀ r, w.shared.file = some r → site.readable r = true) :
    ∃ ls, (∀ l ∈ ls, l.1 = i) ∧ ∃ w', (store site).system.run w ls = some w' ∧
      w'.shared.metadata = none ∧ w'.shared.liveness = w.shared.liveness ∧
      (∀ k, w.shared.liveness = some k → w'.shared.file = some (site.record k) ∧
        (w'.threads i).phase = .returned (.found (site.record k) k)) ∧
      (w.shared.liveness = none → w'.shared.file = none ∧
        (w'.threads i).phase = .returned .notFound) := by
  have hk := ((outline site).holds h).1
  rcases hlive : w.shared.liveness with _ | k
  · rcases hfile : w.shared.file with _ | r
    · use [(i, .attempt), (i, .read), (i, .unlock true)]
      simp [System.run_cons, Threads.system, Threads.step, store, act, advance, Purpose.locked, *]
    · have hread := hreadable r hfile
      use [(i, .attempt), (i, .read), (i, .attempt), (i, .read), (i, .remove true true),
        (i, .unlock true), (i, .unlock true)]
      simp [System.run_cons, Threads.system, Threads.step, store, act, advance, Purpose.locked,
        withdrawal, *]
  · -- nobody has the metadata lock, so the file is the record of the daemon
    have hfile := (hk.published k hlive).resolve_left (by simp [hfree])
    have hread := hreadable _ hfile
    use [(i, .attempt), (i, .read), (i, .attempt), (i, .unlock true)]
    simp [System.run_cons, Threads.system, Threads.step, store, act, advance, Purpose.locked, *]

/-- The daemon has died after it published. -/
theorem discovery_settles_crashed :
    ∃ w ls w', (store exampleSite).system.Reachable w ∧ w.shared.file = some 100 ∧
      (store exampleSite).system.run w ls = some w' ∧ w'.shared.file = none := by
  have hrun : (store exampleSite).system.run (store exampleSite).system.init
    (publishAndDiscover.take 6 ++ [(0, .crash 0), (1, .callDiscover)]) = some _ := rfl
  have hw := System.reachable_of_run hrun
  obtain ⟨ls, -, w', hw', -, -, -, h⟩ := discovery_settles exampleSite (i := 1) hw rfl rfl rfl
    fun _ _ => rfl
  exact ⟨_, ls, w', hw, rfl, hw', (h rfl).1⟩

end SpiceAgent.Endpoint
