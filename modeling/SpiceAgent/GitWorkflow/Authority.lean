import SpiceAgent.Lib.Transition
import SpiceAgent.Tool

/-!
# The authority to commit

`experiments/git-workflow/authority.go`: the ledger of grants that `CommitGuard` and the commit tool
share. A call of `Guard` stores a grant under the ID of its tool call, the tool consumes what is
stored under that ID, and the guard deletes it when its continuation returns. A call ID is unique
only within a run, while the ledger serves every run. The label of an authorization gives the call,
the staged digest and the token that were approved; a grant remembers which call of `Guard` stored
it, which the code does not. The digest of a call is a parameter.
-/

namespace SpiceAgent.GitWorkflow

open SpiceAgent.Lib SpiceAgent.Tool Function Option

def validDigest (value : String) : Bool :=
  value.utf8ByteSize = 71 && value.toList.take 7 = "sha256:".toList &&
    (value.toList.drop 7).all fun c => c.isDigit || 'a' ≤ c && c ≤ 'f'

variable (isJson : List UInt8 → Bool) (digestCall : Call → String)

structure Grant where
  callDigest : String
  stagedDigest : String
  token : String
  owner : ℕ

structure AuthorityStore where
  grants : String → Option Grant
  closed : Bool

namespace AuthorityStore

variable (store : AuthorityStore)

def authorize (owner : ℕ) (call : Call) (stagedDigest token : String) : Option AuthorityStore :=
  if (call.validate isJson).isSome || !validDigest stagedDigest || !validDigest token then none
  else if store.closed || (store.grants call.id).isSome then none
  else some { store with
    grants := update store.grants call.id
      (some ⟨digestCall call, stagedDigest, token, owner⟩) }

def revoke (callID : String) : AuthorityStore :=
  { store with grants := update store.grants callID none }

/-- `consume`, with the grant whose staged digest it returns. -/
def consume (call : Call) : AuthorityStore × Option Grant :=
  if (call.validate isJson).isSome then (store, none)
  else (store.revoke call.id, (store.grants call.id).filter fun grant =>
    grant.callDigest = digestCall call && validDigest grant.token && validDigest grant.stagedDigest)

def close (_ : AuthorityStore) : AuthorityStore := ⟨fun _ => none, true⟩

variable {isJson digestCall store}

theorem authorize_some {owner : ℕ} {call : Call} {stagedDigest token : String}
    {store' : AuthorityStore}
    (h : store.authorize isJson digestCall owner call stagedDigest token = some store') :
    call.validate isJson = none ∧ validDigest stagedDigest = true ∧ validDigest token = true ∧
      store.grants call.id = none ∧ store' = { store with
        grants := update store.grants call.id
          (some ⟨digestCall call, stagedDigest, token, owner⟩) } := by
  unfold authorize at h
  split_ifs at h with hvalid hfree
  simp at hvalid hfree
  exact ⟨hvalid.1.1, hvalid.1.2, hvalid.2, hfree.2, (some.inj h).symm⟩

theorem consume_eq {call : Call} (h : call.validate isJson = none) :
    store.consume isJson digestCall call = (store.revoke call.id,
      (store.grants call.id).filter fun grant => grant.callDigest = digestCall call &&
        validDigest grant.token && validDigest grant.stagedDigest) := by
  unfold consume
  rw [h]
  rfl

end AuthorityStore

inductive Phase
  /-- In the continuation, before its first `consume`. -/
  | granted
  /-- In the continuation, after it. -/
  | tried
  | returned
  deriving DecidableEq

/-- A call of `Guard` whose `authorize` succeeded. -/
structure Guarded where
  call : Call
  staged : String
  phase : Phase
  deriving DecidableEq

structure World where
  store : AuthorityStore
  guards : ℕ → Option Guarded
  /-- Each successful `consume`: the call of `Guard` it was made in and the grant it took. -/
  uses : List (ℕ × Grant)

inductive Label
  | authorize (i : ℕ) (call : Call) (staged token : String)
  | consume (i : ℕ)
  | revoke (i : ℕ)
  | close

namespace World

def step (w : World) : Label → Option World
  | .authorize i call staged token =>
    match w.guards i, w.store.authorize isJson digestCall i call staged token with
    | some _, _ => none
    | none, none => some w
    | none, some store =>
      some { w with store, guards := update w.guards i (some ⟨call, staged, .granted⟩) }
  | .consume i => do
    let g ← w.guards i
    if g.phase = .returned then none
    else some {
      store := (w.store.consume isJson digestCall g.call).1
      guards := update w.guards i (some { g with phase := .tried })
      uses := (w.store.consume isJson digestCall g.call).2.toList.map (i, ·) ++ w.uses }
  | .revoke i => do
    let g ← w.guards i
    if g.phase = .returned then none
    else some { w with
      store := w.store.revoke g.call.id
      guards := update w.guards i (some { g with phase := .returned }) }
  | .close => some { w with store := w.store.close }

end World

def authoritySystem : System World Label where
  init := ⟨⟨fun _ => none, false⟩, fun _ => none, []⟩
  step := World.step isJson digestCall

/-- No call ID is authorized while another call of `Guard` with that ID is in its continuation. -/
def Apart (w : World) : Label → Prop
  | .authorize _ call _ _ =>
    ∀ j g, w.guards j = some g → g.phase ≠ .returned → g.call.id ≠ call.id
  | _ => True

structure World.Inv (w : World) : Prop where
  valid : ∀ i g, w.guards i = some g → g.call.validate isJson = none ∧ validDigest g.staged = true
  own : ∀ id grant, w.store.grants id = some grant → ∃ g, w.guards grant.owner = some g ∧
    g.phase = .granted ∧ g.call.id = id ∧ grant.stagedDigest = g.staged
  kept : w.store.closed = false → ∀ i g, w.guards i = some g → g.phase = .granted →
    ∃ token, validDigest token = true ∧
      w.store.grants g.call.id = some ⟨digestCall g.call, g.staged, token, i⟩
  apart : ∀ i j g g', w.guards i = some g → w.guards j = some g' → g.phase ≠ .returned →
    g'.phase ≠ .returned → g.call.id = g'.call.id → i = j
  uses : ∀ i grant, (i, grant) ∈ w.uses → grant.owner = i ∧
    ∃ g, w.guards i = some g ∧ g.phase ≠ .granted ∧ grant.stagedDigest = g.staged
  once : (w.uses.map fun u => u.2.owner).Nodup

variable {isJson digestCall} {w t : World}

theorem World.step_authorize {i : ℕ} {call : Call} {staged token : String}
    (h : w.step isJson digestCall (.authorize i call staged token) = some t) :
    w.guards i = none ∧ (w = t ∨ ∃ store,
      w.store.authorize isJson digestCall i call staged token = some store ∧
      { w with store, guards := update w.guards i (some ⟨call, staged, .granted⟩) } = t) := by
  cases hi : w.guards i with
  | some _ => simp [World.step, hi] at h
  | none =>
    cases hstore : w.store.authorize isJson digestCall i call staged token with
    | none => exact ⟨rfl, .inl (by simpa [World.step, hi, hstore] using h)⟩
    | some store => exact ⟨rfl, .inr ⟨store, rfl, by simpa [World.step, hi, hstore] using h⟩⟩

theorem World.Inv.step {l : Label} (h : w.Inv isJson digestCall) (hl : Apart w l)
    (hstep : w.step isJson digestCall l = some t) : t.Inv isJson digestCall := by
  obtain ⟨hvalid, hown, hkept, hapart, huses, honce⟩ := h
  cases l with
  | authorize i call staged token =>
    obtain ⟨hi, rfl | ⟨store, hstore, rfl⟩⟩ := World.step_authorize hstep
    · exact ⟨hvalid, hown, hkept, hapart, huses, honce⟩
    · obtain ⟨hcall, hstaged, htoken, hfree, rfl⟩ := AuthorityStore.authorize_some hstore
      dsimp only [Apart] at hl
      constructor <;> simp only [update_apply] at *
      case valid => grind
      -- A grant that was stored before is under another ID, and its owner is another call.
      case own => grind
      case kept => grind
      case apart => grind
      case uses => grind
      case once => exact honce
  | consume i =>
    obtain ⟨g, hg, hstep⟩ := bind_eq_some_iff.mp hstep
    split_ifs at hstep with hphase
    cases hstep
    -- What is stored under the ID is the grant of this call of `Guard`.
    have hmine : ∀ grant, w.store.grants g.call.id = some grant →
        grant.owner = i ∧ g.phase = .granted ∧ grant.stagedDigest = g.staged := by
      intro grant hgrant
      obtain ⟨g', hg', hphase', hid, hstaged⟩ := hown _ grant hgrant
      obtain rfl := hapart _ _ _ _ hg' hg (by simp [hphase']) hphase hid
      obtain rfl : g' = g := some.inj (hg'.symm.trans hg)
      exact ⟨rfl, hphase', hstaged⟩
    rw [AuthorityStore.consume_eq (hvalid i g hg).1]
    cases hgrant : w.store.grants g.call.id with
    | none =>
      constructor <;> simp only [update_apply, AuthorityStore.revoke] at *
      case valid => grind
      case own => grind
      -- `g` has consumed before, or the store is closed.
      case kept => grind
      case apart => grind
      case uses => grind
      case once => exact honce
    | some grant =>
      obtain ⟨howner, hgranted, hstaged⟩ := hmine grant hgrant
      have hfresh : i ∉ w.uses.map fun u => u.2.owner := by
        intro hmem
        obtain ⟨⟨j, grant'⟩, hu, rfl⟩ := List.mem_map.mp hmem
        obtain ⟨rfl, g', hg', hphase', -⟩ := huses _ _ hu
        exact hphase' (some.inj (hg'.symm.trans hg) ▸ hgranted)
      constructor <;> simp only [update_apply, AuthorityStore.revoke] at *
      case valid => grind
      case own => grind
      case kept => grind
      case apart => grind
      case uses => grind
      case once => grind
  | revoke i =>
    obtain ⟨g, hg, hstep⟩ := bind_eq_some_iff.mp hstep
    split_ifs at hstep with hphase
    cases hstep
    constructor <;> simp only [update_apply, AuthorityStore.revoke] at *
    case valid => grind
    case own => grind
    case kept => grind
    case apart => grind
    case uses => grind
    case once => exact honce
  | close =>
    cases hstep
    exact ⟨hvalid, fun _ _ => nofun, nofun, hapart, huses, honce⟩

theorem inv_of_reachableIf (hw : (authoritySystem isJson digestCall).ReachableIf Apart w) :
    w.Inv isJson digestCall := by
  refine hw.invariant ?_ fun _ h hl hstep => h.step hl hstep
  exact ⟨fun _ _ => nofun, fun _ _ => nofun, fun _ _ _ => nofun, fun _ _ _ _ => nofun,
    fun _ _ => nofun, List.nodup_nil⟩

/-- While no ID is authorized twice at once, every `consume` that succeeds takes the grant of its
own call of `Guard` and returns the digest approved in it, no grant is taken twice, and the first
`consume` of a continuation succeeds unless the store is closed. -/
theorem grant_serves_its_guard (hw : (authoritySystem isJson digestCall).ReachableIf Apart w) :
    (∀ i grant, (i, grant) ∈ w.uses →
      grant.owner = i ∧ ∃ g, w.guards i = some g ∧ grant.stagedDigest = g.staged) ∧
    (w.uses.map fun u => u.2.owner).Nodup ∧
    ∀ i g, w.guards i = some g → g.phase = .granted → w.store.closed = false →
      ∃ grant, (w.store.consume isJson digestCall g.call).2 = some grant ∧ grant.owner = i ∧
        grant.stagedDigest = g.staged := by
  have h := inv_of_reachableIf hw
  refine ⟨fun i grant hu => ?_, h.once, fun i g hg hphase hopen => ?_⟩
  · obtain ⟨howner, g, hg, -, hstaged⟩ := h.uses i grant hu
    exact ⟨howner, g, hg, hstaged⟩
  · obtain ⟨hcall, hstaged⟩ := h.valid i g hg
    obtain ⟨token, htoken, hgrant⟩ := h.kept hopen i g hg hphase
    refine ⟨⟨digestCall g.call, g.staged, token, i⟩, ?_, rfl, rfl⟩
    rw [AuthorityStore.consume_eq hcall, hgrant]
    simp [Option.filter, htoken, hstaged]

def sampleDigest : String := "sha256:" ++ "".pushn 'a' 64

def sampleCall : Call :=
  ⟨"call-1", "git_commit_staged", "\x7b\"message\":\"fix\"\x7d".toUTF8.toList⟩

abbrev sampleSystem : System World Label := authoritySystem (fun _ => true) fun _ => ""

/-- The first of two calls of `Guard`. -/
def firstGuard : Label := .authorize 0 sampleCall sampleDigest sampleDigest

def secondGuard : Label :=
  .authorize 1 { sampleCall with id := "call-2" } ("sha256:" ++ "".pushn 'b' 64) sampleDigest

/-- Two calls of `Guard` are in their continuations, and the second has consumed its grant. -/
theorem grant_serves_its_guard_sample : ∃ w, sampleSystem.ReachableIf Apart w ∧
    w.uses.map (fun u => u.1) = [1] ∧
    ∃ grant, (w.store.consume (fun _ => true) (fun _ => "") sampleCall).2 = some grant ∧
      grant.owner = 0 ∧ grant.stagedDigest = sampleDigest := by
  obtain ⟨v, hfirst, hid⟩ := map_eq_some_iff.mp
    (show (sampleSystem.step sampleSystem.init firstGuard).map
      (fun w => (w.guards 0).map fun g => g.call.id) = some (some "call-1") by decide +kernel)
  obtain ⟨w, hrun, hw⟩ := map_eq_some_iff.mp
    (show (sampleSystem.after [firstGuard, secondGuard, .consume 1]).map
      (fun w => (w.guards 0, w.store.closed, w.uses.map fun u => u.1)) =
        some (some ⟨sampleCall, sampleDigest, .granted⟩, false, [1]) by decide +kernel)
  simp only [Prod.mk.injEq] at hw
  rw [System.after, System.run_cons, hfirst, bind_some, System.run_cons, bind_eq_some_iff] at hrun
  obtain ⟨u, hsecond, hrun⟩ := hrun
  have hapart : Apart v secondGuard := by
    intro j g hj _
    rcases eq_or_ne j 0 with rfl | hne
    · rw [hj] at hid
      have hid : g.call.id = "call-1" := some.inj hid
      rw [hid]
      decide
    · rcases World.step_authorize hfirst with ⟨-, rfl | ⟨store, -, rfl⟩⟩
      · cases hj
      · cases (update_of_ne hne _ _).symm.trans hj
  have hinit : Apart sampleSystem.init firstGuard := fun _ _ hj => by cases hj
  have hboth := (System.ReachableIf.init.step hinit hfirst).step hapart hsecond
  have hreach := hboth.run (by simp [Apart]) hrun
  exact ⟨w, hreach, hw.2.2, (grant_serves_its_guard hreach).2.2 0 _ hw.1 rfl hw.2.1⟩

/-- The guard of one run deletes, when it returns, the grant that another run stored under the same
call ID after the first was consumed. -/
theorem grant_revoked_by_another_run :
    ∃ w, sampleSystem.Reachable w ∧ w.guards 1 = some ⟨sampleCall, sampleDigest, .granted⟩ ∧
      w.store.closed = false ∧ (w.store.consume (fun _ => true) (fun _ => "") sampleCall).2 =
        none := by
  obtain ⟨w, hrun, hw⟩ := map_eq_some_iff.mp
    (show (sampleSystem.after [.authorize 0 sampleCall sampleDigest sampleDigest,
        .consume 0, .authorize 1 sampleCall sampleDigest sampleDigest, .revoke 0]).map
      (fun w => decide (w.guards 1 = some ⟨sampleCall, sampleDigest, .granted⟩) &&
        !w.store.closed &&
        (w.store.consume (fun _ => true) (fun _ => "") sampleCall).2.isNone) = some true by
      decide +kernel)
  simp only [Bool.and_eq_true, decide_eq_true_eq, Bool.not_eq_true', isNone_iff_eq_none] at hw
  exact ⟨w, System.reachable_of_run hrun, hw.1.1, hw.1.2, hw.2⟩

end SpiceAgent.GitWorkflow
