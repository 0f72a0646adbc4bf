import SpiceAgent.Client.ManagedOwnership

/-!
# After a shutdown of the managed connector

Once a `Shutdown` has returned nil, no call works any more: the connector owns nothing and starts
nothing. The one thing that may still come is the session of an `Initialize` that had already given
back the token when the `Shutdown` took it.
-/

namespace SpiceAgent.Managed

open SpiceAgent.Lib

/-- The call has given back the token and returns a session. -/
def Phase.yieldsSession : Phase → Bool
  | .returning .session | .returned .session => true
  | _ => false

variable {s s' : Shared} {i : ℕ} {op op' : Op} {a : Action}

/-- After everything is settled, an action starts nothing and leads to no new session. -/
theorem Effect.settled (h : Assertion s i op) (he : Effect s i op a s' op')
    (hs : s.settled = true) : s'.settled = true ∧ s'.calls = s.calls ∧
      (op'.phase.yieldsSession = true → op.phase.yieldsSession = true) := by
  have hquiet := h.quiet hs
  cases he with
  | move hm =>
    refine ⟨hs, rfl, fun hy => ?_⟩
    generalize op.phase = p at hm
    cases hm with
    | ret outcome => cases outcome <;> exact hy
    | _ => cases hy
  | absent hp | absentAgain hp | launch r hp | beginShutdown hp | wait r hp =>
    rw [hp] at hquiet
    cases hquiet
  | lease hp _ | giveUp hp _ | finish hp _ =>
    rw [hp] at hquiet
    cases hquiet
  | drop hd =>
    generalize op.phase = p at hd hquiet
    cases hd <;> cases hquiet
  | take _ hq =>
    rcases hq with ⟨-, rfl⟩ | ⟨-, rfl⟩ <;> exact ⟨hs, rfl, fun hy => absurd hy Bool.false_ne_true⟩
  | enter | close | cancel => exact ⟨hs, rfl, fun hy => absurd hy Bool.false_ne_true⟩
  | settle => exact ⟨rfl, rfl, fun hy => absurd hy Bool.false_ne_true⟩
  | @leave _ outcome hp =>
    rw [hp] at hquiet
    refine ⟨hs, rfl, fun hy => ?_⟩
    cases outcome with
    | session => cases hquiet
    | _ => cases hy

/-- The assertions hold and everything is settled, with the calls of `w` and no session that was not
under way in `w`. -/
structure SettledSince (w v : Pool Shared Op) : Prop where
  kept : Kept v.shared
  assertion : ∀ i, Assertion v.shared i (v.threads i)
  settled : v.shared.settled = true
  calls : v.shared.calls = w.shared.calls
  session : ∀ i, (v.threads i).phase.yieldsSession = true →
    (w.threads i).phase.yieldsSession = true

theorem SettledSince.step {w v v' : Pool Shared Op} {l : ℕ × Action} (h : SettledSince w v)
    (hstep : connector.system.step v l = some v') : SettledSince w v' := by
  have hnext := outline.step ⟨h.kept, h.assertion⟩ trivial hstep
  obtain ⟨hact, hothers⟩ := Threads.step_eq_some hstep
  obtain ⟨hsettled, hcalls, hsession⟩ := (act_effect hact).settled (h.assertion l.1) h.settled
  refine ⟨hnext.1, hnext.2, hsettled, hcalls.trans h.calls, fun i hi => h.session i ?_⟩
  by_cases hil : i = l.1
  · rw [hil] at hi ⊢
    exact hsession hi
  · rwa [hothers i hil] at hi

/-- In every interleaving, a daemon is started only by a call with a lease, while the connector owns
none and after discovery has reported its absence without and with the lease; a candidate is owned
until a shutdown of it has joined; a call that has returned has no lease; only started candidates
are shut down; and once a `Shutdown` has returned nil the connector owns nothing, starts nothing and
returns no session but to a call that had already given back the token. -/
theorem managed_ownership {w : Pool Shared Op} (h : connector.system.Reachable w) :
    (∀ i r w', connector.system.step w (i, .start r) = some w' → w.shared.owned = none ∧
      (w.threads i).lease = true ∧ (w.threads i).absences = [false, true]) ∧
    (∀ c, .start c true ∈ w.shared.calls → w.shared.owned = some c ∨
      ∃ r : Waited, .wait c true r ∈ w.shared.calls ∧ r.joined = true) ∧
    (∀ i outcome, (w.threads i).phase = .returned outcome → (w.threads i).lease = false) ∧
    (∀ c, .beginShutdown c ∈ w.shared.calls → ∃ d, .start c d ∈ w.shared.calls) ∧
    ∀ j, (w.threads j).phase = .returned .nil → ∀ ls w', connector.system.run w ls = some w' →
      w'.shared.owned = none ∧ w'.shared.calls = w.shared.calls ∧
      ∀ i, (w'.threads i).phase = .returned .session →
        (w.threads i).phase = .returning .session ∨ (w.threads i).phase = .returned .session := by
  obtain ⟨hk, ha⟩ := outline.holds h
  refine ⟨fun i r w' hstart => ?_, hk.owned_until_joined, fun i outcome hp => ?_,
    hk.begun_started, fun j hj ls w' hrun => ?_⟩
  · have hi := ha i
    obtain ⟨hact, -⟩ := Threads.step_eq_some hstart
    have hp : (w.threads i).phase = .starting := by
      change act _ _ _ _ = _ at hact
      unfold act at hact
      split at hact <;> simp_all
    have howns := hi.owns
    have hlease := hi.lease
    have habsences := hi.absences
    rw [hp] at howns hlease habsences
    exact ⟨howns, hlease, habsences _ rfl⟩
  · rw [(ha i).lease, hp]
    rfl
  · have hnil : (w.threads j).phase.returnsNil = true := by rw [hj]; rfl
    have hsince : SettledSince w w' :=
      System.run_invariant (I := SettledSince w) SettledSince.step hrun
        ⟨hk, ha, (ha j).settles hnil, rfl, fun _ => id⟩
    refine ⟨(hsince.kept.settled hsince.settled).2, hsince.calls, fun i hi => ?_⟩
    have hyields := hsince.session i (by rw [hi]; rfl)
    generalize (w.threads i).phase = p at hyields
    unfold Phase.yieldsSession at hyields
    split at hyields <;> simp_all

/-- The call `i` of `Initialize` finds no daemon, twice. -/
def findNone (i : ℕ) : List (ℕ × Action) :=
  [(i, .callInitialize), (i, .take), (i, .go), (i, .discover false .absent), (i, .acquire .lease),
    (i, .discover false .absent), (i, .go)]

/-- An `Initialize` that starts a daemon, attaches to it and gives back the token. -/
def startDaemon : List (ℕ × Action) :=
  findNone 0 ++ [(0, .start (some ⟨true, false⟩)), (0, .await .session), (0, .release true),
    (0, .finish false), (0, .go)]

def joined : Waited := ⟨none, .live, true, true⟩

/-- A `Shutdown` that joins the daemon. -/
def shutDown : List (ℕ × Action) :=
  [(1, .callShutdown), (1, .go), (1, .go), (1, .take), (1, .go), (1, .go), (1, .wait joined),
    (1, .go), (1, .go)]

theorem managed_ownership_settled :
    ∃ w, connector.system.Reachable w ∧ (w.threads 1).phase = .returned .nil ∧
      w.shared.calls = [.start 0 true, .beginShutdown 0, .wait 0 true joined] ∧
      w.shared.owned = none := by
  have hrun : connector.system.after (startDaemon ++ shutDown) = some _ := rfl
  have hw := System.reachable_of_run hrun
  exact ⟨_, hw, rfl, rfl, ((managed_ownership hw).2.2.2.2 1 rfl [] _ rfl).1⟩

/-- An `Initialize` returns its session after a `Shutdown` has returned nil. -/
theorem session_after_shutdown :
    ∃ w w', connector.system.Reachable w ∧ (w.threads 1).phase = .returned .nil ∧
      (w.threads 0).phase ≠ .returned .session ∧
      connector.system.step w (0, .go) = some w' ∧ (w'.threads 0).phase = .returned .session := by
  have hrun : connector.system.after (startDaemon ++ shutDown) = some _ := rfl
  exact ⟨_, _, System.reachable_of_run hrun, rfl, by decide, rfl, rfl⟩

end SpiceAgent.Managed
