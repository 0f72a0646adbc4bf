import SpiceAgent.Event.SubscriptionInvariant

/-!
# Runs of a log and its subscriptions

`World.Inv` holds in every reachable world: the log meets `Log.Inv`, every subscription meets
`Subscription.Inv`, and the registered subscriptions are in step with the log, up to the offers that
an append in progress has still to make.
-/

namespace SpiceAgent.Event

open SpiceAgent.Lib Option List
open World Subscription

variable {log : Log} {l : Label}

namespace World

@[simp] theorem setSub_subs (w : World) (ref ref' : ℕ) (s : Subscription) :
    (w.setSub ref s).subs ref' = if ref' = ref then some s else w.subs ref' :=
  Function.update_apply w.subs ref (some s) ref'

/-- The offers of the append in progress that an identity is still owed. -/
def owed (held : Option Held) (id : ℕ) : ℕ :=
  match held with
  | some (.offering _ remaining) => if id ∈ remaining then 1 else 0
  | _ => 0

/-- The invariant of every world reached from a new log with the given cursor and limits. -/
structure Inv (start : ℕ) (limits : LogLimits) (w : World) : Prop where
  start_eq : w.start = start
  limits_eq : w.log.limits = limits
  log : w.log.Inv w.start w.accepted
  sub : ∀ ref s, w.subs ref = some s → s.Inv w.log.limits
  registered : ∀ id ref, w.log.subscribers.lookup id = some ref →
    ∃ s, w.subs ref = some s ∧ s.id = id
  synced : ∀ id ref s, w.log.subscribers.lookup id = some ref → w.subs ref = some s →
    s.terminal = false → s.reach + owed w.held id = w.log.lastSequence
  offering : ∀ entry remaining, w.held = some (.offering entry remaining) →
    remaining.Nodup ∧ entry.seq = w.log.lastSequence ∧
      entry.bytes = entry.envelope.encodedSize ∧ entry ∈ w.accepted
  finishing : ∀ remaining, w.held = some (.finishing remaining) → w.log.closed = true
  registering : ∀ ref, w.held = some (.registering ref) → w.log.closed = true ∧
    ∀ s, w.subs ref = some s → s.phase = .created ∧
      (s.terminal = false → s.reach = w.log.lastSequence)
  clean : ∀ ref s, w.subs ref = some s → s.terminal = true → s.err = none →
    w.log.closed = true ∧ s.reach = w.log.lastSequence
  genuine : ∀ ref s, w.subs ref = some s → s.From w.accepted

theorem inv_init {runID : String} {lastSequence : ℕ} {limits : LogLimits}
    (hle : lastSequence ≤ maxUint64) (h : newLogAfter runID lastSequence limits = .ok log) :
    (logSystem log).init.Inv lastSequence limits := by
  have hlog := newLogAfter_inv hle h
  obtain ⟨-, -, rfl⟩ := newLogAfter_ok h
  exact { start_eq := rfl, limits_eq := rfl, log := hlog, sub := fun _ _ hs => (by cases hs),
          registered := fun id ref hl => (by simp [logSystem] at hl),
          synced := fun _ _ _ _ hs => (by cases hs),
          offering := fun _ _ hh => (by cases hh), finishing := fun _ hh => (by cases hh),
          registering := fun _ hh => (by cases hh), clean := fun _ _ hs => (by cases hs),
          genuine := fun _ _ hs => (by cases hs) }

variable {start : ℕ} {limits : LogLimits} {w w' : World}

theorem visiting_eq_some {op : List ℕ → Held} {ids : List ℕ} {held : Held}
    (h : visiting op ids = some held) : held = op ids := by
  unfold visiting at h
  split_ifs at h
  exact (some.inj h).symm

@[simp] theorem owed_none (id : ℕ) : owed none id = 0 := rfl

theorem owed_offering (entry : LogEntry) (ids : List ℕ) (id : ℕ) :
    owed (visiting (.offering entry) ids) id = if id ∈ ids then 1 else 0 := by
  unfold visiting
  split_ifs with hnil <;> simp_all [owed]

theorem owed_finishing (ids : List ℕ) (id : ℕ) : owed (visiting .finishing ids) id = 0 := by
  unfold visiting
  split_ifs <;> rfl

variable {id ref : ℕ}

theorem mem_keys_of_lookup {m : AList fun _ : ℕ => ℕ} (h : m.lookup id = some ref) :
    id ∈ m.keys := by
  rw [← AList.mem_keys, ← AList.lookup_isSome, h]
  rfl

theorem countSlow_sameHistory (log : Log) (slow : Bool) :
    log.SameHistory (countSlow log slow) ∧ (countSlow log slow).closed = log.closed ∧
      (countSlow log slow).subscribers = log.subscribers := by
  unfold countSlow
  split_ifs
  · exact ⟨⟨rfl, rfl, rfl, rfl, rfl, rfl, rfl⟩, rfl, rfl⟩
  · exact ⟨.refl log, rfl, rfl⟩

variable {s s' : Subscription}

theorem registered_eq_some (h : w.registered id = some (ref, s)) :
    w.log.subscribers.lookup id = some ref ∧ w.subs ref = some s := by
  unfold registered at h
  rw [bind_eq_some_iff] at h
  obtain ⟨r, hr, h⟩ := h
  rw [map_eq_some_iff] at h
  obtain ⟨x, hx, hp⟩ := h
  cases hp
  exact ⟨hr, hx⟩

theorem lookup_of_erase {m : AList fun _ : ℕ => ℕ} {id' : ℕ}
    (h : (m.erase id).lookup id' = some ref) : m.lookup id' = some ref := by
  by_cases hid : id' = id
  · rw [hid, AList.lookup_erase] at h
    cases h
  · rwa [AList.lookup_erase_ne hid] at h

theorem forall_setSub {P : Subscription → Prop} (hnew : P s')
    (hold : ∀ r x, w.subs r = some x → P x) (r : ℕ) (x : Subscription)
    (hx : (w.setSub ref s').subs r = some x) : P x := by
  rw [setSub_subs] at hx
  split_ifs at hx
  · exact some.inj hx ▸ hnew
  · exact hold r x hx

section

variable (h : w.Inv start limits)
include h

theorem Inv.setLog (hsame : w.log.SameHistory log)
    (hclosed : log.closed = w.log.closed) (hsubs : log.subscribers = w.log.subscribers) :
    { w with log := log }.Inv start limits where
  start_eq := h.start_eq
  limits_eq := hsame.limits.trans h.limits_eq
  log := h.log.frame hsame
  sub := fun r s hs => hsame.limits ▸ h.sub r s hs
  registered := fun id r hl => h.registered id r (hsubs ▸ hl)
  synced := fun id r s hl hs ht => by
    rw [hsame.lastSequence]
    exact h.synced id r s (hsubs ▸ hl) hs ht
  offering := fun e l hh => by
    rw [hsame.lastSequence]
    exact h.offering e l hh
  finishing := fun l hh => hclosed.trans (h.finishing l hh)
  registering := fun r hh => by
    rw [hsame.lastSequence, hclosed]
    exact h.registering r hh
  clean := fun r s hs ht he => by
    rw [hsame.lastSequence, hclosed]
    exact h.clean r s hs ht he
  genuine := h.genuine

theorem Inv.push (hheld : w.held = none) {envelope : Envelope}
    {gone kept : List LogEntry} (ha : w.log.Accepts gone kept envelope) :
    { w with log := w.log.push gone kept envelope, accepted := w.accepted ++ [envelope.entry],
             held := visiting (.offering envelope.entry) w.log.subscribers.keys }.Inv start
             limits where
  start_eq := h.start_eq
  limits_eq := h.limits_eq
  log := h.log.push ha
  sub := h.sub
  registered := h.registered
  synced := fun id ref s hl hs ht => by
    have hsync := h.synced id ref s hl hs ht
    rw [hheld, owed_none] at hsync
    show s.reach + owed (visiting _ _) id = envelope.sequence
    have hmem : id ∈ w.log.subscribers.keys := mem_keys_of_lookup hl
    rw [owed_offering, if_pos hmem, ha.sequence]
    omega
  offering := fun entry remaining hh => by
    have hop := visiting_eq_some hh
    cases hop
    exact ⟨w.log.subscribers.nodupKeys, rfl, rfl, mem_append_right _ mem_cons_self⟩
  finishing := fun remaining hh => by cases visiting_eq_some hh
  registering := fun ref hh => by cases visiting_eq_some hh
  clean := fun ref s hs ht he => by
    have hopen := (h.clean ref s hs ht he).1
    rw [ha.openLog] at hopen
    cases hopen
  genuine := fun ref s hs => (h.genuine ref s hs).mono (subset_append_left _ _)

theorem Inv.id_eq {id' : ℕ} (hl : w.log.subscribers.lookup id = some ref)
    (hl' : w.log.subscribers.lookup id' = some ref) : id' = id := by
  obtain ⟨s, hs, hid⟩ := h.registered id ref hl
  obtain ⟨s', hs', hid'⟩ := h.registered id' ref hl'
  cases hs.symm.trans hs'
  exact hid'.symm.trans hid

section

variable (hs : w.subs ref = some s)
include hs

/-- Replacing one subscription, by an operation that may hold the lock and move on to `held`. -/
theorem Inv.replace {held : Option Held}
    (hinv : s'.Inv w.log.limits) (hfrom : s'.From w.accepted) (hid : s'.id = s.id)
    (hothers : ∀ id r, w.log.subscribers.lookup id = some r → r ≠ ref →
      owed held id = owed w.held id)
    (hlive : ∀ id, w.log.subscribers.lookup id = some ref → s'.terminal = false →
      s'.reach + owed held id = w.log.lastSequence) (hclean : s'.terminal = true → s'.err = none →
      w.log.closed = true ∧ s'.reach = w.log.lastSequence)
    (hoff : ∀ entry remaining, held = some (.offering entry remaining) →
      remaining.Nodup ∧ entry.seq = w.log.lastSequence ∧
        entry.bytes = entry.envelope.encodedSize ∧ entry ∈ w.accepted)
    (hfin : ∀ remaining, held = some (.finishing remaining) → w.log.closed = true)
    (hreg : ∀ r, held = some (.registering r) → w.held = held ∧
      (r = ref → s'.phase = .created ∧ (s'.terminal = false → s'.reach = w.log.lastSequence))) :
    { w.setSub ref s' with held := held }.Inv start limits where
  start_eq := h.start_eq
  limits_eq := h.limits_eq
  log := h.log
  sub := forall_setSub hinv h.sub
  registered := fun id r hl => by
    obtain ⟨x, hx, hxid⟩ := h.registered id r hl
    rw [setSub_subs]
    split_ifs with hr
    · rw [hr, hs] at hx
      exact ⟨s', rfl, hid.trans (some.inj hx ▸ hxid)⟩
    · exact ⟨x, hx, hxid⟩
  synced := fun id r x hl hx ht => by
    rw [setSub_subs] at hx
    split_ifs at hx with hr
    · cases hx
      exact hlive id (hr ▸ hl) ht
    · rw [hothers id r hl hr]
      exact h.synced id r x hl hx ht
  offering := hoff
  finishing := hfin
  registering := fun r hh => by
    obtain ⟨hsame, hnew⟩ := hreg r hh
    obtain ⟨hclosed, hold⟩ := h.registering r (hsame.trans hh)
    refine ⟨hclosed, fun x hx => ?_⟩
    rw [setSub_subs] at hx
    split_ifs at hx with heq
    · cases hx
      exact hnew heq
    · exact hold x hx
  clean := forall_setSub hclean h.clean
  genuine := forall_setSub hfrom h.genuine

theorem Inv.setSub (hinv : s'.Inv w.log.limits)
    (hfrom : s'.From w.accepted) (hst : s.Stable s') : (w.setSub ref s').Inv start limits := by
  refine h.replace hs hinv hfrom hst.id (fun _ _ _ _ => rfl) ?_ ?_ h.offering h.finishing
    fun r hr => ⟨rfl, fun heq => ?_⟩
  · intro id hl ht
    obtain ⟨hlive, hreach⟩ := hst.live ht
    rw [hreach]
    exact h.synced id ref s hl hs hlive
  · intro ht he
    obtain ⟨hterm, herr, hreach⟩ := hst.clean ht he
    rw [hreach]
    exact h.clean ref s hs hterm herr
  · obtain ⟨hphase, hold⟩ := (h.registering r hr).2 s (heq ▸ hs)
    refine ⟨hst.created hphase, fun ht => ?_⟩
    obtain ⟨hlive, hreach⟩ := hst.live ht
    exact hreach.trans (hold hlive)

theorem Inv.act {action : Subscription.Action}
    (hs' : s.step action = some s') : (w.setSub ref s').Inv start limits :=
  h.setSub hs ((h.sub ref s hs).step h.log.limits hs')
    ((h.genuine ref s hs).step (h.sub ref s hs) hs') ((h.sub ref s hs).step_stable hs')

theorem Inv.onDone (hphase : s.phase = .hookStopped) :
    { w.setSub ref { s with phase := .unregistered } with
      log := { w.log with subscribers := w.log.subscribers.erase s.id } }.Inv start limits := by
  have hexit : s.exited = true := by simp [exited, hphase]
  have hmid : (w.setSub ref { s with phase := .unregistered }).Inv start limits := by
    refine h.setSub hs ((h.sub ref s hs).moves (.exit hexit rfl))
      ((h.genuine ref s hs).moves (.exit hexit rfl))
      ⟨rfl, fun hp => ?_, fun ht => ⟨ht, rfl⟩, fun ht he => ⟨ht, he, rfl⟩⟩
    cases hphase.symm.trans hp
  exact
    { hmid with
      log := hmid.log.frame ⟨rfl, rfl, rfl, rfl, rfl, rfl, rfl⟩
      registered := fun id r hl => hmid.registered id r (lookup_of_erase hl)
      synced := fun id r x hl => hmid.synced id r x (lookup_of_erase hl) }

end

/-- Registering a new subscription that has been queued up to the last sequence: on a closed log the
lock is kept until it is finished. -/
theorem Inv.register (hheld : w.held = none) (hfresh : w.subs ref = none)
    (hinv : s.Inv w.log.limits) (hfrom : s.From w.accepted) (hid : s.id = (w.log.register ref).2)
    (hlive : s.terminal = false) (hreach : s.reach = w.log.lastSequence) {held : Option Held}
    (hkeep : w.log.closed = false ∧ held = none ∨
      w.log.closed = true ∧ held = some (.registering ref) ∧ s.phase = .created) :
    ({ w with log := (w.log.register ref).1, held := held }.setSub ref s).Inv start limits := by
  have howed : ∀ id, owed held id = 0 := by
    rcases hkeep with ⟨-, rfl⟩ | ⟨-, rfl, -⟩ <;> exact fun _ => rfl
  -- the map holds the new subscription and what it held before
  have hlookup : ∀ id r, (w.log.register ref).1.subscribers.lookup id = some r →
      id = s.id ∧ r = ref ∨ w.log.subscribers.lookup id = some r := by
    intro id r hl
    unfold Log.register at hl hid
    simp only at hl hid
    split_ifs at hl with hclosed
    · exact .inr hl
    · by_cases heq : id = s.id
      · rw [heq, hid, AList.lookup_insert] at hl
        exact .inl ⟨heq, (some.inj hl).symm⟩
      · rw [AList.lookup_insert_ne (hid ▸ heq)] at hl
        exact .inr hl
  have hother : ∀ id r, w.log.subscribers.lookup id = some r → r ≠ ref := by
    rintro id r hl rfl
    obtain ⟨x, hx, -⟩ := h.registered id r hl
    rw [hfresh] at hx
    cases hx
  exact
    { start_eq := h.start_eq, limits_eq := h.limits_eq
      log := h.log.frame (w.log.register_sameHistory ref)
      sub := forall_setSub hinv h.sub
      registered := fun id r hl => by
        rw [setSub_subs]
        rcases hlookup id r hl with ⟨rfl, rfl⟩ | hold
        · exact ⟨s, if_pos rfl, rfl⟩
        · rw [if_neg (hother id r hold)]
          exact h.registered id r hold
      synced := fun id r x hl hx ht => by
        rw [setSub_subs] at hx
        show x.reach + owed held id = w.log.lastSequence
        rw [howed]
        split_ifs at hx with hr
        · exact some.inj hx ▸ hreach
        · rcases hlookup id r hl with ⟨-, hnew⟩ | hold
          · exact absurd hnew hr
          · have hsync := h.synced id r x hold hx ht
            rwa [hheld, owed_none] at hsync
      offering := fun e l hh => by
        rcases hkeep with ⟨-, rfl⟩ | ⟨-, rfl, -⟩ <;> cases hh
      finishing := fun l hh => by
        rcases hkeep with ⟨-, rfl⟩ | ⟨-, rfl, -⟩ <;> cases hh
      registering := fun r hh => by
        rcases hkeep with ⟨-, rfl⟩ | ⟨hclosed, rfl, hphase⟩
        · cases hh
        · cases hh
          refine ⟨hclosed, fun x hx => ?_⟩
          rw [setSub_subs, if_pos rfl] at hx
          cases hx
          exact ⟨hphase, fun _ => hreach⟩
      clean := forall_setSub (fun ht _ => by cases hlive.symm.trans ht) h.clean
      genuine := forall_setSub hfrom h.genuine }

theorem Inv.offer {entry : LogEntry} {remaining : List ℕ}
    (hheld : w.held = some (.offering entry remaining))
    (hl : w.log.subscribers.lookup id = some ref) (hs : w.subs ref = some s)
      (hmem : id ∈ remaining) :
    { w.setSub ref (s.offer entry).1 with
      log := countSlow w.log (s.offer entry).2
      held := visiting (.offering entry) (remaining.erase id) }.Inv start limits := by
  obtain ⟨hnodup, hseq, hsize, hacc⟩ := h.offering entry remaining hheld
  obtain ⟨hsame, hclosed, hsubs⟩ := countSlow_sameHistory w.log (s.offer entry).2
  obtain ⟨hid, hlive, hclean⟩ := s.offer_stable entry
  have hnext : s.terminal = false → s.reach + 1 = w.log.lastSequence := fun ht => by
    have hsync := h.synced id ref s hl hs ht
    rwa [hheld, owed, if_pos hmem] at hsync
  have hinv : (s.offer entry).1.Inv w.log.limits :=
    (h.sub ref s hs).offer h.log.limits (fun ht => hseq.trans (hnext ht).symm) hsize
  suffices hmid : { w.setSub ref (s.offer entry).1 with
      held := visiting (.offering entry) (remaining.erase id) }.Inv start limits from
    hmid.setLog hsame hclosed hsubs
  refine h.replace hs hinv ((h.genuine ref s hs).offer hacc) hid ?_ ?_ ?_ ?_ ?_ ?_
  · intro id' r hl' hr
    have hne : id' ≠ id := fun heq => hr (some.inj ((heq ▸ hl').symm.trans hl))
    rw [owed_offering, hheld, owed]
    simp only [mem_erase_of_ne hne]
  · -- the offer is made: this identity is owed nothing more
    intro id' hl' ht
    obtain rfl := h.id_eq hl hl'
    have hgone : id' ∉ remaining.erase id' := fun hin =>
      ((List.Nodup.mem_erase_iff hnodup).mp hin).1 rfl
    rw [owed_offering, if_neg hgone, (hlive ht).2]
    exact hnext (hlive ht).1
  · intro ht he
    obtain ⟨hterm, herr, hreach⟩ := hclean ht he
    rw [hreach]
    exact h.clean ref s hs hterm herr
  · intro e l hh
    cases visiting_eq_some hh
    exact ⟨hnodup.erase id, hseq, hsize, hacc⟩
  · intro l hh
    cases visiting_eq_some hh
  · intro r hh
    cases visiting_eq_some hh

theorem Inv.close (hheld : w.held = none) :
    { w with log := { w.log with closed := true }
             held := visiting .finishing w.log.subscribers.keys }.Inv start limits where
  start_eq := h.start_eq
  limits_eq := h.limits_eq
  log := h.log.frame ⟨rfl, rfl, rfl, rfl, rfl, rfl, rfl⟩
  sub := h.sub
  registered := h.registered
  synced := fun id ref s hl hs ht => by
    have hsync := h.synced id ref s hl hs ht
    rw [hheld, owed_none] at hsync
    rw [owed_finishing]
    exact hsync
  offering := fun e l hh => by cases visiting_eq_some hh
  finishing := fun _ _ => rfl
  registering := fun r hh => by cases visiting_eq_some hh
  clean := fun r s hs ht he => ⟨rfl, (h.clean r s hs ht he).2⟩
  genuine := h.genuine

theorem Inv.finished (hs : w.subs ref = some s) (hclosed : w.log.closed = true)
    (hsync : s.terminal = false → s.reach = w.log.lastSequence) (he : s.finish.err = none) :
    w.log.closed = true ∧ s.finish.reach = w.log.lastSequence := by
  obtain ⟨-, -, hreach, -, hcases⟩ := s.finish_eq
  refine ⟨hclosed, hreach.trans ?_⟩
  rcases hcases he with hlive | ⟨hterm, herr⟩
  · exact hsync hlive
  · exact (h.clean ref s hs hterm herr).2

theorem Inv.finish {remaining : List ℕ} (hheld : w.held = some (.finishing remaining))
    (hl : w.log.subscribers.lookup id = some ref) (hs : w.subs ref = some s) :
    { w.setSub ref s.finish with held := visiting .finishing (remaining.erase id) }.Inv start
      limits := by
  obtain ⟨hid, hterm, -, -, -⟩ := s.finish_eq
  have hclosed := h.finishing remaining hheld
  refine h.replace hs (h.sub ref s hs).finish (h.genuine ref s hs).finish hid ?_ ?_ ?_ ?_ ?_ ?_
  · intro id' r _ _
    rw [owed_finishing, hheld]
    rfl
  · intro id' _ ht
    cases hterm.symm.trans ht
  · intro _ he
    refine h.finished hs hclosed (fun ht => ?_) he
    have hsync := h.synced id ref s hl hs ht
    rwa [hheld] at hsync
  · intro e l hh
    cases visiting_eq_some hh
  · exact fun _ _ => hclosed
  · intro r hh
    cases visiting_eq_some hh

theorem Inv.finishNew (hheld : w.held = some (.registering ref)) (hs : w.subs ref = some s) :
    { w.setSub ref { s.finish with phase := .top } with held := none }.Inv start limits := by
  obtain ⟨hid, hterm, -, hphase, -⟩ := s.finish_eq
  obtain ⟨hclosed, hnew⟩ := h.registering ref hheld
  obtain ⟨hcreated, hsync⟩ := hnew s hs
  have hinv := (h.sub ref s hs).finish
  have hcur := hinv.cursor
  rw [show s.finish.unrecorded = 0 by simp [unrecorded, hphase, hcreated]] at hcur
  have hstart : { s.finish with phase := .top }.Inv w.log.limits :=
    { hinv with
      cursor := hcur
      flying := fun _ hf => by cases hf
      ended := fun he => by cases he }
  have hfrom := (h.genuine ref s hs).finish
  refine h.replace hs hstart ⟨hfrom.queue, (fun _ hf => by cases hf), hfrom.delivered⟩ hid
    ?_ ?_ ?_ ?_ ?_ ?_
  · intro id r _ _
    rw [hheld]
    rfl
  · intro id _ ht
    cases hterm.symm.trans ht
  · exact fun _ he => h.finished hs hclosed hsync he
  · exact fun _ _ he => by cases he
  · exact fun _ he => by cases he
  · exact fun _ he => by cases he

end

/-! ## What one step can do -/

/-- What a step can do to one subscription. -/
inductive Change (l : Label) (ref : ℕ) (s : Subscription) : Subscription → Prop
  | same : Change l ref s s
  | act {action : Subscription.Action} {s' : Subscription} (hl : l = .act ref action)
      (h : s.step action = some s') : Change l ref s s'
  | offer (entry : LogEntry) : Change l ref s (s.offer entry).1
  | finish : Change l ref s s.finish
  | finishNew : Change l ref s { s.finish with phase := .top }
  | onDone (h : s.phase = .hookStopped) : Change l ref s { s with phase := .unregistered }

/-- A subscription as `Replay` and `Subscribe` create it. -/
def IsNew (s : Subscription) : Prop :=
  ∃ id ctxDone after limits replay phase, (phase = .created ∨ phase = .top) ∧
    s = newSubscription id ctxDone after limits replay phase

/-- The steps of a world. -/
inductive Turn (w : World) (l : Label) : World → Prop
  /-- At most a counter changes. -/
  | note {log : Log} (hsame : w.log.SameHistory log) (hclosed : log.closed = w.log.closed)
      (hsubs : log.subscribers = w.log.subscribers) : Turn w l { w with log }
  | push {envelope : Envelope} {gone kept : List LogEntry} (hl : l = .append envelope)
      (hheld : w.held = none) (ha : w.log.Accepts gone kept envelope) :
      Turn w l { w with
        log := w.log.push gone kept envelope, accepted := w.accepted ++ [envelope.entry]
        held := visiting (.offering envelope.entry) w.log.subscribers.keys }
  | offer {id ref : ℕ} {s : Subscription} {entry : LogEntry} {remaining : List ℕ}
      (hheld : w.held = some (.offering entry remaining))
      (hl : w.log.subscribers.lookup id = some ref) (hs : w.subs ref = some s)
        (hmem : id ∈ remaining) :
      Turn w l { w.setSub ref (s.offer entry).1 with
        log := countSlow w.log (s.offer entry).2
        held := visiting (.offering entry) (remaining.erase id) }
  | register {ref : ℕ} {s : Subscription} {held : Option Held} (hheld : w.held = none)
      (hfresh : w.subs ref = none) (hnew : IsNew s) (hinv : s.Inv w.log.limits)
      (hfrom : s.From w.accepted) (hid : s.id = (w.log.register ref).2) (hlive : s.terminal = false)
      (hreach : s.reach = w.log.lastSequence)
      (hkeep : w.log.closed = false ∧ held = none ∨
        w.log.closed = true ∧ held = some (.registering ref) ∧ s.phase = .created) :
      Turn w l ({ w with log := (w.log.register ref).1, held }.setSub ref s)
  | close (hheld : w.held = none) :
      Turn w l { w with log := { w.log with closed := true }
                        held := visiting .finishing w.log.subscribers.keys }
  | finish {id ref : ℕ} {s : Subscription} {remaining : List ℕ}
      (hheld : w.held = some (.finishing remaining))
      (hl : w.log.subscribers.lookup id = some ref) (hs : w.subs ref = some s) :
      Turn w l { w.setSub ref s.finish with held := visiting .finishing (remaining.erase id) }
  | finishNew {ref : ℕ} {s : Subscription} (hheld : w.held = some (.registering ref))
      (hs : w.subs ref = some s) :
      Turn w l { w.setSub ref { s.finish with phase := .top } with held := none }
  | act {ref : ℕ} {s s' : Subscription} {action : Subscription.Action} (hl : l = .act ref action)
      (hs : w.subs ref = some s) (hs' : s.step action = some s') : Turn w l (w.setSub ref s')
  | onDone {ref : ℕ} {s : Subscription} (hs : w.subs ref = some s)
      (hphase : s.phase = .hookStopped) :
      Turn w l { w.setSub ref { s with phase := .unregistered } with
        log := { w.log with subscribers := w.log.subscribers.erase s.id } }

theorem Turn.idle : w.Turn l w := .note (.refl _) rfl rfl

section

variable (h : w.Inv start limits)
include h

theorem Inv.replay_turn {ctxErr : Bool} {request : ReplayRequest} {ctxDone : Bool}
    (hstep : w.stepReplay ctxErr request ref ctxDone = some w') : w.Turn l w' := by
  unfold stepReplay at hstep
  split at hstep
  · next log page hheld hfresh heq =>
    rcases h.log.replay_tailing heq with ⟨htail, rfl⟩ | ⟨htail, rfl, hopen, hlast⟩
    · rw [if_neg (by simp [htail])] at hstep
      exact some.inj hstep ▸ .idle
    · rw [if_pos htail] at hstep
      cases hstep
      have hinv : (newSubscription (w.log.register ref).1.nextSubID ctxDone page.pageLastSequence
          w.log.limits [] .top).Inv w.log.limits :=
        inv_new (Consecutive.nil _) (by simp [Sized])
          (by have := h.log.limits.subscriberEvents; simp only [length_nil]; omega)
          (by have := h.log.limits.subscriberBytes; rw [totalBytes_nil]; omega) _ _ (.inr rfl)
      have hfrom := from_new (w.accepted) (nil_subset _)
        (w.log.register ref).1.nextSubID ctxDone page.pageLastSequence w.log.limits (.inr rfl)
      exact .register hheld hfresh ⟨_, _, _, _, _, _, .inr rfl, rfl⟩ hinv hfrom rfl rfl hlast
        (.inl ⟨hopen, hheld⟩)
  · next log err hheld hfresh heq =>
    cases hstep
    rcases (h.log.replay_failure heq).1 with rfl | rfl
    · exact .idle
    · exact .note w.log.countExhaustion_sameHistory rfl rfl
  · cases hstep

theorem Inv.subscribe_turn {ctxErr : Bool} {after : ℕ} {ctxDone : Bool}
    (hstep : w.stepSubscribe ctxErr after ref ctxDone = some w') : w.Turn l w' := by
  unfold stepSubscribe at hstep
  split at hstep
  · next log replay hheld hfresh heq =>
    obtain ⟨hin, hpage, rfl, rfl⟩ := h.log.subscribe_ok heq
    have hregister {phase : Phase} {held : Option Held} (hphase : phase = .created ∨ phase = .top)
        (hkeep : w.log.closed = false ∧ held = none ∨
          w.log.closed = true ∧ held = some (.registering ref) ∧ phase = .created) :
        w.Turn l ({ w with log := (w.log.register ref).1, held }.setSub ref
          (newSubscription (w.log.register ref).1.nextSubID ctxDone after w.log.limits
            (w.log.entriesAfter after) phase)) :=
      .register hheld hfresh ⟨_, _, _, _, _, _, hphase, rfl⟩
        (inv_new (h.log.entriesAfter_consecutive hin) (h.log.sized_entriesAfter after)
          hpage.length_le hpage.weight_le _ _ hphase)
        (from_new w.accepted (h.log.entriesAfter_accepted after) _ _ _ _ hphase) rfl rfl
        (h.log.entriesAfter_length hin) hkeep
    by_cases hclosed : (w.log.register ref).1.closed = true
    · rw [if_pos hclosed] at hstep
      exact some.inj hstep ▸ hregister (.inl rfl) (.inr ⟨hclosed, rfl, rfl⟩)
    · rw [if_neg hclosed] at hstep
      exact some.inj hstep ▸ hregister (.inr rfl) (.inl ⟨Bool.eq_false_iff.mpr hclosed, hheld⟩)
  · next log err hheld hfresh heq =>
    cases hstep
    rcases (h.log.subscribe_failure heq).1 with rfl | rfl
    · exact .idle
    · exact .note w.log.countExhaustion_sameHistory rfl rfl
  · cases hstep

theorem Inv.step_turn (hstep : w.step l = some w') : w.Turn l w' := by
  cases l with
  | append envelope =>
    simp only [step, stepAppend] at hstep
    split at hstep
    · next hheld happ =>
      obtain ⟨gone, kept, ha, rfl, rfl⟩ := h.log.append_accepted happ
      exact some.inj hstep ▸ .push rfl hheld ha
    · next happ =>
      cases hstep
      rcases h.log.append_rejected happ with rfl | rfl
      · exact .idle
      · exact .note ⟨rfl, rfl, rfl, rfl, rfl, rfl, rfl⟩ rfl rfl
    · cases hstep
  | offer id =>
    simp only [step, stepOffer] at hstep
    split at hstep
    · next hheld hreg =>
      split_ifs at hstep with hmem
      obtain ⟨hl, hs⟩ := registered_eq_some hreg
      exact some.inj hstep ▸ .offer hheld hl hs hmem
    · cases hstep
  | replay ctxErr request ref ctxDone => exact h.replay_turn hstep
  | subscribe ctxErr after ref ctxDone => exact h.subscribe_turn hstep
  | close =>
    simp only [step, stepClose] at hstep
    split at hstep
    · next hheld =>
      split_ifs at hstep <;> cases hstep
      · exact .idle
      · exact .close hheld
    · cases hstep
  | finish id =>
    simp only [step, stepFinish] at hstep
    split at hstep
    · next hheld hreg =>
      split_ifs at hstep
      obtain ⟨hl, hs⟩ := registered_eq_some hreg
      exact some.inj hstep ▸ .finish hheld hl hs
    · cases hstep
  | finishNew =>
    simp only [step, stepFinishNew] at hstep
    split at hstep
    · next hheld =>
      obtain ⟨s, hs, rfl⟩ := map_eq_some_iff.mp hstep
      exact .finishNew hheld hs
    · cases hstep
  | act ref action =>
    obtain ⟨s, hs, hstep⟩ := bind_eq_some_iff.mp hstep
    obtain ⟨s', hs', rfl⟩ := map_eq_some_iff.mp hstep
    exact .act rfl hs hs'
  | onDone ref =>
    simp only [step, stepOnDone] at hstep
    split at hstep
    · next s _ hs =>
      split_ifs at hstep with hphase
      exact some.inj hstep ▸ .onDone hs hphase
    · cases hstep

theorem Inv.step (hstep : w.step l = some w') : w'.Inv start limits := by
  cases h.step_turn hstep with
  | note hsame hclosed hsubs => exact h.setLog hsame hclosed hsubs
  | push _ hheld ha => exact h.push hheld ha
  | offer hheld hl hs hmem => exact h.offer hheld hl hs hmem
  | register hheld hfresh _ hinv hfrom hid hlive hreach hkeep =>
    exact h.register hheld hfresh hinv hfrom hid hlive hreach hkeep
  | close hheld => exact h.close hheld
  | finish hheld hl hs => exact h.finish hheld hl hs
  | finishNew hheld hs => exact h.finishNew hheld hs
  | act _ hs hs' => exact h.act hs hs'
  | onDone hs hphase => exact h.onDone hs hphase

end

variable (h : w.Turn l w')
include h

theorem Turn.subs :
    w'.subs = w.subs ∨
    (∃ ref s s', w.subs ref = some s ∧ Change l ref s s' ∧ w'.subs = (w.setSub ref s').subs) ∨
    (∃ ref s', w.subs ref = none ∧ IsNew s' ∧ w'.subs = (w.setSub ref s').subs) := by
  cases h with
  | note => exact .inl rfl
  | push => exact .inl rfl
  | offer _ _ hs => exact .inr (.inl ⟨_, _, _, hs, .offer _, rfl⟩)
  | register _ hfresh hnew => exact .inr (.inr ⟨_, _, hfresh, hnew, rfl⟩)
  | close => exact .inl rfl
  | finish _ _ hs => exact .inr (.inl ⟨_, _, _, hs, .finish, rfl⟩)
  | finishNew _ hs => exact .inr (.inl ⟨_, _, _, hs, .finishNew, rfl⟩)
  | act hl hs hs' => exact .inr (.inl ⟨_, _, _, hs, .act hl hs', rfl⟩)
  | onDone hs hphase => exact .inr (.inl ⟨_, _, _, hs, .onDone hphase, rfl⟩)

theorem Turn.sub (hs' : w'.subs ref = some s') :
    (∃ s, w.subs ref = some s ∧ Change l ref s s') ∨ IsNew s' := by
  rcases h.subs with heq | ⟨r, s, x, hs, hch, heq⟩ | ⟨r, x, -, hnew, heq⟩ <;> rw [heq] at hs'
  · exact .inl ⟨s', hs', .same⟩
  · rw [setSub_subs] at hs'
    split_ifs at hs' with hr
    · subst hr
      exact .inl ⟨s, hs, some.inj hs' ▸ hch⟩
    · exact .inl ⟨s', hs', .same⟩
  · rw [setSub_subs] at hs'
    split_ifs at hs' with hr
    · exact .inr (some.inj hs' ▸ hnew)
    · exact .inl ⟨s', hs', .same⟩

/-- A step goes on with every stream: no subscription is lost, restarted or rewritten. -/
theorem Turn.extends (hs : w.subs ref = some s) : ∃ s', w'.subs ref = some s' ∧ s.Extends s' := by
  have hch : ∀ {s'}, Change l ref s s' → s.Extends s' := by
    intro s' hch
    cases hch with
    | same => exact .refl s
    | act _ h => exact step_extends h
    | offer entry => exact s.offer_extends entry
    | finish => exact s.finish_extends
    | finishNew => exact ⟨s.finish_extends.start, s.finish_extends.delivered⟩
    | onDone => exact ⟨rfl, prefix_rfl⟩
  rcases h.subs with heq | ⟨r, x, x', hx, hc, heq⟩ | ⟨r, x, hfresh, -, heq⟩ <;> rw [heq]
  · exact ⟨s, hs, .refl s⟩
  · rw [setSub_subs]
    split_ifs with hr
    · subst hr
      cases hs.symm.trans hx
      exact ⟨x', rfl, hch hc⟩
    · exact ⟨s, hs, .refl s⟩
  · rw [setSub_subs, if_neg (by rintro rfl; cases hfresh.symm.trans hs)]
    exact ⟨s, hs, .refl s⟩

theorem Turn.accepted : w'.log.runID = w.log.runID ∧
    (w'.accepted = w.accepted ∨ ∃ e, l = .append e ∧ e.runID = w.log.runID ∧
      w'.accepted = w.accepted ++ [e.entry]) := by
  cases h with
  | note hsame => exact ⟨hsame.runID, .inl rfl⟩
  | push hl _ ha => exact ⟨rfl, .inr ⟨_, hl, ha.runID, rfl⟩⟩
  | offer => exact ⟨(countSlow_sameHistory _ _).1.runID, .inl rfl⟩
  | register => exact ⟨(w.log.register_sameHistory _).runID, .inl rfl⟩
  | close => exact ⟨rfl, .inl rfl⟩
  | finish => exact ⟨rfl, .inl rfl⟩
  | finishNew => exact ⟨rfl, .inl rfl⟩
  | act => exact ⟨rfl, .inl rfl⟩
  | onDone => exact ⟨rfl, .inl rfl⟩

end World

theorem logSystem_inv {runID : String} {start : ℕ} {limits : LogLimits} (hstart : start ≤ maxUint64)
    (hnew : newLogAfter runID start limits = .ok log) {w : World}
    (hw : (logSystem log).Reachable w) :
    w.Inv start limits :=
  System.Reachable.invariant (inv_init hstart hnew) (fun _ hi hstep => hi.step hstep) hw

end SpiceAgent.Event
