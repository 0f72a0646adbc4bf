import SpiceAgent.Daemon.PendingDesk
import SpiceAgent.Lib.OneShot

/-!
# Requests, responses and their results

The calls of `Request`, `Respond` and `Close` over the desk of the hub. `Board.Move` has everything
that a step of the hub can do to them, and `Board.Ok` is what every move keeps: the results are set
once (`OneShot`), each call of `Request` takes the result of its own call, and each call of
`Respond` that succeeds is the one whose response is that result.
-/

namespace SpiceAgent.Daemon

open SpiceAgent.Lib Option List
open Function (update update_apply update_of_ne update_self)

/-- Who closes the channel of a call. -/
inductive Closer
  | request (id : ℕ)
  | respond (id : ℕ)
  | close

/-- The desk and the calls that work on it. -/
@[ext]
structure Board where
  desk : Desk
  requests : ℕ → Option RequestPhase
  responds : ℕ → Option RespondThread
  /-- The calls whose channels `Close` has yet to close. -/
  closing : List ℕ

namespace Board

variable {b b' : Board}

def slots (b : Board) : OneShot ℕ Closer PendingResult where
  result ref := (b.desk.calls ref).bind (·.result)
  done ref := ∃ call, b.desk.calls ref = some call ∧ call.done
  closes ref closer :=
    match closer with
    | .request id => id = ref ∧ ∃ result, b.requests id = some (.completing result)
    | .respond id => ∃ response, b.responds id = some (.closing ref response)
    | .close => ref ∈ b.closing

/-- A call of `Request` stands elsewhere. -/
def setRequest (b : Board) (id : ℕ) (phase : RequestPhase) : Board :=
  { b with requests := update b.requests id (some phase) }

/-- A call of `Respond` stands elsewhere. -/
def setRespond (b : Board) (id : ℕ) (thread : RespondThread) : Board :=
  { b with responds := update b.responds id (some thread) }

/-- The moves of `Request`, `Respond`, `Close` and the bindings. -/
inductive Move : Board → Board → Prop
  /-- Clients and bindings are added, or nothing changes. -/
  | grow (b : Board) (desk : Desk) (hclients : b.desk.clients ⊆ desk.clients)
      (howner : ∀ i client, b.desk.owner i = some client → desk.owner i = some client)
      (hpending : desk.pending = b.desk.pending) (hcalls : desk.calls = b.desk.calls)
      (hclosed : desk.closed = b.desk.closed) : Move b { b with desk }
  | refuseRequest (b : Board) (id : ℕ) (err : HubError) (hnew : b.requests id = none)
      (hcall : b.desk.calls id = none) : Move b (b.setRequest id (.returned (.failed err)))
  | enter (b : Board) (id : ℕ) (client : String) (value : Pending) (binding : ℕ)
      (hnew : b.requests id = none) (hcall : b.desk.calls id = none)
      (howner : b.desk.owner binding = some client) (hclient : client ∈ b.desk.clients)
      (hpending : b.desk.pending client value.key = none) (hopen : b.desk.closed = false) :
      Move b ({ b with desk := b.desk.enter client id value binding }.setRequest id .waiting)
  /-- The context of a request ends it. -/
  | expire (b : Board) (id : ℕ) (hphase : b.requests id = some .waiting) :
      Move b (b.setRequest id .cancelled)
  /-- A request finds its channel closed. -/
  | take (b : Board) (id : ℕ) (call : PendingCall) (result : PendingResult)
      (hphase : b.requests id = some .waiting ∨ b.requests id = some (.draining result))
      (hcall : b.desk.calls id = some call) (hdone : call.done)
        (hresult : call.result = some result) :
      Move b (b.setRequest id (.returned result))
  /-- A request whose context ended completes its own call. -/
  | withdraw (b : Board) (id : ℕ) (client : String) (call : PendingCall)
      (hphase : b.requests id = some .cancelled) (hcall : b.desk.calls id = some call)
      (hpending : b.desk.pending client call.value.key = some id) :
      Move b ({ b with
        desk := b.desk.settle client call.value.key id call (.failed .context) }.setRequest id
          (.completing (.failed .context)))
  /-- Another one was faster. -/
  | lose (b : Board) (id : ℕ) (call : PendingCall) (result : PendingResult)
      (hphase : b.requests id = some .cancelled) (hcall : b.desk.calls id = some call)
      (hresult : call.result = some result) : Move b (b.setRequest id (.draining result))
  | finish (b : Board) (id : ℕ) (result : PendingResult)
      (hphase : b.requests id = some (.completing result)) :
      Move b ({ b with desk := b.desk.closeDone id }.setRequest id (.returned result))
  | refuseRespond (b : Board) (id : ℕ) (err : HubError) (hnew : b.responds id = none) :
      Move b (b.setRespond id (.refused err))
  | answer (b : Board) (id : ℕ) (client runID : String) (response : Interaction.Response) (ref : ℕ)
      (call : PendingCall) (hnew : b.responds id = none)
      (hpending : b.desk.pending client ⟨runID, response.id⟩ = some ref)
      (hcall : b.desk.calls ref = some call) :
      Move b ({ b with
        desk := b.desk.settle client ⟨runID, response.id⟩ ref call (.response response) }.setRespond
          id (.closing ref response))
  | accept (b : Board) (id ref : ℕ) (response : Interaction.Response)
      (hphase : b.responds id = some (.closing ref response)) :
      Move b ({ b with desk := b.desk.closeDone ref }.setRespond id (.accepted ref response))
  | shutDown (b : Board) (entries : List (String × PendingKey × ℕ)) (hclosing : b.closing = [])
      (hall : ∀ client key ref, (client, key, ref) ∈ entries ↔ b.desk.pending client key = some ref)
      (hnodup : (entries.map (·.2.2)).Nodup) :
      Move b { b with desk := b.desk.shutDown entries, closing := entries.map (·.2.2) }
  | closeNext (b : Board) (ref : ℕ) (rest : List ℕ) (hclosing : b.closing = ref :: rest) :
      Move b { b with desk := b.desk.closeDone ref, closing := rest }

/-! ## What the moves do to the slots -/

variable {ref : ℕ} {call : PendingCall}

theorem result_eq (hcall : b.desk.calls ref = some call) : b.slots.result ref = call.result := by
  change (b.desk.calls ref).bind _ = _
  rw [hcall, bind_some]

variable {i id : ℕ} {closer : Closer}

theorem setRequest_closes {phase : RequestPhase} :
    (b.setRequest id phase).slots.closes i closer ↔
      (closer = .request id ∧ i = id ∧ ∃ result, phase = .completing result) ∨
        (closer ≠ .request id ∧ b.slots.closes i closer) := by
  cases closer <;> simp [slots, setRequest, update_apply]
  grind

theorem setRespond_closes {thread : RespondThread} :
    (b.setRespond id thread).slots.closes i closer ↔
      (closer = .respond id ∧ ∃ response, thread = .closing i response) ∨
        (closer ≠ .respond id ∧ b.slots.closes i closer) := by
  cases closer <;> simp [slots, setRespond, update_apply]
  grind

theorem slots_congr (hcalls : ∀ ref, b'.slots.result ref = b.slots.result ref)
    (hdone : ∀ ref, b'.slots.done ref ↔ b.slots.done ref)
    (hcloses : ∀ ref closer, b'.slots.closes ref closer ↔ b.slots.closes ref closer) :
    b'.slots = b.slots := by
  have hresult : b'.slots.result = b.slots.result := funext hcalls
  have hdone' : b'.slots.done = b.slots.done := funext fun ref => propext (hdone ref)
  have hcloses' : b'.slots.closes = b.slots.closes :=
    funext fun ref => funext fun closer => propext (hcloses ref closer)
  cases hs : b.slots
  cases hs' : b'.slots
  simp only [hs, hs'] at hcloses' hresult hdone'
  rw [hcloses', hresult, hdone']

/-- A request that neither closed a channel nor will close one moves. -/
theorem setRequest_slots {old : Option RequestPhase} {phase : RequestPhase}
    (hr : b.requests id = old) (hold : ∀ result, old ≠ some (.completing result))
    (hnew : ∀ result, phase ≠ .completing result) : (b.setRequest id phase).slots = b.slots := by
  refine slots_congr (fun _ => rfl) (fun _ => Iff.rfl) fun i closer => ?_
  rw [setRequest_closes]
  cases closer <;> simp [slots]
  grind

theorem settle_result (desk : Desk) (client : String) (key : PendingKey) (ref : ℕ)
    (call : PendingCall) (result : PendingResult) (i : ℕ) :
    ((desk.settle client key ref call result).calls i).bind (·.result) =
      if i = ref then some result else (desk.calls i).bind (·.result) := by
  simp only [Desk.settle, update_apply]
  split_ifs <;> simp

theorem settle_done {desk : Desk} (hcall : desk.calls ref = some call) (client : String)
    (key : PendingKey) (result : PendingResult) (i : ℕ) :
    (∃ c, (desk.settle client key ref call result).calls i = some c ∧ c.done) ↔
      ∃ c, desk.calls i = some c ∧ c.done := by
  simp only [Desk.settle, update_apply]
  grind

theorem closeDone_result (desk : Desk) (ref i : ℕ) :
    ((desk.closeDone ref).calls i).bind (·.result) = (desk.calls i).bind (·.result) := by
  simp only [Desk.closeDone, update_apply]
  grind [map_eq_some_iff]

theorem closeDone_done (desk : Desk) (hcall : (desk.calls ref).isSome) (i : ℕ) :
    (∃ c, (desk.closeDone ref).calls i = some c ∧ c.done) ↔
      (∃ c, desk.calls i = some c ∧ c.done) ∨ i = ref := by
  obtain ⟨call, hcall⟩ := isSome_iff_exists.mp hcall
  simp only [Desk.closeDone, hcall, update_apply]
  grind

/-! ## The invariant -/

/-- The call of `Respond` gave the response. -/
def Answers (b : Board) (id ref : ℕ) (response : Interaction.Response) : Prop :=
  b.responds id = some (.closing ref response) ∨ b.responds id = some (.accepted ref response)

/-- What the phase of a request says about its call. -/
def PhaseOk (b : Board) (id : ℕ) : RequestPhase → Prop
  | .waiting | .cancelled => (b.desk.calls id).isSome
  | .completing result | .draining result => b.slots.result id = some result
  | .returned result =>
    b.desk.calls id = none ∧ (∃ err, result = .failed err) ∨
      b.slots.result id = some result ∧ b.slots.done id

/-- The invariant of the board. -/
structure Ok (b : Board) : Prop where
  desk : b.desk.Ok
  slots : b.slots.Ok
  closing : b.closing.Nodup
  phase : ∀ id phase, b.requests id = some phase → b.PhaseOk id phase
  asked : ∀ id, (b.desk.calls id).isSome → (b.requests id).isSome
  answered : ∀ id ref response, b.Answers id ref response →
    b.slots.result ref = some (.response response)
  answerer : ∀ ref response, b.slots.result ref = some (.response response) →
    ∃ id, b.Answers id ref response
  once : ∀ id id' ref response response', b.Answers id ref response → b.Answers id' ref response' →
    id = id'
  accepted : ∀ id ref response, b.responds id = some (.accepted ref response) → b.slots.done ref

theorem calls_of_result {result : PendingResult} (h : b.slots.result ref = some result) :
    ∃ call, b.desk.calls ref = some call ∧ call.result = some result :=
  bind_eq_some_iff.mp h

/-- What a move does to the slots. -/
inductive SlotMove (b b' : Board) : Prop
  | same (h : b'.slots = b.slots)
  | settle (S : Set ℕ) (result : PendingResult) (closer : Closer)
      (h : b.slots.Settle b'.slots S result closer)
  | close (ref : ℕ) (closer : Closer) (h : b.slots.Close b'.slots ref closer)

variable {client : String} {response : Interaction.Response}

section

variable (hb : b.Ok)
include hb

theorem Ok.fresh {key : PendingKey} (h : b.desk.pending client key = some ref) :
    b.slots.result ref = none := by
  obtain ⟨call, hcall, -, hresult, -⟩ := hb.desk.pending client key ref h
  rw [result_eq hcall, hresult]

theorem Ok.isSome_of_closes (h : b.slots.closes ref closer) : (b.desk.calls ref).isSome := by
  obtain ⟨⟨result, hresult⟩, -⟩ := hb.slots.owed ref closer h
  obtain ⟨call, hcall, -⟩ := calls_of_result hresult
  exact isSome_iff_exists.mpr ⟨call, hcall⟩

theorem withdraw_slots (hphase : b.requests id = some .cancelled)
    (hcall : b.desk.calls id = some call)
    (hpending : b.desk.pending client call.value.key = some id) (result : PendingResult) :
    b.slots.Settle ({ b with
      desk := b.desk.settle client call.value.key id call result }.setRequest id
        (.completing result)).slots {id} result (.request id) where
  fresh i hi := by
    rw [Set.mem_singleton_iff.mp hi]
    exact hb.fresh hpending
  result i hi := (settle_result ..).trans (if_pos hi)
  others i hi := (settle_result ..).trans (if_neg hi)
  done i := settle_done hcall ..
  closes i closer := by
    have hidle : ¬ b.slots.closes i (.request id) := by
      rintro ⟨-, result', hr⟩
      rw [hphase] at hr
      cases hr
    rw [setRequest_closes]
    change _ ∨ (_ ∧ b.slots.closes i closer) ↔ _
    by_cases hc : closer = .request id
    · subst hc
      simp [hidle]
    · simp [hc]

theorem answer_slots {key : PendingKey} (hnew : b.responds id = none)
    (hpending : b.desk.pending client key = some ref) (hcall : b.desk.calls ref = some call) :
    b.slots.Settle ({ b with
      desk := b.desk.settle client key ref call (.response response) }.setRespond id
        (.closing ref response)).slots {ref} (.response response) (.respond id) where
  fresh i hi := by
    rw [Set.mem_singleton_iff.mp hi]
    exact hb.fresh hpending
  result i hi := (settle_result ..).trans (if_pos hi)
  others i hi := (settle_result ..).trans (if_neg hi)
  done i := settle_done hcall ..
  closes i closer := by
    have hidle : ¬ b.slots.closes i (.respond id) := by
      rintro ⟨response', hr⟩
      rw [hnew] at hr
      cases hr
    rw [setRespond_closes]
    change _ ∨ (_ ∧ b.slots.closes i closer) ↔ _
    by_cases hc : closer = .respond id
    · subst hc
      simp [hidle, eq_comm]
    · simp [hc]

theorem finish_slots {result : PendingResult} (hphase : b.requests id = some (.completing result)) :
    b.slots.Close ({ b with desk := b.desk.closeDone id }.setRequest id (.returned result)).slots id
      (.request id) := by
  have howed : b.slots.closes id (.request id) := ⟨rfl, result, hphase⟩
  refine ⟨howed, fun j => closeDone_result .., closeDone_done _ (hb.isSome_of_closes howed),
    fun j closer => ?_⟩
  rw [setRequest_closes]
  change _ ∨ (_ ∧ b.slots.closes j closer) ↔ _
  by_cases hc : closer = .request id
  · subst hc
    simp only [ne_eq, not_true_eq_false, false_and, or_false, and_true]
    constructor
    · rintro ⟨-, -, result', hr⟩
      cases hr
    · rintro ⟨⟨rfl, -⟩, hnot⟩
      exact absurd rfl hnot
  · simp [hc]

theorem accept_slots (hphase : b.responds id = some (.closing ref response)) :
    b.slots.Close ({ b with desk := b.desk.closeDone ref }.setRespond id
      (.accepted ref response)).slots ref (.respond id) := by
  have howed : b.slots.closes ref (.respond id) := ⟨response, hphase⟩
  refine ⟨howed, fun j => closeDone_result .., closeDone_done _ (hb.isSome_of_closes howed),
    fun j closer => ?_⟩
  rw [setRespond_closes]
  change _ ∨ (_ ∧ b.slots.closes j closer) ↔ _
  by_cases hc : closer = .respond id
  · subst hc
    simp only [ne_eq, not_true_eq_false, false_and, or_false, and_true]
    constructor
    · rintro ⟨-, response', hr⟩
      cases hr
    · rintro ⟨⟨response', hr⟩, hnot⟩
      rw [hphase] at hr
      cases hr
      exact absurd rfl hnot
  · simp [hc]

theorem shutDown_slots {entries : List (String × PendingKey × ℕ)} (hclosing : b.closing = [])
    (hall : ∀ client key ref, (client, key, ref) ∈ entries ↔ b.desk.pending client key = some ref) :
    b.slots.Settle ({ b with
      desk := b.desk.shutDown entries, closing := entries.map (·.2.2) } : Board).slots
      {ref | ref ∈ entries.map (·.2.2)} (.failed .closed) .close where
  fresh i hi := by
    obtain ⟨⟨client, key, ref⟩, hmem, rfl⟩ := mem_map.mp hi
    exact hb.fresh ((hall client key ref).mp hmem)
  result i hi := by
    obtain ⟨⟨client, key, ref⟩, hmem, rfl⟩ := mem_map.mp hi
    obtain ⟨call, hcall, -⟩ := hb.desk.pending client key ref ((hall client key ref).mp hmem)
    change (ite _ _ _ : Option PendingCall).bind _ = _
    rw [if_pos (by exact hi)]
    change (Option.map _ (b.desk.calls ref)).bind _ = _
    rw [hcall]
    rfl
  others i hi := by
    change (ite _ _ _ : Option PendingCall).bind _ = _
    rw [if_neg (by exact hi)]
    rfl
  done i := by
    change (∃ c, ite _ _ _ = some c ∧ _) ↔ ∃ c, b.desk.calls i = some c ∧ _
    split_ifs
    · cases b.desk.calls i <;> simp
    · rfl
  closes i closer := by
    cases closer with
    | request j => exact ⟨.inl, fun h => h.elim (fun h => h) fun h => nomatch h.2⟩
    | respond j => exact ⟨.inl, fun h => h.elim (fun h => h) fun h => nomatch h.2⟩
    | close =>
      change i ∈ entries.map (·.2.2) ↔ i ∈ b.closing ∨ _
      rw [hclosing]
      exact ⟨fun h => .inr ⟨h, rfl⟩, fun h => h.elim (fun h => absurd h not_mem_nil) And.left⟩

theorem closeNext_slots {rest : List ℕ} (hclosing : b.closing = ref :: rest) :
    b.slots.Close ({ b with desk := b.desk.closeDone ref, closing := rest } : Board).slots ref
      .close := by
  have howed : b.slots.closes ref .close := by
    change ref ∈ b.closing
    rw [hclosing]
    exact mem_cons_self
  refine ⟨howed, fun j => closeDone_result .., closeDone_done _ (hb.isSome_of_closes howed),
    fun j closer => ?_⟩
  cases closer with
  | request i => exact ⟨fun h => ⟨h, fun heq => nomatch heq.2⟩, And.left⟩
  | respond i => exact ⟨fun h => ⟨h, fun heq => nomatch heq.2⟩, And.left⟩
  | close =>
    have hnodup := hb.closing
    rw [hclosing, nodup_cons] at hnodup
    change j ∈ rest ↔ j ∈ b.closing ∧ _
    rw [hclosing, mem_cons]
    constructor
    · intro hj
      refine ⟨.inr hj, ?_⟩
      rintro ⟨rfl, -⟩
      exact hnodup.1 hj
    · rintro ⟨rfl | hj, hne⟩
      · exact absurd ⟨rfl, rfl⟩ hne
      · exact hj

end

theorem Move.slots (h : Move b b') (hb : b.Ok) : SlotMove b b' := by
  cases h with
  | grow desk hclients howner hpending hcalls =>
    refine .same (slots_congr (fun ref => ?_) (fun ref => ?_) fun _ _ => Iff.rfl)
    · exact congrArg (fun calls : ℕ → Option PendingCall => (calls ref).bind (·.result)) hcalls
    · change (∃ call, desk.calls ref = some call ∧ call.done) ↔ _
      rw [hcalls]
      rfl
  | refuseRequest id err hnew hcall =>
    exact .same (setRequest_slots hnew (by simp) (by simp))
  | enter id client value binding hnew hcall howner hclient hpending =>
    have hslots : Board.slots { b with desk := b.desk.enter client id value binding } =
        b.slots := by
      refine slots_congr (fun ref => ?_) (fun ref => ?_) fun _ _ => Iff.rfl
      all_goals
        rcases eq_or_ne ref id with rfl | hne
        · simp [slots, Desk.enter, hcall]
        · simp [slots, Desk.enter, hne]
    exact .same (Eq.trans (setRequest_slots hnew (by simp) (by simp)) hslots)
  | expire id hphase => exact .same (setRequest_slots hphase (by simp) (by simp))
  | take id call result hphase hcall hdone hresult =>
    rcases hphase with hphase | hphase <;> exact .same (setRequest_slots hphase (by simp) (by simp))
  | withdraw id client call hphase hcall hpending =>
    exact .settle _ _ _ (withdraw_slots hb hphase hcall hpending _)
  | lose id call result hphase => exact .same (setRequest_slots hphase (by simp) (by simp))
  | finish id result hphase => exact .close _ _ (finish_slots hb hphase)
  | refuseRespond id err hnew =>
    refine .same (slots_congr (fun _ => rfl) (fun _ => Iff.rfl) fun i closer => ?_)
    rw [setRespond_closes]
    by_cases hc : closer = .respond id
    · subst hc
      simp [slots, hnew]
    · simp [hc]
  | answer id client runID response ref call hnew hpending hcall =>
    exact .settle _ _ _ (answer_slots hb hnew hpending hcall)
  | accept id ref response hphase => exact .close _ _ (accept_slots hb hphase)
  | shutDown entries hclosing hall hnodup => exact .settle _ _ _ (shutDown_slots hb hclosing hall)
  | closeNext ref rest hclosing => exact .close _ _ (closeNext_slots hb hclosing)

theorem SlotMove.ok (h : SlotMove b b') (hb : b.slots.Ok) : b'.slots.Ok := by
  cases h with
  | same h => rwa [h]
  | settle S result closer h => exact h.ok hb
  | close ref closer h => exact h.ok hb

theorem SlotMove.result (h : SlotMove b b') {result : PendingResult}
    (hr : b.slots.result ref = some result) : b'.slots.result ref = some result := by
  cases h with
  | same h => rwa [h]
  | settle S _ closer h => exact h.keeps hr
  | close _ closer h => rwa [h.result]

theorem SlotMove.done (h : SlotMove b b') (hd : b.slots.done ref) : b'.slots.done ref := by
  cases h with
  | same h => rwa [h]
  | settle S _ closer h => exact (h.done ref).mpr hd
  | close _ closer h => exact (h.done ref).mpr (.inl hd)

/-! ## Every move keeps the invariant -/

section

variable (h : Move b b')
include h

theorem Move.calls (hi : b.desk.calls i = some call) :
    ∃ call', b'.desk.calls i = some call' ∧ call'.value = call.value := by
  cases h with
  | grow desk hclients howner hpending hcalls => exact ⟨call, hcalls ▸ hi, rfl⟩
  | shutDown entries =>
    simp only [Desk.shutDown, hi]
    split_ifs <;> simp
  | _ =>
    simp only [setRequest, setRespond, Desk.enter, Desk.settle, Desk.closeDone, update_apply]
    grind

theorem Move.noCall (hi : b.desk.calls i = none) :
    b'.desk.calls i = none ∨ b.requests i = none ∧ b'.requests i = some .waiting := by
  cases h with
  | grow desk hclients howner hpending hcalls => exact .inl (hcalls ▸ hi)
  | shutDown entries => simp [Desk.shutDown, hi]
  | _ =>
    simp only [setRequest, setRespond, Desk.enter, Desk.settle, Desk.closeDone, update_apply]
    grind

theorem Move.isSome (hi : (b.desk.calls i).isSome) : (b'.desk.calls i).isSome := by
  obtain ⟨call, hcall⟩ := isSome_iff_exists.mp hi
  obtain ⟨call', hcall', -⟩ := h.calls hcall
  exact isSome_iff_exists.mpr ⟨call', hcall'⟩

theorem Move.requests (hr : (b.requests i).isSome) : (b'.requests i).isSome := by
  cases h <;> simp only [setRequest, setRespond, update_apply] <;> grind

theorem Move.returned {result : PendingResult} (hr : b.requests i = some (.returned result)) :
    b'.requests i = some (.returned result) := by
  cases h <;> simp only [setRequest, setRespond, update_apply] <;> grind

variable (hb : b.Ok)
include hb

theorem Move.desk : b'.desk.Ok := by
  cases h with
  | grow desk hclients howner hpending hcalls hclosed =>
    exact hb.desk.grow hclients howner hpending hcalls hclosed
  | refuseRequest | expire | take | lose | refuseRespond => exact hb.desk
  | enter id client value binding hnew hcall howner hclient hpending hopen =>
    exact hb.desk.enter hcall howner hclient hpending hopen
  | withdraw id client call hphase hcall hpending => exact hb.desk.settle hpending hcall _
  | answer id client runID response ref call hnew hpending hcall =>
    exact hb.desk.settle hpending hcall _
  | finish id result hphase => exact hb.desk.closeDone id
  | accept id ref response hphase => exact hb.desk.closeDone ref
  | shutDown entries hclosing hall hnodup => exact hb.desk.shutDown hall
  | closeNext ref rest hclosing => exact hb.desk.closeDone ref

theorem PhaseOk.move {phase : RequestPhase} (hr : b.requests id = some phase)
    (hp : b.PhaseOk id phase) : b'.PhaseOk id phase := by
  have hs := h.slots hb
  cases phase with
  | waiting => exact h.isSome hp
  | cancelled => exact h.isSome hp
  | completing result => exact hs.result hp
  | draining result => exact hs.result hp
  | returned result =>
    rcases hp with ⟨hnone, herr⟩ | ⟨hresult, hdone⟩
    · rcases h.noCall hnone with hnone' | ⟨hnew, -⟩
      · exact .inl ⟨hnone', herr⟩
      · rw [hnew] at hr
        cases hr
    · exact .inr ⟨hs.result hresult, hs.done hdone⟩

theorem Move.phase {j : ℕ} {phase : RequestPhase} (hr : b'.requests j = some phase) :
    b.requests j = some phase ∨ b'.PhaseOk j phase := by
  have hs := (h.slots hb)
  have hset : ∀ {id : ℕ} {new : RequestPhase},
      update b.requests id (some new) j = some phase → b'.PhaseOk id new →
        b.requests j = some phase ∨ b'.PhaseOk j phase := by
    intro id new hj hnew
    rcases eq_or_ne j id with rfl | hne
    · rw [update_self] at hj
      exact .inr (some.inj hj ▸ hnew)
    · rw [update_of_ne hne] at hj
      exact .inl hj
  cases h with
  | grow | refuseRespond | answer | accept | shutDown | closeNext => exact .inl hr
  | refuseRequest id err hnew hcall => exact hset hr (.inl ⟨hcall, err, rfl⟩)
  | enter id client value binding hnew hcall howner hclient hpending =>
    refine hset hr (isSome_iff_exists.mpr ⟨_, update_self ..⟩)
  | expire id hphase => exact hset hr (hb.phase id _ hphase)
  | take id call result hphase hcall hdone hresult =>
    refine hset hr (.inr ⟨(result_eq hcall).trans hresult, ?_⟩)
    exact ⟨call, hcall, hdone⟩
  | withdraw id client call hphase hcall hpending =>
    exact hset hr ((settle_result ..).trans (if_pos rfl))
  | lose id call result hphase hcall hresult => exact hset hr ((result_eq hcall).trans hresult)
  | finish id result hphase =>
    have hclose := finish_slots hb hphase
    exact hset hr (.inr ⟨hs.result (hb.phase id _ hphase), (hclose.done id).mpr (.inr rfl)⟩)

theorem Move.asked (hi : (b'.desk.calls i).isSome) : (b'.requests i).isSome := by
  cases hc : b.desk.calls i with
  | some call => exact h.requests (hb.asked i (by rw [hc]; rfl))
  | none =>
    rcases h.noCall hc with hnone | ⟨-, hr⟩
    · rw [hnone] at hi
      cases hi
    · rw [hr]
      rfl

theorem Move.answers :
    (∀ i ref response, b'.Answers i ref response ↔ b.Answers i ref response) ∨
      ∃ id ref response, b.responds id = none ∧ b.slots.result ref = none ∧
        b'.slots.result ref = some (.response response) ∧
        ∀ i ref' response', b'.Answers i ref' response' ↔
          b.Answers i ref' response' ∨ i = id ∧ ref' = ref ∧ response' = response := by
  cases h with
  | grow | refuseRequest | enter | expire | take | withdraw | lose | finish | shutDown
  | closeNext => exact .inl fun _ _ _ => Iff.rfl
  | refuseRespond id err hnew =>
    refine .inl fun i ref response => ?_
    unfold Answers
    change update b.responds id _ i = _ ∨ update b.responds id _ i = _ ↔ _
    rcases eq_or_ne i id with rfl | hne
    · rw [update_self, hnew]
      simp
    · rw [update_of_ne hne]
  | answer id client runID response ref call hnew hpending hcall =>
    refine .inr ⟨id, ref, response, hnew, hb.fresh hpending, (settle_result ..).trans (if_pos rfl),
      fun i ref' response' => ?_⟩
    unfold Answers
    change update b.responds id _ i = _ ∨ update b.responds id _ i = _ ↔ _
    rcases eq_or_ne i id with rfl | hne
    · rw [update_self, hnew]
      simp [eq_comm]
    · rw [update_of_ne hne]
      simp [hne]
  | accept id ref response hphase =>
    refine .inl fun i ref' response' => ?_
    unfold Answers
    change update b.responds id _ i = _ ∨ update b.responds id _ i = _ ↔ _
    rcases eq_or_ne i id with rfl | hne
    · rw [update_self, hphase]
      simp
    · rw [update_of_ne hne]

theorem Move.newResponse (hnew : b'.slots.result ref = some (.response response)) :
    b.slots.result ref = some (.response response) ∨ ∃ id, b'.Answers id ref response := by
  have hfrom : ∀ {S : Set ℕ} {result : PendingResult} {closer : Closer},
      b.slots.Settle b'.slots S result closer → result ≠ .response response →
        b.slots.result ref = some (.response response) := by
    intro S result closer hs hne
    by_cases hin : ref ∈ S
    · rw [hs.result ref hin] at hnew
      exact absurd (some.inj hnew) hne
    · rwa [hs.others ref hin] at hnew
  have hclose : ∀ {i : ℕ} {closer : Closer}, b.slots.Close b'.slots i closer →
      b.slots.result ref = some (.response response) := by
    intro i closer hs
    rwa [hs.result] at hnew
  cases h with
  | grow desk hclients howner hpending hcalls =>
    change (desk.calls ref).bind _ = _ at hnew
    rw [hcalls] at hnew
    exact .inl hnew
  | refuseRequest | expire | take | lose | refuseRespond => exact .inl hnew
  | enter id client value binding hfresh hcall howner hclient hpending =>
    change (update b.desk.calls id _ ref).bind _ = _ at hnew
    rcases eq_or_ne ref id with rfl | hne
    · rw [update_self] at hnew
      cases hnew
    · rw [update_of_ne hne] at hnew
      exact .inl hnew
  | withdraw id client call hphase hcall hpending =>
    exact .inl (hfrom (withdraw_slots hb hphase hcall hpending _) nofun)
  | finish id result hphase => exact .inl (hclose (finish_slots hb hphase))
  | answer id client runID response' ref' call hfresh hpending hcall =>
    rcases eq_or_ne ref ref' with rfl | hne
    · have heq : (PendingResult.response response') = .response response :=
        some.inj (((settle_result ..).trans (if_pos rfl)).symm.trans hnew)
      cases heq
      exact .inr ⟨id, .inl (update_self ..)⟩
    · exact .inl (((settle_result ..).trans (if_neg hne)).symm.trans hnew)
  | accept id ref' response' hphase => exact .inl (hclose (accept_slots hb hphase))
  | shutDown entries hclosing hall hnodup =>
    exact .inl (hfrom (shutDown_slots hb hclosing hall) nofun)
  | closeNext ref' rest hclosing => exact .inl (hclose (closeNext_slots hb hclosing))

theorem Move.accepted (hi : b'.responds i = some (.accepted ref response)) : b'.slots.done ref := by
  have hs := h.slots hb
  have hold : b.responds i = some (.accepted ref response) → b'.slots.done ref :=
    fun hi => hs.done (hb.accepted i ref response hi)
  cases h with
  | accept id ref' response' hphase =>
    have hclose := accept_slots hb hphase
    simp only [setRespond, update_apply] at hi
    split_ifs at hi
    · cases hi
      exact (hclose.done ref).mpr (.inr rfl)
    · exact hold hi
  | _ =>
    simp only [setRequest, setRespond, update_apply] at hi
    grind

theorem Move.closing : b'.closing.Nodup := by
  cases h with
  | shutDown entries hclosing hall hnodup => exact hnodup
  | closeNext ref rest hclosing =>
    have hnodup := hb.closing
    rw [hclosing, nodup_cons] at hnodup
    exact hnodup.2
  | _ => exact hb.closing

end

theorem Ok.move (hb : b.Ok) (h : Move b b') : b'.Ok := by
  have hs := h.slots hb
  refine ⟨h.desk hb, hs.ok hb.slots, h.closing hb, fun id phase hr => ?_, fun _ => h.asked hb, ?_,
    fun ref response hr => ?_, ?_, fun _ _ _ => h.accepted hb⟩
  · rcases h.phase hb hr with hr' | hp
    · exact (hb.phase id phase hr').move h hb hr'
    · exact hp
  · intro id ref response ha
    rcases h.answers hb with heq | ⟨id', ref', response', -, -, hresult, heq⟩
    · exact hs.result (hb.answered id ref response ((heq id ref response).mp ha))
    · rcases (heq id ref response).mp ha with ha | ⟨-, rfl, rfl⟩
      · exact hs.result (hb.answered id ref response ha)
      · exact hresult
  · rcases h.newResponse hb hr with hr | hnew
    · obtain ⟨id, ha⟩ := hb.answerer ref response hr
      refine ⟨id, ?_⟩
      rcases h.answers hb with heq | ⟨_, _, _, -, -, -, heq⟩
      · exact (heq id ref response).mpr ha
      · exact (heq id ref response).mpr (.inl ha)
    · exact hnew
  · intro id id' ref response response' ha ha'
    rcases h.answers hb with heq | ⟨i, ref', new, -, hfresh, -, heq⟩
    · exact hb.once id id' ref _ _ ((heq id ref _).mp ha) ((heq id' ref _).mp ha')
    · -- an interaction that is answered now had no answer before
      have hnone : ∀ j r, ¬ b.Answers j ref' r := by
        intro j r hj
        rw [hb.answered j ref' r hj] at hfresh
        cases hfresh
      rcases (heq id ref response).mp ha with ha | ⟨rfl, rfl, rfl⟩ <;>
        rcases (heq id' ref response').mp ha' with ha' | ⟨rfl, hr, -⟩
      · exact hb.once id id' ref _ _ ha ha'
      · exact absurd (hr ▸ ha) (hnone id response)
      · exact absurd ha' (hnone id' response')
      · rfl

end Board

end SpiceAgent.Daemon
