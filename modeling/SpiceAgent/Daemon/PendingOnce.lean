import SpiceAgent.Daemon.PendingBoard
import SpiceAgent.Daemon.PendingContract

/-!
# Every interaction ends once

The steps of the hub are moves of its board, so that the invariant of the board holds in every state
of every run. From it follows what `Request` and `Respond` promise each other: a call that was
admitted gets one result, its request returns that result and nothing else, and a response is
accepted exactly if the request returns it.
-/

namespace SpiceAgent.Daemon

open SpiceAgent.Lib Option List System
open Function (update update_self)

/-- The calls whose channels `Close` has yet to close. -/
def ClosePhase.calls : ClosePhase → List ℕ
  | .closing calls => calls
  | .notCalled | .joining | .finished => []

namespace PendingWorld

variable {isJson : List UInt8 → Bool} {w w' : PendingWorld}

def board (w : PendingWorld) : Board where
  desk := w.hub.desk
  requests id := (w.requests id).map (·.phase)
  responds := w.responds
  closing := w.closing.calls

/-! ## The steps are moves -/

theorem setRequest_board (w : PendingWorld) (id : ℕ) (thread : RequestThread) :
    (w.setRequest id thread).board = w.board.setRequest id thread.phase := by
  refine Board.ext rfl (funext fun i => ?_) rfl rfl
  exact Function.apply_update (fun _ => Option.map RequestThread.phase) w.requests id
    (some thread) i

theorem closeDone_board (w : PendingWorld) (ref : ℕ) :
    (w.closeDone ref).board = { w.board with desk := w.board.desk.closeDone ref } := by
  unfold closeDone
  split
  next hnone =>
    refine Board.ext (Desk.ext rfl rfl rfl ?_ rfl) rfl rfl rfl
    change w.hub.calls = update w.hub.calls ref ((w.hub.calls ref).map _)
    rw [hnone, map_none, ← hnone, Function.update_eq_self]
  next call hcall =>
    refine Board.ext (Desk.ext rfl rfl rfl ?_ rfl) rfl rfl rfl
    change update w.hub.calls ref _ = update w.hub.calls ref ((w.hub.calls ref).map _)
    rw [hcall, map_some]

variable {id : ℕ} {thread : RequestThread}

theorem phase_eq {phase : RequestPhase} (hthread : w.requests id = some thread)
    (hphase : thread.phase = phase) : w.board.requests id = some phase := by
  change (w.requests id).map _ = _
  rw [hthread, map_some, hphase]

theorem move_of_desk (hdesk : w'.hub.desk = w.hub.desk)
    (hrequests : w'.board.requests = w.board.requests)
    (hresponds : w'.responds = w.responds) (hclosing : w'.closing.calls = w.closing.calls) :
    w.board.Move w'.board := by
  have hboard : w'.board = { w.board with desk := w.board.desk } :=
    Board.ext hdesk hrequests hresponds hclosing
  rw [hboard]
  exact .grow _ _ (Finset.Subset.refl _) (fun _ _ h => h) rfl rfl rfl

theorem move_addClient (client : String) (hdesk : w'.hub.desk = w.hub.desk.addClient client)
    (hrequests : w'.requests = w.requests) (hresponds : w'.responds = w.responds)
    (hclosing : w'.closing = w.closing) : w.board.Move w'.board := by
  have hboard : w'.board = { w.board with desk := w.board.desk.addClient client } := by
    refine Board.ext hdesk ?_ hresponds (congrArg ClosePhase.calls hclosing)
    unfold PendingWorld.board
    rw [hrequests]
  rw [hboard]
  exact .grow _ _ (Finset.subset_insert client _) (fun _ _ h => h) rfl rfl rfl

theorem bind_move (h : w.board.Ok) {ref : ℕ} (hnew : w.hub.bindings ref = none)
    (client runID : String) :
    w.board.Move { w with hub := (w.hub.bindRun ref client runID).1 }.board := by
  rcases PendingHub.bindRun_desk h.desk ref client runID with hdesk | hdesk | hdesk
  · exact move_of_desk hdesk rfl rfl rfl
  · exact move_addClient client hdesk rfl rfl rfl
  · have hboard : { w with hub := (w.hub.bindRun ref client runID).1 }.board =
        { w.board with desk := (w.board.desk.addClient client).addOwner ref client } :=
      Board.ext hdesk rfl rfl rfl
    rw [hboard]
    refine .grow _ _ (Finset.subset_insert client _) (fun i c hc => ?_) rfl rfl rfl
    change update w.board.desk.owner ref _ i = some c
    rw [Function.update_of_ne, hc]
    rintro rfl
    change (w.hub.bindings i).map _ = _ at hc
    rw [hnew] at hc
    cases hc

theorem request_move (hrequest : w.requests id = none) (hcall : w.hub.calls id = none)
    (runID : String) (request : Interaction.Request) (ctxDone : Bool) :
    w.board.Move (w.beginRequest isJson id runID request ctxDone).board := by
  have hnew : w.board.requests id = none := by
    change (w.requests id).map _ = _
    rw [hrequest, map_none]
  unfold beginRequest
  rcases w.hub.request_desk isJson id runID request ctxDone with
    ⟨err, heq⟩ | ⟨client, binding, howner, hclient, hpending, hopen, hok, hdesk⟩
  · rw [heq]
    dsimp only
    rw [setRequest_board]
    exact .refuseRequest _ id err hnew hcall
  · rcases heq : w.hub.request isJson id runID request ctxDone with ⟨hub, out⟩
    rw [heq] at hok hdesk
    obtain rfl : out = none := hok
    dsimp only
    rw [setRequest_board]
    have hboard : { w with hub }.board =
        { w.board with desk := w.board.desk.enter client id ⟨runID, request⟩ binding } :=
      Board.ext hdesk rfl rfl rfl
    rw [hboard]
    exact .enter _ id client ⟨runID, request⟩ binding hnew hcall howner hclient hpending hopen

variable {ctx : Bool} {call : PendingCall}

theorem complete_move (h : w.board.Ok) (hthread : w.requests id = some thread)
    (hphase : thread.phase = .cancelled) (hcall : w.hub.calls id = some call)
    (hstep : w.stepRequest id thread ctx = some w') : w.board.Move w'.board := by
  have hp := phase_eq hthread hphase
  unfold stepRequest at hstep
  rw [hphase] at hstep
  dsimp only at hstep
  rw [hcall, map_some] at hstep
  cases hstep
  rcases PendingHub.complete_desk h.desk hcall (.failed .context) with
    ⟨client, hpending, hdesk, hout⟩ | ⟨result, hresult, heq⟩
  · rcases heq : w.hub.complete id call (.failed .context) with ⟨hub, out⟩
    rw [heq] at hdesk hout
    obtain rfl : out = (.failed .context, true) := hout
    dsimp only
    rw [setRequest_board]
    have hboard : { w with hub }.board = { w.board with
        desk := w.board.desk.settle client call.value.key id call (.failed .context) } :=
      Board.ext hdesk rfl rfl rfl
    rw [hboard]
    exact .withdraw _ id client call hp hcall hpending
  · rw [heq]
    dsimp only
    rw [setRequest_board]
    exact .lose _ id call result hp hcall hresult

theorem stepRequest_move (h : w.board.Ok) (hthread : w.requests id = some thread)
    (hstep : w.stepRequest id thread ctx = some w') : w.board.Move w'.board := by
  cases hphase : thread.phase with
  | waiting =>
    have hp := phase_eq hthread hphase
    simp only [stepRequest, hphase] at hstep
    split_ifs at hstep with _ hdone hisDone
    · cases hstep
      rw [setRequest_board]
      exact .expire _ id hp
    · obtain ⟨call, hcall, hstep⟩ := bind_eq_some_iff.mp hstep
      obtain ⟨result, hresult, rfl⟩ := map_eq_some_iff.mp hstep
      rw [setRequest_board]
      have hclosed : call.done := by simpa [isDone, hcall] using hisDone
      exact .take _ id call result (.inl hp) hcall hclosed hresult
  | cancelled =>
    cases hcall : w.hub.calls id with
    | none => simp [stepRequest, hphase, hcall] at hstep
    | some call => exact complete_move h hthread hphase hcall hstep
  | completing result =>
    simp only [stepRequest, hphase] at hstep
    cases hstep
    rw [setRequest_board, closeDone_board]
    exact .finish _ id result (phase_eq hthread hphase)
  | draining result =>
    simp only [stepRequest, hphase] at hstep
    split_ifs at hstep with hisDone
    cases hstep
    rw [setRequest_board]
    have hp := phase_eq hthread hphase
    obtain ⟨call, hcall, hresult⟩ := Board.calls_of_result (h.phase id _ hp)
    have hclosed : call.done := by
      have hcalls : w.hub.calls id = some call := hcall
      simpa [isDone, hcalls] using hisDone
    exact .take _ id call result (.inr hp) hcall hclosed hresult
  | returned result => simp [stepRequest, hphase] at hstep

theorem respond_move (hnew : w.responds id = none) (client runID : String)
    (response : Interaction.Response) :
    w.board.Move (w.beginRespond isJson id client runID response).board := by
  unfold beginRespond
  rcases w.hub.respond_desk isJson client runID response with
    ⟨err, heq⟩ | ⟨ref, call, hpending, hcall, hok, hdesk⟩
  · rw [heq]
    exact .refuseRespond _ id err hnew
  · rcases heq : w.hub.respond isJson client runID response with ⟨hub, out⟩
    rw [heq] at hok hdesk
    obtain rfl : out = .ok ref := hok
    have hboard : { w with hub }.board = { w.board with
        desk := w.board.desk.settle client ⟨runID, response.id⟩ ref call (.response response) } :=
      Board.ext hdesk rfl rfl rfl
    change w.board.Move ({ w with hub }.board.setRespond id (.closing ref response))
    rw [hboard]
    exact .answer _ id client runID response ref call hnew hpending hcall

theorem stepClose_move (h : w.board.Ok) (hstep : w.stepClose = some w') :
    w.board.Move w'.board := by
  unfold stepClose at hstep
  split at hstep
  next hclosing =>
    cases hstep
    have hboard : { w with hub := w.hub.close.1, closing := .closing w.hub.close.2 }.board =
        { w.board with
          desk := w.board.desk.shutDown w.hub.closeEntries
          closing := w.hub.closeEntries.map (·.2.2) } :=
      Board.ext (PendingHub.close_desk h.desk) rfl rfl rfl
    rw [hboard]
    exact .shutDown _ _ (congrArg ClosePhase.calls hclosing)
      (fun _ _ _ => PendingHub.mem_closeEntries h.desk) (PendingHub.nodup_closeEntries h.desk)
  next hclosing =>
    cases hstep
    exact move_of_desk rfl rfl rfl (congrArg ClosePhase.calls hclosing).symm
  next ref rest hclosing =>
    cases hstep
    have hboard : { w.closeDone ref with closing := .closing rest }.board =
        { w.board with desk := w.board.desk.closeDone ref, closing := rest } := by
      have hclose := w.closeDone_board ref
      have hdesk := congrArg Board.desk hclose
      have hrequests := congrArg Board.requests hclose
      have hresponds := congrArg Board.responds hclose
      exact Board.ext hdesk hrequests hresponds rfl
    rw [hboard]
    exact .closeNext _ ref rest (congrArg ClosePhase.calls hclosing)
  next hclosing =>
    split_ifs at hstep
    cases hstep
    exact move_of_desk rfl rfl rfl (congrArg ClosePhase.calls hclosing).symm
  next => cases hstep

theorem step_move (h : w.board.Ok) {l : Label} (hstep : w.step isJson l = some w') :
    w.board.Move w'.board := by
  have hsame : w'.board = w.board → w.board.Move w'.board := fun heq => by
    rw [heq]
    exact move_of_desk rfl rfl rfl rfl
  cases l with
  | bind ref client runID =>
    simp only [step] at hstep
    split_ifs at hstep with hnew
    cases hstep
    exact bind_move h (not_isSome_iff_eq_none.mp hnew) client runID
  | release ref =>
    cases hstep
    exact move_of_desk (PendingHub.release_desk ..) rfl rfl rfl
  | request id runID request ctxDone =>
    simp only [step] at hstep
    split_ifs at hstep with hnew
    cases hstep
    rw [not_or, not_isSome_iff_eq_none, not_isSome_iff_eq_none] at hnew
    exact request_move hnew.1 hnew.2 runID request ctxDone
  | runRequest id ctx =>
    obtain ⟨thread, hthread, hstep⟩ := bind_eq_some_iff.mp hstep
    exact stepRequest_move h hthread hstep
  | cancel id =>
    obtain ⟨thread, hthread, rfl⟩ := map_eq_some_iff.mp hstep
    refine hsame ?_
    rw [setRequest_board]
    refine Board.ext rfl ?_ rfl rfl
    change update w.board.requests id (some thread.phase) = _
    rw [← phase_eq hthread rfl, Function.update_eq_self]
  | respond id client runID response =>
    simp only [step] at hstep
    split_ifs at hstep with hnew
    cases hstep
    exact respond_move (not_isSome_iff_eq_none.mp hnew) client runID response
  | runRespond id =>
    obtain ⟨thread, hthread, hstep⟩ := bind_eq_some_iff.mp hstep
    split at hstep
    next ref response =>
      cases hstep
      have hboard : ((w.closeDone ref).setRespond id (.accepted ref response)).board =
          (w.closeDone ref).board.setRespond id (.accepted ref response) := rfl
      rw [hboard, closeDone_board]
      exact .accept _ id ref response hthread
    · cases hstep
  | subscribe ref client ctxDone =>
    simp only [step] at hstep
    split_ifs at hstep
    cases hstep
    rcases PendingHub.subscribe_desk h.desk ref client ctxDone with hdesk | hdesk
    · exact move_of_desk hdesk rfl rfl rfl
    · exact move_addClient client hdesk rfl rfl rfl
  | detach ref =>
    cases hstep
    exact move_of_desk (PendingHub.finishWatcher_aside ..).desk rfl rfl rfl
  | deliver ref stop =>
    obtain ⟨watcher, -, hgo⟩ := bind_eq_some_iff.mp hstep
    obtain ⟨hub, rfl, hdelivery⟩ := stepDeliver_delivery hgo
    exact move_of_desk hdelivery.desk rfl rfl rfl
  | fence id client =>
    simp only [step] at hstep
    split_ifs at hstep
    cases hstep
    refine hsame ?_
    unfold beginFence
    split
    · rfl
    split_ifs
    · rfl
    · exact Board.ext (PendingHub.finishWatchers_aside ..).desk rfl rfl rfl
    · rfl
  | runFence id =>
    obtain ⟨fence, -, hstep⟩ := bind_eq_some_iff.mp hstep
    refine hsame ?_
    unfold stepFence at hstep
    split at hstep
    · split_ifs at hstep
      cases hstep
      rfl
    · split_ifs at hstep
      cases hstep
      rfl
    · cases hstep
    · cases hstep
  | close => exact stepClose_move h hstep

theorem init_board (limits : PendingLimits) : (pendingSystem isJson limits).init.board.Ok where
  desk := ⟨nofun, nofun, nofun, nofun, nofun⟩
  slots := by
    have hcloses : ∀ i k, ¬ (pendingSystem isJson limits).init.board.slots.closes i k := by
      intro i k hk
      cases k with
      | request id =>
        obtain ⟨-, result, hr⟩ := hk
        cases hr
      | respond id =>
        obtain ⟨response, hr⟩ := hk
        cases hr
      | close => cases hk
    refine ⟨fun i k hk => absurd hk (hcloses i k), nofun,
      fun i k _ hk => absurd hk (hcloses i k), fun i hi => ?_⟩
    obtain ⟨call, hcall, -⟩ := hi
    cases hcall
  closing := nodup_nil
  phase := nofun
  asked := nofun
  answered _ _ _ h := h.elim nofun nofun
  answerer := nofun
  once _ _ _ _ _ h := h.elim nofun nofun
  accepted := nofun

theorem reachable_board {limits : PendingLimits} (h : (pendingSystem isJson limits).Reachable w) :
    w.board.Ok :=
  System.Reachable.invariant (I := fun w => w.board.Ok) (init_board limits)
    (fun _ hb hstep => hb.move (step_move hb hstep)) h

/-! ## Requests return -/

def Returns (w : PendingWorld) (id : ℕ) (result : PendingResult) : Prop :=
  ∃ thread, w.requests id = some thread ∧ thread.phase = .returned result

def Label.Continues (w : PendingWorld) : Label → Prop
  | .runRequest _ _ | .runRespond _ => True
  | .close => w.closing ≠ .notCalled
  | _ => False

/-- The calls that have begun can go on, without a step of anyone else, until the request has
returned this result. -/
def CanReturn (M : System PendingWorld Label) (w : PendingWorld) (id : ℕ) (result : PendingResult) :
    Prop :=
  ∃ ls w', (∀ l ∈ ls, Label.Continues w l) ∧ M.run w ls = some w' ∧ w'.Returns id result

variable {result : PendingResult}

theorem returns_iff : w.Returns id result ↔ w.board.requests id = some (.returned result) :=
  map_eq_some_iff.symm

variable {limits : PendingLimits} {ls : List Label}

section

variable (hb : w.board.Ok) (hrun : (pendingSystem isJson limits).run w ls = some w')
include hb hrun

theorem run_board : w'.board.Ok :=
  run_invariant (I := fun w => w.board.Ok)
    (fun hb hstep => hb.move (step_move hb hstep)) hrun hb

theorem run_result {ref : ℕ} (hr : w.board.slots.result ref = some result) :
    w'.board.slots.result ref = some result := by
  refine (run_invariant
    (I := fun w => w.board.Ok ∧ w.board.slots.result ref = some result)
    (fun {v _ _} hv hstep => ?_) hrun ⟨hb, hr⟩).2
  have hmove := step_move hv.1 hstep
  exact ⟨hv.1.move hmove, (hmove.slots hv.1).result hv.2⟩

theorem run_returned (hr : w.Returns id result) : w'.Returns id result := by
  rw [returns_iff] at hr ⊢
  refine (run_invariant
    (I := fun w => w.board.Ok ∧ w.board.requests id = some (.returned result))
    (fun {v _ _} hv hstep => ?_) hrun ⟨hb, hr⟩).2
  have hmove := step_move hv.1 hstep
  exact ⟨hv.1.move hmove, hmove.returned hv.2⟩

end

theorem CanReturn.prepend (hrun : (pendingSystem isJson limits).run w ls = some w')
    (hls : ∀ l ∈ ls, Label.Continues w l)
    (hclosing : w'.closing ≠ .notCalled → w.closing ≠ .notCalled)
    (h : CanReturn (pendingSystem isJson limits) w' id result) :
    CanReturn (pendingSystem isJson limits) w id result := by
  obtain ⟨ls', w'', hls', hrun', hreturns⟩ := h
  refine ⟨ls ++ ls', w'', fun l hl => ?_, run_trans hrun hrun', hreturns⟩
  rcases mem_append.mp hl with hl | hl
  · exact hls l hl
  · have hl' := hls' l hl
    cases l with
    | runRequest | runRespond => trivial
    | close => exact hclosing hl'
    | _ => exact hl'

theorem isDone_eq (h : w.board.slots.done id) : w.isDone id = true := by
  obtain ⟨call, hcall, hdone⟩ := h
  have hcalls : w.hub.calls id = some call := hcall
  unfold isDone
  rw [hcalls]
  exact hdone

theorem canReturn_of_done (hb : w.board.Ok) (hdone : w.board.slots.done id)
    (hresult : w.board.slots.result id = some result) :
    CanReturn (pendingSystem isJson limits) w id result := by
  obtain ⟨call, hcall, hres⟩ := Board.calls_of_result hresult
  have hcalls : w.hub.calls id = some call := hcall
  obtain ⟨phase, hphase⟩ := isSome_iff_exists.mp
    (hb.asked id (isSome_iff_exists.mpr ⟨call, hcall⟩))
  obtain ⟨thread, hthread, rfl⟩ := map_eq_some_iff.mp hphase
  have hclosed := isDone_eq hdone
  have hcont : ∀ {v : PendingWorld}, ∀ l ∈ [Label.runRequest id false], Label.Continues v l := by
    intro v l hl
    rw [mem_singleton.mp hl]
    trivial
  have hset : ∀ (v : PendingWorld) (t : RequestThread),
      (v.setRequest id { t with phase := .returned result }).Returns id result :=
    fun v t => ⟨_, update_self .., rfl⟩
  -- the last step, from a request that knows its result
  have hdrain : ∀ {v : PendingWorld} {t : RequestThread}, v.requests id = some t →
      t.phase = .draining result → v.isDone id = true →
      CanReturn (pendingSystem isJson limits) v id result := by
    intro v t ht hp hd
    refine ⟨[.runRequest id false], v.setRequest id { t with phase := .returned result }, hcont, ?_,
      hset v t⟩
    change ((v.requests id).bind _).bind _ = _
    rw [ht, bind_some]
    simp [stepRequest, hp, hd]
  cases hp : thread.phase with
  | waiting =>
    refine ⟨[.runRequest id false], w.setRequest id { thread with phase := .returned result },
      hcont, ?_, hset w thread⟩
    change ((w.requests id).bind _).bind _ = _
    rw [hthread, bind_some]
    simp [stepRequest, hp, hclosed, hcalls, hres]
  | cancelled =>
    -- its call has a result, so that it only has to wait for the channel
    have hlose : w.hub.complete id call (.failed .context) = (w.hub, result, false) := by
      rcases PendingHub.complete_desk hb.desk hcall (.failed .context) with
        ⟨client, hpending, -⟩ | ⟨result', hresult', heq⟩
      · rw [hb.fresh hpending] at hresult
        cases hresult
      · rw [heq, some.inj (hresult'.symm.trans hres)]
    have hstep : (pendingSystem isJson limits).run w [.runRequest id false] =
        some (w.setRequest id { thread with phase := .draining result }) := by
      change ((w.requests id).bind _).bind _ = _
      rw [hthread, bind_some]
      simp [stepRequest, hp, hcalls, hlose]
    exact .prepend hstep hcont (fun h => h) (hdrain (update_self ..) rfl hclosed)
  | completing result' =>
    have hcloses : w.board.slots.closes id (.request id) := ⟨rfl, result', phase_eq hthread hp⟩
    exact absurd hdone (hb.slots.owed id _ hcloses).2
  | draining result' =>
    have hresult' := hb.phase id _ (phase_eq hthread hp)
    obtain rfl : result' = result := some.inj (hresult'.symm.trans hresult)
    exact hdrain hthread hp hclosed
  | returned result' =>
    refine ⟨[], w, fun l hl => absurd hl not_mem_nil, rfl, thread, hthread, ?_⟩
    rcases hb.phase id _ (phase_eq hthread hp) with ⟨hnone, -⟩ | ⟨hresult', -⟩
    · rw [hcall] at hnone
      cases hnone
    · rw [hp, some.inj (hresult'.symm.trans hresult)]

theorem close_reaches (isJson : List UInt8 → Bool) (limits : PendingLimits) {calls : List ℕ}
    (hb : w.board.Ok) (hclosing : w.closing = .closing calls) (hid : id ∈ calls) :
    ∃ ls w', (∀ l ∈ ls, l = Label.close) ∧
      (pendingSystem isJson limits).run w ls = some w' ∧ w'.board.slots.done id := by
  induction calls generalizing w with
  | nil => cases hid
  | cons ref rest ih =>
    have hstep : w.step isJson .close = some { w.closeDone ref with closing := .closing rest } := by
      change w.stepClose = _
      unfold stepClose
      rw [hclosing]
    have hmove := step_move hb hstep
    have hrun : ∀ ls, (pendingSystem isJson limits).run w (.close :: ls) =
        (pendingSystem isJson limits).run { w.closeDone ref with closing := .closing rest } ls := by
      intro ls
      change (w.step isJson .close).bind _ = _
      rw [hstep]
      rfl
    rcases mem_cons.mp hid with rfl | hid
    · refine ⟨[.close], { w.closeDone id with closing := .closing rest },
        fun l hl => mem_singleton.mp hl, hrun [], ?_⟩
      · have hclose := Board.closeNext_slots hb (congrArg ClosePhase.calls hclosing)
        have hdone := (hclose.done id).mpr (.inr rfl)
        have hdesk := congrArg Board.desk (w.closeDone_board id)
        change ∃ call, (w.closeDone id).board.desk.calls id = some call ∧ _
        rw [hdesk]
        exact hdone
    · obtain ⟨ls, w', hls, hrest, hdone⟩ := ih (hb.move hmove) rfl hid
      refine ⟨.close :: ls, w', fun l hl => ?_, (hrun ls).trans hrest, hdone⟩
      rcases mem_cons.mp hl with rfl | hl
      · rfl
      · exact hls l hl

theorem canReturn_of_result (hb : w.board.Ok) (hresult : w.board.slots.result id = some result) :
    CanReturn (pendingSystem isJson limits) w id result := by
  by_cases hdone : w.board.slots.done id
  · exact canReturn_of_done hb hdone hresult
  obtain ⟨closer, hcloses⟩ := hb.slots.closer id result hresult hdone
  cases closer with
  | request id' =>
    obtain ⟨rfl, result', hphase⟩ := hcloses
    obtain rfl : result' = result :=
      some.inj ((hb.phase id' _ hphase).symm.trans hresult)
    obtain ⟨thread, hthread, hp⟩ := map_eq_some_iff.mp hphase
    refine ⟨[.runRequest id' false],
      (w.closeDone id').setRequest id' { thread with phase := .returned result' },
      fun l hl => ?_, ?_,
      ⟨_, update_self .., rfl⟩⟩
    · rw [mem_singleton.mp hl]
      trivial
    · change ((w.requests id').bind _).bind _ = _
      rw [hthread, bind_some]
      simp [stepRequest, hp]
  | respond respond =>
    obtain ⟨response, hthread⟩ := hcloses
    have hthread' : w.responds respond = some (.closing id response) := hthread
    have hstep : w.step isJson (.runRespond respond) =
        some ((w.closeDone id).setRespond respond (.accepted id response)) := by
      simp only [step, hthread', bind_some]
    have hrun : (pendingSystem isJson limits).run w [.runRespond respond] =
        some ((w.closeDone id).setRespond respond (.accepted id response)) := by
      change (w.step isJson (.runRespond respond)).bind _ = _
      rw [hstep]
      rfl
    have hb' := run_board hb hrun
    refine .prepend hrun (fun l hl => ?_) ?_
      (canReturn_of_done hb' (hb'.accepted respond id response (update_self ..))
        (run_result hb hrun hresult))
    · rw [mem_singleton.mp hl]
      trivial
    · exact fun hne => (w.closeDone_rest id).1 ▸ hne
  | close =>
    have hin : id ∈ w.closing.calls := hcloses
    cases hclosing : w.closing with
    | closing calls =>
      rw [hclosing] at hin
      obtain ⟨ls, w', hls, hrun, hdone'⟩ := close_reaches isJson limits hb hclosing hin
      refine .prepend hrun (fun l hl => ?_) (fun _ => ?_)
        (canReturn_of_done (run_board hb hrun) hdone' (run_result hb hrun hresult))
      · rw [hls l hl]
        change w.closing ≠ _
        rw [hclosing]
        simp
      · rw [hclosing]
        simp
    | notCalled | joining | finished =>
      rw [hclosing] at hin
      cases hin

theorem CanReturn.request (hthread : w.requests id = some thread)
    (hstep : w.stepRequest id thread ctx = some w')
    (h : CanReturn (pendingSystem isJson limits) w' id result) :
    CanReturn (pendingSystem isJson limits) w id result := by
  have hrun : (pendingSystem isJson limits).run w [.runRequest id ctx] = some w' := by
    change ((w.requests id).bind _).bind _ = _
    rw [hthread, bind_some, hstep]
    rfl
  refine .prepend hrun (fun l hl => ?_) (fun hne => ?_) h
  · rw [mem_singleton.mp hl]
    trivial
  · have hrest : w.hub.Turn (fun _ => True) w'.hub ∧ _ := stepRequest_turn hstep
    rwa [hrest.2.1] at hne

section

variable (hb : w.board.Ok) (hcall : w.hub.calls id = some call)
  (hthread : w.requests id = some thread)
include hb hcall hthread

theorem complete_result (hphase : thread.phase = .cancelled) :
    ∃ w' result, w.stepRequest id thread false = some w' ∧ w'.board.slots.result id =
      some result := by
  rcases hout : w.hub.complete id call (.failed .context) with ⟨hub, result, won⟩
  cases won with
  | true =>
    have hstep : w.stepRequest id thread false =
        some ({ w with hub }.setRequest id { thread with phase := .completing result }) := by
      simp only [stepRequest, hphase, hcall, map_some, hout]
    have hb' := hb.move (stepRequest_move hb hthread hstep)
    exact ⟨_, result, hstep, hb'.phase id (.completing result)
      (phase_eq (update_self ..) rfl)⟩
  | false =>
    have hstep : w.stepRequest id thread false =
        some ({ w with hub }.setRequest id { thread with phase := .draining result }) := by
      simp only [stepRequest, hphase, hcall, map_some, hout]
    have hb' := hb.move (stepRequest_move hb hthread hstep)
    exact ⟨_, result, hstep, hb'.phase id (.draining result)
      (phase_eq (update_self ..) rfl)⟩

theorem canReturn_of_cancelled (isJson : List UInt8 → Bool) (limits : PendingLimits)
    (hphase : thread.phase = .cancelled) :
    ∃ result, CanReturn (pendingSystem isJson limits) w id result := by
  obtain ⟨w', result, hstep, hresult⟩ := complete_result hb hcall hthread hphase
  have hb' := hb.move (stepRequest_move hb hthread hstep)
  exact ⟨result, .request hthread hstep (canReturn_of_result hb' hresult)⟩

theorem canReturn_of_context (hctx : thread.ctxDone) :
    ∃ result, CanReturn (pendingSystem isJson limits) w id result := by
  cases hp : thread.phase with
  | waiting =>
    have hstep : w.stepRequest id thread true =
        some (w.setRequest id { thread with phase := .cancelled }) := by
      simp [stepRequest, hp, hctx]
    have hb' := hb.move (stepRequest_move hb hthread hstep)
    obtain ⟨result, hreturn⟩ := canReturn_of_cancelled hb' hcall (update_self ..) isJson limits rfl
    exact ⟨result, .request hthread hstep hreturn⟩
  | cancelled => exact canReturn_of_cancelled hb hcall hthread isJson limits hp
  | completing result =>
    exact ⟨result, canReturn_of_result hb (hb.phase id _ (phase_eq hthread hp))⟩
  | draining result => exact ⟨result, canReturn_of_result hb (hb.phase id _ (phase_eq hthread hp))⟩
  | returned result =>
    rcases hb.phase id _ (phase_eq hthread hp) with ⟨hnone, -⟩ | ⟨hresult, -⟩
    · rw [show w.board.desk.calls id = some call from hcall] at hnone
      cases hnone
    · exact ⟨result, canReturn_of_result hb hresult⟩

end

/-! ## The contract -/

/-- What holds of the interactions in a state. -/
structure EndsOnce (isJson : List UInt8 → Bool) (M : System PendingWorld Label) (w : PendingWorld) :
    Prop where
  /-- A call that was admitted has its request, and as long as it has no result it is pending for
  the client that owns its run. -/
  waits : ∀ id call, w.hub.calls id = some call → (w.requests id).isSome ∧
    (call.result = none → ∃ client, (w.hub.bindings call.binding).map (·.clientID) = some client ∧
      (w.hub.partition client).pending.lookup call.value.key = some id)
  /-- Its request returns when the call has a result, its context has ended or the hub is closed. -/
  returns : ∀ id call thread, w.hub.calls id = some call → w.requests id = some thread →
    (call.result.isSome ∨ thread.ctxDone ∨ w.hub.closed) → ∃ result, CanReturn M w id result
  /-- It returns one result. -/
  final : ∀ id result, w.Returns id result → ∀ ls w', M.run w ls = some w' →
    ∀ result', w'.Returns id result' ↔ result' = result
  /-- A response that a request returned was accepted. -/
  accepted : ∀ id response, w.Returns id (.response response) →
    ∃ respond, w.responds respond = some (.accepted id response)
  /-- The request returns a response that was accepted, and nothing else. -/
  answered : ∀ respond id response, w.responds respond = some (.accepted id response) →
    CanReturn M w id (.response response) ∧
      ∀ ls w' result, M.run w ls = some w' → w'.Returns id result → result = .response response
  /-- At most one response is accepted. -/
  once : ∀ respond respond' id response response', w.responds respond =
    some (.accepted id response) →
    w.responds respond' = some (.accepted id response') → respond = respond'
  /-- `Respond` completes the pending call of its own run and interaction, or it is refused and
  changes nothing. -/
  addressed :
    ∀ respond client runID response w', w.step isJson (.respond respond client runID response) =
    some w' → (w'.hub = w.hub ∧ ∃ err, w'.responds respond = some (.refused err)) ∨
      ∃ id call, w.hub.calls id = some call ∧ call.value.key = ⟨runID, response.id⟩ ∧
        (w.hub.bindings call.binding).map (·.clientID) = some client ∧
        w'.responds respond = some (.closing id response)
  /-- A client that does not own the run is refused. -/
  stranger : ∀ respond client runID response w',
    w.step isJson (.respond respond client runID response) = some w' →
    (∀ binding state, w.hub.runs.lookup runID = some binding → w.hub.bindings binding = some state →
      state.clientID ≠ client) →
    w'.hub = w.hub ∧ ∃ err, w'.responds respond = some (.refused err)

theorem respond_stranger (isJson : List UInt8 → Bool) {client runID : String} {hub : PendingHub}
    (howner : ∀ binding state, hub.runs.lookup runID = some binding →
      hub.bindings binding = some state →
      state.clientID ≠ client) (response : Interaction.Response) :
    ∃ err, hub.respond isJson client runID response = (hub, .error err) := by
  unfold PendingHub.respond
  split
  · exact ⟨_, rfl⟩
  split_ifs
  · exact ⟨_, rfl⟩
  · exact ⟨_, rfl⟩
  · exact ⟨_, rfl⟩
  split
  · exact ⟨_, rfl⟩
  next state hstate =>
    obtain ⟨binding, hbinding, hstate⟩ := bind_eq_some_iff.mp hstate
    rw [if_pos (.inl (howner binding state hbinding hstate))]
    exact ⟨_, rfl⟩

theorem respond_addressed (hb : w.board.Ok) (respond : ℕ) (client runID : String)
    (response : Interaction.Response) :
    ((w.beginRespond isJson respond client runID response).hub = w.hub ∧
        ∃ err, (w.beginRespond isJson respond client runID response).responds respond =
          some (.refused err)) ∨
      ∃ id call, w.hub.calls id = some call ∧ call.value.key = ⟨runID, response.id⟩ ∧
        (w.hub.bindings call.binding).map (·.clientID) = some client ∧
        (w.beginRespond isJson respond client runID response).responds respond =
          some (.closing id response) := by
  unfold beginRespond
  rcases w.hub.respond_desk isJson client runID response with
    ⟨err, heq⟩ | ⟨ref, call, hpending, hcall, hok, -⟩
  · rw [heq]
    exact .inl ⟨rfl, err, update_self ..⟩
  · obtain ⟨call', hcall', hkey, -, howner⟩ := hb.desk.pending client _ ref hpending
    rcases heq : w.hub.respond isJson client runID response with ⟨hub, out⟩
    rw [heq] at hok
    obtain rfl : out = .ok ref := hok
    exact .inr ⟨ref, call', hcall', hkey, howner, update_self ..⟩

end PendingWorld

/-- Every interaction ends exactly once. -/
theorem interactions_end_once {isJson : List UInt8 → Bool} {limits : PendingLimits}
    {w : PendingWorld} (h : (pendingSystem isJson limits).Reachable w) :
    w.EndsOnce isJson (pendingSystem isJson limits) := by
  have hb := PendingWorld.reachable_board h
  constructor
  case waits =>
    intro id call hcall
    have hasked := hb.asked id (isSome_iff_exists.mpr ⟨call, hcall⟩)
    exact ⟨isSome_map ▸ hasked, hb.desk.waits id call hcall⟩
  case returns =>
    intro id call thread hcall hthread hends
    have hresult : ∀ result, call.result = some result →
        ∃ result, PendingWorld.CanReturn (pendingSystem isJson limits) w id result := by
      intro result hr
      exact ⟨result, PendingWorld.canReturn_of_result hb ((Board.result_eq hcall).trans hr)⟩
    rcases hends with hsome | hctx | hclosed
    · obtain ⟨result, hr⟩ := isSome_iff_exists.mp hsome
      exact hresult result hr
    · exact PendingWorld.canReturn_of_context hb hcall hthread hctx
    · cases hr : call.result with
      | some result => exact hresult result hr
      | none =>
        obtain ⟨client, -, hpending⟩ := hb.desk.waits id call hcall hr
        rw [hb.desk.closed hclosed] at hpending
        cases hpending
  case final =>
    intro id result hreturns ls w' hrun result'
    have hreturns' := PendingWorld.run_returned hb hrun hreturns
    constructor
    · intro h'
      rw [PendingWorld.returns_iff] at h' hreturns'
      exact RequestPhase.returned.inj (some.inj (h'.symm.trans hreturns'))
    · rintro rfl
      exact hreturns'
  case accepted =>
    intro id response hreturns
    rw [PendingWorld.returns_iff] at hreturns
    rcases hb.phase id _ hreturns with ⟨-, err, heq⟩ | ⟨hresult, hdone⟩
    · cases heq
    · obtain ⟨respond, hclosing | haccepted⟩ := hb.answerer id response hresult
      -- the channel is closed, so the call of `Respond` is not about to close it
      · have hcloses : w.board.slots.closes id (.respond respond) := ⟨response, hclosing⟩
        exact absurd hdone (hb.slots.owed id _ hcloses).2
      · exact ⟨respond, haccepted⟩
  case answered =>
    intro respond id response haccepted
    have hresult := hb.answered respond id response (.inr haccepted)
    refine ⟨PendingWorld.canReturn_of_result hb hresult, fun ls w' result hrun hreturns => ?_⟩
    have hresult' := PendingWorld.run_result hb hrun hresult
    obtain ⟨call, hcall, -⟩ := Board.calls_of_result hresult'
    rw [PendingWorld.returns_iff] at hreturns
    rcases (PendingWorld.run_board hb hrun).phase id _ hreturns with ⟨hnone, -⟩ | ⟨hr, -⟩
    · rw [hcall] at hnone
      cases hnone
    · exact some.inj (hr.symm.trans hresult')
  case once =>
    intro respond respond' id response response' h₁ h₂
    exact hb.once respond respond' id response response' (.inr h₁) (.inr h₂)
  case addressed =>
    intro respond client runID response w' hstep
    simp only [PendingWorld.step] at hstep
    split_ifs at hstep
    cases hstep
    exact PendingWorld.respond_addressed hb respond client runID response
  case stranger =>
    intro respond client runID response w' hstep howner
    obtain ⟨err, heq⟩ := PendingWorld.respond_stranger isJson howner response
    simp only [PendingWorld.step] at hstep
    split_ifs at hstep
    cases hstep
    unfold PendingWorld.beginRespond
    rw [heq]
    exact ⟨rfl, err, update_self ..⟩

/-- An answer wins against the end of the request's context; a stranger and a second answer come
too. -/
def racedRun : List PendingWorld.Label :=
  openedRun ++
    [.respond 0 "d" "r" ⟨[113], [123, 125]⟩, .respond 1 "c" "r" ⟨[113], [123, 125]⟩, .cancel 0,
    .runRequest 0 true, .runRequest 0 false, .respond 2 "c" "r" ⟨[113], [123, 125]⟩, .runRespond 1,
    .runRequest 0 false]

theorem interactions_end_once_raced :
    ∃ w, sampleSystem.after racedRun = some w ∧
      w.Returns 0 (.response ⟨[113], [123, 125]⟩) ∧ w.responds 2 = some (.refused .notPending) ∧
      w.EndsOnce (fun _ => true) sampleSystem := by
  have hrun : sampleSystem.after racedRun = some _ := rfl
  exact ⟨_, hrun, ⟨⟨true, .returned (.response ⟨[113], [123, 125]⟩)⟩, by decide, rfl⟩, by decide,
    interactions_end_once (reachable_of_run hrun)⟩

end SpiceAgent.Daemon
