import Wiii.NekoChill.Commands

/-!
# No call before its event is saved

An operation that waits for a save has its event in the snapshot that is saved; one that is further holds it in a save
that succeeded (`OperationKept`).  `writtenOrUndone_run` reads off what was saved before a call.
-/

namespace Wiii.NekoChill

namespace CommandSession

/-! ## What an operation has saved -/

def Records (operation : CommandOperation) (event : NekoSessionEvent) : Prop :=
  match operation.command with
  | .prompt messageId text => event.eventId = operation.eventId ∧
    event.data = .modelInput true messageId text (some operation.instanceId) true
  | .cancel => ∃ promptEventId, event.data = .runtimeCommand operation.instanceId promptEventId true
  | .permission requestId optionId => event.data = .permissionDecision requestId optionId operation.instanceId true
  | .config optionId previousValue value =>
    event.data = .controlChange .requested optionId previousValue value none

def Holds (s : CommandSession) (operation : CommandOperation) (snapshot : List NekoSessionEvent) : Prop :=
  ∃ event ∈ snapshot, (event, operation.instanceId) ∈ s.stagedOn ∧ Records operation event

def Saved (s : CommandSession) (operation : CommandOperation) : Prop :=
  ∃ snapshot ∈ s.durable, s.Holds operation snapshot

def OperationKept (s : CommandSession) (operation : CommandOperation) : Prop :=
  match operation.phase with
  | .retrieving | .settled => True
  | .persisting snapshot => s.Holds operation snapshot
  | .persisted => s.Saved operation
  | .configuring | .committing _ | .compensating _ | .compensated _ =>
    s.Saved operation ∧ ⟨operation.request, operation.instanceId⟩ ∈ s.calls

structure Kept (s : CommandSession) : Prop where
  operations : ∀ operation ∈ s.operations, s.OperationKept operation
  ahead : s.WrittenOrUndone

/-- Nothing that was recorded, saved or called is forgotten. -/
structure Grows (s t : CommandSession) : Prop where
  stagedOn : ∀ entry ∈ s.stagedOn, entry ∈ t.stagedOn
  durable : ∀ snapshot ∈ s.durable, snapshot ∈ t.durable
  calls : ∀ call ∈ s.calls, call ∈ t.calls

variable {s t : CommandSession} {operation : CommandOperation} {snapshot : List NekoSessionEvent} {i : ℕ}
  {phase : CommandPhase} {stamp : Stamp}

theorem Holds.mono (h : s.Holds operation snapshot) (hgrows : Grows s t) : t.Holds operation snapshot := by
  obtain ⟨event, hmem, hstaged, hrecords⟩ := h
  exact ⟨event, hmem, hgrows.stagedOn _ hstaged, hrecords⟩

theorem Saved.mono (h : s.Saved operation) (hgrows : Grows s t) : t.Saved operation := by
  obtain ⟨snapshot, hmem, hholds⟩ := h
  exact ⟨snapshot, hgrows.durable snapshot hmem, hholds.mono hgrows⟩

theorem OperationKept.mono (h : s.OperationKept operation) (hgrows : Grows s t) : t.OperationKept operation := by
  unfold OperationKept at h ⊢
  split
  · trivial
  · trivial
  · rename_i hphase
    rw [hphase] at h
    exact h.mono hgrows
  · rename_i hphase
    rw [hphase] at h
    exact h.mono hgrows
  all_goals
    rename_i hphase
    rw [hphase] at h
    exact ⟨h.1.mono hgrows, hgrows.calls _ h.2⟩

/-- What `WrittenOrUndone` says of one call. -/
def Covered (s : CommandSession) (call : DriverCall) : Prop :=
  ∃ snapshot ∈ s.durable, ∃ event ∈ snapshot, (event, call.instanceId) ∈ s.stagedOn ∧
    (Stages event call.instanceId call.request ∨ s.Undoes event call.instanceId call.request)

theorem Undoes.mono {event : NekoSessionEvent} {instanceId : JsText} {request : DriverRequest}
    (h : s.Undoes event instanceId request) (hgrows : Grows s t) : t.Undoes event instanceId request := by
  cases request with
  | setConfigOption optionId value =>
    obtain ⟨nextValue, hdata, hforward⟩ := h
    exact ⟨nextValue, hdata, hgrows.calls _ hforward⟩
  | _ => exact h

theorem Covered.mono {call : DriverCall} (h : s.Covered call) (hgrows : Grows s t) : t.Covered call := by
  obtain ⟨snapshot, hsnapshot, event, hevent, hstaged, hwhat⟩ := h
  exact ⟨snapshot, hgrows.durable snapshot hsnapshot, event, hevent, hgrows.stagedOn _ hstaged,
    hwhat.imp_right fun hundoes => hundoes.mono hgrows⟩

theorem WrittenOrUndone.step (h : s.WrittenOrUndone) (hgrows : Grows s t)
    (hcalls : ∀ call ∈ t.calls, call ∈ s.calls ∨ t.Covered call) : t.WrittenOrUndone := by
  intro call hcall
  rcases hcalls call hcall with hold | hnew
  · exact Covered.mono (h call hold) hgrows
  · exact hnew

/-! ## What the pieces of a step change -/

/-- What is kept for the claim stays as it is, and so do the operations. -/
structure Untouched (s t : CommandSession) : Prop where
  stagedOn : t.stagedOn = s.stagedOn
  durable : t.durable = s.durable
  calls : t.calls = s.calls
  operations : t.operations = s.operations

theorem Untouched.refl (s : CommandSession) : Untouched s s := ⟨rfl, rfl, rfl, rfl⟩

theorem Untouched.append (h : Untouched s t) (modelVisible : Bool) (data : NekoSessionEventData) (stamp : Stamp) :
    Untouched s (t.append modelVisible data stamp) := ⟨h.stagedOn, h.durable, h.calls, h.operations⟩

theorem Untouched.remove (h : Untouched s t) (eventId : JsText) : Untouched s (t.remove eventId) :=
  ⟨h.stagedOn, h.durable, h.calls, h.operations⟩

theorem Untouched.setControl (h : Untouched s t) (optionId : JsText) (value : ModelValue) :
    Untouched s (t.setControl optionId value) := ⟨h.stagedOn, h.durable, h.calls, h.operations⟩

theorem Untouched.mark (h : Untouched s t) (operation : CommandOperation) (stamp knowledgeStamp : Stamp) :
    Untouched s (t.mark operation stamp knowledgeStamp) := by
  unfold CommandSession.mark
  split
  · dsimp only
    split
    · exact (h.append _ _ _).append _ _ _
    · exact h.append _ _ _
  · exact h.append _ _ _
  · exact h.append _ _ _
  · exact h

theorem Untouched.grows (h : Untouched s t) : Grows s t :=
  ⟨fun _ hmem => h.stagedOn ▸ hmem, fun _ hmem => h.durable ▸ hmem, fun _ hmem => h.calls ▸ hmem⟩

theorem Grows.trans {u : CommandSession} (h : Grows s t) (h' : Grows t u) : Grows s u :=
  ⟨fun entry hmem => h'.stagedOn entry (h.stagedOn entry hmem),
    fun snapshot hmem => h'.durable snapshot (h.durable snapshot hmem), fun call hmem => h'.calls call (h.calls call hmem)⟩

theorem grows_saved (s : CommandSession) (snapshot : List NekoSessionEvent) : Grows s (s.saved snapshot) :=
  ⟨fun _ hmem => hmem, fun _ hmem => List.mem_append_left _ hmem, fun _ hmem => hmem⟩

theorem grows_call (s : CommandSession) (request : DriverRequest) (instanceId : JsText) :
    Grows s (s.call request instanceId) :=
  ⟨fun _ hmem => hmem, fun _ hmem => hmem, fun _ hmem => List.mem_append_left _ hmem⟩

/-! ## Steps -/

theorem Kept.untouched (h : s.Kept) (hsame : Untouched s t) : t.Kept := by
  refine ⟨fun operation hmem => ?_, h.ahead.step hsame.grows fun _ hcall => .inl (hsame.calls ▸ hcall)⟩
  rw [hsame.operations] at hmem
  exact (h.operations operation hmem).mono hsame.grows

theorem Kept.setPhase (h : s.Kept) {u : CommandSession} (hgrows : Grows s u) (hoperations : u.operations = s.operations)
    (hcalls : ∀ call ∈ u.calls, call ∈ s.calls ∨ u.Covered call)
    (hkept : u.OperationKept { operation with phase := phase }) : (u.setPhase i operation phase).Kept := by
  have hgrows : Grows s (u.setPhase i operation phase) := ⟨hgrows.stagedOn, hgrows.durable, hgrows.calls⟩
  refine ⟨fun other hmem => ?_, h.ahead.step hgrows hcalls⟩
  have hmem : other ∈ u.operations.set i { operation with phase := phase } := hmem
  rw [hoperations] at hmem
  rcases List.mem_or_eq_of_mem_set hmem with hold | hnew
  · exact (h.operations other hold).mono hgrows
  · rw [hnew]
    exact hkept

theorem Kept.turn (h : s.Kept) {u : CommandSession} (hsame : Untouched s u)
    (hkept : u.OperationKept { operation with phase := phase }) : (u.setPhase i operation phase).Kept :=
  h.setPhase hsame.grows hsame.operations (fun _ hcall => .inl (hsame.calls ▸ hcall)) hkept

theorem Kept.stage (h : s.Kept) {data : NekoSessionEventData} {command : SessionCommand} {instanceId : JsText}
    {log : SessionLog} (hrecords : ∀ event : NekoSessionEvent, event.eventId = stamp.eventId → event.data = data →
      Records ⟨command, instanceId, .settled, stamp.eventId, none⟩ event) :
    (s.stage data stamp command instanceId log).Kept := by
  have hgrows : Grows s (s.stage data stamp command instanceId log) :=
    ⟨fun _ hmem => List.mem_append_left _ hmem, fun _ hmem => hmem, fun _ hmem => hmem⟩
  refine ⟨fun other hmem => ?_, h.ahead.step hgrows fun call hcall => .inl hcall⟩
  rcases List.mem_append.1 hmem with hold | hnew
  · exact (h.operations other hold).mono hgrows
  · rw [List.mem_singleton.1 hnew]
    exact ⟨_, List.mem_append_right _ (List.mem_singleton_self _), List.mem_append_right _ (List.mem_singleton_self _),
      hrecords _ rfl rfl⟩

theorem Kept.abandon (h : s.Kept) (operation : CommandOperation) (reason : JsText) (stamp : Stamp) :
    (s.abandon i operation reason stamp).Kept := by
  unfold CommandSession.abandon
  refine h.turn ?_ trivial
  split
  · exact (Untouched.refl s).append _ _ _
  · split
    · exact ((Untouched.refl s).remove _).remove _
    · exact (Untouched.refl s).remove _

theorem Kept.beginPrompt (h : s.Kept) (messageId text : JsText) : (s.beginPrompt messageId text).Kept := by
  unfold CommandSession.beginPrompt
  split
  · refine ⟨fun other hmem => ?_, h.ahead⟩
    rcases List.mem_append.1 hmem with hold | hnew
    · exact h.operations other hold
    · rw [List.mem_singleton.1 hnew]
      trivial
  · exact h

theorem Kept.stagePrompt (h : s.Kept) (knowledge : Option KnowledgeContext) (stamp knowledgeStamp : Stamp) :
    (s.stagePrompt i knowledge stamp knowledgeStamp).Kept := by
  unfold CommandSession.stagePrompt
  split
  · rename_i operation log hoperation hlog
    split
    · rename_i messageId text hphase hcommand
      dsimp only
      generalize hevent : nextEvent log.events log.eventHighWaterMark stamp.eventId stamp.time true
        (.modelInput true messageId text (some operation.instanceId) true) = event
      have hmem : ∀ knowledge, event ∈ (match knowledge with
          | some knowledge => (log.append stamp.eventId stamp.time true
            (.modelInput true messageId text (some operation.instanceId) true)).append knowledgeStamp.eventId
              knowledgeStamp.time true (knowledgeData knowledge operation.instanceId)
          | none => log.append stamp.eventId stamp.time true
            (.modelInput true messageId text (some operation.instanceId) true)).events := by
        intro knowledge
        have hfirst : event ∈ (log.append stamp.eventId stamp.time true
            (.modelInput true messageId text (some operation.instanceId) true)).events := by
          rw [← hevent]
          exact List.mem_append_right _ (List.mem_singleton_self _)
        split
        · exact List.mem_append_left _ hfirst
        · exact hfirst
      refine ⟨fun other hother => ?_, h.ahead.step ⟨fun _ hmem => List.mem_append_left _ hmem, fun _ hmem => hmem,
        fun _ hmem => hmem⟩ fun call hcall => .inl hcall⟩
      rcases List.mem_or_eq_of_mem_set hother with hold | hnew
      · exact (h.operations other hold).mono ⟨fun _ hmem => List.mem_append_left _ hmem, fun _ hmem => hmem,
          fun _ hmem => hmem⟩
      · rw [hnew]
        refine ⟨event, hmem knowledge, List.mem_append_right _ (List.mem_singleton_self _), ?_⟩
        unfold Records
        dsimp only
        rw [hcommand, ← hevent]
        exact ⟨rfl, rfl⟩
    · exact h
  · exact h

theorem Kept.cancelTurn (h : s.Kept) (stamp : Stamp) : (s.cancelTurn stamp).Kept := by
  unfold CommandSession.cancelTurn
  split
  · dsimp only
    split
    · exact h
    · exact h.stage fun event _ hdata => ⟨_, hdata⟩
  · exact h

theorem Kept.resolvePermission (h : s.Kept) (optionId : Option JsText) (stamp : Stamp) :
    (s.resolvePermission optionId stamp).Kept := by
  unfold CommandSession.resolvePermission
  split
  · exact h.stage fun event _ hdata => hdata
  · exact h

theorem Kept.setConfigOption (h : s.Kept) (optionId : JsText) (value : ModelValue) (stamp : Stamp) :
    (s.setConfigOption optionId value stamp).Kept := by
  unfold CommandSession.setConfigOption
  split
  · split
    · exact h.stage fun event _ hdata => hdata
    · exact h
  · exact h

theorem Kept.kept_of_getElem? (h : s.Kept) (hoperation : s.operations[i]? = some operation) : s.OperationKept operation :=
  h.operations operation (List.mem_of_getElem? hoperation)

theorem Kept.persistSettles (h : s.Kept) (i : ℕ) (ok : Bool) (reason : JsText) (stamp : Stamp) :
    (s.persistSettles i ok reason stamp).Kept := by
  unfold CommandSession.persistSettles
  split
  · rename_i operation hoperation
    have hkept := h.kept_of_getElem? hoperation
    split
    · rename_i snapshot hphase
      unfold OperationKept at hkept
      rw [hphase] at hkept
      split
      · refine h.setPhase (grows_saved s snapshot) rfl (fun _ hcall => .inl hcall) ?_
        exact ⟨snapshot, List.mem_append_right _ (List.mem_singleton_self _), hkept.mono (grows_saved s snapshot)⟩
      · exact h.abandon operation reason stamp
    · rename_i snapshot hphase
      unfold OperationKept at hkept
      rw [hphase] at hkept
      split
      · exact h.setPhase (grows_saved s snapshot) rfl (fun _ hcall => .inl hcall) trivial
      · exact h.turn (Untouched.refl s) hkept
    · exact h
  · exact h

theorem stages_of_records {event : NekoSessionEvent} (h : Records operation event) :
    Stages event operation.instanceId operation.request := by
  unfold Records at h
  unfold CommandOperation.request
  cases hcommand : operation.command with
  | prompt messageId text =>
    rw [hcommand] at h
    exact ⟨h.1, messageId, text, h.2⟩
  | cancel =>
    rw [hcommand] at h
    exact h
  | permission requestId optionId =>
    rw [hcommand] at h
    exact h
  | config optionId previousValue value =>
    rw [hcommand] at h
    exact ⟨previousValue, h⟩

theorem Saved.covered (h : s.Saved operation) : s.Covered ⟨operation.request, operation.instanceId⟩ := by
  obtain ⟨snapshot, hsnapshot, event, hevent, hstaged, hrecords⟩ := h
  exact ⟨snapshot, hsnapshot, event, hevent, hstaged, .inl (stages_of_records hrecords)⟩

theorem Saved.undone {optionId : JsText} {previousValue value : ModelValue} (h : s.Saved operation)
    (hcommand : operation.command = .config optionId previousValue value)
    (hforward : ⟨operation.request, operation.instanceId⟩ ∈ s.calls) :
    s.Covered ⟨.setConfigOption optionId previousValue, operation.instanceId⟩ := by
  obtain ⟨snapshot, hsnapshot, event, hevent, hstaged, hrecords⟩ := h
  unfold Records at hrecords
  unfold CommandOperation.request at hforward
  rw [hcommand] at hrecords hforward
  exact ⟨snapshot, hsnapshot, event, hevent, hstaged, .inr ⟨value, hrecords, hforward⟩⟩

theorem Kept.dispatch (h : s.Kept) (i : ℕ) (reason : JsText) (stamp knowledgeStamp : Stamp) :
    (s.dispatch i reason stamp knowledgeStamp).Kept := by
  unfold CommandSession.dispatch
  split
  · rename_i operation hoperation
    have hkept := h.kept_of_getElem? hoperation
    split
    · rename_i hphase
      unfold OperationKept at hkept
      rw [hphase] at hkept
      split
      · dsimp only
        have hgrows := grows_call s operation.request operation.instanceId
        have hsame := (Untouched.refl (s.call operation.request operation.instanceId)).mark operation stamp knowledgeStamp
        have hsaved := (hkept.mono hgrows).mono hsame.grows
        have hcall : ⟨operation.request, operation.instanceId⟩ ∈
            ((s.call operation.request operation.instanceId).mark operation stamp knowledgeStamp).calls := by
          rw [hsame.calls]
          exact List.mem_append_right _ (List.mem_singleton_self _)
        refine h.setPhase (hgrows.trans hsame.grows) hsame.operations (fun call hnext => ?_) ?_
        · rw [hsame.calls] at hnext
          rcases List.mem_append.1 hnext with hold | hnew
          · exact .inl hold
          · rw [List.mem_singleton.1 hnew]
            exact .inr hsaved.covered
        · split
          · exact ⟨hsaved, hcall⟩
          · trivial
      · exact h.abandon operation reason stamp
    · exact h
  · exact h

theorem Kept.driverSettles (h : s.Kept) (i : ℕ) (ok : Bool) (reason : JsText) (stamp : Stamp) :
    (s.driverSettles i ok reason stamp).Kept := by
  unfold CommandSession.driverSettles
  split
  · rename_i operation hoperation
    have hkept := h.kept_of_getElem? hoperation
    split
    · rename_i optionId previousValue value hphase hcommand
      unfold OperationKept at hkept
      rw [hphase] at hkept
      split
      · have hsame := ((Untouched.refl s).setControl optionId value).append true
          (.controlChange .committed optionId previousValue value none) stamp
        refine h.turn hsame ?_
        split
        · exact ⟨hkept.1.mono hsame.grows, hsame.grows.calls _ hkept.2⟩
        · exact ⟨hkept.1.mono hsame.grows, hsame.grows.calls _ hkept.2⟩
      · exact h.turn (Untouched.refl s) hkept
    · rename_i optionId previousValue value hphase hcommand
      split
      · exact h.turn (((Untouched.refl s).setControl _ _).append _ _ _) trivial
      · exact h.turn ((Untouched.refl s).append _ _ _) trivial
    · exact h
  · exact h

theorem Kept.compensate (h : s.Kept) (i : ℕ) (reason : JsText) (stamp : Stamp) : (s.compensate i reason stamp).Kept := by
  unfold CommandSession.compensate
  split
  · rename_i operation hoperation
    have hkept := h.kept_of_getElem? hoperation
    split
    · rename_i cause optionId previousValue value hphase hcommand
      unfold OperationKept at hkept
      rw [hphase] at hkept
      split
      · have hgrows := grows_call s (.setConfigOption optionId previousValue) operation.instanceId
        refine h.setPhase hgrows rfl (fun call hnext => ?_) ⟨hkept.1.mono hgrows, hgrows.calls _ hkept.2⟩
        rcases List.mem_append.1 hnext with hold | hnew
        · exact .inl hold
        · rw [List.mem_singleton.1 hnew]
          exact .inr ((hkept.1.mono hgrows).undone hcommand (hgrows.calls _ hkept.2))
      · exact h.turn ((Untouched.refl s).append _ _ _) trivial
    · exact h
  · exact h

theorem Kept.step (h : s.Kept) (act : CommandAct) : (s.step act).Kept := by
  cases act with
  | beginPrompt messageId text => exact h.beginPrompt messageId text
  | stagePrompt i knowledge stamp knowledgeStamp => exact h.stagePrompt knowledge stamp knowledgeStamp
  | cancelTurn stamp => exact h.cancelTurn stamp
  | resolvePermission optionId stamp => exact h.resolvePermission optionId stamp
  | setConfigOption optionId value stamp => exact h.setConfigOption optionId value stamp
  | persistSettles i ok reason stamp => exact h.persistSettles i ok reason stamp
  | dispatch i reason stamp knowledgeStamp => exact h.dispatch i reason stamp knowledgeStamp
  | driverSettles i ok reason stamp => exact h.driverSettles i ok reason stamp
  | compensate i reason stamp => exact h.compensate i reason stamp
  | record modelVisible data stamp => exact h.untouched ((Untouched.refl s).append modelVisible data stamp)
  | bind | unbind | askPermission | reportControls | deleteSession => exact h.untouched ⟨rfl, rfl, rfl, rfl⟩

/-- Each call of the driver was saved before, or undoes one that was. -/
theorem writtenOrUndone_run (log : SessionLog) (acts : List CommandAct) : (run log acts).WrittenOrUndone := by
  have hkept : ∀ s : CommandSession, s.Kept → (acts.foldl CommandSession.step s).Kept := by
    induction acts with
    | nil => exact fun _ h => h
    | cons act acts ih => exact fun s h => ih _ (h.step act)
  exact (hkept { log := some log } ⟨fun _ hmem => (nomatch hmem), fun _ hmem => (nomatch hmem)⟩).ahead

/-! ## A call of its own -/

/-- The driver refuses a change of the mode, and the mode before is set again. -/
def refusedChange : List CommandAct :=
  [.bind (js "runtime") [.sessionConfig], .reportControls [(js "mode", .text (js "plan"))],
    .setConfigOption (js "mode") (.text (js "auto")) ⟨js "change", .ofNat 1⟩, .persistSettles 0 true [] ⟨[], .ofNat 1⟩,
    .dispatch 0 [] ⟨[], .ofNat 1⟩ ⟨[], .ofNat 1⟩, .driverSettles 0 false (js "refused") ⟨[], .ofNat 1⟩,
    .compensate 0 [] ⟨[], .ofNat 1⟩]

theorem compensation_unstaged : ¬ (run ⟨[], 0⟩ refusedChange).WrittenAhead := by
  intro h
  obtain ⟨snapshot, hsnapshot, event, hevent, -, previousValue, hdata⟩ :=
    h ⟨.setConfigOption (js "mode") (.text (js "plan")), js "runtime"⟩ (by decide)
  have hsnapshot : snapshot ∈ [[(⟨js "change", 1, .ofNat 1, true,
      .controlChange .requested (js "mode") (.text (js "plan")) (.text (js "auto")) none⟩ : NekoSessionEvent)]] := hsnapshot
  rw [List.mem_singleton.1 hsnapshot] at hevent
  rw [List.mem_singleton.1 hevent] at hdata
  revert hdata
  simp only [NekoSessionEventData.controlChange.injEq, ModelValue.text.injEq]
  intro hdata
  exact absurd hdata.2.2.2.1 (by decide)

end CommandSession

end Wiii.NekoChill
