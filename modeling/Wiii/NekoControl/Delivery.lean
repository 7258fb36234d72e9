import Wiii.NekoControl.Transport

/-!
# What a transport delivers

`LineStep` says of a step what it does to the lines: one that is received is given to the handlers, kept until there is
one, or lost to an overflow, which is recorded.  `ExitStep` says what it does to the exit handlers: they wait until they
are called, and are called on a proof that the process tree is gone.
-/

namespace Wiii.NekoControl

open NekoChill (JsText JsValue)

abbrev Label := Event × List Output

namespace Output

def lineTo (handler : ℕ) : Output → Option JsText
  | line other payload => if other = handler then some payload else none
  | _ => none

def exitTo : Output → Option ℕ
  | exit handler _ _ => some handler
  | _ => none

end Output

def linesTo (handler : ℕ) (outputs : List Output) : List JsText := outputs.filterMap (Output.lineTo handler)

def exits (outputs : List Output) : List ℕ := outputs.filterMap Output.exitTo

def outputs (labels : List Label) : List Output := labels.flatMap Prod.snd

namespace Event

def received : Event → List JsText
  | line payload => [payload]
  | _ => []

/-- A notice, or the native side's word on a cancellation. -/
def Proves (agentSessionId : ℕ) : Event → Prop
  | exit payload => ∃ notice, NativeProcessExitNotice.ofPayload payload = some notice ∧ notice.isProof = true
  | overflowReply reply | killReply _ reply => ∃ result, reply = .value (some result) ∧
      result.agentSessionId = agentSessionId ∧ result.cancelled = true
  | overflowListed reply | killListed _ reply => ∃ sessions, reply = .ok sessions ∧
      ∀ current, sessions.find? (fun session => decide (session.agentSessionId = agentSessionId)) = some current →
        current.isTerminal = true ∧ current.isNativeOutcomeUncertain = false
  | _ => False

end Event

def received (labels : List Label) : List JsText := labels.flatMap fun label => label.1.received

section Lists

variable {handler other : ℕ} {xs ys : List Output} {payload : JsText}

theorem linesTo_append : linesTo handler (xs ++ ys) = linesTo handler xs ++ linesTo handler ys :=
  List.filterMap_append

theorem exits_append : exits (xs ++ ys) = exits xs ++ exits ys := List.filterMap_append

theorem outputs_append (labels labels' : List Label) : outputs (labels ++ labels') = outputs labels ++ outputs labels' :=
  List.flatMap_append

theorem received_append (labels labels' : List Label) :
    received (labels ++ labels') = received labels ++ received labels' :=
  List.flatMap_append

/-- A handler is given the line once. -/
theorem linesTo_handlers {handlers : List ℕ} (hnodup : handlers.Nodup) :
    linesTo handler (handlers.map fun other => .line other payload) =
      if handler ∈ handlers then [payload] else [] := by
  induction handlers with
  | nil => rfl
  | cons other handlers ih =>
    obtain ⟨hnot, hnodup⟩ := List.nodup_cons.1 hnodup
    by_cases heq : other = handler
    · subst heq
      have hrest := (ih hnodup).trans (if_neg hnot)
      simpa [linesTo, Output.lineTo] using hrest
    · have hrest := ih hnodup
      simpa [linesTo, Output.lineTo, heq, Ne.symm heq] using hrest

theorem linesTo_buffered (lines : List JsText) :
    linesTo handler (lines.map fun payload => .line other payload) = if other = handler then lines else [] := by
  split_ifs with heq
  · subst heq
    simp [linesTo, List.filterMap_map, Function.comp_def, Output.lineTo]
  · simp [linesTo, List.filterMap_map, Function.comp_def, Output.lineTo, heq]

end Lists

/-! ## What a step does to the lines -/

/-- Nothing of the lines, or of the handlers of lines, is touched. -/
structure SameLines (s t : StartTransportState) : Prop where
  lineHandlers : t.lineHandlers = s.lineHandlers
  pendingLines : t.pendingLines = s.pendingLines
  terminalError : t.terminalError = s.terminalError
  nextHandler : s.nextHandler ≤ t.nextHandler

/-- No line is given, and none is touched. -/
abbrev Quiet (s : StartTransportState) (outcome : Outcome) : Prop :=
  (∀ handler, linesTo handler outcome.1 = []) ∧ SameLines s outcome.2

inductive LineStep (s : StartTransportState) : Event → List Output → StartTransportState → Prop
  | quiet {e o t} (hevent : e.received = []) (houtputs : ∀ handler, linesTo handler o = [])
      (hsame : SameLines s t) : LineStep s e o t
  | given (payload : JsText) (hthere : s.lineHandlers ≠ []) :
      LineStep s (.line payload) (s.lineHandlers.map fun handler => .line handler payload) s
  | kept (payload : JsText) (hnone : s.lineHandlers = []) {t} (hpending : t.pendingLines = s.pendingLines ++ [payload])
      (hhandlers : t.lineHandlers = []) (herror : t.terminalError = s.terminalError)
      (hnext : t.nextHandler = s.nextHandler) : LineStep s (.line payload) [] t
  | overflowed (payload : JsText) (hnone : s.lineHandlers = []) {t} (hhandlers : t.lineHandlers = [])
      (herror : t.terminalError = true) (hnext : t.nextHandler = s.nextHandler) :
      LineStep s (.line payload) [.cancel] t
  | lost (payload : JsText) (hnone : s.lineHandlers = []) (herror : s.terminalError = true) :
      LineStep s (.line payload) [] s
  | attached {o t} (houtputs : o = s.pendingLines.map fun payload => .line s.nextHandler payload)
      (hhandlers : t.lineHandlers = s.lineHandlers ++ [s.nextHandler]) (hpending : t.pendingLines = [])
      (herror : t.terminalError = s.terminalError) (hnext : t.nextHandler = s.nextHandler + 1) :
      LineStep s .onLine o t

section LineStep

open StartTransportState

variable {s t : StartTransportState}

theorem SameLines.refl (s : StartTransportState) : SameLines s s := ⟨rfl, rfl, rfl, Nat.le_refl _⟩

theorem sameLines_detachStartListeners (s : StartTransportState) : SameLines s s.detachStartListeners :=
  ⟨rfl, rfl, rfl, Nat.le_refl _⟩

theorem linesTo_notifyProvenExit (handler : ℕ) (s : StartTransportState) :
    linesTo handler s.notifyProvenExit.1 = [] := by
  unfold notifyProvenExit
  split_ifs
  · rfl
  · simp [linesTo, List.filterMap_map, Function.comp_def, Output.lineTo]

theorem sameLines_notifyProvenExit (s : StartTransportState) : SameLines s s.notifyProvenExit.2 := by
  unfold notifyProvenExit
  split_ifs <;> exact ⟨rfl, rfl, rfl, Nat.le_refl _⟩

theorem lineStep_lineEvent (payload : JsText) (s : StartTransportState) :
    LineStep s (.line payload) (s.lineEvent payload).1 (s.lineEvent payload).2 := by
  unfold lineEvent
  by_cases hthere : s.lineHandlers ≠ []
  · rw [if_pos hthere]
    exact .given payload hthere
  · rw [if_neg hthere]
    have hnone := not_not.1 hthere
    split_ifs with hover herror
    · exact .overflowed payload hnone hnone rfl rfl
    · exact .lost payload hnone (by simpa using herror)
    · exact .kept payload hnone rfl hnone rfl rfl

/-- The first handler gets what was kept, and later ones find nothing kept. -/
theorem onLine_outputs (s : StartTransportState) :
    s.onLine.1 = s.pendingLines.map fun payload => .line s.nextHandler payload := by
  unfold onLine
  dsimp only
  split_ifs with hpending
  · rfl
  · rw [List.length_eq_zero_iff.1 (Nat.eq_zero_of_not_pos hpending)]
    rfl

theorem lineHandlers_onLine (s : StartTransportState) :
    s.onLine.2.lineHandlers = s.lineHandlers ++ [s.nextHandler] := by
  unfold onLine
  dsimp only
  split_ifs <;> rfl

theorem lineStep_onLine (s : StartTransportState) : LineStep s .onLine s.onLine.1 s.onLine.2 := by
  refine .attached (onLine_outputs s) (lineHandlers_onLine s) ?_ ?_ ?_ <;> unfold onLine <;> dsimp only <;> split_ifs
  case neg hpending => exact List.length_eq_zero_iff.1 (Nat.eq_zero_of_not_pos hpending)
  all_goals rfl

theorem quiet_exitEvent (payload : JsValue) (s : StartTransportState) :
    Quiet s (s.exitEvent payload) := by
  unfold exitEvent
  dsimp only
  split_ifs
  · obtain ⟨h₁, h₂, h₃, h₄⟩ := sameLines_notifyProvenExit
      (s.observeExit ((NativeProcessExitNotice.ofPayload payload).getD .unknown))
    exact ⟨fun handler => linesTo_notifyProvenExit handler _, h₁, h₂, h₃, h₄⟩
  · exact ⟨fun _ => rfl, rfl, rfl, rfl, Nat.le_refl _⟩

theorem quiet_killSettles (i : ℕ) (c : Cancellation) (s : StartTransportState) :
    Quiet s (s.killSettles i c) := by
  unfold killSettles
  dsimp only
  split_ifs
  · obtain ⟨h₁, h₂, h₃, h₄⟩ := sameLines_notifyProvenExit { s.setKill i c with killed := true }
    exact ⟨fun handler => linesTo_notifyProvenExit handler _, h₁, h₂, h₃, h₄⟩
  · exact ⟨fun _ => rfl, rfl, rfl, rfl, Nat.le_refl _⟩

theorem sameLines_overflowSettles (c : Cancellation) (s : StartTransportState) :
    SameLines s (s.overflowSettles c) := by
  unfold overflowSettles
  dsimp only
  split_ifs <;> exact ⟨rfl, rfl, rfl, Nat.le_refl _⟩

theorem linesTo_asking (handler : ℕ) (again : Bool) (outcome : Outcome) :
    linesTo handler (asking again outcome).1 = linesTo handler outcome.1 := by
  cases again <;> rfl

theorem sameLines_lineListening (ok : Bool) (s : StartTransportState) : SameLines s (s.lineListening ok) := by
  unfold lineListening
  dsimp only
  split_ifs <;> exact ⟨rfl, rfl, rfl, Nat.le_refl _⟩

theorem sameLines_exitListening (ok : Bool) (s : StartTransportState) : SameLines s (s.exitListening ok) := by
  unfold exitListening
  dsimp only
  split_ifs <;> exact ⟨rfl, rfl, rfl, Nat.le_refl _⟩

theorem quiet_kill (s : StartTransportState) :
    Quiet s s.kill := by
  unfold kill
  split_ifs
  · exact ⟨fun _ => rfl, .refl s⟩
  · cases s.killPromise <;> exact ⟨fun _ => rfl, rfl, rfl, rfl, Nat.le_refl _⟩

theorem sameLines_onExit (s : StartTransportState) : SameLines s s.onExit := by
  unfold onExit
  dsimp only
  split_ifs <;> exact ⟨rfl, rfl, rfl, Nat.le_succ _⟩

theorem quiet_runMicrotask (s : StartTransportState) :
    Quiet s s.runMicrotask := by
  unfold runMicrotask
  split <;> exact ⟨fun _ => rfl, rfl, rfl, rfl, Nat.le_refl _⟩

theorem LineStep.of_quiet {e : Event} {outcome : Outcome} (hevent : e.received = [])
    (h : Quiet s outcome) :
    LineStep s e outcome.1 outcome.2 :=
  .quiet hevent h.1 h.2

theorem quiet_asking {again : Bool} {outcome : Outcome}
    (h : Quiet s outcome) :
    Quiet s (asking again outcome) :=
  ⟨fun handler => (linesTo_asking handler again outcome).trans (h.1 handler), h.2⟩

theorem quiet_overflowReply (agentSessionId : ℕ) (reply : InvokeReply (Option CancelResult))
    (s : StartTransportState) : Quiet s (s.overflowReply agentSessionId reply) := by
  unfold overflowReply
  cases s.overflowCancellation with
  | none => exact ⟨fun _ => rfl, .refl s⟩
  | some c => exact quiet_asking ⟨fun _ => rfl, sameLines_overflowSettles _ s⟩

theorem sameLines_overflowListed (agentSessionId : ℕ) (reply : Except Failure (List NativeSession))
    (s : StartTransportState) : SameLines s (s.overflowListed agentSessionId reply) := by
  unfold overflowListed
  cases s.overflowCancellation with
  | none => exact .refl s
  | some c => exact sameLines_overflowSettles _ s

theorem quiet_killReply (agentSessionId i : ℕ) (reply : InvokeReply (Option CancelResult))
    (s : StartTransportState) : Quiet s (s.killReply agentSessionId i reply) := by
  unfold killReply
  cases s.kills[i]? with
  | none => exact ⟨fun _ => rfl, .refl s⟩
  | some promise => exact quiet_asking (quiet_killSettles i _ s)

theorem quiet_killListed (agentSessionId i : ℕ) (reply : Except Failure (List NativeSession))
    (s : StartTransportState) : Quiet s (s.killListed agentSessionId i reply) := by
  unfold killListed
  cases s.kills[i]? with
  | none => exact ⟨fun _ => rfl, .refl s⟩
  | some promise => exact quiet_killSettles i _ s

theorem lineStep_run (agentSessionId : ℕ) (s : StartTransportState) (e : Event) :
    LineStep s e (e.run agentSessionId s).1 (e.run agentSessionId s).2 := by
  cases e with
  | line payload => exact lineStep_lineEvent payload s
  | onLine => exact lineStep_onLine s
  | ensureStartListeners =>
    refine .of_quiet rfl ⟨fun _ => rfl, ?_⟩
    change SameLines s s.ensureStartListeners
    unfold ensureStartListeners
    split_ifs <;> exact ⟨rfl, rfl, rfl, Nat.le_refl _⟩
  | lineListening ok => exact .of_quiet rfl ⟨fun _ => rfl, sameLines_lineListening ok s⟩
  | exitListening ok => exact .of_quiet rfl ⟨fun _ => rfl, sameLines_exitListening ok s⟩
  | exit payload => exact .of_quiet rfl (quiet_exitEvent payload s)
  | giveUp => exact .of_quiet rfl ⟨fun _ => rfl, sameLines_detachStartListeners s⟩
  | onExit => exact .of_quiet rfl ⟨fun _ => rfl, sameLines_onExit s⟩
  | kill => exact .of_quiet rfl (quiet_kill s)
  | killRejected i => exact .of_quiet rfl ⟨fun _ => rfl, rfl, rfl, rfl, Nat.le_refl _⟩
  | microtask => exact .of_quiet rfl (quiet_runMicrotask s)
  | overflowReply reply => exact .of_quiet rfl (quiet_overflowReply agentSessionId reply s)
  | overflowListed reply => exact .of_quiet rfl ⟨fun _ => rfl, sameLines_overflowListed agentSessionId reply s⟩
  | killReply i reply => exact .of_quiet rfl (quiet_killReply agentSessionId i reply s)
  | killListed i reply => exact .of_quiet rfl (quiet_killListed agentSessionId i reply s)

theorem lineStep_of_step {agentSessionId : ℕ} {label : Label} (h : Event.Step agentSessionId s label t) :
    LineStep s label.1 label.2 t := by
  have hstep := lineStep_run agentSessionId s label.1
  rw [h.2] at hstep
  exact hstep

end LineStep

/-! ## Lines over a run -/

/-- The received lines are kept for a handler that is to come, or given. -/
structure Delivering (labels : List Label) (s : StartTransportState) : Prop where
  fresh : ∀ handler ∈ s.lineHandlers, handler < s.nextHandler
  nodup : s.lineHandlers.Nodup
  unattached : ∀ handler, s.nextHandler ≤ handler → linesTo handler (outputs labels) = []
  pending : s.terminalError = false → s.pendingLines = if s.lineHandlers = [] then received labels else []
  recorded : s.terminalError = true → .cancel ∈ outputs labels

section Run

variable {agentSessionId handler : ℕ} {s t : StartTransportState} {labels : List Label} {e : Event} {o : List Output}

theorem outputs_concat : outputs (labels ++ [(e, o)]) = outputs labels ++ o := by
  simp [outputs]

theorem received_concat : received (labels ++ [(e, o)]) = received labels ++ e.received := by
  simp [received]

theorem Delivering.initial : Delivering [] {} where
  fresh := fun _ h => nomatch h
  nodup := .nil
  unattached := fun _ _ => rfl
  pending := fun _ => rfl
  recorded := fun h => nomatch h

theorem Delivering.step (h : Delivering labels s) (hstep : LineStep s e o t) :
    Delivering (labels ++ [(e, o)]) t := by
  cases hstep with
  | quiet hevent houtputs hsame =>
    refine ⟨?_, ?_, ?_, ?_, ?_⟩
    · rw [hsame.lineHandlers]
      exact fun handler hmem => Nat.lt_of_lt_of_le (h.fresh handler hmem) hsame.nextHandler
    · rw [hsame.lineHandlers]
      exact h.nodup
    · intro handler hhandler
      rw [outputs_concat, linesTo_append, h.unattached handler (Nat.le_trans hsame.nextHandler hhandler), houtputs]
      rfl
    · rw [hsame.terminalError, hsame.pendingLines, hsame.lineHandlers, received_concat, hevent, List.append_nil]
      exact h.pending
    · rw [hsame.terminalError, outputs_concat]
      exact fun herror => List.mem_append_left _ (h.recorded herror)
  | given payload hthere =>
    refine ⟨h.fresh, h.nodup, fun handler hhandler => ?_, fun herror => ?_, fun herror => ?_⟩
    · have hnot : handler ∉ s.lineHandlers := fun hmem => absurd (h.fresh handler hmem) (Nat.not_lt.2 hhandler)
      rw [outputs_concat, linesTo_append, h.unattached handler hhandler, linesTo_handlers h.nodup, if_neg hnot]
      rfl
    · rw [h.pending herror, if_neg hthere, if_neg hthere]
    · rw [outputs_concat]
      exact List.mem_append_left _ (h.recorded herror)
  | kept payload hnone hpending hhandlers herror hnext =>
    refine ⟨?_, ?_, fun handler hhandler => ?_, fun hfalse => ?_, fun htrue => ?_⟩
    · rw [hhandlers]
      exact fun _ hmem => nomatch hmem
    · rw [hhandlers]
      exact .nil
    · rw [outputs_concat, List.append_nil]
      exact h.unattached handler (hnext ▸ hhandler)
    · rw [hpending, hhandlers, if_pos rfl, h.pending (herror ▸ hfalse), hnone, if_pos rfl, received_concat]
      rfl
    · rw [outputs_concat]
      exact List.mem_append_left _ (h.recorded (herror ▸ htrue))
  | overflowed payload hnone hhandlers herror hnext =>
    refine ⟨?_, ?_, fun handler hhandler => ?_, fun hfalse => ?_, fun _ => ?_⟩
    · rw [hhandlers]
      exact fun _ hmem => nomatch hmem
    · rw [hhandlers]
      exact .nil
    · rw [outputs_concat, linesTo_append, h.unattached handler (hnext ▸ hhandler)]
      rfl
    · rw [herror] at hfalse
      cases hfalse
    · rw [outputs_concat]
      exact List.mem_append_right _ List.mem_cons_self
  | lost payload hnone herror =>
    refine ⟨h.fresh, h.nodup, fun handler hhandler => ?_, fun hfalse => ?_, fun _ => ?_⟩
    · rw [outputs_concat, List.append_nil]
      exact h.unattached handler hhandler
    · rw [herror] at hfalse
      cases hfalse
    · rw [outputs_concat]
      exact List.mem_append_left _ (h.recorded herror)
  | attached houtputs hhandlers hpending herror hnext =>
    refine ⟨fun handler hmem => ?_, ?_, fun handler hhandler => ?_, fun _ => ?_, fun htrue => ?_⟩
    · rw [hhandlers, List.mem_append, List.mem_singleton] at hmem
      rw [hnext]
      rcases hmem with hmem | rfl
      · exact Nat.lt_succ_of_lt (h.fresh handler hmem)
      · exact Nat.lt_succ_self _
    · rw [hhandlers]
      refine List.nodup_append.2 ⟨h.nodup, List.nodup_singleton _, fun handler hmem other hother heq => ?_⟩
      rw [List.mem_singleton.1 hother] at heq
      exact absurd (h.fresh handler hmem) (heq ▸ Nat.lt_irrefl _)
    · rw [hnext] at hhandler
      rw [outputs_concat, linesTo_append, h.unattached handler (Nat.le_of_succ_le hhandler), houtputs,
        linesTo_buffered, if_neg (Nat.ne_of_lt hhandler)]
      rfl
    · rw [hpending, hhandlers, if_neg (by simp)]
    · rw [outputs_concat]
      exact List.mem_append_left _ (h.recorded (herror ▸ htrue))

theorem Delivering.run (hrun : Run (Event.Step agentSessionId) {} labels s) : Delivering labels s :=
  hrun.invariant_labels (fun _ _ _ _ h hstep => h.step (lineStep_of_step hstep)) Delivering.initial

theorem linesTo_of_lineStep (hstep : LineStep s e o t) (h : Delivering labels s) (hmem : handler ∈ s.lineHandlers) :
    linesTo handler o = e.received ∧ handler ∈ t.lineHandlers := by
  have hthere : s.lineHandlers ≠ [] := List.ne_nil_of_mem hmem
  cases hstep with
  | quiet hevent houtputs hsame => exact ⟨by rw [houtputs, hevent], by rw [hsame.lineHandlers]; exact hmem⟩
  | given payload _ => exact ⟨by rw [linesTo_handlers h.nodup, if_pos hmem]; rfl, hmem⟩
  | attached houtputs hhandlers hpending herror hnext =>
    have hne : s.nextHandler ≠ handler := (Nat.ne_of_lt (h.fresh handler hmem)).symm
    refine ⟨by rw [houtputs, linesTo_buffered, if_neg hne]; rfl, ?_⟩
    rw [hhandlers]
    exact List.mem_append_left _ hmem
  | kept payload hnone | overflowed payload hnone | lost payload hnone => exact absurd hnone hthere

/-- A handler that is attached is given every line that is received from then on. -/
theorem linesTo_of_attached {labels' : List Label} (hrun : Run (Event.Step agentSessionId) s labels' t)
    (h : Delivering labels s) (hmem : handler ∈ s.lineHandlers) :
    linesTo handler (outputs labels') = received labels' := by
  induction hrun generalizing labels with
  | nil s => rfl
  | @cons s u t label labels' hstep hrun ih =>
    have hline := lineStep_of_step hstep
    obtain ⟨hgiven, hmem'⟩ := linesTo_of_lineStep hline h hmem
    have hlater := ih (h.step hline) hmem'
    rw [outputs, List.flatMap_cons, linesTo_append, hgiven, received, List.flatMap_cons]
    exact congrArg _ hlater

end Run

/-! ## What a step does to the exit handlers -/

namespace Microtask

def handler : Microtask → Option ℕ
  | exit handler => some handler
  | detach => none

end Microtask

namespace StartTransportState

def exitTasks (s : StartTransportState) : List ℕ := s.microtasks.filterMap Microtask.handler

def exitsAhead (s : StartTransportState) : List ℕ := s.exitHandlers ++ s.exitTasks

end StartTransportState

inductive ExitStep (agentSessionId : ℕ) (s : StartTransportState) :
    Event → List Output → StartTransportState → Prop
  | idle {e o t} (houtputs : exits o = []) (hkilled : t.killed = true → s.killed = true)
      (hhandlers : t.exitHandlers = s.exitHandlers) (htasks : t.exitTasks = s.exitTasks)
      (hnext : s.nextHandler ≤ t.nextHandler) : ExitStep agentSessionId s e o t
  | proved {e o t} (hproves : e.Proves agentSessionId) (hhandlers : exits o ++ t.exitHandlers = s.exitHandlers)
      (htasks : t.exitTasks = s.exitTasks) (hnext : t.nextHandler = s.nextHandler) : ExitStep agentSessionId s e o t
  | attached {t} (hkilled : t.killed = s.killed) (hnext : t.nextHandler = s.nextHandler + 1)
      (hwaits : t.exitHandlers = s.exitHandlers ++ [s.nextHandler] ∧ t.exitTasks = s.exitTasks ∨
        s.killed = true ∧ t.exitHandlers = s.exitHandlers ∧ t.exitTasks = s.exitTasks ++ [s.nextHandler]) :
      ExitStep agentSessionId s .onExit [] t
  | called {handler : ℕ} {t} {code : JsValue} {stderrTail : Option JsText} (hkilled : t.killed = s.killed)
      (hhandlers : t.exitHandlers = s.exitHandlers) (htasks : s.exitTasks = handler :: t.exitTasks)
      (hnext : t.nextHandler = s.nextHandler) : ExitStep agentSessionId s .microtask [.exit handler code stderrTail] t

section ExitStep

open StartTransportState

variable {agentSessionId : ℕ} {s t : StartTransportState} {e : Event}

structure SameExits (s t : StartTransportState) : Prop where
  killed : t.killed = s.killed
  exitHandlers : t.exitHandlers = s.exitHandlers
  microtasks : t.microtasks = s.microtasks
  nextHandler : s.nextHandler ≤ t.nextHandler

theorem SameExits.refl (s : StartTransportState) : SameExits s s := ⟨rfl, rfl, rfl, Nat.le_refl _⟩

theorem ExitStep.of_same {o : List Output} (houtputs : exits o = []) (h : SameExits s t) :
    ExitStep agentSessionId s e o t :=
  .idle houtputs (fun hkilled => h.killed ▸ hkilled) h.exitHandlers (congrArg (List.filterMap _) h.microtasks)
    h.nextHandler

theorem exits_lines (handlers : List ℕ) (payload : JsText) :
    exits (handlers.map fun handler => .line handler payload) = [] := by
  simp [exits, List.filterMap_map, Function.comp_def, Output.exitTo]

theorem exits_buffered (handler : ℕ) (lines : List JsText) :
    exits (lines.map fun payload => .line handler payload) = [] := by
  simp [exits, List.filterMap_map, Function.comp_def, Output.exitTo]

theorem exits_notifyProvenExit (s : StartTransportState) :
    exits s.notifyProvenExit.1 ++ s.notifyProvenExit.2.exitHandlers = s.exitHandlers := by
  unfold notifyProvenExit
  split_ifs
  · rfl
  · simp [exits, List.filterMap_map, Function.comp_def, Output.exitTo]

theorem microtasks_notifyProvenExit (s : StartTransportState) :
    s.notifyProvenExit.2.microtasks = s.microtasks := by
  unfold notifyProvenExit
  split_ifs <;> rfl

theorem nextHandler_notifyProvenExit (s : StartTransportState) :
    s.notifyProvenExit.2.nextHandler = s.nextHandler := by
  unfold notifyProvenExit
  split_ifs <;> rfl

theorem exitStep_lineEvent (payload : JsText) (s : StartTransportState) :
    ExitStep agentSessionId s (.line payload) (s.lineEvent payload).1 (s.lineEvent payload).2 := by
  unfold lineEvent
  split_ifs
  · exact .of_same (exits_lines _ _) (.refl s)
  all_goals exact .of_same rfl ⟨rfl, rfl, rfl, Nat.le_refl _⟩

theorem exitStep_onLine (s : StartTransportState) :
    ExitStep agentSessionId s .onLine s.onLine.1 s.onLine.2 := by
  unfold onLine
  dsimp only
  split_ifs
  · exact .of_same (exits_buffered _ _) ⟨rfl, rfl, rfl, Nat.le_succ _⟩
  · exact .of_same rfl ⟨rfl, rfl, rfl, Nat.le_succ _⟩

theorem exitTasks_detach (tasks : List Microtask) :
    (tasks ++ [Microtask.detach]).filterMap Microtask.handler = tasks.filterMap Microtask.handler := by
  simp [Microtask.handler]

theorem exitStep_exitEvent (payload : JsValue) (s : StartTransportState) :
    ExitStep agentSessionId s (.exit payload) (s.exitEvent payload).1 (s.exitEvent payload).2 := by
  unfold exitEvent
  dsimp only
  cases hnotice : NativeProcessExitNotice.ofPayload payload with
  | none => exact .idle rfl (fun hkilled => nomatch hkilled) rfl rfl (Nat.le_refl _)
  | some notice =>
    rw [Option.getD_some]
    by_cases hproof : (s.observeExit notice).killed = true
    · rw [if_pos hproof]
      refine .proved ⟨notice, hnotice, hproof⟩ (exits_notifyProvenExit (s.observeExit notice)) ?_
        (nextHandler_notifyProvenExit (s.observeExit notice))
      refine (exitTasks_detach _).trans ?_
      rw [microtasks_notifyProvenExit]
      rfl
    · rw [if_neg hproof]
      exact .idle rfl (fun hkilled => absurd hkilled hproof) rfl rfl (Nat.le_refl _)

theorem exitStep_onExit (s : StartTransportState) : ExitStep agentSessionId s .onExit [] s.onExit := by
  unfold onExit
  dsimp only
  split_ifs with hkilled
  · refine .attached rfl rfl (.inr ⟨(Bool.and_eq_true_iff.1 hkilled).1, rfl, ?_⟩)
    simp [exitTasks, Microtask.handler]
  · exact .attached rfl rfl (.inl ⟨rfl, rfl⟩)

theorem exitStep_kill (s : StartTransportState) : ExitStep agentSessionId s .kill s.kill.1 s.kill.2 := by
  unfold kill
  split_ifs
  · exact .of_same rfl (.refl s)
  · cases s.killPromise <;> exact .of_same rfl ⟨rfl, rfl, rfl, Nat.le_refl _⟩

theorem exitStep_runMicrotask (s : StartTransportState) :
    ExitStep agentSessionId s .microtask s.runMicrotask.1 s.runMicrotask.2 := by
  unfold runMicrotask
  cases htasks : s.microtasks with
  | nil => exact .of_same rfl (.refl s)
  | cons task rest =>
    cases task with
    | exit handler =>
      refine .called rfl rfl ?_ rfl
      rw [exitTasks, htasks]
      rfl
    | detach =>
      refine .idle rfl id rfl ?_ (Nat.le_refl _)
      rw [exitTasks, exitTasks, htasks]
      rfl

theorem reply_confirmed {first : Bool} {reply : InvokeReply (Option CancelResult)}
    (h : (Cancellation.asked first).reply agentSessionId reply = .confirmed) :
    ∃ result, reply = .value (some result) ∧ result.agentSessionId = agentSessionId ∧ result.cancelled = true := by
  unfold Cancellation.reply at h
  cases reply with
  | value result =>
    cases result with
    | none => cases h
    | some result =>
      dsimp only at h
      split_ifs at h with hother hcancelled
      exact ⟨result, rfl, not_not.1 hother, hcancelled⟩
  | text message => cases h
  | bridge =>
    dsimp only at h
    split_ifs at h

theorem listed_confirmed {reply : Except Failure (List NativeSession)}
    (h : Cancellation.listing.listed agentSessionId reply = .confirmed) :
    ∃ sessions, reply = .ok sessions ∧ ∀ current,
      sessions.find? (fun session => decide (session.agentSessionId = agentSessionId)) = some current →
        current.isTerminal = true ∧ current.isNativeOutcomeUncertain = false := by
  unfold Cancellation.listed at h
  cases reply with
  | error failure => cases h
  | ok sessions =>
    refine ⟨sessions, rfl, fun current hcurrent => ?_⟩
    dsimp only at h
    rw [hcurrent] at h
    dsimp only at h
    split_ifs at h with hunsafe
    simpa [and_comm] using hunsafe

theorem exitStep_overflowSettles {o : List Output} {c : Cancellation} (houtputs : exits o = [])
    (hproves : c = .confirmed → e.Proves agentSessionId) (s : StartTransportState) :
    ExitStep agentSessionId s e o (s.overflowSettles c) := by
  unfold overflowSettles
  dsimp only
  split_ifs with hc
  · refine .proved (hproves hc) ?_ rfl rfl
    rw [houtputs]
    rfl
  · exact .of_same houtputs ⟨rfl, rfl, rfl, Nat.le_refl _⟩

theorem exitStep_killSettles {i : ℕ} {c : Cancellation} {o : List Output} (houtputs : exits o = [])
    (hproves : c = .confirmed → e.Proves agentSessionId) (s : StartTransportState) :
    ExitStep agentSessionId s e (o ++ (s.killSettles i c).1) (s.killSettles i c).2 := by
  unfold killSettles
  dsimp only
  split_ifs with hc
  · refine .proved (hproves hc) ?_ ?_ (nextHandler_notifyProvenExit _)
    · rw [exits_append, houtputs]
      exact exits_notifyProvenExit { s.setKill i c with killed := true }
    · exact congrArg (List.filterMap _) (microtasks_notifyProvenExit { s.setKill i c with killed := true })
  · exact .of_same (by rw [List.append_nil]; exact houtputs) ⟨rfl, rfl, rfl, Nat.le_refl _⟩

theorem exits_again (again : Bool) : exits (if again then [Output.cancel] else []) = [] := by
  cases again <;> rfl

theorem exitStep_run (h : e.possible s = true) :
    ExitStep agentSessionId s e (e.run agentSessionId s).1 (e.run agentSessionId s).2 := by
  cases e with
  | line payload => exact exitStep_lineEvent payload s
  | onLine => exact exitStep_onLine s
  | exit payload => exact exitStep_exitEvent payload s
  | onExit => exact exitStep_onExit s
  | kill => exact exitStep_kill s
  | microtask => exact exitStep_runMicrotask s
  | giveUp | killRejected => exact .of_same rfl ⟨rfl, rfl, rfl, Nat.le_refl _⟩
  | ensureStartListeners =>
    refine .of_same rfl ?_
    change SameExits s s.ensureStartListeners
    unfold ensureStartListeners
    split_ifs <;> exact ⟨rfl, rfl, rfl, Nat.le_refl _⟩
  | lineListening ok =>
    refine .of_same rfl ?_
    change SameExits s (s.lineListening ok)
    unfold lineListening
    dsimp only
    split_ifs <;> exact ⟨rfl, rfl, rfl, Nat.le_refl _⟩
  | exitListening ok =>
    refine .of_same rfl ?_
    change SameExits s (s.exitListening ok)
    unfold exitListening
    dsimp only
    split_ifs <;> exact ⟨rfl, rfl, rfl, Nat.le_refl _⟩
  | overflowReply reply =>
    change ExitStep agentSessionId s _ (s.overflowReply agentSessionId reply).1
      (s.overflowReply agentSessionId reply).2
    obtain ⟨c, hc, hasked⟩ := (Option.any_eq_true _ _).1 h
    unfold overflowReply
    rw [hc]
    dsimp only [asking]
    rw [List.append_nil]
    refine exitStep_overflowSettles (exits_again _) (fun hconfirmed => ?_) s
    rcases of_decide_eq_true hasked with rfl | rfl <;> exact reply_confirmed hconfirmed
  | overflowListed reply =>
    change ExitStep agentSessionId s _ [] (s.overflowListed agentSessionId reply)
    unfold overflowListed
    rw [of_decide_eq_true h]
    exact exitStep_overflowSettles (e := .overflowListed reply) rfl (fun hconfirmed => listed_confirmed hconfirmed) s
  | killReply i reply =>
    change ExitStep agentSessionId s _ (s.killReply agentSessionId i reply).1
      (s.killReply agentSessionId i reply).2
    obtain ⟨promise, hpromise, hasked⟩ := (Option.any_eq_true _ _).1 h
    unfold killReply
    rw [hpromise]
    refine exitStep_killSettles (exits_again _) (fun hconfirmed => ?_) s
    rcases of_decide_eq_true hasked with hc | hc <;> rw [hc] at hconfirmed <;> exact reply_confirmed hconfirmed
  | killListed i reply =>
    change ExitStep agentSessionId s _ (s.killListed agentSessionId i reply).1
      (s.killListed agentSessionId i reply).2
    obtain ⟨promise, hpromise, hlisting⟩ := (Option.any_eq_true _ _).1 h
    unfold killListed
    rw [hpromise]
    refine exitStep_killSettles (o := []) rfl (fun hconfirmed => ?_) s
    rw [of_decide_eq_true hlisting] at hconfirmed
    exact listed_confirmed hconfirmed

theorem exitStep_of_step {label : Label} (h : Event.Step agentSessionId s label t) :
    ExitStep agentSessionId s label.1 label.2 t := by
  have hstep : ExitStep agentSessionId s label.1 (label.1.run agentSessionId s).1 (label.1.run agentSessionId s).2 :=
    exitStep_run h.1
  rw [h.2] at hstep
  exact hstep

end ExitStep

/-! ## Exit handlers over a run -/

/-- A handler waits or was called, and is called only once the end of the process is proved. -/
structure Notifying (agentSessionId : ℕ) (labels : List Label) (s : StartTransportState) : Prop where
  once : (exits (outputs labels) ++ s.exitsAhead).Nodup
  fresh : ∀ handler ∈ exits (outputs labels) ++ s.exitsAhead, handler < s.nextHandler
  proved : s.killed = true ∨ s.exitTasks ≠ [] → ∃ label ∈ labels, label.1.Proves agentSessionId

section Run

variable {agentSessionId handler : ℕ} {s t : StartTransportState} {labels : List Label} {e : Event} {o : List Output}

theorem exists_concat {P : Label → Prop} {label : Label} (h : ∃ label ∈ labels, P label) :
    ∃ other ∈ labels ++ [label], P other := by
  obtain ⟨other, hmem, hother⟩ := h
  exact ⟨other, List.mem_append_left _ hmem, hother⟩

open StartTransportState

theorem Notifying.initial : Notifying agentSessionId [] {} where
  once := .nil
  fresh := fun _ h => nomatch h
  proved := by
    rintro (h | h)
    · cases h
    · exact absurd rfl h

theorem Notifying.step (h : Notifying agentSessionId labels s) (hstep : ExitStep agentSessionId s e o t) :
    Notifying agentSessionId (labels ++ [(e, o)]) t := by
  cases hstep with
  | idle houtputs hkilled hhandlers htasks hnext =>
    have hahead : t.exitsAhead = s.exitsAhead := by rw [exitsAhead, exitsAhead, hhandlers, htasks]
    refine ⟨?_, fun handler hmem => ?_, fun hwaits => ?_⟩
    · rw [outputs_concat, exits_append, houtputs, List.append_nil, hahead]
      exact h.once
    · rw [outputs_concat, exits_append, houtputs, List.append_nil, hahead] at hmem
      exact Nat.lt_of_lt_of_le (h.fresh handler hmem) hnext
    · rw [htasks] at hwaits
      exact exists_concat (h.proved (hwaits.imp_left hkilled))
  | proved hproves hhandlers htasks hnext =>
    have hsame : exits (outputs (labels ++ [(e, o)])) ++ t.exitsAhead = exits (outputs labels) ++ s.exitsAhead := by
      rw [outputs_concat, exits_append, List.append_assoc, exitsAhead, exitsAhead, htasks, ← hhandlers]
      simp only [List.append_assoc]
    refine ⟨hsame ▸ h.once, fun handler hmem => ?_, fun _ => ⟨(e, o), by simp, hproves⟩⟩
    rw [hsame] at hmem
    exact hnext ▸ h.fresh handler hmem
  | attached hkilled hnext hwaits =>
    have hperm : t.exitsAhead.Perm (s.exitsAhead ++ [s.nextHandler]) := by
      rcases hwaits with ⟨hhandlers, htasks⟩ | ⟨-, hhandlers, htasks⟩
      · rw [exitsAhead, exitsAhead, hhandlers, htasks, List.append_assoc, List.append_assoc]
        exact List.Perm.append_left _ List.perm_append_comm
      · rw [exitsAhead, exitsAhead, hhandlers, htasks, List.append_assoc]
    have hall : (exits (outputs (labels ++ [(Event.onExit, [])])) ++ t.exitsAhead).Perm
        (exits (outputs labels) ++ s.exitsAhead ++ [s.nextHandler]) := by
      rw [outputs_concat, List.append_nil, List.append_assoc]
      exact hperm.append_left _
    refine ⟨hall.nodup_iff.2 ?_, fun handler hmem => ?_, fun hwaiting => ?_⟩
    · refine List.nodup_append.2 ⟨h.once, List.nodup_singleton _, fun handler hmem other hother heq => ?_⟩
      rw [List.mem_singleton.1 hother] at heq
      exact absurd (h.fresh handler hmem) (heq ▸ Nat.lt_irrefl _)
    · rw [hall.mem_iff, List.mem_append, List.mem_singleton] at hmem
      rw [hnext]
      rcases hmem with hmem | rfl
      · exact Nat.lt_succ_of_lt (h.fresh handler hmem)
      · exact Nat.lt_succ_self _
    · refine exists_concat (h.proved ?_)
      rw [hkilled] at hwaiting
      rcases hwaits with ⟨-, htasks⟩ | ⟨hs, -, -⟩
      · exact htasks ▸ hwaiting
      · exact .inl hs
  | @called other _ code stderrTail hkilled hhandlers htasks hnext =>
    have hperm : (exits (outputs (labels ++ [(Event.microtask, [.exit other code stderrTail])])) ++ t.exitsAhead).Perm
        (exits (outputs labels) ++ s.exitsAhead) := by
      rw [outputs_concat, exits_append, List.append_assoc, exitsAhead, exitsAhead, hhandlers, htasks]
      have hmiddle : (s.exitHandlers ++ other :: t.exitTasks).Perm (other :: (s.exitHandlers ++ t.exitTasks)) :=
        List.perm_middle
      exact hmiddle.symm.append_left _
    refine ⟨hperm.nodup_iff.2 h.once, fun handler hmem => ?_, fun _ => ?_⟩
    · exact hnext ▸ h.fresh handler (hperm.mem_iff.1 hmem)
    · refine exists_concat (h.proved (.inr ?_))
      rw [htasks]
      exact List.cons_ne_nil _ _

theorem Notifying.run (hrun : Run (Event.Step agentSessionId) {} labels s) : Notifying agentSessionId labels s :=
  hrun.invariant_labels (fun _ _ _ _ h hstep => h.step (exitStep_of_step hstep)) Notifying.initial

/-- A handler is called in a step whose event proves the end of the process, or after one. -/
theorem proved_of_called (h : Notifying agentSessionId labels s) (hstep : ExitStep agentSessionId s e o t)
    (hcalled : exits o ≠ []) : ∃ label ∈ labels ++ [(e, o)], label.1.Proves agentSessionId := by
  cases hstep with
  | idle houtputs => exact absurd houtputs hcalled
  | proved hproves => exact ⟨(e, o), by simp, hproves⟩
  | attached => exact absurd rfl hcalled
  | called hkilled hhandlers htasks hnext =>
    refine exists_concat (h.proved (.inr ?_))
    rw [htasks]
    exact List.cons_ne_nil _ _

theorem terminalError_of_lineStep (hstep : LineStep s e o t) (h : s.terminalError = true) : t.terminalError = true := by
  cases hstep with
  | quiet hevent houtputs hsame => exact hsame.terminalError.trans h
  | given payload hthere => exact h
  | kept payload hnone hpending hhandlers herror hnext => exact herror.trans h
  | overflowed payload hnone hhandlers herror hnext => exact herror
  | lost payload hnone herror => exact h
  | attached houtputs hhandlers hpending herror hnext => exact herror.trans h

theorem terminalError_of_run (hrun : Run (Event.Step agentSessionId) s labels t) (h : s.terminalError = true) :
    t.terminalError = true :=
  hrun.invariant (fun _ _ _ h hstep => terminalError_of_lineStep (lineStep_of_step hstep) h) h

theorem linesTo_of_onLine {u : StartTransportState} {before after : List Label}
    (hbefore : Run (Event.Step agentSessionId) {} before s) (hattach : Event.Step agentSessionId s (.onLine, o) t)
    (hafter : Run (Event.Step agentSessionId) t after u) (herror : s.terminalError = false) :
    linesTo s.nextHandler (outputs (before ++ (.onLine, o) :: after)) =
      (if s.lineHandlers = [] then received before else []) ++ received after := by
  have h := Delivering.run hbefore
  have hnow : s.onLine = (o, t) := hattach.2
  have hthere : s.nextHandler ∈ t.lineHandlers := by
    have hhandlers : t.lineHandlers = s.lineHandlers ++ [s.nextHandler] :=
      (congrArg (fun outcome => outcome.2.lineHandlers) hnow).symm.trans (lineHandlers_onLine s)
    rw [hhandlers]
    exact List.mem_append_right _ List.mem_cons_self
  have hlater := linesTo_of_attached hafter (h.step (lineStep_of_step hattach)) hthere
  have hgiven : linesTo s.nextHandler o = s.pendingLines := by
    have hbuffered : o = s.pendingLines.map fun payload => .line s.nextHandler payload :=
      (congrArg Prod.fst hnow).symm.trans (onLine_outputs s)
    rw [hbuffered, linesTo_buffered, if_pos rfl]
  rw [outputs_append, linesTo_append, h.unattached _ (Nat.le_refl _), List.nil_append]
  change linesTo s.nextHandler (o ++ outputs after) = _
  rw [linesTo_append, hgiven, hlater, h.pending herror]

end Run

/-! ## An example -/

section Example

open NekoChill (js)

def Event.play (agentSessionId : ℕ) : List Event → StartTransportState → List Label × StartTransportState
  | [], s => ([], s)
  | e :: es, s =>
    let outcome := e.run agentSessionId s
    let rest := play agentSessionId es outcome.2
    ((e, outcome.1) :: rest.1, rest.2)

def Event.allPossible (agentSessionId : ℕ) : List Event → StartTransportState → Bool
  | [], _ => true
  | e :: es, s => e.possible s && allPossible agentSessionId es (e.run agentSessionId s).2

theorem run_play {agentSessionId : ℕ} {es : List Event} {s : StartTransportState}
    (h : Event.allPossible agentSessionId es s = true) :
    Run (Event.Step agentSessionId) s (Event.play agentSessionId es s).1 (Event.play agentSessionId es s).2 := by
  induction es generalizing s with
  | nil => exact .nil s
  | cons e es ih =>
    rw [Event.allPossible, Bool.and_eq_true] at h
    exact .cons ⟨h.1, rfl⟩ (ih h.2)

/-- A line comes before the handlers; the process exits twice, the second time with a proof. -/
def exampleEvents : List Event :=
  [.ensureStartListeners, .lineListening true, .line (js "a"), .exitListening true, .onExit, .onLine, .line (js "b"),
    .exit .null, .kill, .onExit,
    .exit (.object [("exitCode", .number 0), ("terminationProven", .bool true), ("terminalStatePersisted", .bool true)]),
    .killReply 0 (.value (some ⟨7, true⟩)), .onExit, .microtask, .microtask]

end Example

end Wiii.NekoControl
