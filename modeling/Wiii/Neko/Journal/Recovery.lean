import Wiii.Neko.Journal.Maintenance

/-!
# Recovery is total and sound

No reachable session is `queued` (`Reachable.noQueued`), and every other open state can be closed in the way its phase
calls for, so recovery returns unless the storage fails one of its calls, and then another recovery changes nothing
(`recoverIncomplete_sound`).
-/

namespace Wiii.Neko

open Journal Database Relation Program

variable {db db' : Database} {tick : Tick} {μ : Type}

/-! ## No session is queued -/

/-- No session waits in the state that nothing but a test ever writes. -/
def NoQueued (db : Database) : Prop := ∀ s row, db.session s = some row → row.state ≠ .queued

theorem Effect.noQueued {A : ControlRequest → Prop} {W : ControlRequest → ControlRequest → Prop}
    (h : Effect A W db db') (hq : NoQueued db) : NoQueued db' := by
  intro s row hrow
  cases h with
  | addRequest _ _ | setRequests _ | retain _ _ | release _ => exact hq s row hrow
  | addEvent _ _ append =>
    rw [Database.session, append.sessions] at hrow
    exact hq s row hrow
  | addSession starting insert =>
    rw [Database.session, Table.find?_insert? insert] at hrow
    split at hrow
    · cases hrow
      rw [starting]
      decide
    · exact hq s row hrow
  | @setSession s' f hf state =>
    rw [session_updateSession] at hrow
    split at hrow
    · obtain ⟨old, hold, rfl⟩ := Option.map_eq_some_iff.1 hrow
      intro hqueued
      have hstep := state old hold
      rw [hqueued] at hstep
      exact hq s' old hold (canTransition_queued hstep)
    · exact hq s row hrow

theorem Reachable.noQueued (h : Reachable db) : NoQueued db := by
  refine h.invariant (by simp [NoQueued]) fun _ _ _ hq hs => ?_
  refine Step.invariant (fun _ _ hq he => he.noQueued hq) (fun t r tick db db' hq hm => ?_) hq hs
  rw [startupMaintenance_eq] at hm
  obtain rfl : maintained t r tick db = db' := by simpa using hm
  intro s row hrow
  rw [session_maintained, Option.filter_eq_some_iff] at hrow
  exact hq s row hrow.1

/-! ## The session loop -/

theorem recoveryOutcome_spec (phase : OperationPhase) :
    ((recoveryOutcome phase).state = .failed ∨ (recoveryOutcome phase).state = .unknownOutcome) ∧
      canAdvanceOperation phase (recoveryOutcome phase).phase ∧
      PayloadValid (.object [("reason", .string (recoveryOutcome phase).reason),
        ("state", .string (recoveryOutcome phase).state.asStr)]) := by
  cases phase <;> decide +kernel

theorem recoveryCommit_committable {session : SessionRecord}
    (hs : db.session session.agentSessionId = some session)
    (hopen : session.state.isTerminal = false) (hq : session.state ≠ .queued) :
    Committable (recoveryCommit session) none none db session := by
  obtain ⟨hstate, hphase, hpayload⟩ := recoveryOutcome_spec session.operationPhase
  obtain ⟨hfail, -, hunknown⟩ := canTransition_end hopen hq
  constructor
  · exact .inl rfl
  · exact hpayload
  · rintro _ _ ⟨⟩
  · exact hs
  · change canTransition session.state (recoveryOutcome session.operationPhase).state
    rcases hstate with h | h <;> rw [h] <;> assumption
  · exact hphase
  · rintro _ _ ⟨⟩
  · rintro _ _ ⟨⟩

/-- The sessions `as` are to come; the others are closed or wait for their fact. -/
structure Recovering (before : Database) (as : List SessionRecord) (db : Database) : Prop where
  listed : ∀ a ∈ as, db.session a.agentSessionId = some a
  distinct : (as.map SessionRecord.agentSessionId).Nodup
  rest : ∀ s row, db.session s = some row →
    row.state.isTerminal ∨ (db.retained s).isSome ∨ row ∈ as
  noQueued : NoQueued db
  requests : db.requests = before.requests

theorem Recovering.skip {before : Database} {a : SessionRecord} {as : List SessionRecord}
    (h : Recovering before (a :: as) db)
    (ha : a.state.isTerminal ∨ (db.retained a.agentSessionId).isSome) :
    Recovering before as db := by
  refine ⟨fun b hb => h.listed b (List.mem_cons_of_mem _ hb), (List.nodup_cons.1 h.distinct).2,
    fun s row hrow => ?_, h.noQueued, h.requests⟩
  rcases h.rest s row hrow with hr | hr | hr
  · exact .inl hr
  · exact .inr (.inl hr)
  · rcases List.mem_cons.1 hr with rfl | hr
    · rw [← Table.key_of_find? hrow]
      exact ha.imp_right .inl
    · exact .inr (.inr hr)

theorem Recovering.close {before : Database} {a : SessionRecord} {as : List SessionRecord}
    (h : Recovering before (a :: as) db)
    (hc : Commits (recoveryCommit a) none none tick db a db') : Recovering before as db' := by
  have hid : (recoveryCommit a).agentSessionId = a.agentSessionId := rfl
  have hstate : (recoveryCommit a).nextState = .failed ∨
      (recoveryCommit a).nextState = .unknownOutcome := (recoveryOutcome_spec _).1
  obtain ⟨hfresh, hnodup⟩ := List.nodup_cons.1 h.distinct
  have hterminal : (committedSession (recoveryCommit a) tick.now a).state.isTerminal := by
    rcases hstate with hs | hs <;> simp [committedSession, hs, RunState.isTerminal]
  have hself : db'.session a.agentSessionId =
      some (committedSession (recoveryCommit a) tick.now a) := by
    rw [hc.session, hid, if_pos rfl, h.listed a List.mem_cons_self]
    rfl
  have hother : ∀ s, s ≠ a.agentSessionId → db'.session s = db.session s := by
    intro s hs
    rw [hc.session, hid, if_neg hs]
  constructor
  · intro b hb
    rw [hother _ fun e => hfresh (e ▸ List.mem_map_of_mem hb)]
    exact h.listed b (List.mem_cons_of_mem _ hb)
  · exact hnodup
  · intro s row hrow
    by_cases hs : s = a.agentSessionId
    · subst hs
      rw [hself] at hrow
      cases hrow
      exact .inl hterminal
    · rw [hother s hs] at hrow
      rw [hc.retained, hid, if_neg hs]
      rcases h.rest s row hrow with hr | hr | hr
      · exact .inl hr
      · exact .inr (.inl hr)
      · rcases List.mem_cons.1 hr with rfl | hr
        · exact absurd (Table.key_of_find? hrow).symm hs
        · exact .inr (.inr hr)
  · intro s row hrow
    by_cases hs : s = a.agentSessionId
    · subst hs
      rw [hself] at hrow
      cases hrow
      rcases hstate with hst | hst <;> simp [committedSession, hst]
    · rw [hother s hs] at hrow
      exact h.noQueued s row hrow
  · exact hc.requests.trans h.requests

theorem recoverSession_yields (before : Database) (a : SessionRecord) (as : List SessionRecord) :
    Yields (Recovering before (a :: as)) (recoverSession a : Program Database μ _)
      (fun _ => Recovering before as) (fun db => db.requests = before.requests) := by
  unfold recoverSession
  by_cases hterminal : a.state.isTerminal = true
  · rw [if_pos hterminal]
    exact yields_pure fun db h => h.skip (.inl hterminal)
  rw [if_neg hterminal]
  have hread : Yields (Recovering before (a :: as))
      (call fun _ db => .ok (hasPendingTerminalFact db a.agentSessionId, db) :
        Program Database μ _)
      (fun pending db => Recovering before (a :: as) db ∧
        pending = (db.retained a.agentSessionId).isSome)
      (fun db => db.requests = before.requests) :=
    yields_call (fun _ h => h.requests) fun t db h => ⟨_, _, rfl, h, rfl⟩
  refine hread.andThen fun pending => ?_
  cases pending with
  | true =>
    rw [if_pos rfl]
    exact yields_pure fun db h => h.1.skip (.inr h.2.symm)
  | false =>
    rw [if_neg (by decide)]
    have hclose : Yields (fun db => Recovering before (a :: as) db)
        (call (updateSessionWithEvent (recoveryCommit a)) : Program Database μ _)
        (fun _ db => Recovering before as db) (fun db => db.requests = before.requests) := by
      refine yields_call (fun _ h => h.requests) fun t db h => ?_
      have hself := h.listed a List.mem_cons_self
      obtain ⟨db', hok, hc⟩ := commitSessionEvent_commits
        (recoveryCommit_committable hself (by simpa using hterminal) (h.noQueued _ a hself)) t
      exact ⟨_, db', hok, h.close hc⟩
    refine (hclose.mono (fun _ h => h.1) (fun _ _ h => h) fun _ h => h).andThen fun _ => ?_
    exact yields_pure fun _ h => h

/-! ## Recovery -/

/-- Everything is closed, or waits for its pending fact. -/
structure Recovered (db : Database) : Prop where
  sessions : ∀ s row, db.session s = some row → row.state.isTerminal ∨ (db.retained s).isSome
  requests : ∀ r row, db.request r = some row → row.phase.isTerminal ∨ db.linked r

/-- The phases in which the side effect of a request may have happened. -/
def MayHaveHappened (p : OperationPhase) : Prop :=
  p = .sideEffectStarted ∨ p = .committed ∨ p = .unknownOutcome

/-- No request whose side effect started has been failed or completed since `before`. -/
def SparesStarted (before db : Database) : Prop :=
  ∀ r row, before.request r = some row → MayHaveHappened row.phase →
    ∃ row', db.request r = some row' ∧ MayHaveHappened row'.phase

theorem SparesStarted.of_requests {before : Database} (h : db.requests = before.requests) :
    SparesStarted before db := by
  intro r row hr hp
  refine ⟨row, ?_, hp⟩
  rw [Database.request, h]
  exact hr

section Closed

variable {open_ : OperationPhase → Bool} {phase : OperationPhase} {errorCode : String}

theorem request_closed (r : String) :
    (closed open_ phase errorCode tick db).request r = (db.request r).map fun row =>
      if open_ row.phase && !db.linked row.requestId then closedRow phase errorCode tick row
      else row :=
  Table.find?_updateWhere _ _ _ (requestId_closedRow phase errorCode tick) r

theorem closed_cases {r : String} {row' : ControlRequest}
    (h : (closed open_ phase errorCode tick db).request r = some row') :
    row'.phase = phase ∨
      db.request r = some row' ∧ (open_ row'.phase = false ∨ db.linked r) := by
  rw [request_closed, Option.map_eq_some_iff] at h
  obtain ⟨row, hrow, rfl⟩ := h
  rw [Table.key_of_find? hrow]
  split
  · exact .inl rfl
  · rename_i hn
    refine .inr ⟨hrow, ?_⟩
    cases ho : open_ row.phase with
    | false => exact .inl rfl
    | true => exact .inr (by simpa [ho] using hn)

theorem SparesStarted.closed {before : Database} (h : SparesStarted before db)
    (ho : ∀ p, open_ p → MayHaveHappened p → MayHaveHappened phase) :
    SparesStarted before (closed open_ phase errorCode tick db) := by
  intro r row hr hp
  obtain ⟨row', hr', hp'⟩ := h r row hr hp
  rw [request_closed, hr', Option.map_some]
  refine ⟨_, rfl, ?_⟩
  split
  · rename_i hc
    exact ho _ (Bool.and_eq_true_iff.1 hc).1 hp'
  · exact hp'

theorem closed_eq_self (h : ∀ r row, db.request r = some row → open_ row.phase = false ∨ db.linked r) :
    closed open_ phase errorCode tick db = db := by
  have hrows : db.requests.updateWhere
      (fun row => open_ row.phase && !db.linked row.requestId)
      (closedRow phase errorCode tick) (requestId_closedRow phase errorCode tick) =
        db.requests := by
    refine Table.updateWhere_eq_self fun row hrow => ?_
    rcases h row.requestId row (Table.find?_of_mem hrow) with ho | hl
    · simp [ho]
    · simp [hl]
  exact congrArg (fun requests => { db with requests }) hrows

end Closed

/-- The phases that the first update leaves. -/
def Uncertain (db : Database) : Prop :=
  ∀ r row, db.request r = some row → row.phase.isTerminal ∨
    row.phase = .sideEffectStarted ∨ row.phase = .committed ∨ db.linked r

theorem Recovering.safe {before : Database} (h : Recovering before [] db) (tick : Tick) :
    let db' := closed (fun p => p = .accepted || p = .dispatched) .failed "continuity_lost" tick db
    (∀ s row, db'.session s = some row → row.state.isTerminal ∨ (db'.retained s).isSome) ∧
      Uncertain db' ∧ SparesStarted before db' := by
  refine ⟨fun s row hrow => ?_, fun r row hrow => ?_, ?_⟩
  · rcases h.rest s row hrow with hr | hr | hr
    · exact .inl hr
    · exact .inr hr
    · cases hr
  · rcases closed_cases hrow with hf | ⟨-, ho | hl⟩
    · rw [hf]
      exact .inl rfl
    · cases hp : row.phase <;> simp [hp, OperationPhase.isTerminal] at ho ⊢
    · exact .inr (.inr (.inr hl))
  · refine (SparesStarted.of_requests h.requests).closed fun p ho hp => ?_
    rcases hp with rfl | rfl | rfl <;> simp at ho

theorem Uncertain.recovered {before : Database}
    (hs : ∀ s row, db.session s = some row → row.state.isTerminal ∨ (db.retained s).isSome)
    (hu : Uncertain db) (hb : SparesStarted before db) (tick : Tick) :
    let db' := closed (fun p => p = .sideEffectStarted || p = .committed) .unknownOutcome
      "unknown_outcome" tick db
    Recovered db' ∧ SparesStarted before db' := by
  refine ⟨⟨hs, fun r row hrow => ?_⟩, hb.closed fun _ _ _ => .inr (.inr rfl)⟩
  rcases closed_cases hrow with hf | ⟨hrow, ho | hl⟩
  · rw [hf]
    exact .inl rfl
  · rcases hu r row hrow with ht | hp | hp | hl
    · exact .inl ht
    · simp [hp] at ho
    · simp [hp] at ho
    · exact .inr hl
  · exact .inr hl

theorem recoverIncomplete_yields (before : Database) (hq : NoQueued before) :
    Yields (fun db => db = before) (recoverIncomplete : Program Database μ _)
      (fun _ db => Recovered db ∧ SparesStarted before db) (SparesStarted before) := by
  have hlist : Yields (fun db => db = before)
      (call fun _ db => .ok (Journal.sessions db none, db) : Program Database μ _)
      (fun as => Recovering before as) (SparesStarted before) := by
    refine yields_call (fun db h => .of_requests (by rw [h])) ?_
    rintro t db rfl
    have hperm : (Journal.sessions db none).Perm db.sessions.rows := by
      unfold Journal.sessions
      refine (List.perm_insertionSort _ _).trans ?_
      simp
    refine ⟨_, _, rfl, fun a ha => ?_, ?_, fun s row hrow => ?_, hq, rfl⟩
    · exact Table.find?_of_mem (hperm.mem_iff.1 ha)
    · exact (hperm.map _).nodup_iff.2 db.sessions.nodup
    · exact .inr (.inr (hperm.mem_iff.2 (Table.mem_of_find? hrow)))
  have hloop : ∀ as, Yields (Recovering before as)
      (tryEach recoverSession as : Program Database μ _)
      (fun _ => Recovering before []) (SparesStarted before) := fun as =>
    (yields_tryEach (fun a as => recoverSession_yields before a as) as).mono (fun _ h => h)
      (fun _ _ h => h) fun _ h => .of_requests h
  refine hlist.andThen fun as => (hloop as).andThen fun _ => Yields.andThen (R := fun _ db =>
    (∀ s row, db.session s = some row → row.state.isTerminal ∨ (db.retained s).isSome) ∧
      Uncertain db ∧ SparesStarted before db) ?_ fun _ => ?_
  · exact yields_call (fun db h => .of_requests h.requests) fun t db h => ⟨(), _, rfl, h.safe t⟩
  · exact yields_call (fun db h => h.2.2) fun t db h => ⟨(), _, rfl, h.2.1.recovered h.1 h.2.2 t⟩

/-! ## Recovery of a recovered journal -/

theorem Recovered.closed_eq_self (h : Recovered db) {open_ : OperationPhase → Bool}
    (ho : ∀ p, p.isTerminal → open_ p = false) (phase : OperationPhase) (errorCode : String)
    (tick : Tick) : closed open_ phase errorCode tick db = db :=
  Wiii.Neko.closed_eq_self fun r row hr => (h.requests r row hr).imp_left (ho _)

/-- Recovery leaves a recovered journal as it is, whatever the storage does. -/
theorem recoverIncomplete_recovered (h : Recovered db) (w : World Database μ)
    (hw : w.durable = db) : (recoverIncomplete w).2.durable = db := by
  have hread {α : Type} (f : Database → α) : Yields (fun d => d = db)
      (call fun _ db => .ok (f db, db) : Program Database μ _) (fun a d => a = f db ∧ d = db)
      (fun d => d = db) := by
    refine yields_call (fun _ h => h) ?_
    rintro t d rfl
    exact ⟨_, _, rfl, rfl, rfl⟩
  have hsession : ∀ (a : SessionRecord) as, Yields
      (fun d => (∀ b ∈ a :: as, db.session b.agentSessionId = some b) ∧ d = db)
      (recoverSession a : Program Database μ _)
      (fun _ d => (∀ b ∈ as, db.session b.agentSessionId = some b) ∧ d = db)
      (fun d => d = db) := by
    intro a as
    by_cases hlisted : ∀ b ∈ a :: as, db.session b.agentSessionId = some b
    · have hrest : ∀ b ∈ as, db.session b.agentSessionId = some b :=
        fun b hb => hlisted b (List.mem_cons_of_mem _ hb)
      have hdone : Yields (fun d => d = db) (pure (.ok ()) : Program Database μ _)
          (fun _ d => (∀ b ∈ as, db.session b.agentSessionId = some b) ∧ d = db)
          (fun d => d = db) := yields_pure fun d hd => ⟨hrest, hd⟩
      refine Yields.mono (P := fun d => d = db) ?_ (fun _ h => h.2) (fun _ _ h => h) fun _ h => h
      unfold recoverSession
      by_cases hterminal : a.state.isTerminal = true
      · rw [if_pos hterminal]
        exact hdone
      · rw [if_neg hterminal]
        have hret := (h.sessions _ _ (hlisted a List.mem_cons_self)).resolve_left hterminal
        refine (hread fun d => hasPendingTerminalFact d a.agentSessionId).andThen fun pending => ?_
        by_cases hp : pending = true
        · rw [if_pos hp]
          exact hdone.mono (fun _ h => h.2) (fun _ _ h => h) fun _ h => h
        · intro w hw
          exact absurd (hw.1.trans hret) hp
    · intro w hw
      exact absurd hw.1 hlisted
  have hall : Yields (fun d => d = db) (recoverIncomplete : Program Database μ _)
      (fun _ d => d = db) (fun d => d = db) := by
    refine (hread fun d => Journal.sessions d none).andThen fun as => ?_
    have hloop := yields_tryEach (I := fun as d =>
      (∀ b ∈ as, db.session b.agentSessionId = some b) ∧ d = db) hsession as
    refine (hloop.mono ?_ (fun _ _ h => h.2) fun _ h => h).andThen fun _ =>
      Yields.andThen (R := fun _ d => d = db) ?_ fun _ => ?_
    · rintro d ⟨rfl, hd⟩
      refine ⟨fun b hb => ?_, hd⟩
      have hmem : b ∈ db.sessions.rows := by
        unfold Journal.sessions at hb
        rw [List.mem_insertionSort] at hb
        exact (List.mem_filter.1 hb).1
      exact Table.find?_of_mem hmem
    · refine yields_call (fun _ h => h) ?_
      rintro t d rfl
      refine ⟨(), _, rfl, h.closed_eq_self (fun p hp => ?_) _ _ t⟩
      cases p <;> simp [OperationPhase.isTerminal] at hp ⊢
    · refine yields_call (fun _ h => h) ?_
      rintro t d rfl
      refine ⟨(), _, rfl, h.closed_eq_self (fun p hp => ?_) _ _ t⟩
      cases p <;> simp [OperationPhase.isTerminal] at hp ⊢
  obtain ⟨-, hok, herr⟩ := hall w hw
  cases hr : (recoverIncomplete w).1 with
  | ok _ => exact hok _ hr
  | error _ => exact (herr _ hr).1

/-- Recovery ends in a reachable journal even when the storage fails; when it returns, everything is closed or waits for
its pending fact, and no request whose side effect had started has been failed or completed. -/
theorem recoverIncomplete_sound (w : World Database μ) (h : Reachable w.durable) :
    Reachable (recoverIncomplete w).2.durable ∧
    ((recoverIncomplete w).1 = .ok () ∨ ∃ tick ∈ w.ticks, tick.fault.isSome) ∧
    ((recoverIncomplete w).1 = .ok () → Recovered (recoverIncomplete w).2.durable ∧
      ∀ again : World Database μ, again.durable = (recoverIncomplete w).2.durable →
        (recoverIncomplete again).2.durable = again.durable) ∧
    ∀ r row, w.durable.request r = some row →
      row.phase = .sideEffectStarted ∨ row.phase = .committed →
      ∃ row', (recoverIncomplete w).2.durable.request r = some row' ∧
        row'.phase ≠ .failed ∧ row'.phase ≠ .completed := by
  obtain ⟨-, hok, herr⟩ := recoverIncomplete_yields w.durable h.noQueued w rfl
  refine ⟨h.trans (evolves_recoverIncomplete w), ?_, fun hr => ?_, fun r row hr hp => ?_⟩
  · cases hr : (recoverIncomplete w).1 with
    | ok _ => exact .inl rfl
    | error error =>
      obtain ⟨-, tick, hmem, hfault⟩ := herr error hr
      exact .inr ⟨tick, hmem, by rw [hfault]; rfl⟩
  · refine ⟨(hok _ hr).1, fun again hagain => ?_⟩
    rw [recoverIncomplete_recovered (hok _ hr).1 again hagain, hagain]
  · have hspares : SparesStarted w.durable (recoverIncomplete w).2.durable := by
      cases hr : (recoverIncomplete w).1 with
      | ok _ => exact (hok _ hr).2
      | error _ => exact (herr _ hr).1
    obtain ⟨row', hrow', hp'⟩ := hspares r row hr (hp.imp_right .inl)
    refine ⟨row', hrow', ?_⟩
    rcases hp' with hp' | hp' | hp' <;> rw [hp'] <;> decide

/-- A start whose process died after its side effect began. -/
def abandonedStart : List (Op × Tick) :=
  [(.beginStartRequest "r" "t" ⟨"s", "task", "run", "env", "provider", "/w"⟩ true "session.created"
      (.object [("providerId", .string "provider")]), ⟨1, "e1", none⟩),
    (.setRequestPhase "r" .dispatched, ⟨2, "", none⟩),
    (.setSessionPhase "s" .dispatched, ⟨3, "", none⟩),
    (.setRequestPhase "r" .sideEffectStarted, ⟨4, "", none⟩),
    (.setSessionPhase "s" .sideEffectStarted, ⟨5, "", none⟩)]

/-- Recovery closes it as unknown. -/
theorem recoverIncomplete_sound_abandonedStart :
    let left := recoverIncomplete ⟨perform ∅ abandonedStart, (), []⟩
    Recovered left.2.durable ∧
      (left.2.durable.session "s").map SessionRecord.state = some .unknownOutcome ∧
        (left.2.durable.request "r").map ControlRequest.phase = some .unknownOutcome := by
  refine ⟨?_, rfl, rfl⟩
  exact ((recoverIncomplete_sound ⟨perform ∅ abandonedStart, (), []⟩
    (reachable_perform abandonedStart)).2.2.1 rfl).1

end Wiii.Neko
