import Wiii.NekoChill.Outbox

/-!
# Steps of an outbox

What each step of the outbox can do, with what it has checked.
-/

namespace Wiii.NekoChill

open Function (update)

namespace Outbox

variable {o o' : Outbox} {sessionId : String} {call : ℕ}

/-! ## Transactions -/

theorem begin_eq_some (h : o.begin = some o') : ∃ txn rest, o.tail = txn :: rest ∧ o.running = none ∧
    ((∃ error, o' = o.finish txn rest (some error)) ∨
      ∃ next, o.ready = true ∧ o.applyTxn txn = .ok next ∧ o' = { o with running := some next }) := by
  unfold begin at h
  split at h
  · rename_i txn rest htail hrunning
    refine ⟨txn, rest, htail, hrunning, ?_⟩
    split at h
    · exact .inl ⟨_, (Option.some.inj h).symm⟩
    · rename_i hready
      split at h
      · exact .inl ⟨_, (Option.some.inj h).symm⟩
      · exact .inr ⟨_, by simpa using hready, ‹_›, (Option.some.inj h).symm⟩
  · cases h

theorem written_eq_some (h : o.written = some o') :
    ∃ txn rest next, o.tail = txn :: rest ∧ o.running = some next ∧ o' = { o with
      disk := next
      snapshot := next
      stored := fun sessionId id => o.stored sessionId id || isStored next sessionId id
      restored := fun sessionId => o.restored sessionId && match txn with
        | .resume resumedId _ => decide (sessionId ≠ resumedId)
        | _ => true }.finish txn rest none := by
  unfold written at h
  split at h
  · exact ⟨_, _, _, ‹_›, ‹_›, (Option.some.inj h).symm⟩
  · cases h

theorem failed_eq_some {message : String} {reached : Bool} (h : o.failed message reached = some o') :
    ∃ txn rest next, o.tail = txn :: rest ∧ o.running = some next ∧
      o' = { o with disk := if reached then next else o.disk }.finish txn rest (some message) := by
  unfold failed at h
  split at h
  · exact ⟨_, _, _, ‹_›, ‹_›, (Option.some.inj h).symm⟩
  · cases h

/-! ## Calls -/

theorem resume_eq_some (h : o.resume sessionId call = some o') :
    call = o.nextCall ∧ o' = { o with
      nextCall := o.nextCall + 1
      resumes := update o.resumes call (some { sessionId := sessionId }) }.push (.resume sessionId call) := by
  unfold resume at h
  split at h
  · exact ⟨‹_›, (Option.some.inj h).symm⟩
  · cases h

theorem resumed_eq_some (h : o.resumed call = some o') :
    ∃ c ok, o.resumes call = some c ∧ c.completed = none ∧ c.settled = some ok ∧ o' = { o with
      resumes := update o.resumes call (some { c with completed := some ok })
      blocked := if ok then update o.blocked c.sessionId false else o.blocked } := by
  unfold resumed at h
  split at h
  · rename_i c hc
    split at h
    · cases h
    · rename_i hcompleted
      split at h
      · cases h
      · rename_i ok hsettled
        exact ⟨c, ok, hc, by simpa using hcompleted, hsettled, (Option.some.inj h).symm⟩
  · cases h

/-! ## Dispatch -/

theorem nextQueued_eq_some {canSend : Bool} {item : OutboxItem} (h : o.nextQueued sessionId canSend = some item) :
    ∃ queue, o.snapshot.find? sessionId = some queue ∧ o.ready = true ∧ o.error = none ∧ queue.paused = false ∧
      o.blocked sessionId = false ∧ o.inFlight sessionId = none ∧ queue.items.head? = some item ∧
      item.state = .queued := by
  unfold nextQueued at h
  obtain ⟨queue, hfind, h⟩ := Option.bind_eq_some_iff.1 h
  split at h
  · cases h
  · rename_i hguard
    simp only [Bool.or_eq_true, not_or, Bool.not_eq_true, Bool.not_eq_false', Option.isSome_eq_false_iff,
      Option.isNone_iff_eq_none] at hguard
    obtain ⟨hhead, hstate⟩ := Option.filter_eq_some_iff.1 h
    exact ⟨queue, hfind, hguard.1.1.1.1.1, hguard.1.1.1.1.2, hguard.1.1.1.2, hguard.1.1.2, hguard.1.2, hhead,
      of_decide_eq_true hstate⟩

theorem dispatch_cases (sessionId : String) (current : Option OutboxBinding) (canSend : Bool) :
    (o.pauses (.dispatch sessionId current canSend) = none ∧ o.dispatch sessionId current canSend = o) ∨
    (o.pauses (.dispatch sessionId current canSend) = none ∧
      ∃ item, o.nextQueued sessionId canSend = some item ∧ current = some item.binding ∧
        o.dispatch sessionId current canSend =
          { o with inFlight := update o.inFlight sessionId (some (.claiming item)) }.push (.dispatch sessionId)) ∨
    (o.pauses (.dispatch sessionId current canSend) = some sessionId ∧
      o.dispatch sessionId current canSend = o.pause sessionId changedReason) := by
  unfold dispatch
  split
  · rename_i hnone
    exact .inl ⟨by simp [pauses, hnone], rfl⟩
  · rename_i item hitem
    split
    · rename_i heq
      exact .inr (.inl ⟨by simp [pauses, hitem, heq], item, hitem, heq, rfl⟩)
    · rename_i hne
      exact .inr (.inr ⟨by simp [pauses, hitem, hne], rfl⟩)

theorem pauses_eq_some {act : OutboxAct} (h : o.step act = some o') (hpauses : o.pauses act = some sessionId) :
    ∃ reason, o' = o.pause sessionId reason := by
  cases act with
  | pause other reason =>
    cases hpauses
    exact ⟨reason, (Option.some.inj h).symm⟩
  | dispatch other current canSend =>
    cases h
    obtain ⟨hnone, -⟩ | ⟨hnone, -⟩ | ⟨hsome, heq⟩ := o.dispatch_cases other current canSend
    · rw [hnone] at hpauses
      cases hpauses
    · rw [hnone] at hpauses
      cases hpauses
    · rw [hsome] at hpauses
      cases hpauses
      exact ⟨_, heq⟩
  | _ => cases hpauses

theorem proceed_eq_some {current : Option OutboxBinding} {canSend : Bool}
    (h : o.proceed sessionId current canSend = some o') : ∃ item, o.inFlight sessionId = some (.claimed item none) ∧
    (o' = { o with inFlight := update o.inFlight sessionId (some (.holding item)) }.push (.dispatch sessionId) ∨
    (∃ error, o' = { o with inFlight := update o.inFlight sessionId (some (.closing item (some error))) }) ∨
    ∃ durable, o.blocked sessionId = false ∧ current = some item.binding ∧
      findItem item.id (o.snapshot.items sessionId) = some durable ∧ o' = { o with
        inFlight := update o.inFlight sessionId (some (.sending item false))
        sends := o.sends ++ [⟨sessionId, durable, item.binding⟩] }) := by
  unfold proceed at h
  split at h
  · rename_i item hphase
    refine ⟨item, hphase, ?_⟩
    split at h
    · exact .inl (Option.some.inj h).symm
    · rename_i hfree
      simp only [Bool.or_eq_true, not_or, decide_eq_true_eq, not_not, Bool.not_eq_true] at hfree
      split at h
      · exact .inr (.inl ⟨_, (Option.some.inj h).symm⟩)
      · exact .inr (.inr ⟨_, hfree.1.1, hfree.2, ‹_›, (Option.some.inj h).symm⟩)
  · cases h

theorem accept_eq_some (h : o.accept sessionId = some o') :
    ∃ item invoked, o.inFlight sessionId = some (.sending item invoked) ∧ o' = { o with
      inFlight := update o.inFlight sessionId (some (.sending item true))
      accepted := update o.accepted sessionId (update (o.accepted sessionId) item.id true) } := by
  unfold accept at h
  split at h
  · exact ⟨_, _, ‹_›, (Option.some.inj h).symm⟩
  · cases h

theorem reply_eq_some {completed : Bool} (h : o.reply sessionId completed = some o') :
    ∃ item invoked, o.inFlight sessionId = some (.sending item invoked) ∧ o' = { o with
      inFlight := update o.inFlight sessionId (some (.settling item invoked completed)) }.push (.dispatch sessionId) := by
  unfold reply at h
  split at h
  · exact ⟨_, _, ‹_›, (Option.some.inj h).symm⟩
  · cases h

theorem threw_eq_some {message : String} (h : o.threw sessionId message = some o') :
    ∃ item invoked, o.inFlight sessionId = some (.sending item invoked) ∧ o' = { o with
      inFlight := update o.inFlight sessionId (some (.closing item (some message))) } := by
  unfold threw at h
  split at h
  · exact ⟨_, _, ‹_›, (Option.some.inj h).symm⟩
  · cases h

theorem conclude_eq_some (h : o.conclude sessionId = some o') :
    (∃ item message, (o.inFlight sessionId = some (.claimed item (some message)) ∨
        o.inFlight sessionId = some (.closing item (some message))) ∧
      o' = { o.caught sessionId message item with inFlight := update o.inFlight sessionId none }) ∨
    ∃ item, o.inFlight sessionId = some (.closing item none) ∧
      o' = { o with inFlight := update o.inFlight sessionId none } := by
  unfold conclude at h
  split at h
  · exact .inl ⟨_, _, .inl ‹_›, (Option.some.inj h).symm⟩
  · exact .inl ⟨_, _, .inr ‹_›, (Option.some.inj h).symm⟩
  · exact .inr ⟨_, ‹_›, (Option.some.inj h).symm⟩
  · cases h

/-! ## Hydration -/

theorem hydrate_eq_some (h : o.hydrate = some o') : o.ready = false ∧ o.hydrating = none ∧
    ((∃ error, o' = { o with error := some error }) ∨ o' = { o with hydrating := some o.disk.restored }) := by
  unfold hydrate at h
  split at h
  · cases h
  · rename_i hguard
    simp only [not_or, Bool.not_eq_true, Option.isSome_eq_false_iff, Option.isNone_iff_eq_none] at hguard
    refine ⟨hguard.1, hguard.2, ?_⟩
    split at h
    · exact .inl ⟨_, (Option.some.inj h).symm⟩
    · exact .inr (Option.some.inj h).symm

theorem hydrated_eq_some (h : o.hydrated = some o') : ∃ next, o.hydrating = some next ∧ o' = { o with
    disk := next
    snapshot := next
    ready := true
    error := none
    hydrating := none
    stored := fun sessionId id => o.stored sessionId id || isStored next sessionId id
    restored := fun sessionId => (next.find? sessionId).isSome } := by
  obtain ⟨next, hnext, rfl⟩ := Option.map_eq_some_iff.1 h
  exact ⟨next, hnext, rfl⟩

theorem hydrateFailed_eq_some {message : String} {reached : Bool} (h : o.hydrateFailed message reached = some o') :
    ∃ next, o.hydrating = some next ∧ o' = { o with
      disk := if reached then next else o.disk
      error := some message
      hydrating := none } := by
  obtain ⟨next, hnext, rfl⟩ := Option.map_eq_some_iff.1 h
  exact ⟨next, hnext, rfl⟩

/-! ## Sends -/

@[simp] theorem sends_finish (txn : Txn) (rest : List Txn) (error : Option String) :
    (o.finish txn rest error).sends = o.sends := by
  cases txn <;> rfl

theorem sends_step {act : OutboxAct} (h : o.step act = some o') : o'.sends = o.sends ∨
    ∃ sessionId item durable, o.inFlight sessionId = some (.claimed item none) ∧ o.blocked sessionId = false ∧
      findItem item.id (o.snapshot.items sessionId) = some durable ∧ o' = { o with
        inFlight := update o.inFlight sessionId (some (.sending item false))
        sends := o.sends ++ [⟨sessionId, durable, item.binding⟩] } := by
  cases act with
  | enqueue binding text => cases h; exact .inl rfl
  | edit sessionId id text => cases h; exact .inl rfl
  | remove sessionId id => cases h; exact .inl rfl
  | pause sessionId reason => cases h; exact .inl rfl
  | resume sessionId call =>
    obtain ⟨-, rfl⟩ := resume_eq_some h
    exact .inl rfl
  | begin =>
    obtain ⟨txn, rest, -, -, ⟨error, rfl⟩ | ⟨next, -, -, rfl⟩⟩ := begin_eq_some h
    · exact .inl (sends_finish _ _ _)
    · exact .inl rfl
  | written =>
    obtain ⟨txn, rest, next, -, -, rfl⟩ := written_eq_some h
    exact .inl (sends_finish _ _ _)
  | failed message reached =>
    obtain ⟨txn, rest, next, -, -, rfl⟩ := failed_eq_some h
    exact .inl (sends_finish _ _ _)
  | resumed call =>
    obtain ⟨c, ok, -, -, -, rfl⟩ := resumed_eq_some h
    exact .inl rfl
  | dispatch sessionId current canSend =>
    cases h
    obtain ⟨-, heq⟩ | ⟨-, item, -, -, heq⟩ | ⟨-, heq⟩ := o.dispatch_cases sessionId current canSend
    · exact .inl (by rw [heq])
    · exact .inl (by rw [heq]; rfl)
    · exact .inl (by rw [heq]; rfl)
  | proceed sessionId current canSend =>
    obtain ⟨item, hphase, rfl | ⟨error, rfl⟩ | ⟨durable, hfree, -, hfind, rfl⟩⟩ := proceed_eq_some h
    · exact .inl rfl
    · exact .inl rfl
    · exact .inr ⟨sessionId, item, durable, hphase, hfree, hfind, rfl⟩
  | accept sessionId =>
    obtain ⟨item, invoked, -, rfl⟩ := accept_eq_some h
    exact .inl rfl
  | reply sessionId completed =>
    obtain ⟨item, invoked, -, rfl⟩ := reply_eq_some h
    exact .inl rfl
  | threw sessionId message =>
    obtain ⟨item, invoked, -, rfl⟩ := threw_eq_some h
    exact .inl rfl
  | conclude sessionId =>
    obtain ⟨item, message, -, rfl⟩ | ⟨item, -, rfl⟩ := conclude_eq_some h
    · exact .inl rfl
    · exact .inl rfl
  | hydrate =>
    obtain ⟨-, -, ⟨error, rfl⟩ | rfl⟩ := hydrate_eq_some h
    · exact .inl rfl
    · exact .inl rfl
  | hydrated =>
    obtain ⟨next, -, rfl⟩ := hydrated_eq_some h
    exact .inl rfl
  | hydrateFailed message reached =>
    obtain ⟨next, -, rfl⟩ := hydrateFailed_eq_some h
    exact .inl rfl
  | restart reached => cases h; exact .inl rfl

end Outbox

end Wiii.NekoChill
