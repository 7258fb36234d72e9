import Wiii.Neko.Computer.System

/-!
# What the operations of the computer journal do

For each operation, the contents that it leaves when it commits.  Only the order of the events matters to
what comes later: an operation appends events, each with a number above all numbers of its stream
(`Extends`).
-/

namespace Wiii.Neko.Computer

/-- The numbers of a stream increase from one event to another. -/
def Increases (e e' : ComputerEvent) : Prop := e.streamId = e'.streamId → e.seq < e'.seq

/-- Events are appended, each with a number above all numbers of its stream. -/
structure Extends (events events' : Table ComputerEvent.position) (tail : List ComputerEvent) : Prop where
  rows : events'.rows = events.rows ++ tail
  after : ∀ e ∈ events.rows, ∀ e' ∈ tail, Increases e e'
  inner : tail.Pairwise Increases
  streams : ∀ e ∈ tail, e.streamId = streamIdOf e.environmentId
  positive : ∀ e ∈ tail, 0 < e.seq

namespace Extends

variable {events events' events'' : Table ComputerEvent.position} {tail tail' : List ComputerEvent}

theorem refl (events : Table ComputerEvent.position) : Extends events events [] :=
  ⟨(List.append_nil _).symm, by simp, .nil, by simp, by simp⟩

theorem trans (h : Extends events events' tail) (h' : Extends events' events'' tail') :
    Extends events events'' (tail ++ tail') where
  rows := by rw [h'.rows, h.rows, List.append_assoc]
  after := by
    intro e he e' he'
    rcases List.mem_append.1 he' with he' | he'
    · exact h.after e he e' he'
    · exact h'.after e (h.rows ▸ List.mem_append_left _ he) e' he'
  inner := by
    refine List.pairwise_append.2 ⟨h.inner, h'.inner, fun e he e' he' => ?_⟩
    exact h'.after e (h.rows ▸ List.mem_append_right _ he) e' he'
  streams := by
    intro e he
    rcases List.mem_append.1 he with he | he
    · exact h.streams e he
    · exact h'.streams e he
  positive := by
    intro e he
    rcases List.mem_append.1 he with he | he
    · exact h.positive e he
    · exact h'.positive e he

end Extends

namespace CoworkerProjectActivation

variable (activation : CoworkerProjectActivation) (now : Timestamp)

def row : EnvironmentRow where
  environmentId := activation.environmentId
  projectName := activation.projectName
  projectPath := activation.projectPath
  state := activation.state
  resources := activation.resources
  createdAt := now
  updatedAt := now

def bind (binding : CoworkerBinding) : CoworkerBinding :=
  { binding with
    activeProjectId := some activation.projectId
    activeProjectName := some activation.projectName
    activeProjectPath := some activation.projectPath
    updatedAt := now }

def binding : CoworkerBinding where
  coworkerId := activation.coworkerId
  environmentId := activation.environmentId
  activeProjectId := some activation.projectId
  activeProjectName := some activation.projectName
  activeProjectPath := some activation.projectPath
  createdAt := now
  updatedAt := now

/-- The grants after an activation: the one for the project is for its path. -/
def refreshed (rows : List ComputerProjectGrant) : List ComputerProjectGrant :=
  rows.map fun grant => if ComputerProjectGrant.covers activation.coworkerId activation.projectId grant then
    { grant with projectName := activation.projectName, projectPath := activation.projectPath, updatedAt := now }
    else grant

end CoworkerProjectActivation

namespace ComputerJournal

variable {newV4 : ℕ → String} {now : Timestamp} {db db' : ComputerJournal}

/-! ## Events -/

theorem latestSeq_le_iff {streamId : String} {n : ℕ} :
    db.latestSeq streamId ≤ n ↔ ∀ e ∈ db.events, e.streamId = streamId → e.seq ≤ n := by
  unfold latestSeq
  rw [max?_getD_le_iff, List.forall_mem_map]
  simp only [List.mem_filter, decide_eq_true_eq, and_imp, Table.mem_iff]

theorem seq_le_latestSeq {e : ComputerEvent} (he : e ∈ db.events) : e.seq ≤ db.latestSeq e.streamId :=
  latestSeq_le_iff.1 le_rfl e he rfl

theorem insert_nextEvent (newV4 : ℕ → String) (now : Timestamp) (db : ComputerJournal)
    (environmentId eventType : String) (payload : Value) :
    ∃ events, db.events.insert? (nextEvent newV4 now environmentId eventType payload db) = some events ∧
      Extends db.events events [nextEvent newV4 now environmentId eventType payload db] := by
  have hafter : ∀ e ∈ db.events.rows, Increases e (nextEvent newV4 now environmentId eventType payload db) := by
    intro e he hstream
    have hle := seq_le_latestSeq he
    rw [hstream] at hle
    exact Nat.lt_succ_of_le hle
  have hnone : db.events.find? (nextEvent newV4 now environmentId eventType payload db).position = none := by
    refine Table.find?_eq_none_iff.2 fun e he hposition => ?_
    have hlt := hafter e he (congrArg Prod.fst hposition)
    exact hlt.ne (congrArg Prod.snd hposition)
  obtain ⟨events, hinsert⟩ := Option.ne_none_iff_exists'.1 fun h => Table.insert?_eq_none_iff.1 h hnone
  refine ⟨events, hinsert, (Table.insert?_eq_some_iff.1 hinsert).2, fun e he e' he' => ?_,
    List.pairwise_singleton .., fun e he => ?_, fun e he => ?_⟩
  · rw [List.mem_singleton.1 he']
    exact hafter e he
  · rw [List.mem_singleton.1 he]
    rfl
  · rw [List.mem_singleton.1 he]
    exact Nat.succ_pos _

theorem appendEventTx_ok_iff {environmentId eventType : String} {payload : Value} :
    appendEventTx newV4 now environmentId eventType payload db = .ok db' ↔
      payload.encodedLength ≤ maxEventPayloadBytes ∧ (db.environments.find? environmentId).isSome ∧
        ∃ events, Extends db.events events [nextEvent newV4 now environmentId eventType payload db] ∧
          db' = { db with events := events, drawn := db.drawn + 1 } := by
  obtain ⟨events, hinsert, hextends⟩ := insert_nextEvent newV4 now db environmentId eventType payload
  unfold appendEventTx insertEvent
  rw [ite_error_ok_iff, not_lt, bind_ok_iff, hinsert]
  refine and_congr_right fun _ => ?_
  have henv : (nextEvent newV4 now environmentId eventType payload db).environmentId = environmentId := rfl
  simp only [failing_ok_iff, ite_error_ok_iff, henv, Option.isNone_iff_eq_none, ← Option.isSome_iff_ne_none,
    ← ne_eq]
  constructor
  · rintro ⟨db₁, ⟨hpresent, h₁⟩, h⟩
    cases h₁
    cases h
    exact ⟨hpresent, events, hextends, rfl⟩
  · rintro ⟨hpresent, events', hextends', rfl⟩
    have hsame : events' = events := Table.ext (hextends'.rows.trans hextends.rows.symm)
    rw [hsame]
    exact ⟨_, ⟨hpresent, rfl⟩, rfl⟩

theorem exists_appendEventTx (newV4 : ℕ → String) (now : Timestamp) {environmentId : String} {payload : Value}
    (hsize : payload.encodedLength ≤ maxEventPayloadBytes) (henv : (db.environments.find? environmentId).isSome)
    (eventType : String) : ∃ db', appendEventTx newV4 now environmentId eventType payload db = .ok db' := by
  obtain ⟨events, -, hextends⟩ := insert_nextEvent newV4 now db environmentId eventType payload
  exact ⟨_, appendEventTx_ok_iff.2 ⟨hsize, henv, events, hextends, rfl⟩⟩

def Logged (db db' : ComputerJournal) : Prop :=
  ∃ events tail drawn, Extends db.events events tail ∧ db.drawn ≤ drawn ∧
    db' = { db with events := events, drawn := drawn }

theorem Logged.refl (db : ComputerJournal) : Logged db db := ⟨db.events, [], db.drawn, .refl _, le_refl _, rfl⟩

theorem appendEventTx_ok {environmentId eventType : String} {payload : Value}
    (h : appendEventTx newV4 now environmentId eventType payload db = .ok db') :
    (db.environments.find? environmentId).isSome ∧ Logged db db' := by
  obtain ⟨-, hpresent, events, hextends, hdb'⟩ := appendEventTx_ok_iff.1 h
  exact ⟨hpresent, events, _, _, hextends, Nat.le_succ _, hdb'⟩

def held (environmentId : String) (seat : SeatRow) : Bool :=
  decide (seat.environmentId = environmentId) && decide (seat.state ≠ .available)

theorem makeSeatAvailableTx_ok {environmentId eventType : String} {payload : Value} {released : Bool}
    (h : makeSeatAvailableTx newV4 now environmentId eventType payload db = .ok (released, db')) :
    Logged (db.updateSeatWhere (held environmentId) (SeatRow.release now)) db' := by
  unfold makeSeatAvailableTx at h
  dsimp only at h
  split_ifs at h with hheld
  · obtain ⟨db₁, happend, h⟩ := bind_ok_iff.1 h
    cases h
    exact (appendEventTx_ok happend).2
  · cases h
    have hnone : ∀ seat ∈ db.seats, held environmentId seat = false := by
      intro seat hseat
      by_contra hne
      exact hheld (List.any_eq_true.2 ⟨seat, hseat, Bool.of_not_eq_false hne⟩)
    have hself : db.seats.updateWhere (held environmentId) (SeatRow.release now) (fun _ => rfl) = db.seats :=
      Table.updateWhere_eq_self hnone
    exact ⟨db.events, [], db.drawn, .refl _, le_refl _,
      congrArg (fun seats => { db with seats := seats }) hself.symm⟩

/-! ## Requests -/

def newRequest (requestId method targetId : String) (now : Timestamp) : StoredRequest where
  requestId := requestId
  method := method
  targetId := targetId
  phase := .accepted
  result := none
  errorCode := none
  createdAt := now
  updatedAt := now

theorem beginRequest_ok_iff {requestId method targetId : String} {decision : RequestDecision} :
    beginRequest requestId method targetId now db = .ok (decision, db') ↔
      validateIdentifier requestId "request ID" = .ok () ∧
        ((∃ stored, db.requests.find? requestId = some stored ∧
            requestDecision stored method targetId = .ok decision ∧ db' = db) ∨
          ∃ requests, db.requests.insert? (newRequest requestId method targetId now) = some requests ∧
            decision = .execute ∧ db' = { db with requests := requests }) := by
  unfold beginRequest
  rw [bind_unit_ok_iff]
  refine and_congr_right fun _ => ?_
  cases hfind : db.requests.find? requestId with
  | some stored =>
    have hnone : db.requests.insert? (newRequest requestId method targetId now) = none :=
      Table.insert?_eq_none_iff.2 (by rw [newRequest, hfind]; exact Option.some_ne_none stored)
    simp only [map_ok_iff, hnone, Prod.mk.injEq, Option.some.injEq]
    constructor
    · rintro ⟨a, h, rfl, rfl⟩
      exact .inl ⟨stored, rfl, h, rfl⟩
    · rintro (⟨_, rfl, h, rfl⟩ | ⟨_, h, -⟩)
      · exact ⟨decision, h, rfl, rfl⟩
      · cases h
  | none =>
    dsimp only
    rw [bind_ok_iff]
    simp only [failing_ok_iff, insertRequest, newRequest]
    constructor
    · rintro ⟨db₁, h, h'⟩
      split at h
      · cases h
      · rename_i requests hinsert
        cases h
        cases h'
        exact .inr ⟨requests, hinsert, rfl, rfl⟩
    · rintro (⟨_, h, -⟩ | ⟨requests, h, rfl, rfl⟩)
      · cases h
      · rw [h]
        exact ⟨_, rfl, rfl⟩

def due (requestId : String) (phases : List RequestPhase) (row : StoredRequest) : Bool :=
  decide (row.requestId = requestId) && decide (row.phase ∈ phases)

theorem advanceRequest_ok_iff {requestId refused : String} {phases : List RequestPhase}
    {f : StoredRequest → StoredRequest} {hf : ∀ r, (f r).requestId = r.requestId} :
    advanceRequest requestId phases refused f hf db = .ok ((), db') ↔
      db.requests.rows.any (due requestId phases) = true ∧
        db' = db.updateRequestWhere (due requestId phases) f hf := by
  unfold advanceRequest
  dsimp only
  split_ifs with hdue
  · rw [Except.ok.injEq, Prod.mk.injEq]
    exact ⟨fun h => ⟨hdue, h.2.symm⟩, fun h => ⟨rfl, h.2.symm⟩⟩
  · exact ⟨fun h => (nomatch h), fun h => absurd h.1 hdue⟩

theorem markUnknownOutcome_ok {requestId environmentId : String}
    (h : markUnknownOutcome newV4 requestId environmentId now db = .ok ((), db')) :
    (db.environments.find? environmentId).isSome ∧
      Logged ((db.updateRequestWhere (fun row => decide (row.requestId = requestId))
        (StoredRequest.uncertain now)).updateEnvironment environmentId (EnvironmentRow.uncertain now)) db' := by
  obtain ⟨db₁, happend, h⟩ := bind_ok_iff.1 h
  cases h
  obtain ⟨hpresent, hlogged⟩ := appendEventTx_ok happend
  refine ⟨?_, hlogged⟩
  change ((db.environments.update environmentId (EnvironmentRow.uncertain now)).find? environmentId).isSome at hpresent
  rwa [Table.find?_update, if_pos rfl, Option.isSome_map] at hpresent

/-! ## Coworkers and projects -/

theorem insertBinding_ok_iff {row : CoworkerBinding} :
    db.insertBinding row = .ok db' ↔
      (∀ other ∈ db.bindings, other.environmentId ≠ row.environmentId) ∧
        ∃ bindings, db.bindings.insert? row = some bindings ∧ db' = { db with bindings := bindings } := by
  unfold insertBinding
  rw [ite_error_ok_iff]
  refine and_congr (by simp [Table.mem_iff]) ?_
  cases db.bindings.insert? row with
  | none => simp
  | some bindings => simp [eq_comm]

/-- The row that is written, with the creation time of the one that is there. -/
def upsertedRow (db : ComputerJournal) (row : EnvironmentRow) : EnvironmentRow :=
  { row with
    createdAt := ((db.environments.find? row.environmentId).map EnvironmentRow.createdAt).getD row.createdAt }

theorem upsertEnvironmentRow_ok_iff {row : EnvironmentRow} :
    db.upsertEnvironmentRow row = .ok db' ↔
      (∀ other ∈ db.environments, other.projectPath = row.projectPath → other.environmentId = row.environmentId) ∧
        db' = { db with environments := db.environments.upsert (upsertedRow db row) } := by
  unfold upsertEnvironmentRow
  rw [ite_error_ok_iff]
  refine and_congr (by simp [Table.mem_iff]) ?_
  rw [Except.ok.injEq]
  exact eq_comm

def adoptedBinding (coworkerId : String) (environment : EnvironmentRow) (now : Timestamp) : CoworkerBinding where
  coworkerId := coworkerId
  environmentId := environment.environmentId
  activeProjectId := none
  activeProjectName := some environment.projectName
  activeProjectPath := some environment.projectPath
  createdAt := now
  updatedAt := now

theorem adoptLegacyCoworker_ok {coworkerId : String}
    (h : adoptLegacyCoworker newV4 coworkerId now db = .ok ((), db')) :
    db' = db ∨ ∃ environment grants bindings, db.latestEnvironment = some environment ∧
      adoptGrants coworkerId now db.environments.rows db.grants = .ok grants ∧
      (∀ other ∈ db.bindings, other.environmentId ≠ environment.environmentId) ∧
      db.bindings.insert? (adoptedBinding coworkerId environment now) = some bindings ∧
      Logged { db with grants := grants, bindings := bindings } db' := by
  obtain ⟨-, h⟩ := bind_unit_ok_iff.1 h
  split at h
  · cases h
    exact .inl rfl
  · split at h
    · cases h
      exact .inl rfl
    · rename_i environment hlatest
      obtain ⟨grants, hgrants, h⟩ := bind_ok_iff.1 h
      obtain ⟨db₁, hbind, h⟩ := bind_ok_iff.1 h
      obtain ⟨db₂, happend, h⟩ := bind_ok_iff.1 h
      cases h
      obtain ⟨hfree, bindings, hinsert, rfl⟩ := insertBinding_ok_iff.1 (failing_ok_iff.1 hbind)
      exact .inr ⟨environment, grants, bindings, hlatest, failing_ok_iff.1 hgrants, hfree, hinsert,
        (appendEventTx_ok happend).2⟩

def unclaimed (coworkerId projectPath : String) (grant : ComputerProjectGrant) : Bool :=
  decide (grant.location = (coworkerId, projectPath)) && grant.projectId.isNone

/-- The grants after those for the path are for the project. -/
def claimedRows (coworkerId projectId projectName projectPath : String) (now : Timestamp)
    (rows : List ComputerProjectGrant) : List ComputerProjectGrant :=
  rows.map fun grant => if unclaimed coworkerId projectPath grant then
    { grant with projectId := some projectId, projectName := projectName, updatedAt := now } else grant

def grantedRows (coworkerId projectId projectName projectPath : String) (now : Timestamp)
    (rows : List ComputerProjectGrant) : List ComputerProjectGrant :=
  if rows.any (ComputerProjectGrant.covers coworkerId projectId) then
    rows.map fun grant => if ComputerProjectGrant.covers coworkerId projectId grant then
      { grant with projectName := projectName, projectPath := projectPath, accessMode := "read_write", updatedAt := now }
      else grant
  else rows ++ [{
    coworkerId := coworkerId
    projectId := some projectId
    projectName := projectName
    projectPath := projectPath
    accessMode := "read_write"
    createdAt := now
    updatedAt := now }]

/-- The binding whose active project is known by its path only. -/
def unnamed (coworkerId projectPath : String) (binding : CoworkerBinding) : Bool :=
  decide (binding.coworkerId = coworkerId) && decide (binding.activeProjectPath = some projectPath) &&
    binding.activeProjectId.isNone

theorem Grants.updateWhere_ok_iff {grants grants' : Grants} {p : ComputerProjectGrant → Bool}
    {f : ComputerProjectGrant → ComputerProjectGrant} :
    grants.updateWhere p f = .ok grants' ↔
      grants'.rows = grants.rows.map fun grant => if p grant then f grant else grant :=
  Grants.write_ok_iff

theorem grantRow_ok_iff {grants grants' : Grants} {coworkerId projectId projectName projectPath : String} :
    (if grants.rows.any (ComputerProjectGrant.covers coworkerId projectId) then
      grants.updateWhere (ComputerProjectGrant.covers coworkerId projectId) fun grant => { grant with
        projectName := projectName, projectPath := projectPath, accessMode := "read_write", updatedAt := now }
    else grants.insert {
      coworkerId := coworkerId
      projectId := some projectId
      projectName := projectName
      projectPath := projectPath
      accessMode := "read_write"
      createdAt := now
      updatedAt := now }) = .ok grants' ↔
      grants'.rows = grantedRows coworkerId projectId projectName projectPath now grants.rows := by
  unfold grantedRows
  split_ifs
  · exact Grants.updateWhere_ok_iff
  · exact Grants.write_ok_iff

theorem grantProject_ok_iff {coworkerId projectId projectName projectPath : String} {grant : ComputerProjectGrant} :
    grantProject coworkerId projectId projectName projectPath now db = .ok (grant, db') ↔
      validateIdentifier coworkerId "coworker" = .ok () ∧ validateIdentifier projectId "Project ID" = .ok () ∧
      ∃ grants grants' : Grants,
        grants.rows = claimedRows coworkerId projectId projectName projectPath now db.grants.rows ∧
        grants'.rows = grantedRows coworkerId projectId projectName projectPath now grants.rows ∧
        grants'.rows.find? (ComputerProjectGrant.covers coworkerId projectId) = some grant ∧
        db' = { db with
          grants := grants'
          bindings := db.bindings.updateWhere (unnamed coworkerId projectPath) (fun binding =>
            { binding with
              activeProjectId := some projectId, activeProjectName := some projectName, updatedAt := now })
            (fun _ => rfl) } := by
  unfold grantProject
  rw [bind_unit_ok_iff, bind_unit_ok_iff]
  refine and_congr_right fun _ => and_congr_right fun _ => ?_
  rw [bind_ok_iff]
  refine exists_congr fun grants => ?_
  rw [failing_ok_iff, Grants.updateWhere_ok_iff, bind_ok_iff]
  constructor
  · rintro ⟨hclaimed, grants', hgranted, h⟩
    split at h
    · cases h
    · rename_i found hfind
      cases h
      exact ⟨grants', hclaimed, grantRow_ok_iff.1 (failing_ok_iff.1 hgranted), hfind, rfl⟩
  · rintro ⟨grants', hclaimed, hgranted, hfind, rfl⟩
    refine ⟨hclaimed, grants', failing_ok_iff.2 (grantRow_ok_iff.2 hgranted), ?_⟩
    rw [hfind]
    rfl

/-- The seats after an activation, before the one of the environment is given back. -/
def seated (environmentId : String) (now : Timestamp) (db : ComputerJournal) : Table SeatRow.environmentId :=
  (db.insertSeat (availableSeat environmentId now)).seats

def Bound (activation : CoworkerProjectActivation) (now : Timestamp) (db : ComputerJournal)
    (bindings : Table CoworkerBinding.coworkerId) : Prop :=
  (∃ binding, db.bindings.find? activation.coworkerId = some binding) ∧
      bindings = db.bindings.updateWhere (fun binding => decide (binding.coworkerId = activation.coworkerId))
        (activation.bind now) (fun _ => rfl) ∨
    (∀ other ∈ db.bindings, other.environmentId ≠ activation.environmentId) ∧
      db.bindings.insert? (activation.binding now) = some bindings

structure Activated (activation : CoworkerProjectActivation) (now : Timestamp) (db db' : ComputerJournal) :
    Prop where
  bound : ∀ binding, db.bindings.find? activation.coworkerId = some binding →
    binding.environmentId = activation.environmentId
  granted : db.grants.rows.any (ComputerProjectGrant.covers activation.coworkerId activation.projectId) = true
  grants : db'.grants.rows = activation.refreshed now db.grants.rows
  free : ∀ other ∈ db.environments, other.projectPath = activation.projectPath →
    other.environmentId = activation.environmentId
  environments : db'.environments = db.environments.upsert (upsertedRow db (activation.row now))
  seats : db'.seats =
    if switchesProject activation.projectId (db.bindings.find? activation.coworkerId) then
      (seated activation.environmentId now db).updateWhere (held activation.environmentId) (SeatRow.release now)
    else seated activation.environmentId now db
  bindings : Bound activation now db db'.bindings
  requests : db'.requests = db.requests
  events : ∃ tail, Extends db.events db'.events tail
  drawn : db.drawn ≤ db'.drawn

theorem activateCoworkerProject_ok {activation : CoworkerProjectActivation}
    (h : activateCoworkerProject newV4 activation now db = .ok ((), db')) : Activated activation now db db' := by
  obtain ⟨-, h⟩ := bind_unit_ok_iff.1 h
  obtain ⟨-, h⟩ := bind_unit_ok_iff.1 h
  dsimp only at h
  rw [ite_error_ok_iff, ite_error_ok_iff, not_not] at h
  obtain ⟨hbound, hgranted, h⟩ := h
  obtain ⟨grants, hgrants, h⟩ := bind_ok_iff.1 h
  obtain ⟨db₁, henv, h⟩ := bind_ok_iff.1 h
  obtain ⟨hfree, rfl⟩ := upsertEnvironmentRow_ok_iff.1 (failing_ok_iff.1 henv)
  obtain ⟨db₁, hseat, h⟩ := bind_ok_iff.1 h
  obtain ⟨db₂, hbind, h⟩ := bind_ok_iff.1 h
  obtain ⟨db₃, happend, h⟩ := bind_ok_iff.1 h
  cases h
  have hseat' : Logged { db with
      grants := grants
      environments := db.environments.upsert (upsertedRow db (activation.row now))
      seats := if switchesProject activation.projectId (db.bindings.find? activation.coworkerId) then
          (seated activation.environmentId now db).updateWhere (held activation.environmentId) (SeatRow.release now)
        else seated activation.environmentId now db } db₁ := by
    split_ifs at hseat ⊢ with hswitch
    · obtain ⟨⟨released, db₄⟩, hmake, rfl⟩ := map_ok_iff.1 hseat
      exact makeSeatAvailableTx_ok hmake
    · cases hseat
      exact Logged.refl _
  obtain ⟨events, tail, drawn, hextends, hdrawn, rfl⟩ := hseat'
  have hbind' : ∃ bindings, db₂ = { db with
      grants := grants
      environments := db.environments.upsert (upsertedRow db (activation.row now))
      seats := if switchesProject activation.projectId (db.bindings.find? activation.coworkerId) then
          (seated activation.environmentId now db).updateWhere (held activation.environmentId) (SeatRow.release now)
        else seated activation.environmentId now db
      bindings := bindings
      events := events
      drawn := drawn } ∧ Bound activation now db bindings := by
    split at hbind
    · rename_i binding hfind
      cases hbind
      exact ⟨_, rfl, .inl ⟨⟨binding, hfind⟩, rfl⟩⟩
    · obtain ⟨hunbound, bindings, hinsert, rfl⟩ := insertBinding_ok_iff.1 (failing_ok_iff.1 hbind)
      exact ⟨bindings, rfl, .inr ⟨hunbound, hinsert⟩⟩
  obtain ⟨bindings, rfl, hbindings⟩ := hbind'
  obtain ⟨-, events', tail', drawn', hextends', hdrawn', rfl⟩ := appendEventTx_ok happend
  exact {
    bound := by
      intro binding hfind
      rw [hfind, Option.any_some, decide_eq_true_eq, not_not] at hbound
      exact hbound
    granted := hgranted
    grants := Grants.updateWhere_ok_iff.1 (failing_ok_iff.1 hgrants)
    free := hfree
    environments := rfl
    seats := rfl
    bindings := hbindings
    requests := rfl
    events := ⟨_, hextends.trans hextends'⟩
    drawn := hdrawn.trans hdrawn' }

def detached (now : Timestamp) (binding : CoworkerBinding) : CoworkerBinding :=
  { binding with activeProjectId := none, activeProjectName := none, activeProjectPath := none, updatedAt := now }

def ungranted (coworkerId projectId : String) (db : ComputerJournal) : Grants :=
  db.grants.deleteWhere (ComputerProjectGrant.covers coworkerId projectId)

theorem revokeProject_ok {coworkerId projectId : String} {environmentId : Option String}
    (h : revokeProject newV4 coworkerId projectId now db = .ok (environmentId, db')) :
    (environmentId = none ∧ db' = { db with grants := ungranted coworkerId projectId db } ∧
      ∀ binding, db.bindings.find? coworkerId = some binding → binding.activeProjectId ≠ some projectId) ∨
    ∃ binding, db.bindings.find? coworkerId = some binding ∧ binding.activeProjectId = some projectId ∧
      environmentId = some binding.environmentId ∧
      Logged { db with
        grants := ungranted coworkerId projectId db
        seats := db.seats.updateWhere (held binding.environmentId) (SeatRow.release now)
        bindings := db.bindings.updateWhere (fun binding => decide (binding.coworkerId = coworkerId))
          (detached now) (fun _ => rfl)
        environments := db.environments.update binding.environmentId
          (fun row => { row with state := .suspended, updatedAt := now }) (fun _ => rfl) } db' := by
  obtain ⟨-, h⟩ := bind_unit_ok_iff.1 h
  obtain ⟨-, h⟩ := bind_unit_ok_iff.1 h
  dsimp only at h
  split at h
  · rename_i hinactive
    cases h
    refine .inl ⟨rfl, rfl, fun binding hfind hactive => ?_⟩
    rw [hfind, Option.filter_some, hactive, decide_eq_true rfl] at hinactive
    cases hinactive
  · rename_i binding hactive
    obtain ⟨hfind, hactive⟩ := Option.filter_eq_some_iff.1 hactive
    obtain ⟨⟨released, db₁⟩, hmake, h⟩ := bind_ok_iff.1 h
    obtain ⟨db₂, happend, h⟩ := bind_ok_iff.1 h
    cases h
    obtain ⟨events, tail, drawn, hextends, hdrawn, rfl⟩ := makeSeatAvailableTx_ok hmake
    obtain ⟨-, events', tail', drawn', hextends', hdrawn', rfl⟩ := appendEventTx_ok happend
    exact .inr ⟨binding, hfind, of_decide_eq_true hactive, rfl, events', _, drawn', hextends.trans hextends',
      hdrawn.trans hdrawn', rfl⟩

/-! ## Environments -/

def owners (environmentId : String) (db : ComputerJournal) : List String :=
  (db.bindings.rows.filter fun binding => decide (binding.environmentId = environmentId)).map
    CoworkerBinding.coworkerId

theorem deleteEnvironment_ok_iff {environmentId : String} :
    deleteEnvironment environmentId db = .ok ((), db') ↔
      (db.environments.find? environmentId).isSome ∧
        db' = deleteEnvironmentRow { db with
          grants := db.grants.deleteWhere fun grant => decide (grant.coworkerId ∈ owners environmentId db) }
          environmentId := by
  unfold deleteEnvironment
  dsimp only
  rw [ite_error_ok_iff, Bool.not_eq_true, Option.isNone_eq_false_iff, Except.ok.injEq, Prod.mk.injEq]
  exact ⟨fun h => ⟨h.1, h.2.2.symm⟩, fun h => ⟨h.1, rfl, h.2.symm⟩⟩

theorem upsertEnvironment_ok {environmentId projectName projectPath eventType : String} {state : ComputerState}
    {resources : ComputerResources}
    (h : upsertEnvironment newV4 environmentId projectName projectPath state resources eventType now db =
      .ok ((), db')) :
    (∀ other ∈ db.environments, other.projectPath = projectPath → other.environmentId = environmentId) ∧
      ∃ row : EnvironmentRow, row.environmentId = environmentId ∧ row.projectPath = projectPath ∧
        Logged { db with
          environments := db.environments.upsert row
          seats := seated environmentId now db } db' := by
  obtain ⟨db₁, henv, h⟩ := bind_ok_iff.1 h
  obtain ⟨db₂, happend, h⟩ := bind_ok_iff.1 h
  cases h
  obtain ⟨hfree, rfl⟩ := upsertEnvironmentRow_ok_iff.1 (failing_ok_iff.1 henv)
  exact ⟨hfree, _, rfl, rfl, (appendEventTx_ok happend).2⟩

theorem setEnvironmentState_ok {environmentId eventType : String} {state : ComputerState}
    (h : setEnvironmentState newV4 environmentId state eventType now db = .ok ((), db')) :
    Logged (db.updateEnvironment environmentId (fun row => { row with state := state, updatedAt := now })
      (fun _ => rfl)) db' := by
  obtain ⟨-, h⟩ := ite_error_ok_iff.1 h
  obtain ⟨db₁, happend, h⟩ := bind_ok_iff.1 h
  cases h
  exact (appendEventTx_ok happend).2

theorem appendEvent_ok {environmentId eventType : String} {payload : Value}
    (h : appendEvent newV4 now environmentId eventType payload db = .ok ((), db')) : Logged db db' := by
  obtain ⟨db₁, happend, h⟩ := map_ok_iff.1 h
  cases h
  exact (appendEventTx_ok happend).2

/-! ## Seats -/

/-- The seat is available, or the caller's own, or a user takes it from an agent. -/
def Yields (current : SeatRow) (ownerId : String) (userControlled : Bool) : Prop :=
  current.state = .available ∨ current.ownerId = some ownerId ∨
    userControlled = true ∧ current.state = .agentControlled

def keptLease (current : SeatRow) (ownerId : String) : Option String :=
  if current.ownerId = some ownerId then current.leaseId else none

def takenState (userControlled : Bool) : SeatState := if userControlled then .userControlled else .agentControlled

def taken (ownerId leaseId : String) (userControlled : Bool) (now : Timestamp) (seat : SeatRow) : SeatRow :=
  { seat with
    state := takenState userControlled, leaseId := some leaseId, ownerId := some ownerId, updatedAt := now }

/-- The lease of a seat that is taken: the one that its owner goes on with, or a new one. -/
def leaseFor (newV4 : ℕ → String) (db : ComputerJournal) (current : SeatRow) (ownerId : String) : String :=
  (keptLease current ownerId).getD ("lease-" ++ newV4 db.drawn)

def takenPayload (ownerId leaseId : String) : Value :=
  .object [("ownerId", .string ownerId), ("leaseId", .string leaseId)]

/-- The contents with a seat taken, before that is recorded. -/
def seatTaken (environmentId ownerId leaseId : String) (userControlled : Bool) (now : Timestamp)
    (current : SeatRow) (db : ComputerJournal) : ComputerJournal :=
  { db with
    seats := db.seats.updateWhere (fun seat => decide (seat.environmentId = environmentId))
      (taken ownerId leaseId userControlled now) (fun _ => rfl)
    drawn := if (keptLease current ownerId).isSome then db.drawn else db.drawn + 1 }

theorem acquireSeat_ok_iff {environmentId ownerId : String} {userControlled : Bool} {seat : DisplaySeat} :
    acquireSeat newV4 environmentId ownerId userControlled now db = .ok (seat, db') ↔
      validateIdentifier ownerId "seat owner" = .ok () ∧
        ∃ current, db.seats.find? environmentId = some current ∧ Yields current ownerId userControlled ∧
          seat = (taken ownerId (leaseFor newV4 db current ownerId) userControlled now
            (availableSeat environmentId now)).display ∧
          appendEventTx newV4 now environmentId (if userControlled then "seat.user_takeover" else "seat.acquired")
            (takenPayload ownerId (leaseFor newV4 db current ownerId))
            (seatTaken environmentId ownerId (leaseFor newV4 db current ownerId) userControlled now current db) =
              .ok db' := by
  unfold acquireSeat
  rw [bind_unit_ok_iff]
  refine and_congr_right fun _ => ?_
  cases hfind : db.seats.find? environmentId with
  | none => exact ⟨fun h => (nomatch h), fun ⟨_, h, _⟩ => (nomatch h)⟩
  | some current =>
    dsimp only
    have hlease : (if decide (current.ownerId = some ownerId) = true then current.leaseId else none) =
        keptLease current ownerId := by
      unfold keptLease
      simp only [decide_eq_true_eq]
    have hyields : ¬ (current.state ≠ .available ∧ ¬ decide (current.ownerId = some ownerId) = true ∧
        ¬ (userControlled && decide (current.state = .agentControlled)) = true) ↔
          Yields current ownerId userControlled := by
      unfold Yields
      rw [Bool.and_eq_true, decide_eq_true_eq, decide_eq_true_eq]
      tauto
    rw [ite_error_ok_iff, hyields, hlease]
    constructor
    · rintro ⟨hyields, h⟩
      obtain ⟨db₁, happend, h⟩ := bind_ok_iff.1 h
      cases h
      exact ⟨current, rfl, hyields, rfl, happend⟩
    · rintro ⟨current', hcurrent, hyields, rfl, happend⟩
      cases hcurrent
      exact ⟨hyields, bind_ok_iff.2 ⟨db', happend, rfl⟩⟩

theorem acquireSeat_ok {environmentId ownerId : String} {userControlled : Bool} {seat : DisplaySeat}
    (h : acquireSeat newV4 environmentId ownerId userControlled now db = .ok (seat, db')) :
    ∃ current, db.seats.find? environmentId = some current ∧ Yields current ownerId userControlled ∧
      seat = (taken ownerId (leaseFor newV4 db current ownerId) userControlled now
        (availableSeat environmentId now)).display ∧
      Logged (seatTaken environmentId ownerId (leaseFor newV4 db current ownerId) userControlled now current db)
        db' := by
  obtain ⟨-, current, hfind, hyields, hseat, happend⟩ := acquireSeat_ok_iff.1 h
  exact ⟨current, hfind, hyields, hseat, (appendEventTx_ok happend).2⟩

theorem releaseSeat_ok {environmentId leaseId : String} {seat : DisplaySeat}
    (h : releaseSeat newV4 environmentId leaseId now db = .ok (seat, db')) :
    (∃ seat ∈ db.seats, seat.environmentId = environmentId ∧ seat.leaseId = some leaseId) ∧
      seat = (availableSeat environmentId now).display ∧
      Logged (db.updateSeatWhere (fun seat => decide (seat.environmentId = environmentId) &&
        decide (seat.leaseId = some leaseId)) (SeatRow.release now)) db' := by
  obtain ⟨-, h⟩ := bind_unit_ok_iff.1 h
  dsimp only at h
  split_ifs at h with hcurrent
  obtain ⟨db₁, happend, h⟩ := bind_ok_iff.1 h
  cases h
  obtain ⟨seat, hseat, hcurrent⟩ := List.any_eq_true.1 hcurrent
  rw [Bool.and_eq_true, decide_eq_true_eq, decide_eq_true_eq] at hcurrent
  exact ⟨⟨seat, hseat, hcurrent⟩, rfl, (appendEventTx_ok happend).2⟩

end ComputerJournal

end Wiii.Neko.Computer
