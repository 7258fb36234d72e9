import Wiii.Neko.Computer.Service
import Wiii.Neko.Computer.Projects
import Wiii.Neko.Computer.Sequence

/-!
# Who holds a seat

What a call does to the seats is said once (`Step.seats`).  In every run a seat is held by an owner under a lease, or by
nobody (`SeatsSound`), and every lease was drawn when a call of the run took a seat.  The owner of a seat is known by
its name only, so an agent that goes by the name of a user has the seat of the user.
-/

namespace Wiii.Neko.Computer

open ComputerJournal

variable {newV4 : ℕ → String} {now : Timestamp} {db db' : ComputerJournal}

/-- Nobody holds the seat. -/
def SeatRow.Free (seat : SeatRow) : Prop := seat.state = .available ∧ seat.leaseId = none ∧ seat.ownerId = none

/-- The journal takes the event of the owner and its lease. -/
def Lendable (ownerId leaseId : String) : Prop :=
  validateIdentifier ownerId "seat owner" = .ok () ∧
    (takenPayload ownerId leaseId).encodedLength ≤ maxEventPayloadBytes

def Call.leases (call : Call) : List String :=
  match call.answer with
  | .ok (.seat seat) => seat.leaseId.toList
  | _ => []

/-! ## One call -/

inductive SeatChange (newV4 : ℕ → String) (db db' : ComputerJournal) : Call → Prop
  | kept {call : Call} (seats : ∀ seat ∈ db'.seats, seat ∈ db.seats ∨ seat.Free) (drawn : db.drawn ≤ db'.drawn)
      (leases : call.leases = []) : SeatChange newV4 db db' call
  | took {environmentId ownerId : String} {userControlled : Bool} {now : Timestamp} {current : SeatRow}
      (there : db.seats.find? environmentId = some current) (yields : Yields current ownerId userControlled)
      (lendable : Lendable ownerId (leaseFor newV4 db current ownerId))
      (logged : Logged (seatTaken environmentId ownerId (leaseFor newV4 db current ownerId) userControlled now
        current db) db') :
      SeatChange newV4 db db' ⟨.acquireSeat environmentId ownerId userControlled, .ok (.seat
        (taken ownerId (leaseFor newV4 db current ownerId) userControlled now
          (availableSeat environmentId now)).display)⟩

theorem free_release (now : Timestamp) (seat : SeatRow) : (SeatRow.release now seat).Free := ⟨rfl, rfl, rfl⟩

theorem kept_or_free_of_release {seats : Table SeatRow.environmentId} {p : SeatRow → Bool} {seat : SeatRow}
    (hseat : seat ∈ seats.updateWhere p (SeatRow.release now)) : seat ∈ seats ∨ seat.Free := by
  obtain ⟨before, hbefore, rfl⟩ := (Table.mem_updateWhere _).1 hseat
  split_ifs
  · exact .inr (free_release now before)
  · exact .inl hbefore

theorem kept_or_free_of_seated {environmentId : String} {seat : SeatRow}
    (hseat : seat ∈ seated environmentId now db) : seat ∈ db.seats ∨ seat.Free := by
  unfold seated insertSeat at hseat
  dsimp only at hseat
  cases hinsert : db.seats.insert? (availableSeat environmentId now) with
  | none =>
    rw [hinsert] at hseat
    exact .inl hseat
  | some seats =>
    rw [hinsert] at hseat
    rcases (Table.mem_insert? hinsert).1 hseat with hseat | rfl
    · exact .inl hseat
    · exact .inr ⟨rfl, rfl, rfl⟩

theorem Step.seats {call : Call} (h : Step newV4 db call db') : SeatChange newV4 db db' call := by
  cases h with
  | failed op error => exact .kept (fun _ hseat => .inl hseat) (le_refl _) rfl
  | @committed db' op answer now happly =>
    cases op <;> simp only [Op.apply, map_ok_iff, Prod.mk.injEq] at happly
    case recoverIncomplete =>
      cases happly
      exact .kept (fun _ hseat => .inl hseat) (le_refl _) rfl
    all_goals obtain ⟨⟨x, db₁⟩, hop, rfl, rfl⟩ := happly
    case beginRequest =>
      rcases (beginRequest_ok_iff.1 hop).2 with ⟨_, _, _, rfl⟩ | ⟨_, _, _, rfl⟩ <;>
        exact .kept (fun _ hseat => .inl hseat) (le_refl _) rfl
    case markSideEffectStarted | completeRequest | failRequest =>
      obtain ⟨-, rfl⟩ := advanceRequest_ok_iff.1 hop
      exact .kept (fun _ hseat => .inl hseat) (le_refl _) rfl
    case markUnknownOutcome =>
      obtain ⟨-, _, _, _, -, hdrawn, rfl⟩ := markUnknownOutcome_ok hop
      exact .kept (fun _ hseat => .inl hseat) hdrawn rfl
    case adoptLegacyCoworker =>
      rcases adoptLegacyCoworker_ok hop with rfl | ⟨_, _, _, -, -, -, -, _, _, _, -, hdrawn, rfl⟩
      · exact .kept (fun _ hseat => .inl hseat) (le_refl _) rfl
      · exact .kept (fun _ hseat => .inl hseat) hdrawn rfl
    case grantProject =>
      obtain ⟨-, -, _, _, -, -, -, rfl⟩ := grantProject_ok_iff.1 hop
      exact .kept (fun _ hseat => .inl hseat) (le_refl _) rfl
    case activateCoworkerProject =>
      have hactivated := activateCoworkerProject_ok hop
      refine .kept (fun seat hseat => ?_) hactivated.drawn rfl
      rw [hactivated.seats] at hseat
      split_ifs at hseat
      · rcases kept_or_free_of_release hseat with hseat | hfree
        · exact kept_or_free_of_seated hseat
        · exact .inr hfree
      · exact kept_or_free_of_seated hseat
    case revokeProject =>
      rcases revokeProject_ok hop with ⟨-, rfl, -⟩ | ⟨_, -, -, -, _, _, _, -, hdrawn, rfl⟩
      · exact .kept (fun _ hseat => .inl hseat) (le_refl _) rfl
      · exact .kept (fun _ hseat => kept_or_free_of_release hseat) hdrawn rfl
    case deleteEnvironment =>
      obtain ⟨-, rfl⟩ := deleteEnvironment_ok_iff.1 hop
      exact .kept (fun _ hseat => .inl (Table.mem_deleteWhere.1 hseat).1) (le_refl _) rfl
    case upsertEnvironment =>
      obtain ⟨-, _, -, -, _, _, _, -, hdrawn, rfl⟩ := upsertEnvironment_ok hop
      exact .kept (fun _ hseat => kept_or_free_of_seated hseat) hdrawn rfl
    case setEnvironmentState =>
      obtain ⟨_, _, _, -, hdrawn, rfl⟩ := setEnvironmentState_ok hop
      exact .kept (fun _ hseat => .inl hseat) hdrawn rfl
    case acquireSeat =>
      obtain ⟨hvalid, current, hfind, hyields, rfl, happend⟩ := acquireSeat_ok_iff.1 hop
      exact .took hfind hyields ⟨hvalid, (appendEventTx_ok_iff.1 happend).1⟩ (appendEventTx_ok happend).2
    case releaseSeat =>
      obtain ⟨-, rfl, _, _, _, -, hdrawn, rfl⟩ := releaseSeat_ok hop
      exact .kept (fun _ hseat => kept_or_free_of_release hseat) hdrawn rfl
    case appendEvent =>
      obtain ⟨_, _, _, -, hdrawn, rfl⟩ := appendEvent_ok hop
      exact .kept (fun _ hseat => .inl hseat) hdrawn rfl

/-! ## Runs -/

/-- The seat is held by an owner, under one of the leases. -/
def SeatRow.HeldUnder (seat : SeatRow) (given : List String) : Prop :=
  seat.state ≠ .available ∧ ∃ ownerId leaseId, seat.ownerId = some ownerId ∧ seat.leaseId = some leaseId ∧
    Lendable ownerId leaseId ∧ leaseId ∈ given

/-- After a run that gave these leases. -/
structure SeatsSound (newV4 : ℕ → String) (given : List String) (db : ComputerJournal) : Prop where
  seats : ∀ seat ∈ db.seats, seat.Free ∨ seat.HeldUnder given
  drawn : ∀ lease ∈ given, ∃ i < db.drawn, lease = "lease-" ++ newV4 i

theorem SeatRow.HeldUnder.append {seat : SeatRow} {given : List String} (h : seat.HeldUnder given)
    (more : List String) : seat.HeldUnder (given ++ more) := by
  obtain ⟨hstate, ownerId, leaseId, howner, hlease, hlendable, hgiven⟩ := h
  exact ⟨hstate, ownerId, leaseId, howner, hlease, hlendable, List.mem_append_left _ hgiven⟩

theorem leases_took (environmentId ownerId lease : String) (userControlled : Bool) (now : Timestamp) :
    (⟨.acquireSeat environmentId ownerId userControlled,
      .ok (.seat (taken ownerId lease userControlled now (availableSeat environmentId now)).display)⟩ : Call).leases =
        [lease] := rfl

theorem takenState_ne_available (userControlled : Bool) : takenState userControlled ≠ .available := by
  cases userControlled <;> decide

theorem keptLease_eq_some_iff {current : SeatRow} {ownerId lease : String} :
    keptLease current ownerId = some lease ↔ current.ownerId = some ownerId ∧ current.leaseId = some lease := by
  unfold keptLease
  split_ifs with howner
  · exact ⟨fun h => ⟨howner, h⟩, And.right⟩
  · exact ⟨fun h => (nomatch h), fun h => absurd h.1 howner⟩

namespace SeatsSound

variable {given : List String}

theorem empty : SeatsSound newV4 [] ∅ :=
  ⟨fun seat h => absurd h (Table.not_mem_empty seat), fun _ h => nomatch h⟩

theorem held (h : SeatsSound newV4 given db) {seat : SeatRow} (hseat : seat ∈ db.seats) {ownerId : String}
    (howner : seat.ownerId = some ownerId) : ∃ lease, seat.leaseId = some lease ∧ Lendable ownerId lease ∧
      lease ∈ given := by
  rcases h.seats seat hseat with ⟨-, -, hnone⟩ | ⟨-, ownerId', lease, howner', hlease, hlendable, hgiven⟩
  · rw [hnone] at howner
    cases howner
  · obtain rfl := Option.some.inj (howner'.symm.trans howner)
    exact ⟨lease, hlease, hlendable, hgiven⟩

/-- A lease that is given is one of the leases of before, or it is drawn now. -/
theorem leaseFor_cases (h : SeatsSound newV4 given db) {environmentId : String} {current : SeatRow}
    (hfind : db.seats.find? environmentId = some current) (ownerId : String) :
    current.ownerId = some ownerId ∧ (keptLease current ownerId).isSome ∧ leaseFor newV4 db current ownerId ∈ given ∨
      current.ownerId ≠ some ownerId ∧ keptLease current ownerId = none ∧
        leaseFor newV4 db current ownerId = "lease-" ++ newV4 db.drawn := by
  by_cases howner : current.ownerId = some ownerId
  · obtain ⟨lease, hlease, -, hgiven⟩ := h.held (Table.mem_of_find? hfind) howner
    have hkept : keptLease current ownerId = some lease := keptLease_eq_some_iff.2 ⟨howner, hlease⟩
    refine .inl ⟨howner, hkept ▸ rfl, ?_⟩
    unfold leaseFor
    rwa [hkept]
  · have hkept : keptLease current ownerId = none := if_neg howner
    refine .inr ⟨howner, hkept, ?_⟩
    unfold leaseFor
    rw [hkept]
    rfl

theorem step {call : Call} (h : SeatsSound newV4 given db) (hstep : Step newV4 db call db') :
    SeatsSound newV4 (given ++ call.leases) db' := by
  cases hstep.seats with
  | kept seats drawn leases =>
    rw [leases, List.append_nil]
    refine ⟨fun seat hseat => ?_, fun lease hlease => ?_⟩
    · rcases seats seat hseat with hseat | hfree
      · exact h.seats seat hseat
      · exact .inl hfree
    · obtain ⟨i, hi, hdrawn⟩ := h.drawn lease hlease
      exact ⟨i, by omega, hdrawn⟩
  | @took environmentId ownerId userControlled now current there yields lendable logged =>
    rw [leases_took]
    obtain ⟨_, _, drawn, -, hdrawn, rfl⟩ := logged
    change (if (keptLease current ownerId).isSome then db.drawn else db.drawn + 1) ≤ drawn at hdrawn
    refine ⟨fun seat hseat => ?_, fun lease hlease => ?_⟩
    · obtain ⟨before, hbefore, rfl⟩ := (Table.mem_updateWhere (by intro _; rfl)).1 hseat
      split_ifs
      · exact .inr ⟨takenState_ne_available userControlled, ownerId, _, rfl, rfl, lendable, by simp⟩
      · exact (h.seats before hbefore).imp_right fun hheld => hheld.append _
    · have hgiven : ∀ lease ∈ given, ∃ i < drawn, lease = "lease-" ++ newV4 i := by
        intro lease hlease
        obtain ⟨i, hi, hlease⟩ := h.drawn lease hlease
        refine ⟨i, ?_, hlease⟩
        split_ifs at hdrawn <;> omega
      rcases List.mem_append.1 hlease with hlease | hlease
      · exact hgiven lease hlease
      · rw [List.mem_singleton.1 hlease]
        rcases h.leaseFor_cases there ownerId with ⟨-, -, hmem⟩ | ⟨-, hkept, hnew⟩
        · exact hgiven _ hmem
        · rw [hkept] at hdrawn
          exact ⟨db.drawn, hdrawn, hnew⟩

theorem run {calls : List Call} (h : Run (Step newV4) ∅ calls db) :
    SeatsSound newV4 (calls.flatMap Call.leases) db := by
  have hrun : SeatsSound newV4 ([] ++ calls.flatMap Call.leases) db :=
    h.invariant_outputs (fun _ _ _ _ hsound hstep => hsound.step hstep) empty
  rwa [List.nil_append] at hrun

end SeatsSound

theorem Changes.hasSeat_eq_path {op : Op} (h : Changes db db' op)
    (hdb : ∀ environmentId, hasSeat db environmentId = (projectPathOf db environmentId).isSome)
    (environmentId : String) : hasSeat db' environmentId = (projectPathOf db' environmentId).isSome := by
  cases h with
  | kept places | adopted _ _ _ places | granted _ _ places | revoked _ _ _ _ _ places | unlisted _ _ _ places =>
    rw [places.seats, places.paths, hdb]
  | activated h =>
    rw [h.hasSeat_eq, h.projectPathOf_eq, hdb]
    split_ifs with hself <;> simp [hself]
  | deleted h =>
    rw [h, hasSeat_deleteEnvironmentRow, projectPathOf_deleteEnvironmentRow]
    split_ifs
    · rfl
    · exact hdb environmentId
  | upserted key path environments seats =>
    rw [hasSeat_seated seats, projectPathOf_upsert environments, hdb, key]
    split_ifs with hself <;> simp [hself]

/-- The seats are those of the environments that are there. -/
theorem Reachable.hasSeat_eq_path (h : Reachable newV4 db) :
    ∀ environmentId, hasSeat db environmentId = (projectPathOf db environmentId).isSome :=
  Reaches.invariant (I := fun db : ComputerJournal =>
    ∀ environmentId, hasSeat db environmentId = (projectPathOf db environmentId).isSome)
    (fun _ _ _ hdb hstep => hstep.changes.hasSeat_eq_path hdb) h fun _ => rfl

/-! ## A seat is taken -/

section Taking

variable {environmentId ownerId : String} {userControlled : Bool} {current : SeatRow}

theorem seats_seatTaken (hfind : db.seats.find? environmentId = some current) (lease : String)
    (hlogged : Logged (seatTaken environmentId ownerId lease userControlled now current db) db') :
    db'.seats.find? environmentId = some (taken ownerId lease userControlled now current) := by
  obtain ⟨_, _, _, -, -, rfl⟩ := hlogged
  refine (Table.find?_updateWhere db.seats _ _ (by intro _; rfl) environmentId).trans ?_
  rw [hfind, Option.map_some, Table.key_of_find? hfind, decide_eq_true rfl, if_pos rfl]

theorem SeatsSound.retakes {given : List String} (h : SeatsSound newV4 given db) (hdb : Reachable newV4 db)
    (hfind : db.seats.find? environmentId = some current) (howner : current.ownerId = some ownerId)
    (userControlled : Bool) (now : Timestamp) :
    ∃ lease db', current.leaseId = some lease ∧ lease ∈ given ∧
      Step newV4 db ⟨.acquireSeat environmentId ownerId userControlled, .ok (.seat
        (taken ownerId lease userControlled now (availableSeat environmentId now)).display)⟩ db' ∧
      db'.seats.find? environmentId = some (taken ownerId lease userControlled now current) := by
  obtain ⟨lease, hlease, ⟨hvalid, hsize⟩, hgiven⟩ := h.held (Table.mem_of_find? hfind) howner
  have hkept : leaseFor newV4 db current ownerId = lease := by
    unfold leaseFor
    rw [keptLease_eq_some_iff.2 ⟨howner, hlease⟩]
    rfl
  have henv : ((seatTaken environmentId ownerId lease userControlled now current db).environments.find?
      environmentId).isSome := by
    have hthere : hasSeat db environmentId = true := by
      unfold hasSeat
      rw [hfind]
      rfl
    rw [hdb.hasSeat_eq_path] at hthere
    unfold projectPathOf at hthere
    rwa [Option.isSome_map] at hthere
  obtain ⟨db', happend⟩ := exists_appendEventTx newV4 now hsize henv
    (if userControlled then "seat.user_takeover" else "seat.acquired")
  have hop : acquireSeat newV4 environmentId ownerId userControlled now db = .ok (_, db') :=
    acquireSeat_ok_iff.2 ⟨hvalid, current, hfind, .inr (.inl howner), rfl, hkept.symm ▸ happend⟩
  rw [hkept] at hop
  have happly : (Op.acquireSeat environmentId ownerId userControlled).apply newV4 now db = .ok (_, db') :=
    map_ok_iff.2 ⟨_, hop, rfl⟩
  exact ⟨lease, db', hlease, hgiven, .committed happly, seats_seatTaken hfind lease (appendEventTx_ok happend).2⟩

end Taking

/-! ## An action under a lease that is not current -/

def NotCurrent (environmentId leaseId : String) (db : ComputerJournal) : Prop :=
  ∀ seat, db.seats.find? environmentId = some seat → seat.leaseId ≠ some leaseId

theorem NotCurrent.of_looks {environmentId leaseId : String} {r : Request} {answer : Response r}
    (hdb : NotCurrent environmentId leaseId db) (hlooks : r.looks) (hanswer : Answers newV4 r db answer db') :
    NotCurrent environmentId leaseId db' :=
  hanswer.of_looks hlooks ▸ hdb

/-- Whatever the others do, the lease does not become current, and a call only looks. -/
def lapsed (newV4 : ℕ → String) (environmentId leaseId : String) : Contract Response ComputerJournal :=
  keeping newV4 (NotCurrent environmentId leaseId) (fun r => r.looks) NotCurrent.of_looks

theorem NotCurrent.of_environment {environmentId leaseId : String} (h : NotCurrent environmentId leaseId db)
    {environment : ComputerEnvironment} (hread : db.environment environmentId = some environment) :
    environment.seat.leaseId ≠ some leaseId := by
  unfold ComputerJournal.environment at hread
  obtain ⟨row, -, hread⟩ := Option.bind_eq_some_iff.1 hread
  obtain ⟨seat, hseat, hread⟩ := Option.bind_eq_some_iff.1 hread
  cases hread
  exact h seat hseat

theorem ComputerEnvironment.seat_boundTo (environment : ComputerEnvironment) (binding : CoworkerBinding) :
    (environment.boundTo binding).seat = environment.seat := by
  unfold boundTo
  split <;> rfl

open Dialog in
theorem safe_semanticAct_lapsed (newV4 : ℕ → String) (L : Libraries) (call : SemanticActRequest)
    (db : ComputerJournal) :
    Safe (lapsed newV4 call.environmentId call.leaseId) (fun _ _ => False) (Service.semanticAct L call) db := by
  refine safe_ofExcept_bind fun _ _ => ?_
  refine safe_withGuard NotCurrent.of_looks (fun _ hr => hr) .operations fun t => Safe.bind ?_
  have hlive : Safe (lapsed newV4 call.environmentId call.leaseId)
      (fun environment _ => environment.seat.leaseId ≠ some call.leaseId)
      (Service.requireLiveEnvironment call.environmentId) t := by
    refine Safe.bind ?_
    have hread : ∀ u environment, NotCurrent call.environmentId call.leaseId u →
        u.environment call.environmentId = some environment →
        environment.seat.leaseId ≠ some call.leaseId ∧
          ∀ binding, (environment.boundTo binding).seat.leaseId ≠ some call.leaseId := by
      intro u environment hu hread
      refine ⟨hu.of_environment hread, fun binding => ?_⟩
      rw [ComputerEnvironment.seat_boundTo]
      exact hu.of_environment hread
    refine (safe_requireEnvironment NotCurrent.of_looks (fun _ hr => hr) hread).mono
      fun environment u _ hlease => ?_
    refine safe_await_bind NotCurrent.of_looks rfl fun _ answer _ _ _ => ?_
    refine safe_ofExcept_bind fun provider _ => ?_
    cases provider with
    | none => exact safe_pure fun _ _ _ => hlease
    | some provider => exact safe_pure fun _ _ _ => hlease
  refine hlive.mono fun environment u _ hlease => ?_
  show Safe _ _ (if environment.state ≠ .ready then _ else if _ then _ else _) u
  split_ifs with hready hcurrent
  · exact safe_fail _
  · exact safe_fail _
  · exact absurd (.inr hlease) hcurrent

/-! ## The protocol -/

/-- In every run a seat has an owner and a lease exactly when it is not available; an agent leaves the seat of a user
alone unless it goes by the user's name; a lease that is not current moves nothing. -/
theorem seat_protocol (newV4 : ℕ → String) (hnew : Function.Injective newV4) {calls : List Call}
    {db : ComputerJournal} (hrun : Run (Step newV4) ∅ calls db) :
    (∀ seat ∈ db.seats, (seat.ownerId.isSome ↔ seat.state ≠ .available) ∧
      (seat.leaseId.isSome ↔ seat.state ≠ .available)) ∧
    (∀ environmentId current ownerId, db.seats.find? environmentId = some current →
      current.state = .userControlled →
      ((∀ answer db', Step newV4 db ⟨.acquireSeat environmentId ownerId false, answer⟩ db' →
          db'.seats.find? environmentId = some current) ↔ current.ownerId ≠ some ownerId)) ∧
    (∀ environmentId current ownerId, db.seats.find? environmentId = some current →
      current.state = .agentControlled →
      ((∀ answer db', Step newV4 db ⟨.acquireSeat environmentId ownerId true, .ok (.seat answer)⟩ db' →
          ∃ lease, answer.leaseId = some lease ∧ lease ∉ calls.flatMap Call.leases) ↔
        current.ownerId ≠ some ownerId)) ∧
    (∀ environmentId leaseId, NotCurrent environmentId leaseId db →
      ∀ answer db', Step newV4 db ⟨.releaseSeat environmentId leaseId, answer⟩ db' →
        (∃ error, answer = .error error) ∧ db' = db) ∧
    ∀ L call, Dialog.Safe (lapsed newV4 call.environmentId call.leaseId) (fun _ _ => False)
      (Service.semanticAct L call) db := by
  have hsound := SeatsSound.run hrun
  have hdb : Reachable newV4 db := ⟨calls, hrun⟩
  refine ⟨fun seat hseat => ?_, fun E current ownerId hfind hstate => ⟨fun hkept howner => ?_, fun hother => ?_⟩,
    fun E current ownerId hfind hstate => ⟨fun hfresh howner => ?_, fun hother => ?_⟩, ?_,
    fun L call => safe_semanticAct_lapsed newV4 L call db⟩
  · rcases hsound.seats seat hseat with ⟨hstate, hlease, howner⟩ | ⟨hstate, ownerId, leaseId, howner, hlease, -⟩
    · simp [hstate, hlease, howner]
    · simp [hstate, hlease, howner]
  · obtain ⟨lease, db', -, -, hstep, hseat⟩ := hsound.retakes hdb hfind howner false 0
    have hsame := Option.some.inj ((hkept _ _ hstep).symm.trans hseat)
    rw [hsame] at hstate
    cases hstate
  · intro answer db' hstep
    cases hstep with
    | failed => exact hfind
    | committed happly =>
      obtain ⟨⟨seat, db₁⟩, hop, heq⟩ := map_ok_iff.1 happly
      obtain ⟨current', hfind', hyields, -⟩ := acquireSeat_ok hop
      obtain rfl := Option.some.inj (hfind.symm.trans hfind')
      rcases hyields with havailable | howner | ⟨huser, -⟩
      · rw [hstate] at havailable
        cases havailable
      · exact absurd howner hother
      · cases huser
  · obtain ⟨lease, db', -, hgiven, hstep, -⟩ := hsound.retakes hdb hfind howner true 0
    obtain ⟨lease', hlease', hnot⟩ := hfresh _ _ hstep
    cases hlease'
    exact hnot hgiven
  · intro answer db' hstep
    cases hstep with
    | committed happly =>
      obtain ⟨⟨seat, db₁⟩, hop, heq⟩ := map_ok_iff.1 happly
      cases heq
      obtain ⟨current', hfind', -, rfl, -⟩ := acquireSeat_ok hop
      obtain rfl := Option.some.inj (hfind.symm.trans hfind')
      refine ⟨_, rfl, fun hgiven => ?_⟩
      rcases hsound.leaseFor_cases hfind ownerId with ⟨howner, -⟩ | ⟨-, -, hdrawn⟩
      · exact hother howner
      · obtain ⟨i, hi, hlease⟩ := hsound.drawn _ hgiven
        rw [hdrawn, String.append_right_inj] at hlease
        exact hi.ne (hnew hlease).symm
  · intro E leaseId hlapsed answer db' hstep
    cases hstep with
    | failed op error => exact ⟨⟨error, rfl⟩, rfl⟩
    | committed happly =>
      obtain ⟨⟨seat, db₁⟩, hop, -⟩ := map_ok_iff.1 happly
      obtain ⟨⟨current, hcurrent, henv, hlease⟩, -⟩ := releaseSeat_ok hop
      exact absurd hlease (hlapsed current (Table.find?_eq_some_iff.2 ⟨hcurrent, henv⟩))

section Example

theorem exampleId_injective : Function.Injective exampleId := by
  intro n m h
  have hlength := congrArg (fun s : String => s.toList.length) h
  unfold exampleId at hlength
  simpa only [String.toList_ofList, List.length_replicate] using hlength

def takesSeat (ownerId : String) (userControlled : Bool) : List (Op × Timestamp) :=
  prepares "computer-a" ++ [(.acquireSeat "computer-a" ownerId userControlled, 3)]

theorem seat_protocol_taken :
    ∃ seat ∈ (execute exampleId (takesSeat "neko" false) ∅).seats, seat.state = .agentControlled ∧
      (seat.ownerId.isSome ↔ seat.state ≠ .available) ∧ (seat.leaseId.isSome ↔ seat.state ≠ .available) := by
  have hseat : ∃ seat ∈ (execute exampleId (takesSeat "neko" false) ∅).seats.rows, seat.state = .agentControlled := by
    decide
  obtain ⟨seat, hmem, hstate⟩ := hseat
  obtain ⟨calls, hrun⟩ := reachable_execute exampleId (takesSeat "neko" false)
  exact ⟨seat, hmem, hstate, (seat_protocol exampleId exampleId_injective hrun).1 seat hmem⟩

/-- The holder of a seat as the owner, the state and the lease. -/
def holders (db : ComputerJournal) : List (Option String × SeatState × Option String) :=
  db.seats.rows.map fun seat => (seat.ownerId, seat.state, seat.leaseId)

/-- An agent by the name of the user takes the seat, and a user by the name of the agent keeps its lease. -/
theorem seat_by_name :
    let byUser := execute exampleId (takesSeat "neko" true) ∅
    let byAgent := execute exampleId (takesSeat "neko" false) ∅
    (Reachable exampleId byUser ∧
      holders byUser = [(some "neko", .userControlled, some "lease-ii")] ∧
      holders (perform exampleId (.acquireSeat "computer-a" "neko" false) 4 byUser).2 =
        [(some "neko", .agentControlled, some "lease-ii")]) ∧
    Reachable exampleId byAgent ∧
      holders byAgent = [(some "neko", .agentControlled, some "lease-ii")] ∧
      holders (perform exampleId (.acquireSeat "computer-a" "neko" true) 4 byAgent).2 =
        [(some "neko", .userControlled, some "lease-ii")] :=
  ⟨⟨reachable_execute _ _, by decide, by decide⟩, reachable_execute _ _, by decide, by decide⟩

end Example

end Wiii.Neko.Computer
