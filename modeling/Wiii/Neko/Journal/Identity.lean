import Wiii.Neko.Digest
import Wiii.Neko.Journal.Maintenance

/-!
# At most one execution for a request identity

Only an admission inserts a request row, and only maintenance removes one (`Step.request_next`).  Between two executions
of one identity its row has therefore been pruned (`executes_at_most_once`), and as long as the row is there, the
identity cannot be used for another operation or another target.
-/

namespace Wiii.Neko

open Journal Database Relation

variable {db db' : Database} {call : Call} {r : String}

/-- The identity, operation and target that an admission asks for. -/
def Op.begins : Op → Option (String × String × String)
  | beginRequest r method target => some (r, method, target)
  | beginStartRequest r target .. => some (r, "session/start", target)
  | _ => none

/-- The call admitted the request: it answered that the operation is to be executed. -/
structure Call.Executes (call : Call) (r method target : String) : Prop where
  begins : call.op.begins = some (r, method, target)
  answer : call.answer = .ok (.request .execute) ∨ ∃ event, call.answer = .ok (.start (.execute event))

/-- Maintenance pruned the row: succeeded or failed, old, and in no pending fact. -/
structure Call.Prunes (call : Call) (db : Database) (row : ControlRequest) : Prop where
  maintenance : ∃ terminalNow requestNow,
    call.op = .startupMaintenance terminalNow requestNow ∧
      row.updatedAt < requestNow - days terminalRequestRetentionDays
  settled : row.phase = .completed ∨ row.phase = .failed
  unlinked : db.linked row.requestId = false

/-! ## One step -/

theorem writes_identity {op : Op} {now : Timestamp} {row row' : ControlRequest}
    (h : ReflTransGen (op.Writes now) row row') :
    row'.method = row.method ∧ row'.targetId = row.targetId := by
  induction h with
  | refl => exact ⟨rfl, rfl⟩
  | tail _ hs ih => exact ⟨hs.advances.method.trans ih.1, hs.advances.targetId.trans ih.2⟩

theorem Step.request_next (h : Step db call db') {row : ControlRequest}
    (hr : db.request r = some row) :
    (∃ row', db'.request r = some row' ∧ row'.method = row.method ∧
      row'.targetId = row.targetId) ∨ db'.request r = none ∧ call.Prunes db row := by
  rcases h.effects with he | ⟨t, q, hop, hm⟩
  · obtain ⟨row', hrow', hw⟩ := effects_request_some he hr
    exact .inl ⟨row', hrow', writes_identity hw⟩
  · rw [startupMaintenance_eq] at hm
    obtain rfl : maintained t q call.tick db = db' := by simpa using hm
    rw [request_maintained, hr, Option.filter_some]
    cases hp : prunesRequest db (q - days terminalRequestRetentionDays) row with
    | false => exact .inl ⟨row, rfl, rfl, rfl⟩
    | true =>
      simp only [prunesRequest, Bool.and_eq_true, Bool.or_eq_true, decide_eq_true_eq,
        Bool.not_eq_true'] at hp
      exact .inr ⟨rfl, ⟨t, q, hop, hp.1.2⟩, hp.1.1, hp.2⟩

theorem Step.request_new (h : Step db call db') {row : ControlRequest}
    (hn : db.request r = none) (hr : db'.request r = some row) :
    call.Executes r row.method row.targetId := by
  rcases h.effects with he | ⟨t, q, hop, hm⟩
  · rcases effects_request_none he hn with hn' | ⟨new, row', hA, hk, hr', hw⟩
    · rw [hr] at hn'
      cases hn'
    · obtain rfl : row' = row := Option.some.inj (hr'.symm.trans hr)
      obtain ⟨hmethod, htarget⟩ := writes_identity hw
      rw [hmethod, htarget]
      rcases h.cases with ⟨rfl, -⟩ | ⟨answer, hans, ha⟩
      · rw [hr] at hn
        cases hn
      obtain ⟨op, tick, ans⟩ := call
      subst hans
      cases op <;> simp only [Op.Adds] at hA
      case beginRequest r' method target =>
        subst hA
        obtain rfl : r' = r := hk
        simp only [Op.apply, map_ok_iff, Prod.mk.injEq] at ha
        obtain ⟨⟨d, db₁⟩, ha, rfl, rfl⟩ := ha
        rcases beginRequest_ok_iff.1 ha with ⟨old, ho, -⟩ | ⟨-, rfl, -⟩
        · rw [ho] at hn
          cases hn
        · exact ⟨rfl, .inl rfl⟩
      case beginStartRequest r' target session acceptingNew eventType payload =>
        subst hA
        obtain rfl : r' = r := hk
        simp only [Op.apply, map_ok_iff, Prod.mk.injEq] at ha
        obtain ⟨⟨d, db₁⟩, ha, rfl, rfl⟩ := ha
        rcases beginStartRequest_ok ha with ⟨old, ho, -⟩ | ⟨-, -, -, rfl⟩ | ⟨event, -, rfl, -⟩
        · rw [ho] at hn
          cases hn
        · rw [hr] at hn
          cases hn
        · exact ⟨rfl, .inr ⟨event, rfl⟩⟩
  · rw [startupMaintenance_eq] at hm
    obtain rfl : maintained t q call.tick db = db' := by simpa using hm
    rw [request_maintained, hn] at hr
    cases hr

/-- An execution starts without a row for its identity and leaves one. -/
theorem Step.executes (h : Step db call db') {method target : String}
    (he : call.Executes r method target) :
    db.request r = none ∧ (db'.request r).isSome := by
  obtain ⟨hb, hans⟩ := he
  obtain ⟨op, tick, ans⟩ := call
  rcases h.cases with ⟨-, error, rfl⟩ | ⟨answer, rfl, ha⟩
  · simp at hans
  cases op <;> simp only [Op.begins, Option.some.injEq, Prod.mk.injEq, reduceCtorEq] at hb
  case beginRequest =>
    obtain ⟨rfl, rfl, rfl⟩ := hb
    simp only [Op.apply, map_ok_iff, Prod.mk.injEq] at ha
    obtain ⟨⟨d, db₁⟩, ha, rfl, rfl⟩ := ha
    rcases beginRequest_ok_iff.1 ha with ⟨row, -, -, -, rfl, -⟩ | ⟨hn, -, hi⟩
    · simp [recordedDecision_ne_execute] at hans
    · obtain ⟨requests, hins, rfl⟩ := insertRequest_ok_iff.1 hi
      refine ⟨hn, ?_⟩
      rw [Database.request, Table.find?_insert? hins]
      simp [acceptedRequest]
  case beginStartRequest =>
    obtain ⟨rfl, rfl, rfl⟩ := hb
    simp only [Op.apply, map_ok_iff, Prod.mk.injEq] at ha
    obtain ⟨⟨d, db₁⟩, ha, rfl, rfl⟩ := ha
    rcases beginStartRequest_ok ha with ⟨row, -, -, -, rfl, -⟩ | ⟨-, rfl, -, -⟩ | ⟨event, -, rfl, hadm⟩
    · simp [recordedStartDecision_ne_execute] at hans
    · simp at hans
    · refine ⟨hadm.fresh_request, ?_⟩
      rw [hadm.request, if_pos rfl]
      rfl

theorem Step.refuses (h : Step db call db') {row : ControlRequest} {method target : String}
    (hr : db.request r = some row) (hb : call.op.begins = some (r, method, target))
    (hne : row.method ≠ method ∨ row.targetId ≠ target) :
    (∃ error, call.answer = .error error) ∧ db' = db := by
  have clash : ¬ (row.method = method ∧ row.targetId = target) := fun h =>
    hne.elim (fun h' => h' h.1) fun h' => h' h.2
  rcases h.cases with ⟨rfl, herror⟩ | ⟨answer, -, ha⟩
  · exact ⟨herror, rfl⟩
  refine (clash ?_).elim
  cases hop : call.op <;>
    simp only [hop, Op.begins, Option.some.injEq, Prod.mk.injEq, reduceCtorEq] at hb
  case beginRequest =>
    obtain ⟨rfl, rfl, rfl⟩ := hb
    simp only [hop, Op.apply, map_ok_iff, Prod.mk.injEq] at ha
    obtain ⟨⟨d, db₁⟩, ha, -, rfl⟩ := ha
    rcases beginRequest_ok_iff.1 ha with ⟨row', hr', hm, ht, -⟩ | ⟨hn, -, -⟩
    · obtain rfl : row' = row := Option.some.inj (hr'.symm.trans hr)
      exact ⟨hm, ht⟩
    · rw [hr] at hn
      cases hn
  case beginStartRequest =>
    obtain ⟨rfl, rfl, rfl⟩ := hb
    simp only [hop, Op.apply, map_ok_iff, Prod.mk.injEq] at ha
    obtain ⟨⟨d, db₁⟩, ha, -, rfl⟩ := ha
    rcases beginStartRequest_ok ha with ⟨row', hr', hm, ht, -⟩ | ⟨hn, -⟩ | ⟨event, -, -, hadm⟩
    · obtain rfl : row' = row := Option.some.inj (hr'.symm.trans hr)
      exact ⟨hm, ht⟩
    · rw [hr] at hn
      cases hn
    · rw [hadm.fresh_request] at hr
      cases hr

/-! ## Runs -/

theorem Run.admitted {calls : List Call} (h : Run Step ∅ calls db) {row : ControlRequest}
    (hr : db.request r = some row) : ∃ call ∈ calls, call.Executes r row.method row.targetId := by
  have key : ∀ {s : Database}, Run Step s calls db →
      (∃ call ∈ calls, call.Executes r row.method row.targetId) ∨
        ∃ old, s.request r = some old ∧ row.method = old.method ∧ row.targetId = old.targetId := by
    intro s h
    clear * - h hr
    induction h with
    | nil _ => exact .inr ⟨row, hr, rfl, rfl⟩
    | cons hs _ ih =>
      rcases ih hr with ⟨call, hmem, he⟩ | ⟨mid, hmid, hm, ht⟩
      · exact .inl ⟨call, List.mem_cons_of_mem _ hmem, he⟩
      · rename_i s _ _ _ _ _
        cases hold : s.request r with
        | none => exact .inl ⟨_, List.mem_cons_self, by rw [hm, ht]; exact hs.request_new hold hmid⟩
        | some old =>
          rcases hs.request_next hold with ⟨row', hrow', hm', ht'⟩ | ⟨hn, -⟩
          · obtain rfl : row' = mid := Option.some.inj (hrow'.symm.trans hmid)
            exact .inr ⟨old, rfl, hm.trans hm', ht.trans ht'⟩
          · rw [hmid] at hn
            cases hn
  rcases key h with hdone | ⟨old, hold, -⟩
  · exact hdone
  · simp at hold

structure TellsApart (sha256 : List UInt8 → String) (parts parts' : List String) : Prop where
  ne : parts ≠ parts'
  sized : ∀ part ∈ parts, part.utf8ByteSize < 2 ^ 64
  sized' : ∀ part ∈ parts', part.utf8ByteSize < 2 ^ 64
  collision_free : sha256 (framedTarget parts) = sha256 (framedTarget parts') →
    framedTarget parts = framedTarget parts'

/-- Between two executions of one identity maintenance pruned its row; rows stay bound to the operation and target they
were executed for, and a call with another of either is refused. -/
theorem executes_at_most_once (sha256 : List UInt8 → String) {calls : List Call}
    (h : Run Step ∅ calls db) (r : String) :
    (∀ pre first mid second post m t m' t',
      calls = pre ++ first :: (mid ++ second :: post) → first.Executes r m t →
      second.Executes r m' t' → ∃ before call after u v row,
        mid = before ++ call :: after ∧ Run Step ∅ (pre ++ first :: before) u ∧ Step u call v ∧
          u.request r = some row ∧ v.request r = none ∧ call.Prunes u row) ∧
    (∀ call db' row, Step db call db' → db.request r = some row → db'.request r = none →
      call.Prunes db row) ∧
    (∀ row, db.request r = some row → ∃ call ∈ calls, call.Executes r row.method row.targetId) ∧
    ∀ call db' row method target, Step db call db' → db.request r = some row →
      call.op.begins = some (r, method, target) →
      (row.method ≠ method ∨ row.targetId ≠ target ∨
        ∃ parts parts', row.targetId = digestTarget sha256 parts ∧
          target = digestTarget sha256 parts' ∧ TellsApart sha256 parts parts') →
      (∃ error, call.answer = .error error) ∧ db' = db := by
  refine ⟨?_, ?_, fun row hr => Run.admitted h hr, ?_⟩
  · rintro pre first mid second post m t m' t' rfl hfirst hsecond
    obtain ⟨s₁, hpre, h⟩ := h.of_append
    cases h with
    | @cons _ s₂ _ _ _ h₁ h =>
      obtain ⟨s₃, hmid, h⟩ := h.of_append
      cases h with
      | cons h₂ _ =>
        have hsome : (s₂.request r).isSome := (h₁.executes hfirst).2
        have hnone : ¬ (s₃.request r).isSome := by simp [(h₂.executes hsecond).1]
        -- the row is lost at some step of the run between the two
        obtain ⟨u, v, call, before, after, hu, hs, -, rfl, hus, hvs⟩ :=
          hmid.exists_step_of_not (P := fun db => (db.request r).isSome) hsome hnone
        obtain ⟨row, hrow⟩ := Option.isSome_iff_exists.1 hus
        have hv : v.request r = none := by simpa using hvs
        refine ⟨before, call, after, u, v, row, rfl, hpre.append (.cons h₁ hu), hs, hrow, hv, ?_⟩
        rcases hs.request_next hrow with ⟨row', hrow', -⟩ | ⟨-, hp⟩
        · rw [hv] at hrow'
          cases hrow'
        · exact hp
  · intro call db' row hs hr hn
    rcases hs.request_next hr with ⟨row', hrow', -⟩ | ⟨-, hp⟩
    · rw [hn] at hrow'
      cases hrow'
    · exact hp
  · intro call db' row method target hs hr hb hne
    refine hs.refuses hr hb ?_
    rcases hne with hm | ht | ⟨parts, parts', ht, rfl, hapart⟩
    · exact .inl hm
    · exact .inr ht
    · rw [ht]
      exact .inr (digestTarget_ne hapart.sized hapart.sized' hapart.collision_free hapart.ne)

/-- SHA-256 on the targets of two cancellations. -/
def cancelHash (input : List UInt8) : String :=
  if input = framedTarget ["run", "s1"] then
    "a3952e99f10863b3f23f86835d34428fb05364767b901cf50bc2af679ac6b083"
  else if input = framedTarget ["run", "s2"] then
    "448772362b4ce5ac9b102916baeda3e416df50e49f8cf0d35d3dc4c3e78150fb"
  else ""

/-- The identity of the cancellation of one session is refused for another session. -/
theorem executes_at_most_once_cancel :
    let cancel := fun s => Op.beginRequest "r" "session/cancel" (digestTarget cancelHash ["run", s])
    let db := perform ∅ [(cancel "s1", ⟨1, "", none⟩)]
    (∃ error, (Program.transact (cancel "s2").apply ⟨2, "", none⟩ db).1 = .error error) ∧
      (Program.transact (cancel "s2").apply ⟨2, "", none⟩ db).2 = db := by
  intro cancel db
  have apart : TellsApart cancelHash ["run", "s1"] ["run", "s2"] :=
    ⟨by decide, by decide, by decide, by decide⟩
  obtain ⟨-, -, -, refused⟩ :=
    executes_at_most_once cancelHash (run_perform ∅ [(cancel "s1", ⟨1, "", none⟩)]) "r"
  exact refused ⟨cancel "s2", ⟨2, "", none⟩, _⟩ _ _ _ _ rfl rfl rfl
    (.inr (.inr ⟨_, _, rfl, rfl, apart⟩))

end Wiii.Neko
