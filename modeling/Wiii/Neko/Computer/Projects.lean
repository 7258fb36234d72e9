import Wiii.Neko.Computer.Effects

/-!
# Active projects, grants and paths

A binding names the active project and its path, a grant its path, and the environment a path too.  In every reachable
journal the active project of a binding is granted to its coworker (`Consistent`).  The three paths agree as long as no
active project is granted at another path and no bound environment is given another path (`Agrees`).
-/

namespace Wiii.Neko.Computer

open ComputerJournal

variable {newV4 : ℕ → String} {now : Timestamp} {db db' : ComputerJournal}

/-! ## What is granted where -/

def Grants.Locates (grants : Grants) (coworkerId projectId projectPath : String) : Prop :=
  ∃ grant ∈ grants.rows, ComputerProjectGrant.covers coworkerId projectId grant = true ∧
    grant.projectPath = projectPath

theorem covers_iff {coworkerId projectId : String} {grant : ComputerProjectGrant} :
    ComputerProjectGrant.covers coworkerId projectId grant = true ↔
      grant.coworkerId = coworkerId ∧ grant.projectId = some projectId := by
  unfold ComputerProjectGrant.covers
  rw [Bool.and_eq_true, decide_eq_true_eq, decide_eq_true_eq]

theorem locates_map_iff {grants grants' : Grants} {f : ComputerProjectGrant → ComputerProjectGrant}
    (hrows : grants'.rows = grants.rows.map f) {coworkerId projectId projectPath : String}
    (hf : ∀ grant, ComputerProjectGrant.covers coworkerId projectId (f grant) =
      ComputerProjectGrant.covers coworkerId projectId grant ∧
      (ComputerProjectGrant.covers coworkerId projectId grant = true → (f grant).projectPath = grant.projectPath)) :
    grants'.Locates coworkerId projectId projectPath ↔ grants.Locates coworkerId projectId projectPath := by
  unfold Grants.Locates
  rw [hrows]
  constructor
  · rintro ⟨_, hgrant, hcovers, hpath⟩
    obtain ⟨grant, hmem, rfl⟩ := List.mem_map.1 hgrant
    rw [(hf grant).1] at hcovers
    exact ⟨grant, hmem, hcovers, ((hf grant).2 hcovers).symm.trans hpath⟩
  · rintro ⟨grant, hmem, hcovers, hpath⟩
    exact ⟨f grant, List.mem_map_of_mem hmem, ((hf grant).1).trans hcovers, ((hf grant).2 hcovers).trans hpath⟩

theorem adoptGrant_locates {coworkerId : String} {environment : EnvironmentRow} {grants grants' : Grants}
    (h : adoptGrant coworkerId now environment grants = .ok grants') (c p path : String) :
    grants'.Locates c p path ↔ grants.Locates c p path := by
  unfold adoptGrant at h
  dsimp only at h
  split_ifs at h
  · refine locates_map_iff (Grants.updateWhere_ok_iff.1 h) fun grant => ?_
    split_ifs
    · exact ⟨rfl, fun _ => rfl⟩
    · exact ⟨rfl, fun _ => rfl⟩
  · have hrows := Grants.write_ok_iff.1 h
    unfold Grants.Locates
    rw [hrows]
    simp only [List.mem_append, List.mem_singleton, or_and_right, exists_or, exists_eq_left]
    refine or_iff_left fun hnew => ?_
    rw [covers_iff] at hnew
    exact Option.some_ne_none p hnew.1.2.symm

theorem adoptGrants_locates {coworkerId : String} (c p path : String) {environments : List EnvironmentRow}
    {grants grants' : Grants} (h : adoptGrants coworkerId now environments grants = .ok grants') :
    grants'.Locates c p path ↔ grants.Locates c p path := by
  induction environments generalizing grants with
  | nil =>
    cases h
    rfl
  | cons environment environments ih =>
    obtain ⟨grants₁, hgrant, h⟩ := bind_ok_iff.1 h
    exact (ih h).trans (adoptGrant_locates hgrant c p path)

theorem covers_eq_false {coworkerId projectId c p : String} {grant : ComputerProjectGrant}
    (hother : ¬ (c = coworkerId ∧ p = projectId))
    (hgrant : grant.coworkerId = coworkerId ∧ grant.projectId = some projectId) :
    ComputerProjectGrant.covers c p grant = false := by
  refine Bool.eq_false_of_not_eq_true fun hcovers => hother ?_
  obtain ⟨rfl, hp⟩ := covers_iff.1 hcovers
  exact ⟨hgrant.1, Option.some.inj (hp.symm.trans hgrant.2)⟩

theorem moved_locates {coworkerId projectId projectPath : String} {grants grants' : Grants}
    {f : ComputerProjectGrant → ComputerProjectGrant}
    (hrows : grants'.rows = grants.rows.map fun grant =>
      if ComputerProjectGrant.covers coworkerId projectId grant then f grant else grant)
    (hf : ∀ grant, (f grant).coworkerId = grant.coworkerId ∧ (f grant).projectId = grant.projectId ∧
      (f grant).projectPath = projectPath)
    (hany : grants.rows.any (ComputerProjectGrant.covers coworkerId projectId) = true) (c p path : String) :
    grants'.Locates c p path ↔
      if c = coworkerId ∧ p = projectId then path = projectPath else grants.Locates c p path := by
  have hcovers : ∀ c p grant, ComputerProjectGrant.covers c p (f grant) = ComputerProjectGrant.covers c p grant := by
    intro c p grant
    unfold ComputerProjectGrant.covers
    rw [(hf grant).1, (hf grant).2.1]
  split_ifs with hself
  · obtain ⟨rfl, rfl⟩ := hself
    unfold Grants.Locates
    rw [hrows]
    constructor
    · rintro ⟨_, hgrant, hcov, rfl⟩
      obtain ⟨grant, -, rfl⟩ := List.mem_map.1 hgrant
      split_ifs at hcov ⊢ with h
      · exact (hf grant).2.2
      · exact absurd hcov h
    · rintro rfl
      obtain ⟨grant, hmem, hcov⟩ := List.any_eq_true.1 hany
      refine ⟨_, List.mem_map_of_mem hmem, ?_⟩
      rw [if_pos hcov]
      exact ⟨(hcovers ..).trans hcov, (hf grant).2.2⟩
  · refine locates_map_iff hrows fun grant => ?_
    split_ifs with h
    · refine ⟨hcovers .., fun hcov => ?_⟩
      rw [covers_eq_false hself (covers_iff.1 h)] at hcov
      cases hcov
    · exact ⟨rfl, fun _ => rfl⟩

theorem granted_locates {coworkerId projectId projectName projectPath : String} {grants grants₁ grants' : Grants}
    (hclaimed : grants₁.rows = claimedRows coworkerId projectId projectName projectPath now grants.rows)
    (hgranted : grants'.rows = grantedRows coworkerId projectId projectName projectPath now grants₁.rows)
    (c p path : String) :
    grants'.Locates c p path ↔
      if c = coworkerId ∧ p = projectId then path = projectPath else grants.Locates c p path := by
  have hother : ¬ (c = coworkerId ∧ p = projectId) → (grants₁.Locates c p path ↔ grants.Locates c p path) := by
    intro hself
    refine locates_map_iff hclaimed fun grant => ?_
    split_ifs with h
    · unfold unclaimed at h
      rw [Bool.and_eq_true, decide_eq_true_eq] at h
      have hnone : ComputerProjectGrant.covers c p grant = false := by
        refine Bool.eq_false_of_not_eq_true fun hcov => ?_
        rw [(covers_iff.1 hcov).2] at h
        cases h.2
      rw [hnone]
      refine ⟨covers_eq_false hself ⟨congrArg Prod.fst h.1, rfl⟩, fun hcov => nomatch hcov⟩
    · exact ⟨rfl, fun _ => rfl⟩
  unfold grantedRows at hgranted
  split_ifs at hgranted with hany
  · rw [moved_locates hgranted (fun _ => ⟨rfl, rfl, rfl⟩) hany]
    split_ifs with hself
    · rfl
    · exact hother hself
  · unfold Grants.Locates at hother ⊢
    rw [hgranted]
    simp only [List.mem_append, List.mem_singleton, or_and_right, exists_or, exists_eq_left]
    split_ifs with hself
    · obtain ⟨rfl, rfl⟩ := hself
      constructor
      · rintro (⟨grant, hmem, hcov, -⟩ | ⟨-, rfl⟩)
        · exact absurd (List.any_eq_true.2 ⟨grant, hmem, hcov⟩) hany
        · rfl
      · rintro rfl
        exact .inr ⟨covers_iff.2 ⟨rfl, rfl⟩, rfl⟩
    · rw [← hother hself]
      refine or_iff_left fun hnew => ?_
      rw [covers_eq_false hself ⟨rfl, rfl⟩] at hnew
      cases hnew.1

theorem deleteWhere_locates {grants : Grants} {q : ComputerProjectGrant → Bool} {c p path : String} :
    (grants.deleteWhere q).Locates c p path ↔
      ∃ grant ∈ grants.rows, q grant = false ∧ ComputerProjectGrant.covers c p grant = true ∧
        grant.projectPath = path := by
  unfold Grants.Locates Grants.deleteWhere
  simp only [List.mem_filter, Bool.not_eq_true', and_assoc]

/-! ## What a call does to bindings, grants and paths -/

def projectPathOf (db : ComputerJournal) (environmentId : String) : Option String :=
  (db.environments.find? environmentId).map EnvironmentRow.projectPath

def hasSeat (db : ComputerJournal) (environmentId : String) : Bool := (db.seats.find? environmentId).isSome

/-- The same environments, with the same paths, and the same seats, in whatever state. -/
structure SamePlaces (db db' : ComputerJournal) : Prop where
  paths : ∀ environmentId, projectPathOf db' environmentId = projectPathOf db environmentId
  seats : ∀ environmentId, hasSeat db' environmentId = hasSeat db environmentId

def SameGrants (db db' : ComputerJournal) : Prop :=
  ∀ c p path, db'.grants.Locates c p path ↔ db.grants.Locates c p path

theorem projectPathOf_updateWhere {p : EnvironmentRow → Bool} {f : EnvironmentRow → EnvironmentRow}
    (hf : ∀ r, (f r).environmentId = r.environmentId) (henv : db'.environments = db.environments.updateWhere p f hf)
    (hpath : ∀ row, (f row).projectPath = row.projectPath) (environmentId : String) :
    projectPathOf db' environmentId = projectPathOf db environmentId := by
  unfold projectPathOf
  rw [henv, Table.find?_updateWhere, Option.map_map]
  congr 1
  funext row
  rw [Function.comp_apply]
  split_ifs
  · exact hpath row
  · rfl

theorem hasSeat_updateWhere {p : SeatRow → Bool} {f : SeatRow → SeatRow}
    (hf : ∀ r, (f r).environmentId = r.environmentId)
    (hseats : db'.seats = db.seats.updateWhere p f hf) (environmentId : String) : hasSeat db' environmentId = hasSeat db environmentId := by
  unfold hasSeat
  rw [hseats, Table.find?_updateWhere, Option.isSome_map]

theorem projectPathOf_eq (henv : db'.environments = db.environments) (environmentId : String) :
    projectPathOf db' environmentId = projectPathOf db environmentId := by
  unfold projectPathOf
  rw [henv]

theorem hasSeat_eq (hseats : db'.seats = db.seats) (environmentId : String) :
    hasSeat db' environmentId = hasSeat db environmentId := by
  unfold hasSeat
  rw [hseats]

theorem hasSeat_seated {environmentId other : String} (hseats : db'.seats = seated environmentId now db) :
    hasSeat db' other = (hasSeat db other || decide (other = environmentId)) := by
  unfold hasSeat
  rw [hseats]
  unfold seated insertSeat
  dsimp only
  cases hinsert : db.seats.insert? (availableSeat environmentId now) with
  | none =>
    rw [Option.getD_none]
    by_cases hother : other = environmentId
    · have hthere := Table.insert?_eq_none_iff.1 hinsert
      change db.seats.find? environmentId ≠ none at hthere
      rw [hother, Option.isSome_iff_ne_none.2 hthere]
      rfl
    · rw [decide_eq_false hother, Bool.or_false]
  | some seats =>
    rw [Option.getD_some, Table.find?_insert? hinsert]
    change (if other = environmentId then _ else _ : Option SeatRow).isSome = _
    by_cases hother : other = environmentId
    · rw [if_pos hother, decide_eq_true hother, Bool.or_true]
      rfl
    · rw [if_neg hother, decide_eq_false hother, Bool.or_false]

theorem projectPathOf_upsert {row : EnvironmentRow} (henv : db'.environments = db.environments.upsert row)
    (environmentId : String) :
    projectPathOf db' environmentId =
      if environmentId = row.environmentId then some row.projectPath else projectPathOf db environmentId := by
  unfold projectPathOf
  rw [henv, Table.find?_upsert]
  split_ifs <;> rfl

def named (projectId projectName : String) (now : Timestamp) (binding : CoworkerBinding) : CoworkerBinding :=
  { binding with activeProjectId := some projectId, activeProjectName := some projectName, updatedAt := now }

/-- What an operation does to bindings, grants, paths and seats when it commits. -/
inductive Changes (db db' : ComputerJournal) : Op → Prop
  | kept {op : Op} (places : SamePlaces db db') (bindings : db'.bindings = db.bindings)
      (grants : SameGrants db db') : Changes db db' op
  | adopted {coworkerId : String} {environment : EnvironmentRow} {now : Timestamp}
      (there : environment ∈ db.environments)
      (unbound : ∀ other ∈ db.bindings, other.environmentId ≠ environment.environmentId)
      (bindings : db.bindings.insert? (adoptedBinding coworkerId environment now) = some db'.bindings)
      (places : SamePlaces db db') (grants : SameGrants db db') : Changes db db' (.adoptLegacyCoworker coworkerId)
  | granted {coworkerId projectId projectName projectPath : String} {now : Timestamp}
      (bindings : db'.bindings = db.bindings.updateWhere (unnamed coworkerId projectPath)
        (named projectId projectName now) (fun _ => rfl))
      (grants : ∀ c p path, db'.grants.Locates c p path ↔
        if c = coworkerId ∧ p = projectId then path = projectPath else db.grants.Locates c p path)
      (places : SamePlaces db db') : Changes db db' (.grantProject coworkerId projectId projectName projectPath)
  | activated {activation : CoworkerProjectActivation} {now : Timestamp} (h : Activated activation now db db') :
      Changes db db' (.activateCoworkerProject activation)
  | revoked {coworkerId projectId : String} {binding : CoworkerBinding} {now : Timestamp}
      (bound : db.bindings.find? coworkerId = some binding) (active : binding.activeProjectId = some projectId)
      (bindings : db'.bindings = db.bindings.updateWhere (fun binding => decide (binding.coworkerId = coworkerId))
        (detached now) (fun _ => rfl))
      (grants : db'.grants = ungranted coworkerId projectId db)
      (seats : db'.seats = db.seats.updateWhere (held binding.environmentId) (SeatRow.release now))
      (places : SamePlaces db db') : Changes db db' (.revokeProject coworkerId projectId)
  | unlisted {coworkerId projectId : String}
      (inactive : ∀ binding, db.bindings.find? coworkerId = some binding → binding.activeProjectId ≠ some projectId)
      (grants : db'.grants = ungranted coworkerId projectId db) (bindings : db'.bindings = db.bindings)
      (places : SamePlaces db db') : Changes db db' (.revokeProject coworkerId projectId)
  | deleted {environmentId : String}
      (h : db' = deleteEnvironmentRow { db with
        grants := db.grants.deleteWhere fun grant => decide (grant.coworkerId ∈ owners environmentId db) }
        environmentId) : Changes db db' (.deleteEnvironment environmentId)
  | upserted {environmentId projectName projectPath eventType : String} {state : ComputerState}
      {resources : ComputerResources} {row : EnvironmentRow} {now : Timestamp}
      (key : row.environmentId = environmentId) (path : row.projectPath = projectPath)
      (environments : db'.environments = db.environments.upsert row) (seats : db'.seats = seated environmentId now db)
      (bindings : db'.bindings = db.bindings) (grants : SameGrants db db') :
      Changes db db' (.upsertEnvironment environmentId projectName projectPath state resources eventType)

theorem mem_of_latestEnvironment {environment : EnvironmentRow} (h : db.latestEnvironment = some environment) :
    environment ∈ db.environments := by
  have key : ∀ (rows : List EnvironmentRow) (best : Option EnvironmentRow),
      rows.foldl laterEnvironment best = some environment → environment ∈ rows ∨ best = some environment := by
    intro rows
    induction rows with
    | nil => exact fun best h => .inr h
    | cons row rows ih =>
      intro best h
      rcases ih _ h with hmem | hbest
      · exact .inl (List.mem_cons_of_mem _ hmem)
      · unfold laterEnvironment at hbest
        split at hbest
        · exact .inl (Option.some.inj hbest ▸ List.mem_cons_self)
        · split_ifs at hbest
          · exact .inl (Option.some.inj hbest ▸ List.mem_cons_self)
          · exact .inr hbest
  exact (key _ _ h).resolve_right (Option.some_ne_none _).symm

theorem SameGrants.of_eq (h : db'.grants = db.grants) : SameGrants db db' := by
  intro c p path
  rw [h]

theorem Changes.of_requests {op : Op} (henv : db'.environments = db.environments) (hseats : db'.seats = db.seats)
    (hbindings : db'.bindings = db.bindings) (hgrants : db'.grants = db.grants) : Changes db db' op :=
  .kept ⟨projectPathOf_eq henv, hasSeat_eq hseats⟩ hbindings (.of_eq hgrants)

theorem Step.changes {call : Call} (h : Step newV4 db call db') : Changes db db' call.op := by
  cases h with
  | failed op error => exact .of_requests rfl rfl rfl rfl
  | @committed db' op answer now happly =>
    cases op <;> simp only [Op.apply, map_ok_iff, Prod.mk.injEq] at happly
    case recoverIncomplete =>
      cases happly
      have henv : (recoverIncomplete now db).environments = db.environments.updateWhere
          (fun row => decide (row.state = .preparing)) (EnvironmentRow.uncertain now) := rfl
      exact .kept ⟨projectPathOf_updateWhere (by intro _; rfl) henv fun _ => rfl, hasSeat_eq rfl⟩ rfl (.of_eq rfl)
    all_goals obtain ⟨⟨x, db₁⟩, hop, rfl, rfl⟩ := happly
    case beginRequest =>
      rcases (beginRequest_ok_iff.1 hop).2 with ⟨_, _, _, rfl⟩ | ⟨_, _, _, rfl⟩ <;>
        exact .of_requests rfl rfl rfl rfl
    case markSideEffectStarted | completeRequest | failRequest =>
      obtain ⟨-, rfl⟩ := advanceRequest_ok_iff.1 hop
      exact .of_requests rfl rfl rfl rfl
    case markUnknownOutcome =>
      obtain ⟨-, _, _, _, -, -, rfl⟩ := markUnknownOutcome_ok hop
      exact .kept ⟨projectPathOf_updateWhere (by intro _; rfl) rfl fun _ => rfl, hasSeat_eq rfl⟩ rfl (.of_eq rfl)
    case adoptLegacyCoworker =>
      rcases adoptLegacyCoworker_ok hop with
        rfl | ⟨environment, grants, bindings, hlatest, hgrants, hunbound, hinsert, _, _, _, -, -, rfl⟩
      · exact .of_requests rfl rfl rfl rfl
      · exact .adopted (mem_of_latestEnvironment hlatest) hunbound hinsert
          ⟨projectPathOf_eq rfl, hasSeat_eq rfl⟩ fun c p path => adoptGrants_locates c p path hgrants
    case grantProject =>
      obtain ⟨-, -, grants₁, grants', hclaimed, hgranted, -, rfl⟩ := grantProject_ok_iff.1 hop
      exact .granted rfl (granted_locates hclaimed hgranted) ⟨projectPathOf_eq rfl, hasSeat_eq rfl⟩
    case activateCoworkerProject => exact .activated (activateCoworkerProject_ok hop)
    case revokeProject =>
      rcases revokeProject_ok hop with ⟨-, rfl, hinactive⟩ | ⟨binding, hfind, hactive, -, _, _, _, -, -, rfl⟩
      · exact .unlisted hinactive rfl rfl ⟨projectPathOf_eq rfl, hasSeat_eq rfl⟩
      · exact .revoked hfind hactive rfl rfl rfl
          ⟨projectPathOf_updateWhere (by intro _; rfl) rfl fun _ => rfl, hasSeat_updateWhere (by intro _; rfl) rfl⟩
    case deleteEnvironment =>
      obtain ⟨-, rfl⟩ := deleteEnvironment_ok_iff.1 hop
      exact .deleted rfl
    case upsertEnvironment =>
      obtain ⟨-, row, hkey, hpath, _, _, _, -, -, rfl⟩ := upsertEnvironment_ok hop
      exact .upserted hkey hpath rfl rfl rfl (.of_eq rfl)
    case setEnvironmentState =>
      obtain ⟨_, _, _, -, -, rfl⟩ := setEnvironmentState_ok hop
      exact .kept ⟨projectPathOf_updateWhere (by intro _; rfl) rfl fun _ => rfl, hasSeat_eq rfl⟩ rfl (.of_eq rfl)
    case acquireSeat =>
      obtain ⟨_, -, -, -, _, _, _, -, -, rfl⟩ := acquireSeat_ok hop
      exact .kept ⟨projectPathOf_eq rfl, hasSeat_updateWhere (by intro _; rfl) rfl⟩ rfl (.of_eq rfl)
    case releaseSeat =>
      obtain ⟨-, -, _, _, _, -, -, rfl⟩ := releaseSeat_ok hop
      exact .kept ⟨projectPathOf_eq rfl, hasSeat_updateWhere (by intro _; rfl) rfl⟩ rfl (.of_eq rfl)
    case appendEvent =>
      obtain ⟨_, _, _, -, -, rfl⟩ := appendEvent_ok hop
      exact .of_requests rfl rfl rfl rfl

/-! ## In every reachable journal -/

/-- The active project of the binding is granted somewhere, and the binding has a path for it. -/
def Entitled (db : ComputerJournal) (binding : CoworkerBinding) : Prop :=
  ∀ projectId, binding.activeProjectId = some projectId →
    (∃ path, db.grants.Locates binding.coworkerId projectId path) ∧ binding.activeProjectPath.isSome

structure Consistent (db : ComputerJournal) : Prop where
  placed : ∀ binding ∈ db.bindings, (projectPathOf db binding.environmentId).isSome
  alone : ∀ binding ∈ db.bindings, ∀ other ∈ db.bindings, binding.environmentId = other.environmentId →
    binding = other
  seated : ∀ environmentId, (projectPathOf db environmentId).isSome → hasSeat db environmentId = true
  entitled : ∀ binding ∈ db.bindings, Entitled db binding

namespace Consistent

theorem empty : Consistent ∅ where
  placed := fun binding h => absurd h (Table.not_mem_empty binding)
  alone := fun binding h => absurd h (Table.not_mem_empty binding)
  seated := fun _ h => nomatch h
  entitled := fun binding h => absurd h (Table.not_mem_empty binding)

theorem of_bindings (hdb : Consistent db)
    (hseated : ∀ environmentId, (projectPathOf db' environmentId).isSome → hasSeat db' environmentId = true)
    (hbindings : ∀ binding' ∈ db'.bindings, ∃ binding ∈ db.bindings, binding'.coworkerId = binding.coworkerId ∧
      binding'.environmentId = binding.environmentId ∧ (projectPathOf db' binding.environmentId).isSome ∧
      Entitled db' binding') : Consistent db' where
  placed := by
    intro binding' h
    obtain ⟨binding, -, -, henv, hplaced, -⟩ := hbindings binding' h
    rwa [henv]
  alone := by
    intro binding' h other' h' hsame
    obtain ⟨binding, hmem, hkey, henv, -⟩ := hbindings binding' h
    obtain ⟨other, hmem', hkey', henv', -⟩ := hbindings other' h'
    refine Table.eq_of_key_eq h h' ?_
    have heq : binding = other := hdb.alone binding hmem other hmem' (by rw [← henv, hsame, henv'])
    rw [hkey, hkey', heq]
  seated := hseated
  entitled := by
    intro binding' h
    obtain ⟨-, -, -, -, -, hentitled⟩ := hbindings binding' h
    exact hentitled

theorem of_insert {bindings : Table CoworkerBinding.coworkerId} {binding : CoworkerBinding}
    (hdb : Consistent { db with bindings := bindings }) (hinsert : bindings.insert? binding = some db.bindings)
    (hunbound : ∀ other ∈ bindings, other.environmentId ≠ binding.environmentId)
    (hplaced : (projectPathOf db binding.environmentId).isSome) (hentitled : Entitled db binding) :
    Consistent db where
  placed := by
    intro other h
    rcases (Table.mem_insert? hinsert).1 h with h | rfl
    · exact hdb.placed other h
    · exact hplaced
  alone := by
    intro other h other' h' hsame
    rcases (Table.mem_insert? hinsert).1 h with h | rfl <;> rcases (Table.mem_insert? hinsert).1 h' with h' | rfl
    · exact hdb.alone other h other' h' hsame
    · exact absurd hsame (hunbound other h)
    · exact absurd hsame.symm (hunbound other' h')
    · rfl
  seated := hdb.seated
  entitled := by
    intro other h
    rcases (Table.mem_insert? hinsert).1 h with h | rfl
    · exact hdb.entitled other h
    · exact hentitled

end Consistent

theorem Entitled.mono {binding : CoworkerBinding} (h : Entitled db binding)
    (hgrants : ∀ p path, db.grants.Locates binding.coworkerId p path → ∃ path', db'.grants.Locates binding.coworkerId p path') :
    Entitled db' binding := by
  intro projectId hactive
  obtain ⟨⟨path, hlocates⟩, hpath⟩ := h projectId hactive
  exact ⟨hgrants projectId path hlocates, hpath⟩

theorem ungranted_locates {coworkerId projectId c p path : String} :
    (ungranted coworkerId projectId db).Locates c p path ↔
      ¬ (c = coworkerId ∧ p = projectId) ∧ db.grants.Locates c p path := by
  unfold ungranted
  rw [deleteWhere_locates]
  constructor
  · rintro ⟨grant, hmem, hdeleted, hcovers, hpath⟩
    refine ⟨?_, grant, hmem, hcovers, hpath⟩
    rintro ⟨rfl, rfl⟩
    rw [hcovers] at hdeleted
    cases hdeleted
  · rintro ⟨hother, grant, hmem, hcovers, hpath⟩
    refine ⟨grant, hmem, Bool.eq_false_of_not_eq_true fun hself => hother ?_, hcovers, hpath⟩
    obtain ⟨rfl, hp⟩ := covers_iff.1 hself
    obtain ⟨hc, hp'⟩ := covers_iff.1 hcovers
    exact ⟨hc.symm, Option.some.inj (hp'.symm.trans hp)⟩

theorem disowned_locates {environmentId c p path : String} (hc : c ∉ owners environmentId db) :
    (db.grants.deleteWhere fun grant => decide (grant.coworkerId ∈ owners environmentId db)).Locates c p path ↔
      db.grants.Locates c p path := by
  rw [deleteWhere_locates]
  constructor
  · rintro ⟨grant, hmem, -, hcovers, hpath⟩
    exact ⟨grant, hmem, hcovers, hpath⟩
  · rintro ⟨grant, hmem, hcovers, hpath⟩
    refine ⟨grant, hmem, decide_eq_false ?_, hcovers, hpath⟩
    rw [(covers_iff.1 hcovers).1]
    exact hc

namespace ComputerJournal.Activated

variable {activation : CoworkerProjectActivation} (h : Activated activation now db db')
include h

theorem projectPathOf_eq (environmentId : String) :
    projectPathOf db' environmentId =
      if environmentId = activation.environmentId then some activation.projectPath
      else projectPathOf db environmentId :=
  projectPathOf_upsert h.environments environmentId

theorem hasSeat_eq (environmentId : String) :
    hasSeat db' environmentId = (hasSeat db environmentId || decide (environmentId = activation.environmentId)) := by
  have hseats := h.seats
  have hseated : hasSeat { db with seats := seated activation.environmentId now db } environmentId =
      (hasSeat db environmentId || decide (environmentId = activation.environmentId)) := hasSeat_seated rfl
  rw [← hseated]
  unfold hasSeat
  rw [hseats]
  split_ifs
  · rw [Table.find?_updateWhere, Option.isSome_map]
  · rfl

theorem locates_iff (c p path : String) :
    db'.grants.Locates c p path ↔
      if c = activation.coworkerId ∧ p = activation.projectId then path = activation.projectPath
      else db.grants.Locates c p path :=
  moved_locates h.grants (fun _ => ⟨rfl, rfl, rfl⟩) h.granted c p path

end ComputerJournal.Activated

theorem projectPathOf_deleteEnvironmentRow (environmentId other : String) :
    projectPathOf (deleteEnvironmentRow db environmentId) other =
      if other = environmentId then none else projectPathOf db other := by
  unfold projectPathOf deleteEnvironmentRow
  dsimp only
  rw [Table.find?_delete]
  split_ifs <;> rfl

theorem hasSeat_deleteEnvironmentRow (environmentId other : String) :
    hasSeat (deleteEnvironmentRow db environmentId) other = if other = environmentId then false else hasSeat db other := by
  unfold hasSeat deleteEnvironmentRow
  dsimp only
  rw [Table.find?_delete]
  split_ifs <;> rfl

theorem mem_bindings_deleteEnvironmentRow {environmentId : String} {binding : CoworkerBinding} :
    binding ∈ (deleteEnvironmentRow db environmentId).bindings ↔
      binding ∈ db.bindings ∧ binding.environmentId ≠ environmentId := by
  unfold deleteEnvironmentRow
  rw [Table.mem_deleteWhere, decide_eq_false_iff_not]

theorem not_mem_owners {environmentId : String} {binding : CoworkerBinding} (hmem : binding ∈ db.bindings)
    (hother : binding.environmentId ≠ environmentId) : binding.coworkerId ∉ owners environmentId db := by
  intro howner
  obtain ⟨owner, hfilter, hkey⟩ := List.mem_map.1 howner
  obtain ⟨hmem', henv⟩ := List.mem_filter.1 hfilter
  obtain rfl := Table.eq_of_key_eq hmem' hmem hkey
  exact hother (of_decide_eq_true henv)

theorem Consistent.of_places (hdb : Consistent db) (places : SamePlaces db db')
    (hbindings : ∀ binding' ∈ db'.bindings, ∃ binding ∈ db.bindings, binding'.coworkerId = binding.coworkerId ∧
      binding'.environmentId = binding.environmentId ∧ Entitled db' binding') : Consistent db' := by
  refine hdb.of_bindings (fun E hE => ?_) fun binding' hmem' => ?_
  · rw [places.paths] at hE
    rw [places.seats]
    exact hdb.seated E hE
  · obtain ⟨binding, hmem, hkey, henv, hentitled⟩ := hbindings binding' hmem'
    refine ⟨binding, hmem, hkey, henv, ?_, hentitled⟩
    rw [places.paths]
    exact hdb.placed binding hmem

theorem ComputerJournal.Activated.consistent {activation : CoworkerProjectActivation} (h : Activated activation now db db')
    (hdb : Consistent db) : Consistent db' := by
  have hseated : ∀ E, (projectPathOf db' E).isSome → hasSeat db' E = true := by
    intro E hE
    rw [h.hasSeat_eq]
    rw [h.projectPathOf_eq] at hE
    split_ifs at hE with hself
    · rw [decide_eq_true hself, Bool.or_true]
    · rw [hdb.seated E hE, Bool.true_or]
  have hplaced : ∀ E, (projectPathOf db E).isSome → (projectPathOf db' E).isSome := by
    intro E hE
    rw [h.projectPathOf_eq]
    split_ifs
    · rfl
    · exact hE
  have hmono : ∀ binding ∈ db.bindings, Entitled db' binding := by
    refine fun binding hmem => (hdb.entitled binding hmem).mono fun p path hlocates => ?_
    by_cases hself : binding.coworkerId = activation.coworkerId ∧ p = activation.projectId
    · exact ⟨_, (h.locates_iff ..).2 (by rw [if_pos hself])⟩
    · exact ⟨path, (h.locates_iff ..).2 (by rwa [if_neg hself])⟩
  have hactive : ∀ binding : CoworkerBinding, binding.coworkerId = activation.coworkerId →
      binding.activeProjectId = some activation.projectId → binding.activeProjectPath.isSome → Entitled db' binding := by
    intro binding hcoworker hid hpath projectId hprojectId
    obtain rfl := Option.some.inj (hid.symm.trans hprojectId)
    exact ⟨⟨_, (h.locates_iff ..).2 (by rw [if_pos ⟨hcoworker, rfl⟩])⟩, hpath⟩
  rcases h.bindings with ⟨-, hbindings⟩ | ⟨hunbound, hinsert⟩
  · refine hdb.of_bindings hseated fun binding' hmem' => ?_
    rw [hbindings] at hmem'
    obtain ⟨binding, hmem, rfl⟩ := (Table.mem_updateWhere _).1 hmem'
    refine ⟨binding, hmem, ?_, ?_, hplaced _ (hdb.placed binding hmem), ?_⟩ <;> split_ifs with hself
    · rfl
    · rfl
    · rfl
    · rfl
    · exact hactive _ (of_decide_eq_true hself) rfl rfl
    · exact hmono binding hmem
  · refine Consistent.of_insert ?_ hinsert hunbound ?_ (hactive _ rfl rfl rfl)
    · exact hdb.of_bindings hseated fun binding hmem =>
        ⟨binding, hmem, rfl, rfl, hplaced _ (hdb.placed binding hmem), hmono binding hmem⟩
    · rw [h.projectPathOf_eq]
      exact (if_pos rfl).symm ▸ rfl

theorem Changes.consistent {op : Op} (h : Changes db db' op) (hdb : Consistent db) : Consistent db' := by
  cases h with
  | kept places bindings grants =>
    refine hdb.of_places places fun binding hmem => ?_
    rw [bindings] at hmem
    exact ⟨binding, hmem, rfl, rfl, (hdb.entitled binding hmem).mono fun p path h => ⟨path, (grants ..).2 h⟩⟩
  | adopted there unbound bindings places grants =>
    refine Consistent.of_insert ?_ bindings unbound ?_ fun _ hactive => nomatch hactive
    · exact hdb.of_places ⟨places.paths, places.seats⟩ fun binding hmem =>
        ⟨binding, hmem, rfl, rfl, (hdb.entitled binding hmem).mono fun p path h => ⟨path, (grants ..).2 h⟩⟩
    · rw [places.paths]
      unfold projectPathOf
      rw [adoptedBinding, Table.find?_of_mem there]
      rfl
  | @granted coworkerId projectId projectName projectPath now bindings grants places =>
    refine hdb.of_places places fun binding' hmem' => ?_
    rw [bindings] at hmem'
    obtain ⟨binding, hmem, rfl⟩ := (Table.mem_updateWhere _).1 hmem'
    refine ⟨binding, hmem, ?_, ?_, ?_⟩ <;> split_ifs with hunnamed
    · rfl
    · rfl
    · rfl
    · rfl
    · unfold unnamed at hunnamed
      rw [Bool.and_eq_true, Bool.and_eq_true, decide_eq_true_eq, decide_eq_true_eq] at hunnamed
      obtain ⟨⟨hcoworker, hpath⟩, -⟩ := hunnamed
      intro id hid
      obtain rfl := Option.some.inj hid
      refine ⟨⟨projectPath, (grants ..).2 ?_⟩, ?_⟩
      · rw [if_pos ⟨hcoworker, rfl⟩]
      · exact Option.isSome_iff_exists.2 ⟨projectPath, hpath⟩
    · refine (hdb.entitled binding hmem).mono fun p path hlocates => ?_
      by_cases hself : binding.coworkerId = coworkerId ∧ p = projectId
      · exact ⟨projectPath, (grants ..).2 (by rw [if_pos hself])⟩
      · exact ⟨path, (grants ..).2 (by rwa [if_neg hself])⟩
  | activated h => exact h.consistent hdb
  | @revoked coworkerId projectId revokedBinding now bound active bindings grants seats places =>
    refine hdb.of_places places fun binding' hmem' => ?_
    rw [bindings] at hmem'
    obtain ⟨binding, hmem, rfl⟩ := (Table.mem_updateWhere _).1 hmem'
    refine ⟨binding, hmem, ?_, ?_, ?_⟩ <;> split_ifs with hself
    · rfl
    · rfl
    · rfl
    · rfl
    · exact fun _ hid => nomatch hid
    · refine (hdb.entitled binding hmem).mono fun p path hlocates => ⟨path, ?_⟩
      rw [grants, ungranted_locates]
      rw [decide_eq_true_eq] at hself
      exact ⟨fun h => hself h.1, hlocates⟩
  | @unlisted coworkerId projectId inactive grants bindings places =>
    refine hdb.of_places places fun binding hmem => ?_
    rw [bindings] at hmem
    refine ⟨binding, hmem, rfl, rfl, fun p hactive => ?_⟩
    obtain ⟨⟨path, hlocates⟩, hpath⟩ := hdb.entitled binding hmem p hactive
    refine ⟨⟨path, ?_⟩, hpath⟩
    rw [grants, ungranted_locates]
    refine ⟨?_, hlocates⟩
    rintro ⟨rfl, rfl⟩
    exact inactive binding (Table.find?_of_mem hmem) hactive
  | @deleted environmentId h =>
    subst h
    refine hdb.of_bindings (fun E hE => ?_) fun binding hmem => ?_
    · rw [projectPathOf_deleteEnvironmentRow] at hE
      rw [hasSeat_deleteEnvironmentRow]
      split_ifs at hE ⊢ with hself
      · cases hE
      · exact hdb.seated E hE
    · obtain ⟨hmem, hother⟩ := mem_bindings_deleteEnvironmentRow.1 hmem
      refine ⟨binding, hmem, rfl, rfl, ?_, (hdb.entitled binding hmem).mono fun p path hlocates => ⟨path, ?_⟩⟩
      · rw [projectPathOf_deleteEnvironmentRow, if_neg hother]
        exact hdb.placed binding hmem
      · have howner : binding.coworkerId ∉ owners environmentId db := not_mem_owners hmem hother
        exact (disowned_locates howner).2 hlocates
  | @upserted environmentId projectName projectPath _ _ _ row now key path environments seats bindings grants =>
    have hpaths := projectPathOf_upsert environments
    refine hdb.of_bindings (fun E hE => ?_) fun binding hmem => ?_
    · rw [hasSeat_seated seats]
      rw [hpaths, key] at hE
      split_ifs at hE with hself
      · rw [decide_eq_true hself, Bool.or_true]
      · rw [hdb.seated E hE, Bool.true_or]
    · rw [bindings] at hmem
      refine ⟨binding, hmem, rfl, rfl, ?_,
        (hdb.entitled binding hmem).mono fun p path h => ⟨path, (grants ..).2 h⟩⟩
      rw [hpaths]
      split_ifs
      · rfl
      · exact hdb.placed binding hmem

theorem Reachable.consistent (h : Reachable newV4 db) : Consistent db :=
  Reaches.invariant (fun _ _ _ hs hstep => hstep.changes.consistent hs) h .empty

/-! ## Paths agree -/

/-- The environment is at the binding's active path, where alone the project is granted. -/
def AgreesOn (db : ComputerJournal) (binding : CoworkerBinding) : Prop :=
  ∀ path, binding.activeProjectPath = some path →
    projectPathOf db binding.environmentId = some path ∧
    ∀ projectId, binding.activeProjectId = some projectId →
      ∀ path', db.grants.Locates binding.coworkerId projectId path' → path' = path

def Agrees (db : ComputerJournal) : Prop := ∀ binding ∈ db.bindings, AgreesOn db binding

/-- No grant and no environment gets another path than the active one. -/
def Steady (db : ComputerJournal) (call : Call) : Prop :=
  match call.op with
  | .grantProject coworkerId projectId _ projectPath => ∀ binding ∈ db.bindings, binding.coworkerId = coworkerId →
      binding.activeProjectId = some projectId → binding.activeProjectPath = some projectPath
  | .upsertEnvironment environmentId _ projectPath _ _ _ => ∀ binding ∈ db.bindings,
      binding.environmentId = environmentId → ∀ path, binding.activeProjectPath = some path → path = projectPath
  | _ => True

theorem AgreesOn.mono {binding : CoworkerBinding} (h : AgreesOn db binding)
    (hpath : projectPathOf db' binding.environmentId = projectPathOf db binding.environmentId)
    (hgrants : ∀ p path, db'.grants.Locates binding.coworkerId p path → db.grants.Locates binding.coworkerId p path) :
    AgreesOn db' binding := by
  intro path hactive
  obtain ⟨henv, hlocates⟩ := h path hactive
  exact ⟨hpath.trans henv, fun p hp path' h' => hlocates p hp path' (hgrants p path' h')⟩

theorem ComputerJournal.Activated.agrees {activation : CoworkerProjectActivation}
    (h : Activated activation now db db') (hdb : Consistent db) (hagrees : Agrees db) : Agrees db' := by
  have hactive : ∀ binding : CoworkerBinding, binding.coworkerId = activation.coworkerId →
      binding.environmentId = activation.environmentId →
      binding.activeProjectId = some activation.projectId →
      binding.activeProjectPath = some activation.projectPath → AgreesOn db' binding := by
    intro binding hcoworker henv hid hpath path hpath'
    obtain rfl := Option.some.inj (hpath.symm.trans hpath')
    refine ⟨?_, fun p hp path' hlocates => ?_⟩
    · rw [h.projectPathOf_eq, if_pos henv]
    · obtain rfl := Option.some.inj (hid.symm.trans hp)
      rw [h.locates_iff, if_pos ⟨hcoworker, rfl⟩] at hlocates
      exact hlocates
  have hother : ∀ binding ∈ db.bindings, binding.environmentId ≠ activation.environmentId →
      binding.coworkerId ≠ activation.coworkerId → AgreesOn db' binding := by
    intro binding hmem henv hcoworker
    refine (hagrees binding hmem).mono ?_ fun p path hlocates => ?_
    · rw [h.projectPathOf_eq, if_neg henv]
    · rwa [h.locates_iff, if_neg fun hself => hcoworker hself.1] at hlocates
  rcases h.bindings with ⟨⟨bound, hbound⟩, hbindings⟩ | ⟨hunbound, hinsert⟩
  · intro binding' hmem'
    have henv := h.bound bound hbound
    rw [hbindings] at hmem'
    obtain ⟨binding, hmem, rfl⟩ := (Table.mem_updateWhere _).1 hmem'
    split_ifs with hself
    · rw [decide_eq_true_eq] at hself
      obtain rfl : binding = bound := Table.eq_of_key_eq hmem (Table.mem_of_find? hbound)
        (hself.trans (Table.key_of_find? hbound).symm)
      exact hactive _ hself henv rfl rfl
    · rw [decide_eq_true_eq] at hself
      refine hother binding hmem (fun hsame => hself ?_) hself
      rw [hdb.alone binding hmem bound (Table.mem_of_find? hbound) (hsame.trans henv.symm)]
      exact Table.key_of_find? hbound
  · intro binding hmem
    rcases (Table.mem_insert? hinsert).1 hmem with hmem | rfl
    · refine hother binding hmem (hunbound binding hmem) fun hself => ?_
      exact Table.find?_eq_none_iff.1 (Table.insert?_eq_some_iff.1 hinsert).1 binding hmem hself
    · exact hactive _ rfl rfl rfl rfl

theorem Changes.agrees {call : Call} (h : Changes db db' call.op) (hdb : Consistent db) (hsteady : Steady db call)
    (hagrees : Agrees db) : Agrees db' := by
  unfold Steady at hsteady
  generalize call.op = op at h hsteady
  cases h with
  | kept places bindings grants =>
    intro binding hmem
    rw [bindings] at hmem
    exact (hagrees binding hmem).mono (places.paths _) fun p path => (grants ..).1
  | adopted there unbound bindings places grants =>
    intro binding hmem
    rcases (Table.mem_insert? bindings).1 hmem with hmem | rfl
    · exact (hagrees binding hmem).mono (places.paths _) fun p path => (grants ..).1
    · intro path hpath
      obtain rfl := Option.some.inj hpath
      refine ⟨?_, fun _ hid => nomatch hid⟩
      rw [places.paths]
      unfold projectPathOf
      rw [adoptedBinding, Table.find?_of_mem there]
      rfl
  | @granted coworkerId projectId projectName projectPath now bindings grants places =>
    intro binding' hmem'
    rw [bindings] at hmem'
    obtain ⟨binding, hmem, rfl⟩ := (Table.mem_updateWhere _).1 hmem'
    split_ifs with hunnamed
    · unfold unnamed at hunnamed
      rw [Bool.and_eq_true, Bool.and_eq_true, decide_eq_true_eq, decide_eq_true_eq] at hunnamed
      obtain ⟨⟨hcoworker, hpath⟩, -⟩ := hunnamed
      intro path hpath'
      obtain rfl := Option.some.inj (hpath.symm.trans hpath')
      refine ⟨(places.paths _).trans (hagrees binding hmem _ hpath).1, fun p hid path' hlocates => ?_⟩
      obtain rfl := Option.some.inj hid
      rwa [grants, if_pos ⟨hcoworker, rfl⟩] at hlocates
    · intro path hpath
      obtain ⟨henv, hlocated⟩ := hagrees binding hmem path hpath
      refine ⟨(places.paths _).trans henv, fun p hid path' hlocates => ?_⟩
      rw [grants] at hlocates
      split_ifs at hlocates with hself
      · obtain ⟨hcoworker, rfl⟩ := hself
        rw [hlocates]
        exact Option.some.inj ((hsteady binding hmem hcoworker hid).symm.trans hpath)
      · exact hlocated p hid path' hlocates
  | activated h => exact h.agrees hdb hagrees
  | @revoked coworkerId projectId revokedBinding now bound active bindings grants seats places =>
    intro binding' hmem'
    rw [bindings] at hmem'
    obtain ⟨binding, hmem, rfl⟩ := (Table.mem_updateWhere _).1 hmem'
    split_ifs with hself
    · exact fun path hpath => nomatch hpath
    · refine (hagrees binding hmem).mono (places.paths _) fun p path hlocates => ?_
      rw [grants, ungranted_locates] at hlocates
      exact hlocates.2
  | unlisted inactive grants bindings places =>
    intro binding hmem
    rw [bindings] at hmem
    refine (hagrees binding hmem).mono (places.paths _) fun p path hlocates => ?_
    rw [grants, ungranted_locates] at hlocates
    exact hlocates.2
  | @deleted environmentId h =>
    subst h
    intro binding hmem
    obtain ⟨hmem, hother⟩ := mem_bindings_deleteEnvironmentRow.1 hmem
    refine (hagrees binding hmem).mono ?_ fun p path hlocates => ?_
    · rw [projectPathOf_deleteEnvironmentRow, if_neg hother]
      rfl
    · have howner : binding.coworkerId ∉ owners environmentId db := not_mem_owners hmem hother
      exact (disowned_locates howner).1 hlocates
  | upserted key path environments seats bindings grants =>
    intro binding hmem
    rw [bindings] at hmem
    intro activePath hpath
    obtain ⟨henv, hlocated⟩ := hagrees binding hmem activePath hpath
    refine ⟨?_, fun p hid path' hlocates => hlocated p hid path' ((grants ..).1 hlocates)⟩
    rw [projectPathOf_upsert environments, key]
    split_ifs with hself
    · rw [hsteady binding hmem hself activePath hpath, path]
    · exact henv

theorem agrees_of_steady {calls : List Call} (h : Run (Guarded (Step newV4) Steady) ∅ calls db) : Agrees db := by
  have hboth : Consistent db ∧ Agrees db := by
    refine h.invariant (I := fun db => Consistent db ∧ Agrees db) ?_
      ⟨.empty, fun binding hmem => absurd hmem (Table.not_mem_empty binding)⟩
    rintro db call db' ⟨hdb, hagrees⟩ ⟨hstep, hsteady⟩
    exact ⟨hstep.changes.consistent hdb, hstep.changes.agrees hdb hsteady hagrees⟩
  exact hboth.2

/-! ## Seats -/

/-- The environment has a seat, which nobody holds. -/
def SeatAvailable (db : ComputerJournal) (environmentId : String) : Prop :=
  ∃ seat, db.seats.find? environmentId = some seat ∧ seat.state = .available

theorem release_held (now : Timestamp) {environmentId : String} {seat : SeatRow} (hkey : seat.environmentId = environmentId) :
    (if held environmentId seat then SeatRow.release now seat else seat).state = .available := by
  unfold held
  rw [decide_eq_true hkey, Bool.true_and]
  split_ifs with hstate
  · rfl
  · rw [decide_eq_true_eq, not_not] at hstate
    exact hstate

theorem seatAvailable_of_release {environmentId : String} {seats : Table SeatRow.environmentId}
    (hseats : db'.seats = seats.updateWhere (held environmentId) (SeatRow.release now))
    (hthere : (seats.find? environmentId).isSome) : SeatAvailable db' environmentId := by
  obtain ⟨seat, hseat⟩ := Option.isSome_iff_exists.1 hthere
  refine ⟨_, ?_, release_held now (Table.key_of_find? hseat)⟩
  rw [hseats, Table.find?_updateWhere, hseat]
  rfl

theorem ComputerJournal.Activated.seatAvailable {activation : CoworkerProjectActivation}
    (h : Activated activation now db db') {binding : CoworkerBinding}
    (hbinding : db.bindings.find? activation.coworkerId = some binding)
    (hswitch : binding.activeProjectId ≠ some activation.projectId) :
    SeatAvailable db' activation.environmentId := by
  have hseats := h.seats
  rw [hbinding] at hseats
  have hswitches : switchesProject activation.projectId (some binding) = true := decide_eq_true hswitch
  rw [if_pos hswitches] at hseats
  refine seatAvailable_of_release hseats ?_
  have hseated : hasSeat { db with seats := seated activation.environmentId now db } activation.environmentId = _ :=
    hasSeat_seated rfl
  rw [decide_eq_true rfl, Bool.or_true] at hseated
  exact hseated

/-- In every reachable journal the active project is granted. As long as no call gives it or the environment another
path, the paths of binding, grant and environment are equal; a switch or a revocation leaves the seat available. -/
theorem projects_agree (newV4 : ℕ → String) {db : ComputerJournal} (hdb : Reachable newV4 db) :
    (∀ binding ∈ db.bindings, ∀ projectId, binding.activeProjectId = some projectId →
      ∃ grant ∈ db.grants.rows, grant.coworkerId = binding.coworkerId ∧ grant.projectId = some projectId) ∧
    (∀ calls, Run (Guarded (Step newV4) Steady) ∅ calls db →
      ∀ binding ∈ db.bindings, ∀ projectId, binding.activeProjectId = some projectId →
        ∃ path, binding.activeProjectPath = some path ∧
          (db.environments.find? binding.environmentId).map EnvironmentRow.projectPath = some path ∧
          ∀ grant ∈ db.grants.rows, grant.coworkerId = binding.coworkerId → grant.projectId = some projectId →
            grant.projectPath = path) ∧
    (∀ environmentId environment, requireGrantedEnvironment environmentId db = .ok environment →
      ∃ binding ∈ db.bindings, ∃ grant ∈ db.grants.rows, binding.environmentId = environmentId ∧
        grant.coworkerId = binding.coworkerId ∧ grant.projectId = binding.activeProjectId ∧
        binding.activeProjectPath = some grant.projectPath) ∧
    (∀ activation answer db', Step newV4 db ⟨.activateCoworkerProject activation, .ok answer⟩ db' →
      ∀ binding, db.bindings.find? activation.coworkerId = some binding →
        binding.activeProjectId ≠ some activation.projectId → SeatAvailable db' activation.environmentId) ∧
    ∀ coworkerId projectId answer db', Step newV4 db ⟨.revokeProject coworkerId projectId, .ok answer⟩ db' →
      ∀ binding, db.bindings.find? coworkerId = some binding → binding.activeProjectId = some projectId →
        SeatAvailable db' binding.environmentId := by
  refine ⟨fun binding hmem p hactive => ?_, fun calls hrun binding hmem p hactive => ?_, fun E environment hgranted => ?_,
    fun activation answer db' hstep binding hbinding hswitch => ?_,
    fun coworkerId p answer db' hstep binding hbinding hactive => ?_⟩
  · obtain ⟨⟨path, grant, hgrant, hcovers, -⟩, -⟩ := hdb.consistent.entitled binding hmem p hactive
    exact ⟨grant, hgrant, covers_iff.1 hcovers⟩
  · obtain ⟨-, hpath⟩ := hdb.consistent.entitled binding hmem p hactive
    obtain ⟨path, hpath⟩ := Option.isSome_iff_exists.1 hpath
    obtain ⟨henv, hlocated⟩ := agrees_of_steady hrun binding hmem path hpath
    exact ⟨path, hpath, henv, fun grant hgrant hc hp =>
      hlocated p hactive _ ⟨grant, hgrant, covers_iff.2 ⟨hc, hp⟩, rfl⟩⟩
  · obtain ⟨binding, p, hbinding, hactive, -, hpath, grant, hgrant, hcovers, hgrantPath⟩ :=
      requireGrantedEnvironment_ok hgranted
    obtain ⟨hmem, henv⟩ := mem_of_coworkerBindingForEnvironment hbinding
    obtain ⟨hc, hp⟩ := covers_iff.1 hcovers
    exact ⟨binding, hmem, grant, hgrant, henv, hc, hp.trans hactive.symm, by rw [hgrantPath, hpath]⟩
  · cases hstep with
    | committed happly =>
      obtain ⟨⟨x, db₁⟩, hop, heq⟩ := map_ok_iff.1 happly
      cases heq
      exact (activateCoworkerProject_ok hop).seatAvailable hbinding hswitch
  · cases hstep with
    | committed happly =>
      obtain ⟨⟨x, db₁⟩, hop, heq⟩ := map_ok_iff.1 happly
      cases heq
      rcases revokeProject_ok hop with ⟨-, -, hinactive⟩ | ⟨binding', hbinding', -, -, _, _, _, -, -, rfl⟩
      · exact absurd hactive (hinactive binding hbinding)
      · obtain rfl := Option.some.inj (hbinding.symm.trans hbinding')
        refine seatAvailable_of_release rfl ?_
        exact hdb.consistent.seated _ (hdb.consistent.placed binding (Table.mem_of_find? hbinding))

section Example

def opens (projectId path : String) : List (Op × Timestamp) :=
  [(.grantProject "neko" projectId "site" path, 1),
    (.activateCoworkerProject {
      coworkerId := "neko"
      environmentId := "computer-neko"
      projectId := projectId
      projectName := "site"
      projectPath := path
      state := .preparing
      resources := ⟨"4", 8589934592, 512, 1073741824, 2147483648⟩
      eventType := "computer.preparing" }, 2)]

theorem projects_agree_opens :
    ∃ binding ∈ (execute (fun _ => "id") (opens "site" "/work/a") ∅).bindings,
      binding.activeProjectId = some "site" ∧
        ∃ grant ∈ (execute (fun _ => "id") (opens "site" "/work/a") ∅).grants.rows,
          grant.coworkerId = binding.coworkerId ∧ grant.projectId = some "site" := by
  have hbinding : ∃ binding ∈ (execute (fun _ => "id") (opens "site" "/work/a") ∅).bindings.rows,
      binding.activeProjectId = some "site" := by decide
  obtain ⟨binding, hmem, hactive⟩ := hbinding
  exact ⟨binding, hmem, hactive,
    (projects_agree (fun _ => "id") (reachable_execute _ (opens "site" "/work/a"))).1 binding hmem "site" hactive⟩

/-- The active project is granted at another path, or its environment is written with another, and the granted check
refuses it. -/
theorem regrant_moves_path :
    let regranted := execute (fun _ => "id")
      (opens "site" "/work/a" ++ [(.grantProject "neko" "site" "site" "/work/b", 3)]) ∅
    let moved := execute (fun _ => "id") (opens "site" "/work/a" ++ [(.upsertEnvironment "computer-neko" "site"
      "/work/b" .ready ⟨"4", 8589934592, 512, 1073741824, 2147483648⟩ "computer.ready", 3)]) ∅
    (Reachable (fun _ => "id") regranted ∧
      regranted.bindings.rows.map (fun binding => (binding.activeProjectId, binding.activeProjectPath)) =
        [(some "site", some "/work/a")] ∧
      regranted.grants.rows.map (fun grant => (grant.projectId, grant.projectPath)) = [(some "site", "/work/b")] ∧
      regranted.environments.rows.map EnvironmentRow.projectPath = ["/work/a"] ∧
      (requireGrantedEnvironment "computer-neko" regranted).map ComputerEnvironment.projectPath =
        .error projectAccessDenied) ∧
    Reachable (fun _ => "id") moved ∧
      moved.bindings.rows.map (fun binding => (binding.activeProjectId, binding.activeProjectPath)) =
        [(some "site", some "/work/a")] ∧
      moved.grants.rows.map (fun grant => (grant.projectId, grant.projectPath)) = [(some "site", "/work/a")] ∧
      moved.environments.rows.map EnvironmentRow.projectPath = ["/work/b"] :=
  ⟨⟨reachable_execute _ _, by decide, by decide, by decide, by decide⟩, reachable_execute _ _, by decide, by decide,
    by decide⟩

end Example

end Wiii.Neko.Computer
