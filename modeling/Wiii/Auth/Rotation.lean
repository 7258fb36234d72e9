import Wiii.Auth.LiveTokens
import Wiii.Auth.RefreshRuns

/-!
# A stored refresh token is good for one rotation

A refresh reads the row of its token, revokes it, and stores the successor in three statements, and a replay purges the
family in two.  Where every revocation still finds its row active, and no replay meets a rotation between its revocation
and its insert, or fails, each stored token gives one pair at most (`single_use`).
-/

namespace Wiii.Auth

open Function (update update_self update_of_ne)

/-- The call has revoked the token and is issuing the successor, or has returned it. -/
def CallStage.Rotates (stage : CallStage) (id : ℕ) : Prop :=
  (∃ creation, stage.Creates creation ∧ creation.parent = some id) ∨
    ∃ pair, stage = .returned (.refresh (.stored id)) (some pair)

namespace TokenState

variable (s : TokenState)

def Refreshed (c id : ℕ) : Prop := ∃ pair, s.stage c = .returned (.refresh (.stored id)) (some pair)

def Alive (id : ℕ) : Prop := ∃ row, s.rows.find? id = some row ∧ row.Active

def FamilyOf (id familyId : ℕ) : Prop := ∃ row, s.rows.find? id = some row ∧ row.familyId = some familyId

/-- No call is between revoking a token of the family and storing its successor. -/
def Still (familyId : ℕ) : Prop := ∀ c creation, (s.stage c).Creates creation → creation.familyId ≠ some familyId

/-- A rotation finds its row active; a replay does not fail, nor races with a rotation of its family where it purges. -/
def Orderly (a : TokenAct × ℤ) : Prop :=
  match a.1 with
  | .rotate c outcome => ∀ row identity, s.stage c = .rotating row identity → outcome ≠ .failed → s.Alive row.id
  | .lookup c done _ => ∀ token row, s.stage c = .looking token → s.row token = some row → row.rotated = true → done = true
  | .count c done => ∀ token familyId, s.stage c = .counting token familyId true →
      done = true ∧ (¬ s.ActiveIn familyId → s.Still familyId)
  | .purge c outcome => ∀ token familyId, s.stage c = .purging token familyId true →
      outcome ≠ .failed ∧ s.Still familyId
  | _ => True

/-- A token that is being rotated is revoked, and one call rotates it. -/
structure Single : Prop where
  dead : ∀ c id, (s.stage c).Rotates id → s.Dead id
  once : ∀ c other id, (s.stage c).Rotates id → (s.stage other).Rotates id → c = other

structure Sealed (familyId : ℕ) : Prop where
  rows : ∀ id row, s.rows.find? id = some row → row.familyId = some familyId → ¬ row.Active
  still : s.Still familyId
  old : familyId < s.nextFamily

variable {s}

theorem not_dead_of_alive {id : ℕ} (h : s.Alive id) : ¬ s.Dead id := by
  rintro ⟨row, hrow, hdead⟩
  obtain ⟨found, hfound, hactive⟩ := h
  rw [hrow] at hfound
  cases hfound
  exact hdead hactive

end TokenState

namespace RefreshService

open TokenState

variable {k : RefreshService} {s t : TokenState} {a : TokenAct × ℤ} {as : List (TokenAct × ℤ)} {c id familyId : ℕ}
  {stage : CallStage} {creation : Creation} {cause : Cause}

theorem cause_eq_stored (h : creation.cause = .refresh (.stored id)) : creation.parent = some id := by
  unfold Creation.cause at h
  split at h
  · cases h
  · rename_i hparent
    cases h
    exact hparent

/-! ## One rotation -/

theorem Move.rotates (h : Move s t a c stage) (hrotates : stage.Rotates id) :
    (s.stage c).Rotates id ∨ ∃ row identity, s.stage c = .rotating row identity ∧ row.id = id ∧ a.1 = .rotate c .done ∧
      t.rows = (s.rotated id a.2).rows := by
  rcases hrotates with ⟨creation, rfl | rfl, hparent⟩ | ⟨pair, rfl⟩
  · cases h with
    | quiet hquiet => exact hquiet.elim
    | login _ => cases hparent
    | @create row identity rotating act rows =>
      cases hparent
      exact Or.inr ⟨row, identity, rotating, rfl, act, rows⟩
  · cases h with
    | quiet hquiet => exact hquiet.elim
    | proceed creating => exact Or.inl (Or.inl ⟨creation, Or.inl creating, hparent⟩)
  · generalize hcause : Cause.refresh (.stored id) = cause at h
    cases h with
    | quiet hquiet => exact hquiet.elim
    | @issue creation _ creates => exact Or.inl (Or.inl ⟨creation, creates, cause_eq_stored hcause.symm⟩)
    | signed _ _ => cases hcause

theorem dead_of_rotated (hs : s.Sound) {row : RefreshRow} {identity : Identity} {now : ℤ}
    (hrotating : s.stage c = .rotating row identity) (hrows : t.rows = (s.rotated row.id now).rows) : t.Dead row.id := by
  have hcall := hs.calls c
  rw [hrotating] at hcall
  obtain ⟨⟨found, hfound, -⟩, -⟩ := hcall
  refine ⟨found.rotate now, ?_, fun h => nomatch h⟩
  rw [hrows]
  show (s.rows.update row.id (RefreshRow.rotate now) (RefreshRow.id_rotate now)).find? row.id = _
  rw [Table.find?_update, if_pos rfl, hfound, Option.map_some]

theorem Step.single (h : Guarded k.Step Orderly s a t) (hsound : s.Sound) (hs : s.Single) : t.Single := by
  obtain ⟨hstep, horderly⟩ := h
  have hkeeps := hstep.keeps hsound
  rcases hstep.moves with hstage | ⟨moved, stage, hstage, hmove, -⟩
  · refine ⟨fun c id h => hkeeps.dead (hs.dead c id (hstage ▸ h)), fun c other id h h' => ?_⟩
    rw [hstage] at h h'
    exact hs.once c other id h h'
  -- a call that begins to rotate is alone: it found the row active
  have hnew : ∀ id, stage.Rotates id → (s.stage moved).Rotates id ∨ (t.Dead id ∧ ∀ c, ¬ (s.stage c).Rotates id) := by
    intro id hrotates
    rcases hmove.rotates hrotates with hold | ⟨row, identity, hrotating, rfl, hact, hrows⟩
    · exact Or.inl hold
    · right
      refine ⟨dead_of_rotated hsound hrotating hrows, fun c hc => ?_⟩
      have halive : s.Alive row.id := by
        unfold Orderly at horderly
        rw [hact] at horderly
        exact horderly row identity hrotating (by decide)
      exact not_dead_of_alive halive (hs.dead c row.id hc)
  refine ⟨fun c id h => ?_, fun c other id h h' => ?_⟩
  · rw [hstage] at h
    by_cases hc : c = moved
    · rw [hc, update_self] at h
      rcases hnew id h with hold | ⟨hdead, -⟩
      · exact hkeeps.dead (hs.dead moved id hold)
      · exact hdead
    · rw [update_of_ne hc] at h
      exact hkeeps.dead (hs.dead c id h)
  · rw [hstage] at h h'
    by_cases hc : c = moved
    · by_cases hother : other = moved
      · rw [hc, hother]
      · rw [hc, update_self] at h
        rw [update_of_ne hother] at h'
        rcases hnew id h with hold | ⟨-, hnone⟩
        · exact hc.trans (hs.once moved other id hold h')
        · exact absurd h' (hnone other)
    · rw [update_of_ne hc] at h
      by_cases hother : other = moved
      · rw [hother, update_self] at h'
        rcases hnew id h' with hold | ⟨-, hnone⟩
        · exact (hs.once c moved id h hold).trans hother.symm
        · exact absurd h (hnone c)
      · rw [update_of_ne hother] at h'
        exact hs.once c other id h h'

/-! ## A family after a replay -/

theorem Move.creates (h : Move s t a c stage) (hcreates : stage.Creates creation) :
    (s.stage c).Creates creation ∨ creation.familyId = none ∨ ∃ row identity, s.stage c = .rotating row identity ∧
      creation.familyId = row.familyId ∧ a.1 = .rotate c .done := by
  rcases hcreates with rfl | rfl
  · cases h with
    | quiet hquiet => exact hquiet.elim
    | login _ => exact Or.inr (Or.inl rfl)
    | @create row identity rotating act _ => exact Or.inr (Or.inr ⟨row, identity, rotating, rfl, act⟩)
  · cases h with
    | quiet hquiet => exact hquiet.elim
    | proceed creating => exact Or.inl (Or.inl creating)

theorem Step.still (h : Guarded k.Step Orderly s a t) (hsound : s.Sound) (hs : s.Sealed familyId) : t.Still familyId := by
  obtain ⟨hstep, horderly⟩ := h
  intro c creation hcreates
  rcases hstep.moves with hstage | ⟨moved, stage, hstage, hmove, -⟩
  · rw [hstage] at hcreates
    exact hs.still c creation hcreates
  · rw [hstage] at hcreates
    by_cases hc : c = moved
    · subst hc
      rw [update_self] at hcreates
      rcases hmove.creates hcreates with hold | hnone | ⟨row, identity, hrotating, hfamily, hact⟩
      · exact hs.still c creation hold
      · rw [hnone]
        exact fun h => nomatch h
      · intro hsame
        have halive : s.Alive row.id := by
          unfold Orderly at horderly
          rw [hact] at horderly
          exact horderly row identity hrotating (by decide)
        have hcall := hsound.calls c
        rw [hrotating] at hcall
        obtain ⟨⟨found, hfound, hfoundFamily, -⟩, -⟩ := hcall
        apply not_dead_of_alive halive
        exact ⟨found, hfound, hs.rows row.id found hfound (hfoundFamily.trans (hfamily.symm.trans hsame))⟩
    · rw [update_of_ne hc] at hcreates
      exact hs.still c creation hcreates

theorem Step.sealed (h : Guarded k.Step Orderly s a t) (hsound : s.Sound) (hs : s.Sealed familyId) :
    t.Sealed familyId := by
  refine ⟨fun id row hrow hfamily => ?_, Step.still h hsound hs, lt_of_lt_of_le hs.old (h.1.keeps hsound).nextFamily⟩
  rcases h.1.rows with hmapped | ⟨c, creation, hinserts⟩
  · obtain ⟨old, hold, hbecomes⟩ := hmapped.exists_row hrow
    exact fun hactive => hs.rows id old hold (hbecomes.family ▸ hfamily) (hbecomes.active hactive)
  · rw [hinserts.find?] at hrow
    split at hrow
    · -- the new row is of another family
      cases hrow
      have hcreation := hs.still c creation (Or.inr hinserts.inserting)
      have hfamily : creation.familyId.getD s.nextFamily = familyId := Option.some.inj hfamily
      cases hsome : creation.familyId with
      | none =>
        rw [hsome, Option.getD_none] at hfamily
        have := hs.old
        omega
      | some other =>
        rw [hsome, Option.getD_some] at hfamily
        exact absurd (hsome.trans (congrArg some hfamily)) hcreation
    · exact hs.rows id row hrow hfamily

theorem Step.refreshed (h : k.Step s a t) (hsound : s.Sound) (hs : s.Sealed familyId) (hfamily : t.FamilyOf id familyId)
    (hrefreshed : t.Refreshed c id) : s.Refreshed c id := by
  obtain ⟨pair, hpair⟩ := hrefreshed
  rcases h.moves with hstage | ⟨moved, stage, hstage, hmove, -⟩
  · exact ⟨pair, hstage ▸ hpair⟩
  · rw [hstage] at hpair
    by_cases hc : c = moved
    · subst hc
      rw [update_self] at hpair
      subst hpair
      generalize hcause : Cause.refresh (.stored id) = cause at hmove
      cases hmove with
      | quiet hquiet => exact hquiet.elim
      | @issue creation _ creates =>
        have hparent := cause_eq_stored hcause.symm
        rcases (hsound.calls c).of_creates creates with ⟨hnone, -⟩ | ⟨other, hother, hhas⟩
        · rw [hnone] at hparent
          cases hparent
        · obtain rfl := Option.some.inj (hother.symm.trans hparent)
          obtain ⟨row, hrow, hrowFamily, -⟩ := (h.keeps hsound).has hhas
          obtain ⟨found, hfound, hfoundFamily⟩ := hfamily
          rw [hrow] at hfound
          cases hfound
          exact absurd (hrowFamily.symm.trans hfoundFamily) (hs.still c creation creates)
      | signed _ _ => cases hcause
    · rw [update_of_ne hc] at hpair
      exact ⟨pair, hpair⟩

theorem familyOf_of_refreshed (h : k.Step s a t) (hsound : s.Sound) (hs : s.Single) (hfamily : t.FamilyOf id familyId)
    (hrefreshed : s.Refreshed c id) : s.FamilyOf id familyId := by
  obtain ⟨row, hrow, -⟩ := hs.dead c id (Or.inr hrefreshed)
  obtain ⟨new, hnew, hbecomes⟩ := (h.keeps hsound).row id row hrow
  obtain ⟨found, hfound, hfoundFamily⟩ := hfamily
  rw [hnew] at hfound
  cases hfound
  exact ⟨row, hrow, hbecomes.family.symm.trans hfoundFamily⟩

theorem not_active_purged {now : ℤ} {row : RefreshRow} (hrow : (s.purged familyId now).rows.find? id = some row)
    (hfamily : row.familyId = some familyId) : ¬ row.Active := by
  simp only [purged, Table.find?_updateWhere] at hrow
  obtain ⟨old, -, rfl⟩ := Option.map_eq_some_iff.1 hrow
  split
  · intro hactive
    cases hactive
  · rename_i hkept
    rw [if_neg hkept] at hfamily
    exact fun hactive => hkept (decide_eq_true ⟨hfamily, hactive⟩)

theorem sealed_of_still (hsound : s.Sound) (hstill : s.Still familyId)
    (hrows : ∀ id row, t.rows.find? id = some row → row.familyId = some familyId → ¬ row.Active)
    (hstage : t.stage = update s.stage c (.returned cause none)) (hfamily : t.nextFamily = s.nextFamily)
    (hsweeps : (s.stage c).Sweeps familyId true) : t.Sealed familyId := by
  refine ⟨hrows, fun other creation hcreates => ?_, ?_⟩
  · rw [hstage] at hcreates
    by_cases hother : other = c
    · rw [hother, update_self] at hcreates
      rcases hcreates with h | h <;> cases h
    · rw [update_of_ne hother] at hcreates
      exact hstill other creation hcreates
  · have hcall := hsound.calls c
    obtain ⟨token, hcounting | hpurging⟩ := hsweeps
    · rw [hcounting] at hcall
      rw [hfamily]
      exact hcall
    · rw [hpurging] at hcall
      rw [hfamily]
      exact hcall

theorem Step.sealed_of_replayed (h : Guarded k.Step Orderly s a t) (hsound : s.Sound) (hreplayed : familyId ∈ t.replayed) :
    familyId ∈ s.replayed ∨ t.Sealed familyId := by
  obtain ⟨hstep, horderly⟩ := h
  have hnoted : ∀ {family : ℕ} {replay : Bool}, familyId ∈ s.replayed ++ noted family replay →
      familyId ∈ s.replayed ∨ replay = true ∧ familyId = family := by
    intro family replay hmem
    rcases List.mem_append.1 hmem with hold | hnew
    · exact Or.inl hold
    · unfold noted at hnew
      split at hnew
      · exact Or.inr ⟨‹_›, List.mem_singleton.1 hnew⟩
      · cases hnew
  have hnil : ∀ {replayed : List ℕ}, familyId ∈ replayed ++ [] → familyId ∈ replayed := by
    intro replayed hmem
    rwa [List.append_nil] at hmem
  cases hstep with
  | @lookupFailed c token user now tick looking =>
    rcases List.mem_append.1 hreplayed with hold | hnew
    · exact Or.inl hold
    · cases hrow : s.row token with
      | none =>
        rw [hrow] at hnew
        cases hnew
      | some row =>
        rw [hrow, Option.map_some, Option.getD_some, RefreshRow.noted] at hnew
        split at hnew
        · exact absurd (horderly token row looking hrow ‹_›) (by decide)
        · cases hnew
  | @countNone c family token replay now tick counting absent =>
    rcases hnoted hreplayed with hold | ⟨rfl, rfl⟩
    · exact Or.inl hold
    · refine Or.inr (sealed_of_still hsound ((horderly token familyId counting).2 absent) (fun id row hrow hfamily => ?_)
        rfl rfl ⟨token, Or.inl counting⟩)
      exact fun hactive => absent ⟨row, Table.mem_of_find? hrow, hfamily, hactive⟩
  | @countFailed c family token replay now tick counting =>
    rcases hnoted hreplayed with hold | ⟨rfl, rfl⟩
    · exact Or.inl hold
    · exact absurd (horderly token familyId counting).1 (by decide)
  | @purge c family token replay outcome now tick purging carried =>
    rcases hnoted hreplayed with hold | ⟨rfl, rfl⟩
    · exact Or.inl hold
    · refine Or.inr (sealed_of_still hsound (horderly token familyId purging).2 (fun id row hrow hfamily => ?_) rfl rfl
        ⟨token, Or.inr purging⟩)
      exact not_active_purged hrow hfamily
  | @purgeFailed c family token replay now tick purging =>
    rcases hnoted hreplayed with hold | ⟨rfl, rfl⟩
    · exact Or.inl hold
    · exact absurd rfl (horderly token familyId purging).1
  | refuseSigned _ _ _ _ _ => exact Or.inl (hnil hreplayed)
  | rotateLost _ _ => exact Or.inl (hnil hreplayed)
  | rotateFailed _ _ => exact Or.inl (hnil hreplayed)
  | _ => exact Or.inl hreplayed

/-! ## Runs -/

structure Kept (s : TokenState) : Prop where
  sound : s.Sound
  single : s.Single
  replayed : ∀ familyId ∈ s.replayed, s.Sealed familyId

theorem Step.kept (h : Guarded k.Step Orderly s a t) (hs : Kept s) : Kept t where
  sound := h.1.sound hs.sound
  single := Step.single h hs.sound hs.single
  replayed familyId hfamily := by
    rcases Step.sealed_of_replayed h hs.sound hfamily with hold | hsealed
    · exact Step.sealed h hs.sound (hs.replayed familyId hold)
    · exact hsealed

theorem kept_init : Kept {} where
  sound := sound_init
  single := by
    constructor
    · rintro c id (⟨creation, h | h, -⟩ | ⟨pair, h⟩) <;> cases h
    · rintro c other id (⟨creation, h | h, -⟩ | ⟨pair, h⟩) <;> cases h
  replayed _ h := nomatch h

theorem refreshed_of_run (run : Run (Guarded k.Step Orderly) s as t) (hs : Kept s) (hsealed : s.Sealed familyId) :
    ∀ c id, t.FamilyOf id familyId → t.Refreshed c id → s.Refreshed c id := by
  have hkeep := run.invariant
    (I := fun u => Kept u ∧ u.Sealed familyId ∧ ∀ c id, u.FamilyOf id familyId → u.Refreshed c id → s.Refreshed c id)
    (fun u a v hu h => ⟨Step.kept h hu.1, Step.sealed h hu.1.sound hu.2.1, fun c id hfamily hrefreshed => ?_⟩)
    ⟨hs, hsealed, fun _ _ _ h => h⟩
  · exact hkeep.2.2
  · have hold := Step.refreshed h.1 hu.1.sound hu.2.1 hfamily hrefreshed
    exact hu.2.2 c id (familyOf_of_refreshed h.1 hu.1.sound hu.1.single hfamily hold) hold

/-! ## The result -/

def devService : RefreshService := ⟨TokenService.pyJwt, {}, 30 * second, fun _ => 0⟩

def someUser : UserRow := ⟨none, none, "student", none⟩

def signIn (c : ℕ) : List (TokenAct × ℤ) :=
  [(.login c { sub := "u" }, 0), (.create c "a" "r", 0), (.insert c .done "a" "r", 0)]

/-- The replay comes when the successor is stored. -/
def replayAfter : List (TokenAct × ℤ) :=
  signIn 0 ++ [(.present 1 (.stored 0) "a" "r", 0), (.lookup 1 true someUser, 0), (.rotate 1 .done, 0),
    (.create 1 "a" "r", 0), (.insert 1 .done "a" "r", 0), (.present 2 (.stored 0) "a" "r", 0),
    (.lookup 2 true someUser, 0), (.count 2 true, 0), (.purge 2 .done, 0)]

theorem orderly_lookup {user : UserRow} {now : ℤ} : s.Orderly (.lookup c true user, now) := fun _ _ _ _ _ => rfl

theorem orderly_rotate {row : RefreshRow} {identity : Identity} {outcome : Outcome} {now : ℤ}
    (hstage : s.stage c = .rotating row identity) (halive : s.Alive row.id) : s.Orderly (.rotate c outcome, now) := by
  intro other _ hother _
  rw [hstage] at hother
  cases hother
  exact halive

theorem orderly_count {token : RefreshToken} {replay : Bool} {now : ℤ}
    (hstage : s.stage c = .counting token familyId replay) (hactive : s.ActiveIn familyId) :
    s.Orderly (.count c true, now) := by
  intro _ other hother
  rw [hstage] at hother
  cases hother
  exact ⟨rfl, fun habsent => absurd hactive habsent⟩

theorem orderly_purge {token : RefreshToken} {replay : Bool} {outcome : Outcome} {now : ℤ}
    (hstage : s.stage c = .purging token familyId replay) (hcarried : outcome ≠ .failed) (hstill : s.Still familyId) :
    s.Orderly (.purge c outcome, now) := by
  intro _ other hother
  rw [hstage] at hother
  cases hother
  exact ⟨hcarried, hstill⟩

theorem run_replayAfter :
    ∃ s, Run (Guarded devService.Step Orderly) {} replayAfter s ∧ s.Refreshed 1 0 ∧ 0 ∈ s.replayed := by
  refine ⟨_, .cons ⟨.login le_rfl rfl, trivial⟩ (.cons ⟨.proceed le_rfl rfl (by decide), trivial⟩
    (.cons ⟨.insert le_rfl rfl, trivial⟩ (.cons ⟨.presentStored le_rfl rfl, trivial⟩
    (.cons ⟨.lookup le_rfl rfl, orderly_lookup⟩ (.cons ⟨.rotate le_rfl rfl, orderly_rotate rfl ⟨_, rfl, rfl⟩⟩
    (.cons ⟨.proceed le_rfl rfl (by decide), trivial⟩ (.cons ⟨.insert le_rfl rfl, trivial⟩
    (.cons ⟨.presentStored le_rfl rfl, trivial⟩ (.cons ⟨.lookup le_rfl rfl, orderly_lookup⟩
    (.cons ⟨.count le_rfl rfl (by decide), orderly_count rfl (by decide)⟩
    (.single ⟨.purge le_rfl rfl (by decide), orderly_purge rfl (by decide) fun c creation h => ?_⟩))))))))))), ⟨_, rfl⟩,
    List.mem_singleton.2 rfl⟩
  rcases c with _ | _ | _ | c <;> rcases h with h | h <;> cases h

/-- In an orderly run a stored token gives one pair at most, and none once a replay of its family has returned. -/
theorem single_use (run : Run (Guarded k.Step Orderly) {} as s) :
    (∀ c other id, s.Refreshed c id → s.Refreshed other id → c = other) ∧
      ∀ familyId ∈ s.replayed, ∀ bs t, Run (Guarded k.Step Orderly) s bs t →
        ∀ c id, t.FamilyOf id familyId → t.Refreshed c id → s.Refreshed c id := by
  have hkept : Kept s := run.invariant (fun _ _ _ hs h => Step.kept h hs) kept_init
  constructor
  · intro c other id h h'
    exact hkept.single.once c other id (Or.inr h) (Or.inr h')
  · intro familyId hfamily bs t hrun
    exact refreshed_of_run hrun hkept (hkept.replayed familyId hfamily)

theorem single_use_replayAfter :
    ∃ s, s.Refreshed 1 0 ∧ 0 ∈ s.replayed ∧ (∀ c other id, s.Refreshed c id → s.Refreshed other id → c = other) ∧
      ∀ familyId ∈ s.replayed, ∀ bs t, Run (Guarded devService.Step Orderly) s bs t →
        ∀ c id, t.FamilyOf id familyId → t.Refreshed c id → s.Refreshed c id := by
  obtain ⟨s, run, hrefreshed, hreplayed⟩ := run_replayAfter
  exact ⟨s, hrefreshed, hreplayed, single_use run⟩

/-- Both calls read the row before either revokes it. -/
def twoRefreshes : List (TokenAct × ℤ) :=
  signIn 0 ++ [(.present 1 (.stored 0) "a" "r", 0), (.present 2 (.stored 0) "a" "r", 0), (.lookup 1 true someUser, 0),
    (.lookup 2 true someUser, 0), (.rotate 1 .done, 0), (.rotate 2 .done, 0), (.create 1 "a" "r", 0),
    (.insert 1 .done "a" "r", 0), (.create 2 "a" "r", 0), (.insert 2 .done "a" "r", 0)]

/-- The replay counts while the successor is not stored yet. -/
def replayDuring : List (TokenAct × ℤ) :=
  signIn 0 ++ [(.present 1 (.stored 0) "a" "r", 0), (.lookup 1 true someUser, 0), (.rotate 1 .done, 0),
    (.present 2 (.stored 0) "a" "r", 0), (.lookup 2 true someUser, 0), (.count 2 true, 0)]

/-- One token gives two pairs, and a family gives a pair after its replay. -/
theorem used_twice :
    (∃ s, Run devService.Step {} twoRefreshes s ∧ s.Refreshed 1 0 ∧ s.Refreshed 2 0) ∧
      ∃ s t bs, Run devService.Step {} replayDuring s ∧ 0 ∈ s.replayed ∧ ¬ s.Refreshed 1 0 ∧
        Run devService.Step s bs t ∧ t.FamilyOf 0 0 ∧ t.Refreshed 1 0 := by
  constructor
  · refine ⟨_, .cons (.login le_rfl rfl) (.cons (.proceed le_rfl rfl (by decide)) (.cons (.insert le_rfl rfl)
      (.cons (.presentStored le_rfl rfl) (.cons (.presentStored le_rfl rfl) (.cons (.lookup le_rfl rfl)
      (.cons (.lookup le_rfl rfl) (.cons (.rotate le_rfl rfl) (.cons (.rotate le_rfl rfl)
      (.cons (.proceed le_rfl rfl (by decide)) (.cons (.insert le_rfl rfl) (.cons (.proceed le_rfl rfl (by decide))
      (.single (.insert le_rfl rfl))))))))))))), ⟨_, rfl⟩, ⟨_, rfl⟩⟩
  · refine ⟨_, _, [(.create 1 "a" "r", 0), (.insert 1 .done "a" "r", 0)],
      .cons (.login le_rfl rfl) (.cons (.proceed le_rfl rfl (by decide)) (.cons (.insert le_rfl rfl)
        (.cons (.presentStored le_rfl rfl) (.cons (.lookup le_rfl rfl) (.cons (.rotate le_rfl rfl)
        (.cons (.presentStored le_rfl rfl) (.cons (.lookup le_rfl rfl)
        (.single (.countNone le_rfl rfl (by decide)))))))))),
      List.mem_singleton.2 rfl, fun ⟨_, h⟩ => (nomatch h),
      .cons (.proceed le_rfl rfl (by decide)) (.single (.insert le_rfl rfl)), ⟨_, rfl, rfl⟩, ⟨_, rfl⟩⟩

end RefreshService

end Wiii.Auth
