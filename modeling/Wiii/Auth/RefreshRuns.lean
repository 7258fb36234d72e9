import Wiii.Auth.Refresh

/-!
# What a step does to the refresh tokens

A step changes the table in one of two ways (`Step.rows`), and it moves one call at most (`Step.moves`).  Every call
that is about to issue a token knows the row that it rotates (`Sound`).
-/

namespace Wiii.Auth

open Function (update update_self update_of_ne)

/-! ## The table -/

structure RefreshRow.Becomes (old new : RefreshRow) : Prop where
  family : new.familyId = old.familyId
  chain : new.chain = old.chain
  user : new.userId = old.userId
  active : new.Active → old.Active

theorem RefreshRow.Becomes.refl (row : RefreshRow) : row.Becomes row := ⟨rfl, rfl, rfl, fun h => h⟩

theorem RefreshRow.becomes_revoke (row : RefreshRow) (now : ℤ) : row.Becomes (row.revoke now) :=
  ⟨rfl, rfl, rfl, fun h => (nomatch h)⟩

theorem RefreshRow.becomes_rotate (row : RefreshRow) (now : ℤ) : row.Becomes (row.rotate now) :=
  ⟨rfl, rfl, rfl, fun h => (nomatch h)⟩

namespace TokenState

variable {s t : TokenState} {id familyId : ℕ}

structure Mapped (s t : TokenState) : Prop where
  rows : ∀ id, Option.Rel RefreshRow.Becomes (s.rows.find? id) (t.rows.find? id)
  nextId : t.nextId = s.nextId
  nextFamily : t.nextFamily = s.nextFamily

theorem Mapped.of_rows (hrows : t.rows = s.rows) (hid : t.nextId = s.nextId) (hfamily : t.nextFamily = s.nextFamily) :
    s.Mapped t := by
  refine ⟨fun id => ?_, hid, hfamily⟩
  rw [hrows]
  cases s.rows.find? id with
  | none => exact Option.Rel.none
  | some row => exact Option.Rel.some (RefreshRow.Becomes.refl row)

theorem rel_updateWhere {rows : Table RefreshRow.id} {p : RefreshRow → Bool} {f : RefreshRow → RefreshRow}
    (hf : ∀ row, (f row).id = row.id) (hbecomes : ∀ row : RefreshRow, row.Becomes (f row)) (id : ℕ) :
    Option.Rel RefreshRow.Becomes (rows.find? id) ((rows.updateWhere p f hf).find? id) := by
  rw [Table.find?_updateWhere]
  cases rows.find? id with
  | none => exact Option.Rel.none
  | some row =>
    rw [Option.map_some]
    apply Option.Rel.some
    split
    · exact hbecomes row
    · exact RefreshRow.Becomes.refl row

def Has (s : TokenState) (id : ℕ) (familyId : Option ℕ) (chain : ℕ) (userId : String) : Prop :=
  ∃ row, s.rows.find? id = some row ∧ row.familyId = familyId ∧ row.chain = chain ∧ row.userId = userId

def Dead (s : TokenState) (id : ℕ) : Prop := ∃ row, s.rows.find? id = some row ∧ ¬ row.Active

structure Keeps (s t : TokenState) : Prop where
  row : ∀ id row, s.rows.find? id = some row → ∃ new, t.rows.find? id = some new ∧ row.Becomes new
  nextFamily : s.nextFamily ≤ t.nextFamily

theorem Keeps.has (h : s.Keeps t) {familyId : Option ℕ} {chain : ℕ} {userId : String}
    (hs : s.Has id familyId chain userId) : t.Has id familyId chain userId := by
  obtain ⟨row, hrow, rfl, rfl, rfl⟩ := hs
  obtain ⟨new, hnew, hbecomes⟩ := h.row id row hrow
  exact ⟨new, hnew, hbecomes.family, hbecomes.chain, hbecomes.user⟩

theorem Keeps.dead (h : s.Keeps t) (hs : s.Dead id) : t.Dead id := by
  obtain ⟨row, hrow, hdead⟩ := hs
  obtain ⟨new, hnew, hbecomes⟩ := h.row id row hrow
  exact ⟨new, hnew, fun hactive => hdead (hbecomes.active hactive)⟩

theorem Mapped.keeps (h : s.Mapped t) : s.Keeps t := by
  refine ⟨fun id row hrow => ?_, h.nextFamily.ge⟩
  have hrel := h.rows id
  rw [hrow] at hrel
  cases hfound : t.rows.find? id with
  | none =>
    rw [hfound] at hrel
    cases hrel
  | some new =>
    rw [hfound] at hrel
    cases hrel with
    | some hbecomes => exact ⟨new, rfl, hbecomes⟩

theorem Mapped.exists_row (h : s.Mapped t) {row : RefreshRow} (hrow : t.rows.find? id = some row) :
    ∃ old, s.rows.find? id = some old ∧ old.Becomes row := by
  have hrel := h.rows id
  rw [hrow] at hrel
  cases hfound : s.rows.find? id with
  | none =>
    rw [hfound] at hrel
    cases hrel
  | some old =>
    rw [hfound] at hrel
    cases hrel with
    | some hbecomes => exact ⟨old, rfl, hbecomes⟩

end TokenState

/-! ## The calls -/

namespace CallStage

def Creates (stage : CallStage) (creation : Creation) : Prop := stage = .creating creation ∨ stage = .inserting creation

def Sweeps (stage : CallStage) (familyId : ℕ) (replay : Bool) : Prop :=
  ∃ token, stage = .counting token familyId replay ∨ stage = .purging token familyId replay

def Quiet : CallStage → Prop
  | .creating _ | .inserting _ | .counting _ _ _ | .purging _ _ _ | .rotating _ _ | .returned _ (some _) => False
  | _ => True

def Open : CallStage → Prop
  | .returned _ _ => False
  | _ => True

end CallStage

namespace RefreshService

theorem open_of_eq {stage known : CallStage} (h : stage = known) (hopen : known.Open) : stage.Open := h ▸ hopen

variable {k : RefreshService} {s t : TokenState} {a : TokenAct × ℤ} {c : ℕ}

inductive Move (s t : TokenState) (a : TokenAct × ℤ) (c : ℕ) : CallStage → Prop
  | quiet {stage : CallStage} (quiet : stage.Quiet) : Move s t a c stage
  | login (identity : Identity) : Move s t a c (.creating ⟨identity, none, none, c⟩)
  | proceed {creation : Creation} (creating : s.stage c = .creating creation) : Move s t a c (.inserting creation)
  | issue {creation : Creation} {pair : TokenPair} (creates : (s.stage c).Creates creation) :
    Move s t a c (.returned creation.cause (some pair))
  | signed {claims : Claims} {chain : ℕ} {pair : TokenPair} (issued : (claims, chain) ∈ s.signed)
      (live : a.2 < claims.exp * second) : Move s t a c (.returned (.refresh (.signed claims chain)) (some pair))
  | rotating {id : ℕ} {row : RefreshRow} (user : UserRow) (found : s.rows.find? id = some row) (active : row.Active) :
    Move s t a c (.rotating row (row.identity user))
  | counting {id familyId : ℕ} {token : RefreshToken} {row : RefreshRow} (found : s.rows.find? id = some row)
      (family : row.familyId = some familyId) : Move s t a c (.counting token familyId row.rotated)
  | purging {token : RefreshToken} {familyId : ℕ} {replay : Bool}
      (counting : s.stage c = .counting token familyId replay) : Move s t a c (.purging token familyId replay)
  | create {row : RefreshRow} {identity : Identity} (rotating : s.stage c = .rotating row identity)
      (act : a.1 = .rotate c .done) (rows : t.rows = (s.rotated row.id a.2).rows) :
    Move s t a c (.creating ⟨identity, row.familyId, some row.id, row.chain⟩)

theorem move_afterLookup {token : RefreshToken} {now : ℤ} {user : UserRow} :
    Move s t a c (s.afterLookup token now user) := by
  unfold TokenState.afterLookup
  cases token with
  | signed _ _ => exact .quiet trivial
  | stored id =>
    cases hrow : s.rows.find? id with
    | none =>
      simp only [TokenState.row, hrow]
      exact .quiet trivial
    | some row =>
      simp only [TokenState.row, hrow]
      split
      · rename_i hactive
        split
        · exact .quiet trivial
        · exact .rotating user hrow hactive
      · split
        · rename_i familyId hfamily
          exact .counting hrow hfamily
        · exact .quiet trivial

theorem live_of_decodeStateless {claims payload : Claims} {now : ℤ}
    (h : decodeStatelessRefreshPayload k.jwt k.settings claims now = some payload) : now < claims.exp * second := by
  unfold decodeStatelessRefreshPayload at h
  split at h
  · cases h
  · rename_i decoded hdecoded
    exact (decodeClaims_eq_ok.1 hdecoded).2.2

theorem Step.moves (h : k.Step s a t) :
    t.stage = s.stage ∨ ∃ c stage, t.stage = update s.stage c stage ∧ Move s t a c stage ∧ (s.stage c).Open := by
  cases h with
  | @login c identity _ _ idle => exact Or.inr ⟨c, _, rfl, .login identity, open_of_eq idle trivial⟩
  | @degrade c _ _ _ _ _ creating _ =>
    exact Or.inr ⟨c, _, rfl, .issue (Or.inl creating), open_of_eq creating trivial⟩
  | @proceed c _ _ _ _ _ creating _ => exact Or.inr ⟨c, _, rfl, .proceed creating, open_of_eq creating trivial⟩
  | @insert c _ _ _ _ _ inserting =>
    exact Or.inr ⟨c, _, rfl, .issue (Or.inr inserting), open_of_eq inserting trivial⟩
  | @insertFailed c _ _ _ _ _ inserting =>
    exact Or.inr ⟨c, _, rfl, .issue (Or.inr inserting), open_of_eq inserting trivial⟩
  | @insertLost c _ _ _ _ _ inserting =>
    exact Or.inr ⟨c, _, rfl, .issue (Or.inr inserting), open_of_eq inserting trivial⟩
  | @presentStored c _ _ _ _ _ idle => exact Or.inr ⟨c, _, rfl, .quiet trivial, open_of_eq idle trivial⟩
  | @presentSigned c _ _ _ _ _ _ _ idle issued decoded _ =>
    exact Or.inr ⟨c, _, rfl, .signed issued (live_of_decodeStateless decoded), open_of_eq idle trivial⟩
  | @refuseSigned c _ _ _ _ _ _ _ idle _ _ _ => exact Or.inr ⟨c, _, rfl, .quiet trivial, open_of_eq idle trivial⟩
  | @presentDead c _ _ _ _ _ _ idle _ _ => exact Or.inr ⟨c, _, rfl, .quiet trivial, open_of_eq idle trivial⟩
  | @lookup c _ _ _ _ looking => exact Or.inr ⟨c, _, rfl, move_afterLookup, open_of_eq looking trivial⟩
  | @lookupFailed c _ _ _ _ looking => exact Or.inr ⟨c, _, rfl, .quiet trivial, open_of_eq looking trivial⟩
  | @count c _ _ _ _ _ counting _ => exact Or.inr ⟨c, _, rfl, .purging counting, open_of_eq counting trivial⟩
  | @countNone c _ _ _ _ _ counting _ => exact Or.inr ⟨c, _, rfl, .quiet trivial, open_of_eq counting trivial⟩
  | @countFailed c _ _ _ _ _ counting => exact Or.inr ⟨c, _, rfl, .quiet trivial, open_of_eq counting trivial⟩
  | @purge c _ _ _ _ _ _ purging _ => exact Or.inr ⟨c, _, rfl, .quiet trivial, open_of_eq purging trivial⟩
  | @purgeFailed c _ _ _ _ _ purging => exact Or.inr ⟨c, _, rfl, .quiet trivial, open_of_eq purging trivial⟩
  | @rotate c _ _ _ _ rotating => exact Or.inr ⟨c, _, rfl, .create rotating rfl rfl, open_of_eq rotating trivial⟩
  | @rotateLost c _ _ _ _ rotating => exact Or.inr ⟨c, _, rfl, .quiet trivial, open_of_eq rotating trivial⟩
  | @rotateFailed c _ _ _ _ rotating => exact Or.inr ⟨c, _, rfl, .quiet trivial, open_of_eq rotating trivial⟩
  | @logout c _ _ _ idle => exact Or.inr ⟨c, _, rfl, .quiet trivial, open_of_eq idle trivial⟩
  | @revokeAll c _ _ _ _ revoking _ => exact Or.inr ⟨c, _, rfl, .quiet trivial, open_of_eq revoking trivial⟩
  | @revokeAllFailed c _ _ _ revoking => exact Or.inr ⟨c, _, rfl, .quiet trivial, open_of_eq revoking trivial⟩
  | outage _ => exact Or.inl rfl

structure Inserts (k : RefreshService) (s t : TokenState) (a : TokenAct × ℤ) (c : ℕ) (creation : Creation) : Prop where
  inserting : s.stage c = .inserting creation
  rows : t.rows = s.rows.upsert (s.newRow k.settings creation a.2)
  nextId : t.nextId = s.nextId + 1
  nextFamily : t.nextFamily = s.nextFamily + 1
  logins : t.logins = (s.withLogin creation).logins

theorem Step.rows (h : k.Step s a t) : s.Mapped t ∨ ∃ c creation, k.Inserts s t a c creation := by
  cases h with
  | @insert c creation _ _ _ _ inserting => exact Or.inr ⟨c, creation, inserting, rfl, rfl, rfl, rfl⟩
  | @insertLost c creation _ _ _ _ inserting => exact Or.inr ⟨c, creation, inserting, rfl, rfl, rfl, rfl⟩
  | @purge c familyId _ _ _ now _ _ _ =>
    exact Or.inl ⟨TokenState.rel_updateWhere (RefreshRow.id_revoke now) fun row => row.becomes_revoke now, rfl, rfl⟩
  | @rotate c row _ now _ _ =>
    exact Or.inl ⟨TokenState.rel_updateWhere (RefreshRow.id_rotate now) fun row => row.becomes_rotate now, rfl, rfl⟩
  | @rotateLost c row _ now _ _ =>
    exact Or.inl ⟨TokenState.rel_updateWhere (RefreshRow.id_rotate now) fun row => row.becomes_rotate now, rfl, rfl⟩
  | @revokeAll c _ _ now _ _ _ =>
    exact Or.inl ⟨TokenState.rel_updateWhere (RefreshRow.id_revoke now) fun row => row.becomes_revoke now, rfl, rfl⟩
  | _ => exact Or.inl (TokenState.Mapped.of_rows rfl rfl rfl)

/-- The pair that a step hands out, for its creation or for a signed token. -/
inductive Hands (s t : TokenState) (a : TokenAct × ℤ) : Prop
  | quiet (signed : t.signed = s.signed) (logins : t.logins = s.logins)
  | issue {c : ℕ} {creation : Creation} {pair : TokenPair} (creates : (s.stage c).Creates creation)
      (stage : t.stage = update s.stage c (.returned creation.cause (some pair)))
      (signed : t.signed = s.signed ∨
        ∃ claims : Claims, claims.identity = creation.identity ∧ t.signed = s.signed ++ [(claims, creation.chain)])
      (logins : t.logins = (s.withLogin creation).logins)
  | renew {claims renewed : Claims} {chain : ℕ} (issued : (claims, chain) ∈ s.signed) (live : a.2 < claims.exp * second)
      (user : renewed.identity.sub = claims.identity.sub) (signed : t.signed = s.signed ++ [(renewed, chain)])
      (logins : t.logins = s.logins)

theorem payload_of_decodeStateless {claims payload : Claims} {now : ℤ}
    (h : decodeStatelessRefreshPayload k.jwt k.settings claims now = some payload) : payload = claims := by
  unfold decodeStatelessRefreshPayload at h
  split at h
  · cases h
  · rename_i decoded hdecoded
    split at h
    · cases h
    · cases h
      exact (decodeClaims_eq_ok.1 hdecoded).1

theorem Step.hands (h : k.Step s a t) : Hands s t a := by
  cases h with
  | degrade _ creating _ => exact .issue (Or.inl creating) rfl (Or.inr ⟨_, rfl, rfl⟩) rfl
  | insert _ inserting => exact .issue (Or.inr inserting) rfl (Or.inl rfl) rfl
  | insertFailed _ inserting => exact .issue (Or.inr inserting) rfl (Or.inr ⟨_, rfl, rfl⟩) rfl
  | insertLost _ inserting => exact .issue (Or.inr inserting) rfl (Or.inr ⟨_, rfl, rfl⟩) rfl
  | presentSigned _ _ issued decoded _ =>
    refine .renew issued (live_of_decodeStateless decoded) ?_ rfl rfl
    rw [payload_of_decodeStateless decoded]
    rfl
  | _ => exact .quiet rfl rfl

theorem Step.tick (h : k.Step s a t) : s.clock ≤ a.2 ∧ t.clock = a.2 := by
  cases h <;> exact ⟨by assumption, rfl⟩

end RefreshService

/-! ## What a call knows -/

namespace TokenState

/-- A login creates the first token of its chain; a refresh goes on from a row that is there. -/
def Parent (s : TokenState) (c : ℕ) (creation : Creation) : Prop :=
  (creation.parent = none ∧ creation.familyId = none ∧ creation.chain = c) ∨
    ∃ id, creation.parent = some id ∧ s.Has id creation.familyId creation.chain creation.identity.sub

def StageSound (s : TokenState) (c : ℕ) : CallStage → Prop
  | .creating creation | .inserting creation => s.Parent c creation
  | .counting _ familyId _ | .purging _ familyId _ => familyId < s.nextFamily
  | .rotating row identity => s.Has row.id row.familyId row.chain row.userId ∧ identity.sub = row.userId
  | _ => True

structure Sound (s : TokenState) : Prop where
  ids : ∀ id row, s.rows.find? id = some row → id < s.nextId
  families : ∀ id row familyId, s.rows.find? id = some row → row.familyId = some familyId → familyId < s.nextFamily
  calls : ∀ c, s.StageSound c (s.stage c)

variable {s t : TokenState} {c : ℕ} {stage : CallStage} {creation : Creation}

theorem Keeps.parent (h : s.Keeps t) (hs : s.Parent c creation) : t.Parent c creation := by
  rcases hs with hlogin | ⟨id, hparent, hhas⟩
  · exact Or.inl hlogin
  · exact Or.inr ⟨id, hparent, h.has hhas⟩

theorem Keeps.stageSound (h : s.Keeps t) (hs : s.StageSound c stage) : t.StageSound c stage := by
  cases stage with
  | creating creation => exact h.parent hs
  | inserting creation => exact h.parent hs
  | counting _ _ _ => exact lt_of_lt_of_le hs h.nextFamily
  | purging _ _ _ => exact lt_of_lt_of_le hs h.nextFamily
  | rotating _ _ => exact ⟨h.has hs.1, hs.2⟩
  | _ => trivial

theorem StageSound.of_creates (h : s.StageSound c stage) (hcreates : stage.Creates creation) : s.Parent c creation := by
  rcases hcreates with rfl | rfl
  · exact h
  · exact h

end TokenState

namespace RefreshService

open TokenState

variable {k : RefreshService} {s t : TokenState} {a : TokenAct × ℤ} {c : ℕ} {creation : Creation} {stage : CallStage}

theorem Inserts.family_lt (h : k.Inserts s t a c creation) (hs : s.Sound) : creation.familyId.getD s.nextFamily < t.nextFamily := by
  rw [h.nextFamily]
  have hcall := hs.calls c
  rw [h.inserting] at hcall
  rcases hcall with ⟨-, hnone, -⟩ | ⟨id, -, row, hrow, hfamily, -⟩
  · rw [hnone, Option.getD_none]
    omega
  · cases hsome : creation.familyId with
    | none =>
      rw [Option.getD_none]
      omega
    | some familyId =>
      rw [Option.getD_some]
      have := hs.families id row familyId hrow (hfamily.trans hsome)
      omega

theorem Inserts.find? (h : k.Inserts s t a c creation) (id : ℕ) :
    t.rows.find? id = if id = s.nextId then some (s.newRow k.settings creation a.2) else s.rows.find? id := by
  rw [h.rows, Table.find?_upsert]
  rfl

theorem Step.keeps (h : k.Step s a t) (hs : s.Sound) : s.Keeps t := by
  rcases h.rows with hmapped | ⟨c, creation, hinserts⟩
  · exact hmapped.keeps
  · refine ⟨fun id row hrow => ⟨row, ?_, RefreshRow.Becomes.refl row⟩, ?_⟩
    · have hid := hs.ids id row hrow
      rw [hinserts.find?, if_neg (by omega)]
      exact hrow
    · rw [hinserts.nextFamily]
      omega

theorem Move.sound (h : Move s t a c stage) (hs : s.Sound) : s.StageSound c stage := by
  cases h with
  | quiet hquiet =>
    cases stage with
    | creating _ => exact hquiet.elim
    | inserting _ => exact hquiet.elim
    | counting _ _ _ => exact hquiet.elim
    | purging _ _ _ => exact hquiet.elim
    | rotating _ _ => exact hquiet.elim
    | _ => trivial
  | login identity => exact Or.inl ⟨rfl, rfl, rfl⟩
  | proceed creating =>
    have hcall := hs.calls c
    rw [creating] at hcall
    exact hcall
  | issue _ => trivial
  | signed _ _ => trivial
  | @rotating id row user found _ =>
    rw [← Table.key_of_find? found] at found
    exact ⟨⟨row, found, rfl, rfl, rfl⟩, rfl⟩
  | counting found family => exact hs.families _ _ _ found family
  | purging counting =>
    have hcall := hs.calls c
    rw [counting] at hcall
    exact hcall
  | @create row identity rotating _ _ =>
    have hcall := hs.calls c
    rw [rotating] at hcall
    obtain ⟨hhas, hsub⟩ := hcall
    exact Or.inr ⟨row.id, rfl, hsub ▸ hhas⟩

theorem Step.sound (h : k.Step s a t) (hs : s.Sound) : t.Sound := by
  have hkeeps := h.keeps hs
  have hcalls : ∀ c, t.StageSound c (t.stage c) := by
    intro c
    rcases h.moves with hstage | ⟨moved, stage, hstage, hmove, -⟩
    · rw [hstage]
      exact hkeeps.stageSound (hs.calls c)
    · rw [hstage]
      by_cases hc : c = moved
      · rw [hc, update_self]
        exact hkeeps.stageSound (hmove.sound hs)
      · rw [update_of_ne hc]
        exact hkeeps.stageSound (hs.calls c)
  rcases h.rows with hmapped | ⟨c, creation, hinserts⟩
  · refine ⟨fun id row hrow => ?_, fun id row familyId hrow hfamily => ?_, hcalls⟩
    · obtain ⟨old, hold, -⟩ := hmapped.exists_row hrow
      rw [hmapped.nextId]
      exact hs.ids id old hold
    · obtain ⟨old, hold, hbecomes⟩ := hmapped.exists_row hrow
      rw [hmapped.nextFamily]
      exact hs.families id old familyId hold (hbecomes.family ▸ hfamily)
  · refine ⟨fun id row hrow => ?_, fun id row familyId hrow hfamily => ?_, hcalls⟩
    · rw [hinserts.nextId]
      rw [hinserts.find?] at hrow
      split at hrow
      · omega
      · have := hs.ids id row hrow
        omega
    · rw [hinserts.find?] at hrow
      split at hrow
      · cases hrow
        cases hfamily
        exact hinserts.family_lt hs
      · have := hs.families id row familyId hrow hfamily
        rw [hinserts.nextFamily]
        omega

theorem sound_init : ({} : TokenState).Sound where
  ids _ _ h := nomatch h
  families _ _ _ h := nomatch h
  calls _ := trivial

end RefreshService

end Wiii.Auth
