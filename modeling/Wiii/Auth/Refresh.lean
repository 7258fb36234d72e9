import Wiii.Auth.Tokens
import Wiii.Lib.Run

/-!
# Refresh tokens

The table of refresh tokens, and the calls that work on it, statement by statement, from any number of server processes.
A statement may be carried out, fail, or fail after it was carried out.  While the database is in its cooldown, and
where an insert fails, the refresh token of a pair is a signed one that no row stands for.
-/

namespace Wiii.Auth

open Function (update update_self update_of_ne)

/-- Stored under its hash, which stands for it here, or signed; `chain` is the login that a signed one descends from. -/
inductive RefreshToken where
  | stored (id : ℕ)
  | signed (claims : Claims) (chain : ℕ)
  deriving DecidableEq

structure TokenPair where
  accessToken : Claims
  refreshToken : RefreshToken
  expiresIn : ℤ
  deriving DecidableEq

structure IdentitySnapshot where
  role : Option String
  platformRole : Option String
  organizationRole : Option String
  hostRole : Option String
  roleSource : Option String
  activeOrganizationId : Option String
  connectorId : Option String
  identityVersion : Option String

/-- `_build_identity_snapshot`. -/
def buildIdentitySnapshot (identity : Identity) : IdentitySnapshot :=
  ⟨some identity.role, identity.platformRole, identity.organizationRole, identity.hostRole, identity.roleSource,
    identity.activeOrganizationId, identity.connectorId, identity.identityVersion⟩

/-- `chain` is the login it descends from and `rotated` says that a refresh revoked it; neither is a column. -/
structure RefreshRow where
  id : ℕ
  userId : String
  authMethod : String
  organizationId : Option String
  snapshot : IdentitySnapshot
  familyId : Option ℕ
  expiresAt : ℤ
  revokedAt : Option ℤ := none
  chain : ℕ
  rotated : Bool := false

namespace RefreshRow

def Active (row : RefreshRow) : Prop := row.revokedAt = none

instance (row : RefreshRow) : Decidable row.Active := inferInstanceAs (Decidable (_ = _))

def revoke (now : ℤ) (row : RefreshRow) : RefreshRow := { row with revokedAt := some now }

def rotate (now : ℤ) (row : RefreshRow) : RefreshRow := { row with revokedAt := some now, rotated := true }

theorem id_revoke (now : ℤ) (row : RefreshRow) : (row.revoke now).id = row.id := rfl

theorem id_rotate (now : ℤ) (row : RefreshRow) : (row.rotate now).id = row.id := rfl

end RefreshRow

/-- The columns of `users` that are joined in; rows of `refresh_tokens` go with their user. -/
structure UserRow where
  email : Option String
  name : Option String
  role : String
  platformRole : Option String

def orGoogle (authMethod : String) : String := if authMethod = "" then "google" else authMethod

def RefreshRow.identity (row : RefreshRow) (user : UserRow) : Identity where
  sub := row.userId
  email := user.email
  name := user.name
  role := row.snapshot.role.getD user.role
  platformRole := row.snapshot.platformRole.or user.platformRole
  organizationRole := row.snapshot.organizationRole
  hostRole := row.snapshot.hostRole
  roleSource := row.snapshot.roleSource
  activeOrganizationId := row.snapshot.activeOrganizationId.or row.organizationId
  connectorId := row.snapshot.connectorId
  identityVersion := row.snapshot.identityVersion
  authMethod := orGoogle row.authMethod

/-- A call of `create_token_pair`, for a login or for the rotation of `parent`. -/
structure Creation where
  identity : Identity
  familyId : Option ℕ
  parent : Option ℕ
  chain : ℕ

inductive Cause where
  | login
  | refresh (token : RefreshToken)

def Creation.cause (creation : Creation) : Cause :=
  match creation.parent with
  | none => .login
  | some id => .refresh (.stored id)

/-- A login starts a chain when its pair is issued. -/
def Creation.begun (creation : Creation) : List (ℕ × String) :=
  match creation.parent with
  | none => [(creation.chain, creation.identity.sub)]
  | some _ => []

/-- Where a call stands.  `replay` says that its lookup found a rotated token. -/
inductive CallStage where
  | idle
  | creating (creation : Creation)
  | inserting (creation : Creation)
  | looking (token : RefreshToken)
  | counting (token : RefreshToken) (familyId : ℕ) (replay : Bool)
  | purging (token : RefreshToken) (familyId : ℕ) (replay : Bool)
  | rotating (row : RefreshRow) (identity : Identity)
  | returned (cause : Cause) (pair : Option TokenPair)
  | revoking (userId : String)
  | loggedOut (userId : String) (done : Bool)

/-- How a statement ends; a lost one was carried out although it failed. -/
inductive Outcome where
  | done
  | failed
  | lost
  deriving DecidableEq

inductive TokenAct where
  | login (call : ℕ) (identity : Identity)
  | create (call : ℕ) (accessJti refreshJti : String)
  | insert (call : ℕ) (outcome : Outcome) (accessJti refreshJti : String)
  | present (call : ℕ) (token : RefreshToken) (accessJti refreshJti : String)
  | lookup (call : ℕ) (done : Bool) (user : UserRow)
  | count (call : ℕ) (done : Bool)
  | purge (call : ℕ) (outcome : Outcome)
  | rotate (call : ℕ) (outcome : Outcome)
  | logout (call : ℕ) (userId : String)
  | revokeAll (call : ℕ) (outcome : Outcome)
  /-- Some component of the process marks the database as unavailable. -/
  | outage (server : ℕ) (limit : ℤ)

/-- `replayed` are the families of which a rotated token was presented and answered. -/
structure TokenState where
  rows : Table RefreshRow.id := ∅
  nextId : ℕ := 0
  nextFamily : ℕ := 0
  clock : ℤ := 0
  unavailableUntil : ℕ → ℤ := fun _ => 0
  stage : ℕ → CallStage := fun _ => .idle
  signed : List (Claims × ℕ) := []
  logins : List (ℕ × String) := []
  replayed : List ℕ := []

/-- The service: its settings, the cooldown after a failed insert, and the process of each call. -/
structure RefreshService where
  jwt : JwtLibrary
  settings : Settings
  cooldown : ℤ
  server : ℕ → ℕ

namespace TokenState

variable (s : TokenState)

def row (token : RefreshToken) : Option RefreshRow :=
  match token with
  | .stored id => s.rows.find? id
  | .signed _ _ => none

def ActiveIn (familyId : ℕ) : Prop := ∃ row ∈ s.rows.rows, row.familyId = some familyId ∧ row.Active

instance (familyId : ℕ) : Decidable (s.ActiveIn familyId) := inferInstanceAs (Decidable (∃ _ ∈ _, _))

/-- The stage is written at the time of the call's step. -/
def goes (call : ℕ) (now : ℤ) (stage : CallStage) : TokenState := { s with clock := now, stage := update s.stage call stage }

/-- The call returns nothing; where it was a replay this is noted for its family. -/
def returnNone (call : ℕ) (now : ℤ) (token : RefreshToken) (replayed : List ℕ) : TokenState :=
  { s.goes call now (.returned (.refresh token) none) with replayed := s.replayed ++ replayed }

def newRow (settings : Settings) (creation : Creation) (now : ℤ) : RefreshRow where
  id := s.nextId
  userId := creation.identity.sub
  authMethod := creation.identity.authMethod
  organizationId := creation.identity.activeOrganizationId
  snapshot := buildIdentitySnapshot creation.identity
  familyId := some (creation.familyId.getD s.nextFamily)
  expiresAt := now + settings.jwtRefreshExpireDays * 86400 * second
  chain := creation.chain

def withLogin (creation : Creation) : TokenState := { s with logins := s.logins ++ creation.begun }

def inserted (settings : Settings) (creation : Creation) (now : ℤ) : TokenState :=
  { s with
    rows := s.rows.upsert (s.newRow settings creation now)
    nextId := s.nextId + 1
    nextFamily := s.nextFamily + 1 }

def purged (familyId : ℕ) (now : ℤ) : TokenState :=
  { s with
    rows := s.rows.updateWhere (fun row => decide (row.familyId = some familyId ∧ row.Active)) (RefreshRow.revoke now)
      (RefreshRow.id_revoke now) }

def rotated (id : ℕ) (now : ℤ) : TokenState :=
  { s with rows := s.rows.update id (RefreshRow.rotate now) (RefreshRow.id_rotate now) }

def revokedAll (userId : String) (now : ℤ) : TokenState :=
  { s with
    rows := s.rows.updateWhere (fun row => decide (row.userId = userId ∧ row.Active)) (RefreshRow.revoke now)
      (RefreshRow.id_revoke now) }

def afterLookup (token : RefreshToken) (now : ℤ) (user : UserRow) : CallStage :=
  match s.row token with
  | none => .returned (.refresh token) none
  | some row =>
    if row.Active then
      if row.expiresAt < now then .returned (.refresh token) none else .rotating row (row.identity user)
    else
      match row.familyId with
      | some familyId => .counting token familyId row.rotated
      | none => .returned (.refresh token) none

end TokenState

def noted (familyId : ℕ) (replay : Bool) : List ℕ := if replay then [familyId] else []

/-- The families of which a lookup that failed was a replay. -/
def RefreshRow.noted (row : RefreshRow) : List ℕ := if row.rotated then row.familyId.toList else []

namespace RefreshService

variable (k : RefreshService)

/-- `is_shared_database_temporarily_unavailable` in the process of the call. -/
def Unavailable (s : TokenState) (call : ℕ) (now : ℤ) : Prop := now < s.unavailableUntil (k.server call)

instance (s : TokenState) (call : ℕ) (now : ℤ) : Decidable (k.Unavailable s call now) :=
  inferInstanceAs (Decidable (_ < _))

def pair (identity : Identity) (accessJti : String) (refreshToken : RefreshToken) (now : ℤ) : TokenPair :=
  ⟨createAccessToken k.settings identity none accessJti now, refreshToken, k.settings.jwtExpireMinutes * 60⟩

/-- `mark_shared_database_unavailable`. -/
def mark (s : TokenState) (server : ℕ) (limit : ℤ) : TokenState :=
  { s with unavailableUntil := update s.unavailableUntil server (max (s.unavailableUntil server) limit) }

/-- The call returns a pair whose refresh token is signed. -/
def fallback (s : TokenState) (call : ℕ) (now : ℤ) (cause : Cause) (identity : Identity) (chain : ℕ)
    (accessJti refreshJti : String) : TokenState :=
  let claims := createStatelessRefreshToken k.settings identity refreshJti now
  { s.goes call now (.returned cause (some (k.pair identity accessJti (.signed claims chain) now))) with
    signed := s.signed ++ [(claims, chain)] }

def handOut (identity : Identity) : Identity := { identity with authMethod := orGoogle identity.authMethod }

inductive Step : TokenState → TokenAct × ℤ → TokenState → Prop
  | login {s : TokenState} {c : ℕ} {identity : Identity} {now : ℤ} (tick : s.clock ≤ now) (idle : s.stage c = .idle) :
    Step s (.login c identity, now) (s.goes c now (.creating ⟨identity, none, none, c⟩))
  | degrade {s : TokenState} {c : ℕ} {creation : Creation} {accessJti refreshJti : String} {now : ℤ}
      (tick : s.clock ≤ now) (creating : s.stage c = .creating creation) (unavailable : k.Unavailable s c now) :
    Step s (.create c accessJti refreshJti, now)
      (k.fallback (s.withLogin creation) c now creation.cause creation.identity creation.chain accessJti refreshJti)
  | proceed {s : TokenState} {c : ℕ} {creation : Creation} {accessJti refreshJti : String} {now : ℤ}
      (tick : s.clock ≤ now) (creating : s.stage c = .creating creation) (available : ¬ k.Unavailable s c now) :
    Step s (.create c accessJti refreshJti, now) (s.goes c now (.inserting creation))
  | insert {s : TokenState} {c : ℕ} {creation : Creation} {accessJti refreshJti : String} {now : ℤ}
      (tick : s.clock ≤ now) (inserting : s.stage c = .inserting creation) :
    Step s (.insert c .done accessJti refreshJti, now)
      (((s.withLogin creation).inserted k.settings creation now).goes c now
        (.returned creation.cause (some (k.pair creation.identity accessJti (.stored s.nextId) now))))
  | insertFailed {s : TokenState} {c : ℕ} {creation : Creation} {accessJti refreshJti : String} {now : ℤ}
      (tick : s.clock ≤ now) (inserting : s.stage c = .inserting creation) :
    Step s (.insert c .failed accessJti refreshJti, now)
      (k.fallback (mark (s.withLogin creation) (k.server c) (now + k.cooldown)) c now creation.cause creation.identity
        creation.chain accessJti refreshJti)
  | insertLost {s : TokenState} {c : ℕ} {creation : Creation} {accessJti refreshJti : String} {now : ℤ}
      (tick : s.clock ≤ now) (inserting : s.stage c = .inserting creation) :
    Step s (.insert c .lost accessJti refreshJti, now)
      (k.fallback (mark ((s.withLogin creation).inserted k.settings creation now) (k.server c) (now + k.cooldown)) c now
        creation.cause creation.identity creation.chain accessJti refreshJti)
  | presentStored {s : TokenState} {c id : ℕ} {accessJti refreshJti : String} {now : ℤ} (tick : s.clock ≤ now)
      (idle : s.stage c = .idle) :
    Step s (.present c (.stored id) accessJti refreshJti, now) (s.goes c now (.looking (.stored id)))
  | presentSigned {s : TokenState} {c : ℕ} {claims payload : Claims} {chain : ℕ} {accessJti refreshJti : String} {now : ℤ}
      (tick : s.clock ≤ now) (idle : s.stage c = .idle) (issued : (claims, chain) ∈ s.signed)
      (decoded : decodeStatelessRefreshPayload k.jwt k.settings claims now = some payload)
      (allowed : statelessRefreshAllowed k.settings payload (k.Unavailable s c now) = true) :
    Step s (.present c (.signed claims chain) accessJti refreshJti, now)
      (k.fallback s c now (.refresh (.signed claims chain)) (handOut payload.identity) chain accessJti refreshJti)
  | refuseSigned {s : TokenState} {c : ℕ} {claims payload : Claims} {chain : ℕ} {accessJti refreshJti : String} {now : ℤ}
      (tick : s.clock ≤ now) (idle : s.stage c = .idle) (issued : (claims, chain) ∈ s.signed)
      (decoded : decodeStatelessRefreshPayload k.jwt k.settings claims now = some payload)
      (refused : statelessRefreshAllowed k.settings payload (k.Unavailable s c now) = false) :
    Step s (.present c (.signed claims chain) accessJti refreshJti, now) (s.returnNone c now (.signed claims chain) [])
  | presentDead {s : TokenState} {c : ℕ} {claims : Claims} {chain : ℕ} {accessJti refreshJti : String} {now : ℤ}
      (tick : s.clock ≤ now) (idle : s.stage c = .idle) (issued : (claims, chain) ∈ s.signed)
      (dead : decodeStatelessRefreshPayload k.jwt k.settings claims now = none) :
    Step s (.present c (.signed claims chain) accessJti refreshJti, now) (s.goes c now (.looking (.signed claims chain)))
  | lookup {s : TokenState} {c : ℕ} {token : RefreshToken} {user : UserRow} {now : ℤ} (tick : s.clock ≤ now)
      (looking : s.stage c = .looking token) :
    Step s (.lookup c true user, now) (s.goes c now (s.afterLookup token now user))
  | lookupFailed {s : TokenState} {c : ℕ} {token : RefreshToken} {user : UserRow} {now : ℤ} (tick : s.clock ≤ now)
      (looking : s.stage c = .looking token) :
    Step s (.lookup c false user, now) (s.returnNone c now token (((s.row token).map RefreshRow.noted).getD []))
  | count {s : TokenState} {c familyId : ℕ} {token : RefreshToken} {replay : Bool} {now : ℤ} (tick : s.clock ≤ now)
      (counting : s.stage c = .counting token familyId replay) (found : s.ActiveIn familyId) :
    Step s (.count c true, now) (s.goes c now (.purging token familyId replay))
  | countNone {s : TokenState} {c familyId : ℕ} {token : RefreshToken} {replay : Bool} {now : ℤ} (tick : s.clock ≤ now)
      (counting : s.stage c = .counting token familyId replay) (absent : ¬ s.ActiveIn familyId) :
    Step s (.count c true, now) (s.returnNone c now token (noted familyId replay))
  | countFailed {s : TokenState} {c familyId : ℕ} {token : RefreshToken} {replay : Bool} {now : ℤ} (tick : s.clock ≤ now)
      (counting : s.stage c = .counting token familyId replay) :
    Step s (.count c false, now) (s.returnNone c now token (noted familyId replay))
  | purge {s : TokenState} {c familyId : ℕ} {token : RefreshToken} {replay : Bool} {outcome : Outcome} {now : ℤ}
      (tick : s.clock ≤ now) (purging : s.stage c = .purging token familyId replay) (carried : outcome ≠ .failed) :
    Step s (.purge c outcome, now) ((s.purged familyId now).returnNone c now token (noted familyId replay))
  | purgeFailed {s : TokenState} {c familyId : ℕ} {token : RefreshToken} {replay : Bool} {now : ℤ} (tick : s.clock ≤ now)
      (purging : s.stage c = .purging token familyId replay) :
    Step s (.purge c .failed, now) (s.returnNone c now token (noted familyId replay))
  | rotate {s : TokenState} {c : ℕ} {row : RefreshRow} {identity : Identity} {now : ℤ} (tick : s.clock ≤ now)
      (rotating : s.stage c = .rotating row identity) :
    Step s (.rotate c .done, now)
      ((s.rotated row.id now).goes c now (.creating ⟨identity, row.familyId, some row.id, row.chain⟩))
  | rotateLost {s : TokenState} {c : ℕ} {row : RefreshRow} {identity : Identity} {now : ℤ} (tick : s.clock ≤ now)
      (rotating : s.stage c = .rotating row identity) :
    Step s (.rotate c .lost, now) ((s.rotated row.id now).returnNone c now (.stored row.id) [])
  | rotateFailed {s : TokenState} {c : ℕ} {row : RefreshRow} {identity : Identity} {now : ℤ} (tick : s.clock ≤ now)
      (rotating : s.stage c = .rotating row identity) :
    Step s (.rotate c .failed, now) (s.returnNone c now (.stored row.id) [])
  | logout {s : TokenState} {c : ℕ} {userId : String} {now : ℤ} (tick : s.clock ≤ now) (idle : s.stage c = .idle) :
    Step s (.logout c userId, now) (s.goes c now (.revoking userId))
  | revokeAll {s : TokenState} {c : ℕ} {userId : String} {outcome : Outcome} {now : ℤ} (tick : s.clock ≤ now)
      (revoking : s.stage c = .revoking userId) (carried : outcome ≠ .failed) :
    Step s (.revokeAll c outcome, now)
      ((s.revokedAll userId now).goes c now (.loggedOut userId (decide (outcome = .done))))
  | revokeAllFailed {s : TokenState} {c : ℕ} {userId : String} {now : ℤ} (tick : s.clock ≤ now)
      (revoking : s.stage c = .revoking userId) :
    Step s (.revokeAll c .failed, now) (s.goes c now (.loggedOut userId false))
  | outage {s : TokenState} {server : ℕ} {limit now : ℤ} (tick : s.clock ≤ now) :
    Step s (.outage server limit, now) { mark s server limit with clock := now }

end RefreshService

end Wiii.Auth
