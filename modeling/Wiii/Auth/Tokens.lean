import Wiii.Lib.PyText
import Wiii.Lib.Table

/-!
# Signed tokens

The access tokens, the refresh tokens of the degraded mode, and the denylist of token ids.  Clock readings are
microseconds; the claims of a token carry whole seconds.
-/

namespace Wiii.Auth

def second : ℤ := 1000000

structure Settings where
  jwtExpireMinutes : ℤ := 15
  jwtRefreshExpireDays : ℤ := 30
  jwtAudience : String := "wiii"
  enableJtiDenylist : Bool := false
  enableDevLogin : Bool := false
  environment : String := "development"

structure Identity where
  sub : String
  email : Option String := none
  name : Option String := none
  role : String := "student"
  platformRole : Option String := none
  organizationRole : Option String := none
  hostRole : Option String := none
  roleSource : Option String := none
  activeOrganizationId : Option String := none
  connectorId : Option String := none
  identityVersion : Option String := none
  authMethod : String := "google"
  deriving DecidableEq

inductive TokenType where
  | access
  | refresh
  deriving DecidableEq

/-- The claims of a token that is signed with the service key. -/
structure Claims where
  identity : Identity
  type : TokenType
  stateless : Bool
  iss : String
  aud : Option String
  iat : ℤ
  exp : ℤ
  jti : Option String
  deriving DecidableEq

def Claims.Live (claims : Claims) (now : ℤ) : Prop := claims.iat * second ≤ now ∧ now < claims.exp * second

instance (claims : Claims) (now : ℤ) : Decidable (claims.Live now) := inferInstanceAs (Decidable (_ ∧ _))

/-- `jwt.decode` with the service key: the audience where it is verified, the claims, the clock. -/
structure JwtLibrary where
  decode : Option String → Claims → ℤ → Except String Claims
  eq_of_decode : ∀ {audience claims now payload}, decode audience claims now = .ok payload → payload = claims
  live_of_decode : ∀ {audience claims now payload}, decode audience claims now = .ok payload → claims.Live now
  decode_of_live : ∀ {claims now}, claims.Live now → decode none claims now = .ok claims

/-! ## Issuing -/

/-- `expires_delta or timedelta(...)`: a delta of zero counts as none. -/
def createAccessToken (settings : Settings) (identity : Identity) (expiresDelta : Option ℤ) (jti : String) (now : ℤ) :
    Claims :=
  let delta := match expiresDelta with
    | some delta => if delta = 0 then settings.jwtExpireMinutes * 60 * second else delta
    | none => settings.jwtExpireMinutes * 60 * second
  { identity := identity
    type := .access
    stateless := false
    iss := "wiii"
    aud := some settings.jwtAudience
    iat := now / second
    exp := (now + delta) / second
    jti := some jti }

def createStatelessRefreshToken (settings : Settings) (identity : Identity) (jti : String) (now : ℤ) : Claims where
  identity := identity
  type := .refresh
  stateless := true
  iss := "wiii"
  aud := some settings.jwtAudience
  iat := now / second
  exp := (now + settings.jwtRefreshExpireDays * 86400 * second) / second
  jti := some jti

/-! ## The denylist -/

structure Denial where
  jti : String
  expiry : ℤ
  deriving DecidableEq

abbrev Denylist := Table Denial.jti

def denialExpiry (settings : Settings) (ttlSeconds : Option ℤ) (now : ℤ) : ℤ :=
  now + ttlSeconds.getD (settings.jwtExpireMinutes * 60) * second

def denyJti (settings : Settings) (jti : String) (ttlSeconds : Option ℤ) (now : ℤ) (denylist : Denylist) : Denylist :=
  if jti = "" then denylist
  else (denylist.upsert ⟨jti, denialExpiry settings ttlSeconds now⟩).deleteWhere fun denial => denial.expiry < now

/-- An entry that has run out is deleted when it is looked up. -/
def isJtiDenied (jti : String) (now : ℤ) (denylist : Denylist) : Bool × Denylist :=
  match denylist.find? jti with
  | none => (false, denylist)
  | some denial => if denial.expiry < now then (false, denylist.delete jti) else (true, denylist)

/-! ## Verifying -/

section Verify

variable (jwt : JwtLibrary) (settings : Settings)

def revokedText : String := "Token has been revoked (jti denied)"

/-- The token is decoded once more without its audience where the first attempt fails. -/
def decodeClaims (claims : Claims) (now : ℤ) : Except String Claims :=
  match jwt.decode (some settings.jwtAudience) claims now with
  | .ok payload => .ok payload
  | .error _ => jwt.decode none claims now

def decodeJwtPayload (claims : Claims) (now : ℤ) (denylist : Denylist) : Except String Claims × Denylist :=
  match decodeClaims jwt settings claims now with
  | .error text => (.error text, denylist)
  | .ok payload =>
    match payload.jti with
    | some jti =>
      if settings.enableJtiDenylist = true ∧ jti ≠ "" then
        match isJtiDenied jti now denylist with
        | (true, denylist) => (.error revokedText, denylist)
        | (false, denylist) => (.ok payload, denylist)
      else (.ok payload, denylist)
    | none => (.ok payload, denylist)

/-- `AccessTokenPayload` and `TokenPayload`: the claims without the audience. -/
structure TokenPayload where
  identity : Identity
  type : TokenType
  exp : ℤ
  iat : ℤ
  iss : String
  jti : Option String

def TokenPayload.ofClaims (claims : Claims) : TokenPayload :=
  ⟨claims.identity, claims.type, claims.exp, claims.iat, claims.iss, claims.jti⟩

def verifyAccessToken (claims : Claims) (now : ℤ) (denylist : Denylist) : Except String TokenPayload × Denylist :=
  let (decoded, denylist) := decodeJwtPayload jwt settings claims now denylist
  (decoded.map TokenPayload.ofClaims, denylist)

def unauthorizedDetail (table : CaseTable) (text : String) : String :=
  if PyText.contains (PyText.lower table text) "revoked" then "Token has been revoked" else "Invalid or expired token"

def verifyJwtToken (table : CaseTable) (claims : Claims) (now : ℤ) (denylist : Denylist) :
    Except String TokenPayload × Denylist :=
  let (decoded, denylist) := decodeJwtPayload jwt settings claims now denylist
  ((decoded.map TokenPayload.ofClaims).mapError (unauthorizedDetail table), denylist)

/-- `_decode_stateless_refresh_payload`. -/
def decodeStatelessRefreshPayload (claims : Claims) (now : ℤ) : Option Claims :=
  match decodeClaims jwt settings claims now with
  | .error _ => none
  | .ok payload => if payload.type ≠ .refresh ∨ payload.stateless ≠ true then none else some payload

/-- `_stateless_refresh_allowed`, where the shared database may be in its cooldown. -/
def statelessRefreshAllowed (payload : Claims) (unavailable : Bool) : Bool :=
  (payload.identity.authMethod == "dev" && settings.enableDevLogin && settings.environment != "production") ||
    unavailable

variable {jwt settings} {claims payload : Claims} {now : ℤ}

theorem decodeClaims_eq_ok : decodeClaims jwt settings claims now = .ok payload ↔ payload = claims ∧ claims.Live now := by
  unfold decodeClaims
  cases hdecode : jwt.decode (some settings.jwtAudience) claims now with
  | ok found =>
    have heq := jwt.eq_of_decode hdecode
    have hlive := jwt.live_of_decode hdecode
    subst heq
    simp only [Except.ok.injEq]
    exact ⟨fun h => ⟨h.symm, hlive⟩, fun h => h.1.symm⟩
  | error _ =>
    constructor
    · intro h
      exact ⟨jwt.eq_of_decode h, jwt.live_of_decode h⟩
    · rintro ⟨rfl, hlive⟩
      exact jwt.decode_of_live hlive

end Verify

end Wiii.Auth
