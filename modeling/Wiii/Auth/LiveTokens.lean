import Wiii.Auth.Tokens
import Wiii.Lib.Run

/-!
# Which tokens authenticate

A service process answers verifications and denies token ids.  The denylist holds, of every id, the expiry of the last
denial, or nothing once that has run out (`Denylist.Follows`).  So a token is accepted exactly while it is live and no
denial in force names it (`accepts_iff`).
-/

namespace Wiii.Auth

inductive Verifier where
  | decodeJwtPayload
  | verifyAccessToken
  | verifyJwtToken

structure Service where
  denylist : Denylist := ∅
  clock : ℤ := 0

inductive TokenCall where
  | deny (jti : String) (ttlSeconds : Option ℤ)
  | verify (verifier : Verifier) (claims : Claims)

/-- The tokens of one service process. -/
structure TokenService where
  jwt : JwtLibrary
  settings : Settings
  table : CaseTable

namespace TokenService

variable (k : TokenService)

/-- Whether the verifier accepts the token, and the denylist it leaves. -/
def answer (verifier : Verifier) (claims : Claims) (now : ℤ) (denylist : Denylist) : Bool × Denylist :=
  match verifier with
  | .decodeJwtPayload => ((decodeJwtPayload k.jwt k.settings claims now denylist).map Except.isOk id)
  | .verifyAccessToken => ((verifyAccessToken k.jwt k.settings claims now denylist).map Except.isOk id)
  | .verifyJwtToken => ((verifyJwtToken k.jwt k.settings k.table claims now denylist).map Except.isOk id)

def accepts (verifier : Verifier) (claims : Claims) (now : ℤ) (denylist : Denylist) : Prop :=
  (k.answer verifier claims now denylist).1 = true

instance (verifier : Verifier) (claims : Claims) (now : ℤ) (denylist : Denylist) :
    Decidable (k.accepts verifier claims now denylist) := inferInstanceAs (Decidable (_ = true))

/-- One call, at a time that is not before the last one. -/
def Step (s : Service) (call : TokenCall × ℤ) (t : Service) : Prop :=
  s.clock ≤ call.2 ∧ t.clock = call.2 ∧
    match call.1 with
    | .deny jti ttlSeconds => t.denylist = denyJti k.settings jti ttlSeconds call.2 s.denylist
    | .verify verifier claims => t.denylist = (k.answer verifier claims call.2 s.denylist).2

def sets (jti : String) : TokenCall × ℤ → Option ℤ
  | (.deny denied ttlSeconds, now) =>
    if denied = jti ∧ jti ≠ "" then some (denialExpiry k.settings ttlSeconds now) else none
  | (.verify _ _, _) => none

def lastDenial (calls : List (TokenCall × ℤ)) (jti : String) : Option ℤ := (calls.filterMap (k.sets jti)).getLast?

/-- The last denial of the token's id has not run out. -/
def InForce (calls : List (TokenCall × ℤ)) (claims : Claims) (now : ℤ) : Prop :=
  ∃ jti expiry, claims.jti = some jti ∧ k.lastDenial calls jti = some expiry ∧ now ≤ expiry

/-- No call denied the token's id. -/
def NeverDenied (calls : List (TokenCall × ℤ)) (claims : Claims) : Prop :=
  ∀ jti ttlSeconds now, (TokenCall.deny jti ttlSeconds, now) ∈ calls → claims.jti ≠ some jti

def AudienceFits (claims : Claims) : Prop := claims.aud = none ∨ claims.aud = some k.settings.jwtAudience

/-- A live access token for this service whose id was never denied. -/
structure Genuine (calls : List (TokenCall × ℤ)) (claims : Claims) (now : ℤ) : Prop where
  access : claims.type = .access
  unexpired : now < claims.exp * second
  audience : k.AudienceFits claims
  undenied : NeverDenied calls claims

end TokenService

/-! ## The denylist -/

namespace Denylist

/-- Of every id the denylist holds the last expiry, or nothing where that is past. -/
def Follows (denylist : Denylist) (last : String → Option ℤ) (clock : ℤ) : Prop :=
  ∀ jti, (denylist.find? jti).map Denial.expiry = last jti ∨
    denylist.find? jti = none ∧ ∀ expiry, last jti = some expiry → expiry < clock

variable {denylist : Denylist} {last : String → Option ℤ} {clock now : ℤ}

theorem Follows.mono (h : Follows denylist last clock) (hle : clock ≤ now) : Follows denylist last now := by
  intro jti
  rcases h jti with h | ⟨hnone, hpast⟩
  · exact Or.inl h
  · exact Or.inr ⟨hnone, fun expiry he => lt_of_lt_of_le (hpast expiry he) hle⟩

theorem Follows.deleteWhere (h : Follows denylist last clock) {p : Denial → Bool}
    (hp : ∀ denial ∈ denylist, p denial = true → denial.expiry < clock) : Follows (denylist.deleteWhere p) last clock := by
  intro jti
  rw [Table.find?_deleteWhere]
  rcases h jti with h | ⟨hnone, hpast⟩
  · cases hfound : denylist.find? jti with
    | none =>
      rw [hfound] at h
      exact Or.inl h
    | some denial =>
      rw [hfound] at h
      by_cases hgone : p denial = true
      · refine Or.inr ⟨by simp [hgone], fun expiry he => ?_⟩
        rw [← h, Option.map_some, Option.some.injEq] at he
        rw [← he]
        exact hp denial (Table.mem_of_find? hfound) hgone
      · left
        rw [Option.filter_some, if_pos (by simp [hgone])]
        exact h
  · exact Or.inr ⟨by rw [hnone, Option.filter_none], hpast⟩

theorem Follows.upsert (h : Follows denylist last clock) (denial : Denial) :
    Follows (denylist.upsert denial) (fun jti => if jti = denial.jti then some denial.expiry else last jti) clock := by
  intro jti
  rw [Table.find?_upsert]
  by_cases hjti : jti = denial.jti
  · simp [hjti]
  · simpa [hjti] using h jti

theorem isJtiDenied_iff (h : Follows denylist last clock) (hle : clock ≤ now) {jti : String} :
    (isJtiDenied jti now denylist).1 = true ↔ ∃ expiry, last jti = some expiry ∧ now ≤ expiry := by
  unfold isJtiDenied
  rcases h jti with h | ⟨hnone, hpast⟩
  · rw [← h]
    cases denylist.find? jti with
    | none => simp
    | some denial =>
      by_cases hrun : denial.expiry < now
      · simp [hrun]
      · simp [hrun, not_lt.1 hrun]
  · rw [hnone]
    constructor
    · intro h
      cases h
    · rintro ⟨expiry, he, hnow⟩
      have := hpast expiry he
      omega

theorem Follows.isJtiDenied (h : Follows denylist last clock) (jti : String) :
    Follows (Auth.isJtiDenied jti clock denylist).2 last clock := by
  unfold Auth.isJtiDenied
  cases hfound : denylist.find? jti with
  | none => exact h
  | some denial =>
    dsimp only
    split
    · rename_i hrun
      apply h.deleteWhere
      intro other hother hkey
      have hsame : other = denial :=
        Table.eq_of_key_eq hother (Table.mem_of_find? hfound)
          ((of_decide_eq_true hkey).trans (Table.key_of_find? hfound).symm)
      rw [hsame]
      exact hrun
    · exact h

theorem Follows.denyJti (h : Follows denylist last clock) (settings : Settings) (jti : String) (ttlSeconds : Option ℤ) :
    Follows (Auth.denyJti settings jti ttlSeconds clock denylist)
      (fun other => if other = jti ∧ other ≠ "" then some (denialExpiry settings ttlSeconds clock) else last other)
      clock := by
  unfold Auth.denyJti
  split
  · rename_i hempty
    subst hempty
    have hlast : (fun other => if other = "" ∧ other ≠ "" then some (denialExpiry settings ttlSeconds clock)
        else last other) = last := by
      funext other
      exact if_neg fun h => h.2 h.1
    rw [hlast]
    exact h
  · rename_i hjti
    have hlast : (fun other => if other = jti ∧ other ≠ "" then some (denialExpiry settings ttlSeconds clock)
        else last other) = fun other => if other = jti then some (denialExpiry settings ttlSeconds clock)
        else last other := by
      funext other
      by_cases hother : other = jti
      · simp [hother, hjti]
      · simp [hother]
    rw [hlast]
    exact (h.upsert ⟨jti, denialExpiry settings ttlSeconds clock⟩).deleteWhere
      fun denial _ hrun => of_decide_eq_true hrun

end Denylist

/-! ## The runs of the service -/

namespace TokenService

variable {k : TokenService} {s t : Service} {calls : List (TokenCall × ℤ)} {claims : Claims} {now : ℤ}

theorem lastDenial_append (calls : List (TokenCall × ℤ)) (call : TokenCall × ℤ) (jti : String) :
    k.lastDenial (calls ++ [call]) jti = (k.sets jti call).or (k.lastDenial calls jti) := by
  unfold lastDenial
  rw [List.filterMap_append]
  cases hsets : k.sets jti call with
  | none => simp [hsets]
  | some expiry => simp [hsets]

theorem lastDenial_empty (calls : List (TokenCall × ℤ)) : k.lastDenial calls "" = none := by
  have hnone : calls.filterMap (k.sets "") = [] := by
    apply List.filterMap_eq_nil_iff.2
    rintro ⟨call, now⟩ -
    cases call with
    | deny _ _ => exact if_neg fun h => h.2 rfl
    | verify _ _ => rfl
  rw [lastDenial, hnone, List.getLast?_nil]

theorem answer_snd (verifier : Verifier) (claims : Claims) (now : ℤ) (denylist : Denylist) :
    (k.answer verifier claims now denylist).2 = denylist ∨
      ∃ jti, (k.answer verifier claims now denylist).2 = (isJtiDenied jti now denylist).2 := by
  have hdecode : (decodeJwtPayload k.jwt k.settings claims now denylist).2 = denylist ∨
      ∃ jti, (decodeJwtPayload k.jwt k.settings claims now denylist).2 = (isJtiDenied jti now denylist).2 := by
    unfold decodeJwtPayload
    split
    · exact Or.inl rfl
    · split
      · rename_i jti _
        split
        · right
          use jti
          rcases isJtiDenied jti now denylist with ⟨denied, rest⟩
          cases denied <;> rfl
        · exact Or.inl rfl
      · exact Or.inl rfl
  cases verifier <;> exact hdecode

theorem Step.follows {call : TokenCall × ℤ} (h : k.Step s call t)
    (hs : s.denylist.Follows (k.lastDenial calls) s.clock) :
    t.denylist.Follows (k.lastDenial (calls ++ [call])) t.clock := by
  rcases call with ⟨call, now⟩
  obtain ⟨hle, hclock, hdeny⟩ := h
  have hnow : s.denylist.Follows (k.lastDenial calls) now := hs.mono hle
  rw [hclock]
  cases call with
  | deny jti ttlSeconds =>
    have hlast : k.lastDenial (calls ++ [(.deny jti ttlSeconds, now)]) = fun other =>
        if other = jti ∧ other ≠ "" then some (denialExpiry k.settings ttlSeconds now)
        else k.lastDenial calls other := by
      funext other
      rw [lastDenial_append, sets]
      by_cases hother : other = jti ∧ other ≠ ""
      · rw [if_pos hother, if_pos ⟨hother.1.symm, hother.2⟩, Option.some_or]
      · rw [if_neg hother, if_neg fun h => hother ⟨h.1.symm, h.2⟩, Option.or]
    rw [hlast, hdeny]
    exact hnow.denyJti k.settings jti ttlSeconds
  | verify verifier claims =>
    have hlast : k.lastDenial (calls ++ [(.verify verifier claims, now)]) = k.lastDenial calls := by
      funext other
      rw [lastDenial_append, sets, Option.or]
    rw [hlast, hdeny]
    rcases answer_snd verifier claims now s.denylist with h | ⟨jti, h⟩
    · dsimp only
      rw [h]
      exact hnow
    · dsimp only
      rw [h]
      exact hnow.isJtiDenied jti

theorem run_follows (run : Run k.Step {} calls s) : s.denylist.Follows (k.lastDenial calls) s.clock := by
  have hinit : (∅ : Denylist).Follows (k.lastDenial []) 0 := fun _ => Or.inl rfl
  have hkeep : s.denylist.Follows (k.lastDenial ([] ++ calls.flatMap fun call => [call])) s.clock :=
    run.invariant_outputs (I := fun calls s => s.denylist.Follows (k.lastDenial calls) s.clock)
      (fun _ _ _ _ hs h => Step.follows h hs) hinit
  rwa [List.nil_append, List.flatMap_singleton'] at hkeep

theorem decodeJwtPayload_isOk_iff {denylist : Denylist} {clock : ℤ} (h : denylist.Follows (k.lastDenial calls) clock)
    (hle : clock ≤ now) :
    (decodeJwtPayload k.jwt k.settings claims now denylist).1.isOk = true ↔
      claims.Live now ∧ ¬(k.settings.enableJtiDenylist = true ∧ k.InForce calls claims now) := by
  unfold decodeJwtPayload
  cases hdecode : decodeClaims k.jwt k.settings claims now with
  | error _ =>
    have hdead : ¬ claims.Live now := by
      intro hlive
      rw [decodeClaims_eq_ok.2 ⟨rfl, hlive⟩] at hdecode
      cases hdecode
    simp [hdead, Except.isOk, Except.toBool]
  | ok payload =>
    obtain ⟨rfl, hlive⟩ := decodeClaims_eq_ok.1 hdecode
    simp only [hlive, true_and, InForce]
    cases hjti : payload.jti with
    | none => simp [Except.isOk, Except.toBool]
    | some jti =>
      by_cases hlooks : k.settings.enableJtiDenylist = true ∧ jti ≠ ""
      · have hdenied : (isJtiDenied jti now denylist).1 = true ↔
            ∃ expiry, k.lastDenial calls jti = some expiry ∧ now ≤ expiry := Denylist.isJtiDenied_iff h hle
        dsimp only
        rw [if_pos hlooks]
        generalize isJtiDenied jti now denylist = answer at hdenied ⊢
        rcases answer with ⟨denied, rest⟩
        cases denied with
        | true => simpa [Except.isOk, Except.toBool, hlooks.1] using hdenied
        | false => simpa [Except.isOk, Except.toBool, hlooks.1] using hdenied
      · dsimp only
        rw [if_neg hlooks]
        simp only [Except.isOk, Except.toBool, true_iff, not_and]
        rintro henable ⟨_, expiry, heq, hlast, -⟩
        obtain rfl := Option.some.inj heq
        have hempty : jti = "" := by
          by_contra hne
          exact hlooks ⟨henable, hne⟩
        rw [hempty, lastDenial_empty] at hlast
        cases hlast

theorem accepts_iff (run : Run k.Step {} calls s) (hnow : s.clock ≤ now) (verifier : Verifier) (claims : Claims) :
    k.accepts verifier claims now s.denylist ↔
      claims.Live now ∧ ¬(k.settings.enableJtiDenylist = true ∧ k.InForce calls claims now) := by
  rw [← decodeJwtPayload_isOk_iff (run_follows run) hnow]
  unfold accepts answer verifyAccessToken verifyJwtToken
  rcases decodeJwtPayload k.jwt k.settings claims now s.denylist with ⟨decoded, rest⟩
  cases verifier <;> cases decoded <;> rfl

/-! ## The result -/

def pyJwt : JwtLibrary where
  decode audience claims now :=
    if now < claims.iat * second then .error "The token is not yet valid (iat)"
    else if claims.exp * second ≤ now then .error "Signature has expired"
    else if audience = none ∨ audience = claims.aud then .ok claims
    else .error "Audience doesn't match"
  eq_of_decode h := by
    split at h
    · cases h
    · split at h
      · cases h
      · split at h
        · exact (Except.ok.inj h).symm
        · cases h
  live_of_decode {audience claims now payload} h := by
    split at h
    · cases h
    · split at h
      · cases h
      · constructor <;> omega
  decode_of_live {claims now} h := by
    rw [if_neg (not_lt.2 h.1), if_neg (not_le.2 h.2), if_pos (Or.inl rfl)]

def strictService : TokenService := ⟨pyJwt, { enableJtiDenylist := true }, fun c => [c]⟩

def refreshToken : Claims := createStatelessRefreshToken {} { sub := "u" } "r" 0

def accessToken : Claims := createAccessToken {} { sub := "u" } none "a" 0

/-- The second denial is shorter than the first. -/
def denials : List (TokenCall × ℤ) := [(.deny "a" none, 0), (.deny "a" (some 1), second)]

def afterDenials : Service where
  denylist := denyJti strictService.settings "a" (some 1) second (denyJti strictService.settings "a" none 0 ∅)
  clock := second

theorem run_denials : Run strictService.Step {} denials afterDenials :=
  .cons (t := ⟨denyJti strictService.settings "a" none 0 ∅, 0⟩) ⟨le_rfl, rfl, rfl⟩
    (.single ⟨by decide, rfl, rfl⟩)

/-- Only live access tokens authenticate exactly where the token is dead anyway, is denied, or was never denied and has
the right type. -/
theorem genuine_of_accepts_iff (run : Run k.Step {} calls s) (hnow : s.clock ≤ now) (verifier : Verifier)
    (claims : Claims) :
    (k.accepts verifier claims now s.denylist → k.Genuine calls claims now) ↔
      ¬ claims.Live now ∨ (k.settings.enableJtiDenylist = true ∧ k.InForce calls claims now) ∨
        (claims.type = .access ∧ k.AudienceFits claims ∧ NeverDenied calls claims) := by
  rw [accepts_iff run hnow]
  constructor
  · intro h
    by_cases hlive : claims.Live now
    · by_cases hforce : k.settings.enableJtiDenylist = true ∧ k.InForce calls claims now
      · exact Or.inr (Or.inl hforce)
      · have hgenuine := h ⟨hlive, hforce⟩
        exact Or.inr (Or.inr ⟨hgenuine.access, hgenuine.audience, hgenuine.undenied⟩)
    · exact Or.inl hlive
  · rintro (hdead | hforce | ⟨haccess, haudience, hundenied⟩) ⟨hlive, hfree⟩
    · exact absurd hlive hdead
    · exact absurd hforce hfree
    · exact ⟨haccess, hlive.2, haudience, hundenied⟩

theorem genuine_of_accepts_iff_denials :
    (strictService.accepts .verifyJwtToken accessToken (3 * second) afterDenials.denylist →
        strictService.Genuine denials accessToken (3 * second)) ↔
      ¬ accessToken.Live (3 * second) ∨
        (strictService.settings.enableJtiDenylist = true ∧ strictService.InForce denials accessToken (3 * second)) ∨
        (accessToken.type = .access ∧ strictService.AudienceFits accessToken ∧ NeverDenied denials accessToken) :=
  genuine_of_accepts_iff run_denials (by decide) .verifyJwtToken accessToken

/-- A refresh token authenticates, and so does an access token that was denied twice. -/
theorem not_only_genuine :
    ¬(strictService.accepts .verifyAccessToken refreshToken 0 ∅ →
        strictService.Genuine [] refreshToken 0) ∧
      ¬(strictService.accepts .verifyJwtToken accessToken (3 * second) afterDenials.denylist →
        strictService.Genuine denials accessToken (3 * second)) := by
  constructor
  · intro h
    have hgenuine := h (by decide)
    cases hgenuine.access
  · intro h
    have hgenuine := h (by decide)
    exact hgenuine.undenied "a" none 0 (by simp [denials]) rfl

end TokenService

end Wiii.Auth
