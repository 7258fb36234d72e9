import Mathlib.Algebra.Group.Int.Defs
import Wiii.Auth.Tokens
import Wiii.Lib.Spending

/-!
# Codes and links that are good for one login

`verify_and_link` and `verify_magic_link` read the row of the credential, test it, and mark it as used in a later
statement that does not look at it again.  Requests whose mark finds the row unused spend the credential once
(`spent_once`); two requests that both read before either marks spend it twice (`spent_twice`).
-/

namespace Wiii.Auth

open Function (update update_self update_of_ne)
open Spending

/-! ## Link codes -/

structure OtpCode where
  userId : String
  channelType : String
  expiresAt : ℤ
  usedAt : Option ℤ := none
  failedAttempts : Option ℕ := none
  updatedAt : Option ℤ := none
  linkedPlatformSenderId : Option String := none

structure LinkRequest where
  channelType : String
  platformSenderId : String

structure LinkedIdentity where
  userId : String
  provider : String
  providerSub : String
  deriving DecidableEq

/-- The statement that follows on the checks of a code. -/
inductive OtpPlan where
  | countFailure
  | burn (message : String)
  | use (identity : LinkedIdentity)

namespace OtpCode

/-- The pause after a failed attempt has not passed yet. -/
def CoolingDown (code : OtpCode) (now : ℤ) : Prop :=
  ∃ last ∈ code.updatedAt, 0 < code.failedAttempts.getD 0 ∧
    now - last < min (2 ^ (code.failedAttempts.getD 0 - 1)) 60 * second

instance (code : OtpCode) (now : ℤ) : Decidable (code.CoolingDown now) :=
  match h : code.updatedAt with
  | none => isFalse fun ⟨_, hlast, _⟩ => by rw [h] at hlast; cases hlast
  | some last =>
    decidable_of_iff (0 < code.failedAttempts.getD 0 ∧
        now - last < min (2 ^ (code.failedAttempts.getD 0 - 1)) 60 * second)
      ⟨fun hcool => ⟨last, h, hcool⟩, fun ⟨_, hlast, hcool⟩ => by rw [h] at hlast; cases hlast; exact hcool⟩

end OtpCode

/-- `verify_and_link` up to its first write. -/
def otpLook (maxAttempts : ℕ) (request : LinkRequest) (now : ℤ) : Option OtpCode → (Bool × String) ⊕ OtpPlan
  | none => .inl (false, "")
  | some code =>
    if code.channelType ≠ request.channelType then .inr .countFailure
    else if code.usedAt ≠ none then .inl (false, "")
    else if maxAttempts ≤ code.failedAttempts.getD 0 then .inr (.burn "locked")
    else if code.CoolingDown now then .inl (false, "rate_limited")
    else if code.expiresAt < now then .inr (.burn "expired")
    else .inr (.use ⟨code.userId, request.channelType, request.platformSenderId⟩)

def otpWrite (plan : OtpPlan) (now : ℤ) (code : OtpCode) : OtpCode :=
  match plan with
  | .countFailure => { code with failedAttempts := some (code.failedAttempts.getD 0 + 1), updatedAt := some now }
  | .burn _ => { code with usedAt := some now }
  | .use identity => { code with usedAt := some now, linkedPlatformSenderId := some identity.providerSub }

def otpNext : OtpPlan → (Bool × String) ⊕ LinkedIdentity
  | .countFailure => .inl (false, "")
  | .burn message => .inl (false, message)
  | .use identity => .inr identity

/-- The requests that present one code; what is gained is an identity for `link_identity`. -/
def verifyAndLink (maxAttempts : ℕ) : Procedure (Option OtpCode) LinkRequest OtpPlan (Bool × String) LinkedIdentity where
  look := otpLook maxAttempts
  write plan now row := row.map (otpWrite plan now)
  next := otpNext

/-! ## Magic links -/

structure MagicLinkToken where
  email : String
  wsSessionId : String
  expiresAt : ℤ
  usedAt : Option ℤ := none

/-- The tokens that are pushed to the waiting client, by the address they are for. -/
structure MagicSession where
  email : String
  wsSessionId : String
  deriving DecidableEq

def isTokenUsed (usedAt : Option ℤ) : Prop := usedAt ≠ none

instance (usedAt : Option ℤ) : Decidable (isTokenUsed usedAt) := inferInstanceAs (Decidable (_ ≠ _))

def isTokenExpired (expiresAt now : ℤ) : Prop := expiresAt ≤ now

instance (expiresAt now : ℤ) : Decidable (isTokenExpired expiresAt now) := inferInstanceAs (Decidable (_ ≤ _))

/-- `verify_magic_link` up to its write; it answers with the message of an error page. -/
def magicLook (_ : Unit) (now : ℤ) : Option MagicLinkToken → String ⊕ MagicSession
  | none => .inl "Link không hợp lệ hoặc đã hết hạn."
  | some token =>
    if isTokenUsed token.usedAt then .inl "Link này đã được sử dụng."
    else if isTokenExpired token.expiresAt now then .inl "Link đã hết hạn. Vui lòng yêu cầu link mới."
    else .inr ⟨token.email, token.wsSessionId⟩

/-- The requests that present one link.  What a request gains is a session. -/
def verifyMagicLink : Procedure (Option MagicLinkToken) Unit MagicSession String MagicSession where
  look := magicLook
  write _ now row := row.map fun token => { token with usedAt := some now }
  next := .inr

/-! ## Spending -/

def Spent {ρ : Type} (usedAt : ρ → Option ℤ) (row : Option ρ) : Prop := ∀ found, row = some found → usedAt found ≠ none

theorem spent_map {ρ : Type} {usedAt : ρ → Option ℤ} {row : Option ρ} {f : ρ → ρ}
    (h : ∀ found, row = some found → usedAt (f found) ≠ none) : Spent usedAt (row.map f) := by
  intro found hfound
  obtain ⟨old, hold, rfl⟩ := Option.map_eq_some_iff.1 hfound
  exact h old hold

theorem verifyAndLink_spends (maxAttempts : ℕ) : (verifyAndLink maxAttempts).Spends (Spent OtpCode.usedAt) where
  keep plan now row h := by
    apply spent_map
    intro code hcode
    cases plan with
    | countFailure => exact h code hcode
    | burn _ => exact Option.some_ne_none now
    | use _ => exact Option.some_ne_none now
  spend plan gain now row h := by
    apply spent_map
    intro code hcode
    cases plan with
    | countFailure => cases h
    | burn _ => cases h
    | use _ => exact Option.some_ne_none now

theorem verifyMagicLink_spends : verifyMagicLink.Spends (Spent MagicLinkToken.usedAt) where
  keep _ now _ _ := spent_map fun _ _ => Option.some_ne_none now
  spend _ _ now _ _ := spent_map fun _ _ => Option.some_ne_none now

/-- The code is unused, not burned, not expired, and for this channel. -/
structure OtpCode.Good (maxAttempts : ℕ) (code : OtpCode) (identity : LinkedIdentity) (now : ℤ) : Prop where
  user : identity.userId = code.userId
  channel : identity.provider = code.channelType
  unused : code.usedAt = none
  unlocked : code.failedAttempts.getD 0 < maxAttempts
  unexpired : now ≤ code.expiresAt

theorem good_of_granted {maxAttempts : ℕ} {identity : LinkedIdentity} {seen : Sight (Option OtpCode)}
    (h : (verifyAndLink maxAttempts).Granted identity seen) :
    ∃ code, seen.row = some code ∧ code.Good maxAttempts identity seen.time := by
  obtain ⟨request, plan, hlook, hnext⟩ := h
  change otpLook maxAttempts request seen.time seen.row = .inr plan at hlook
  cases hrow : seen.row with
  | none =>
    rw [hrow] at hlook
    cases hlook
  | some code =>
    refine ⟨code, rfl, ?_⟩
    rw [hrow] at hlook
    dsimp only [otpLook] at hlook
    split_ifs at hlook with hchannel hused hlocked hcooling hexpired
    · cases hlook
      cases hnext
    · cases hlook
      cases hnext
    · cases hlook
      cases hnext
    · cases hlook
      cases hnext
      exact ⟨rfl, (not_not.1 hchannel).symm, not_not.1 hused, not_le.1 hlocked, not_lt.1 hexpired⟩

structure MagicLinkToken.Good (token : MagicLinkToken) (session : MagicSession) (now : ℤ) : Prop where
  email : session.email = token.email
  waiting : session.wsSessionId = token.wsSessionId
  unused : ¬ isTokenUsed token.usedAt
  unexpired : ¬ isTokenExpired token.expiresAt now

theorem good_of_granted_link {session : MagicSession} {seen : Sight (Option MagicLinkToken)}
    (h : verifyMagicLink.Granted session seen) :
    ∃ token, seen.row = some token ∧ token.Good session seen.time := by
  obtain ⟨_, plan, hlook, hnext⟩ := h
  change magicLook () seen.time seen.row = .inr plan at hlook
  cases hnext
  cases hrow : seen.row with
  | none =>
    rw [hrow] at hlook
    cases hlook
  | some token =>
    refine ⟨token, rfl, ?_⟩
    rw [hrow] at hlook
    dsimp only [magicLook] at hlook
    split_ifs at hlook with hused hexpired
    cases hlook
    exact ⟨rfl, rfl, hused, hexpired⟩

/-- At most one identity is linked, by a request that found the code good. -/
structure LinksOnce (maxAttempts : ℕ) (s : State (Option OtpCode) OtpPlan LinkedIdentity) : Prop where
  once : s.gains.length ≤ 1
  good : ∀ gained ∈ s.gains, ∃ code, gained.2.row = some code ∧ code.Good maxAttempts gained.1 gained.2.time

/-- At most one session is given, by a request that found the link good. -/
structure LogsInOnce (s : State (Option MagicLinkToken) MagicSession MagicSession) : Prop where
  once : s.gains.length ≤ 1
  good : ∀ gained ∈ s.gains, ∃ token, gained.2.row = some token ∧ token.Good gained.1 gained.2.time

/-- Each credential is spent once in the runs whose marks find it unused. -/
theorem spent_once (maxAttempts : ℕ) :
    (∀ row as s, Run (Guarded (verifyAndLink maxAttempts).Step ((verifyAndLink maxAttempts).Finds (Spent OtpCode.usedAt)))
        { row := row } as s → LinksOnce maxAttempts s) ∧
      ∀ row as s, Run (Guarded verifyMagicLink.Step (verifyMagicLink.Finds (Spent MagicLinkToken.usedAt)))
        { row := row } as s → LogsInOnce s := by
  constructor
  · intro row as s run
    have honce := Once.of_run (verifyAndLink_spends maxAttempts) run
    have hgranted := Spending.Granted.of_run (run.mono fun _ _ _ h => h.1)
    exact ⟨honce.gains, fun gained hgained => good_of_granted (hgranted.gains gained hgained)⟩
  · intro row as s run
    have honce := Once.of_run verifyMagicLink_spends run
    have hgranted := Spending.Granted.of_run (run.mono fun _ _ _ h => h.1)
    exact ⟨honce.gains, fun gained hgained => good_of_granted_link (hgranted.gains gained hgained)⟩

def someCode : OtpCode := { userId := "u", channelType := "zalo", expiresAt := 300 * second }

def someLink : MagicLinkToken := { email := "u@example.org", wsSessionId := "w", expiresAt := 600 * second }

def inTurn {q : Type} (first other : q) : List (Label q × ℤ) :=
  [(.look 0 first, 0), (.write 0 true, 0), (.finish 0 true, 0), (.look 1 other, 0)]

theorem finds_of_unused {ρ q π α γ : Type} {P : Procedure (Option ρ) q π α γ} {usedAt : ρ → Option ℤ} {row : ρ}
    {s : State (Option ρ) π γ} {a : Label q × ℤ} (hrow : s.row = some row) (hunused : usedAt row = none) :
    P.Finds (Spent usedAt) s a :=
  fun _ _ _ _ _ _ _ hspent => hspent row hrow hunused

theorem finds_of_ne_write {ρ q π α γ : Type} {P : Procedure (Option ρ) q π α γ} {usedAt : ρ → Option ℤ}
    {s : State (Option ρ) π γ} {a : Label q × ℤ} (hlabel : ∀ id, a.1 ≠ .write id true) : P.Finds (Spent usedAt) s a :=
  fun id _ _ _ hwrite => absurd hwrite (hlabel id)

theorem spent_once_in_turn :
    (∃ s, s.gains.map Prod.fst = [⟨"u", "zalo", "a"⟩] ∧ LinksOnce 5 s) ∧
      ∃ s, s.gains.map Prod.fst = [⟨"u@example.org", "w"⟩] ∧ LogsInOnce s := by
  constructor
  · refine ⟨_, ?_, (spent_once 5).1 (some someCode) (inTurn ⟨"zalo", "a"⟩ ⟨"zalo", "b"⟩) _
      (.cons ⟨.look le_rfl rfl, finds_of_unused rfl rfl⟩ (.cons ⟨.write le_rfl rfl, finds_of_unused rfl rfl⟩
        (.cons ⟨.gain le_rfl rfl, finds_of_ne_write (by simp)⟩
          (.single ⟨.look le_rfl rfl, finds_of_ne_write (by simp)⟩))))⟩
    rfl
  · refine ⟨_, ?_, (spent_once 5).2 (some someLink) (inTurn () ()) _
      (.cons ⟨.look le_rfl rfl, finds_of_unused rfl rfl⟩ (.cons ⟨.write le_rfl rfl, finds_of_unused rfl rfl⟩
        (.cons ⟨.gain le_rfl rfl, finds_of_ne_write (by simp)⟩
          (.single ⟨.look le_rfl rfl, finds_of_ne_write (by simp)⟩))))⟩
    rfl

/-- Both requests read before either writes. -/
def atOnce {q : Type} (first other : q) : List (Label q × ℤ) :=
  [(.look 0 first, 0), (.look 1 other, 0), (.write 0 true, 0), (.write 1 true, 0), (.finish 0 true, 0),
    (.finish 1 true, 0)]

/-- One code links two identities, and one link gives two sessions. -/
theorem spent_twice :
    (∃ s, Run (verifyAndLink 5).Step { row := some someCode } (atOnce ⟨"zalo", "a"⟩ ⟨"zalo", "b"⟩) s ∧
        ¬ LinksOnce 5 s ∧ s.gains.map Prod.fst = [⟨"u", "zalo", "a"⟩, ⟨"u", "zalo", "b"⟩]) ∧
      ∃ s, Run verifyMagicLink.Step { row := some someLink } (atOnce () ()) s ∧ ¬ LogsInOnce s := by
  constructor
  · refine ⟨_, .cons (.look le_rfl rfl) (.cons (.look le_rfl rfl) (.cons (.write le_rfl rfl) (.cons (.write le_rfl rfl)
      (.cons (.gain le_rfl rfl) (.single (.gain le_rfl rfl)))))), ?_, rfl⟩
    intro h
    exact absurd h.once (by decide)
  · refine ⟨_, .cons (.look le_rfl rfl) (.cons (.look le_rfl rfl) (.cons (.write le_rfl rfl) (.cons (.write le_rfl rfl)
      (.cons (.gain le_rfl rfl) (.single (.gain le_rfl rfl)))))), ?_⟩
    intro h
    exact absurd h.once (by decide)

end Wiii.Auth
