import Wiii.Neko.Journal.Specs
import Wiii.Neko.Runtime.Operations

/-!
# The identity of a start

The digest of a start request covers all of its fields but the request identity.  Two requests that pass the checks
share a digest only if they are the same (`start_identity_injective`), and a changed request under a used identity is
refused.
-/

namespace Wiii.Neko

open Journal Program Wiii.Neko.Runtime

variable {sha256 : List UInt8 → String} {isAbsolute : String → Bool} {first second : SessionStartRequest}

/-! ## The digested fields -/

theorem validateIdentity_le {name value : String} (h : validateIdentity name value = .ok ()) :
    value.utf8ByteSize ≤ 256 := by
  unfold validateIdentity at h
  by_cases hbad : (value.isEmpty || value.utf8ByteSize > 256 || value.toList.any isControl) = true
  · rw [if_pos hbad] at h
    cases h
  · simp only [Bool.or_eq_true, not_or, decide_eq_true_eq, Nat.not_lt] at hbad
    exact hbad.1.2

theorem ne_empty_of_validateProfileId {profileId : String} (h : validateProfileId profileId = .ok ()) : profileId ≠ "" := by
  rintro rfl
  cases h

/-- What the checks of a start leave of its identities. -/
structure Identified (request : SessionStartRequest) : Prop where
  agentSession : request.agentSessionId.utf8ByteSize ≤ 256
  task : request.taskId.utf8ByteSize ≤ 256
  run : request.runId.utf8ByteSize ≤ 256
  provider : request.providerId.utf8ByteSize ≤ 256
  environment : request.environmentId.utf8ByteSize ≤ 256
  known : (definition request.providerId).isSome
  profile : ∀ profileId, request.profileId = some profileId → validateProfileId profileId = .ok ()

theorem identified {request : SessionStartRequest} (h : validateStartIdentity isAbsolute request = .ok ()) :
    Identified request := by
  unfold validateStartIdentity at h
  simp only [bind_unit_ok_iff] at h
  obtain ⟨-, hsession, htask, hrun, hprovider, henvironment, -, hknown, -, hprofile⟩ := h
  refine ⟨validateIdentity_le hsession, validateIdentity_le htask, validateIdentity_le hrun, validateIdentity_le hprovider,
    validateIdentity_le henvironment, ensure_ok_iff.1 hknown, ?_⟩
  intro profileId hid
  rw [hid] at hprofile
  exact hprofile

theorem Identified.sized {request : SessionStartRequest} (h : Identified request)
    (hworkspace : request.workspacePath.utf8ByteSize < 2 ^ 64) : ∀ part ∈ request.target, part.utf8ByteSize < 2 ^ 64 := by
  have hprofile : (request.profileId.getD "").utf8ByteSize < 2 ^ 64 := by
    cases hid : request.profileId with
    | none => decide
    | some profileId =>
      have hvalid := h.profile profileId hid
      unfold validateProfileId at hvalid
      by_cases hbad : (profileId.isEmpty || profileId.utf8ByteSize > 64 || profileId.startsWith "-" ||
          !profileId.toList.all isProfileByte) = true
      · rw [if_pos hbad] at hvalid
        cases hvalid
      · simp only [Bool.or_eq_true, not_or, decide_eq_true_eq, Nat.not_lt] at hbad
        exact hbad.1.1.2.trans_lt (by decide)
  intro part hpart
  have hbound : (256 : ℕ) < 2 ^ 64 := by decide
  simp only [SessionStartRequest.target, List.mem_cons, List.not_mem_nil, or_false] at hpart
  rcases hpart with rfl | rfl | rfl | rfl | rfl | rfl | rfl
  · exact h.agentSession.trans_lt hbound
  · exact h.task.trans_lt hbound
  · exact h.run.trans_lt hbound
  · exact h.provider.trans_lt hbound
  · exact h.environment.trans_lt hbound
  · exact hworkspace
  · exact hprofile

theorem target_injective (hfirst : Identified first) (hsecond : Identified second) (h : first.target = second.target) :
    second = { first with requestId := second.requestId } := by
  obtain ⟨firstId, firstSession, firstTask, firstRun, firstProvider, firstEnvironment, firstWorkspace, firstProfile⟩ := first
  obtain ⟨secondId, secondSession, secondTask, secondRun, secondProvider, secondEnvironment, secondWorkspace,
    secondProfile⟩ := second
  simp only [SessionStartRequest.target, List.cons.injEq, and_true] at h
  obtain ⟨rfl, rfl, rfl, rfl, rfl, rfl, hprofile⟩ := h
  -- an absent profile and a present one cannot meet: the present one is not empty
  cases firstProfile with
  | none =>
    cases secondProfile with
    | none => rfl
    | some profileId =>
      exact absurd (show profileId = "" from hprofile.symm) (ne_empty_of_validateProfileId (hsecond.profile profileId rfl))
  | some profileId =>
    cases secondProfile with
    | none => exact absurd (show profileId = "" from hprofile) (ne_empty_of_validateProfileId (hfirst.profile profileId rfl))
    | some other =>
      obtain rfl : profileId = other := hprofile
      rfl

theorem digest_injective (hfirst : Identified first) (hsecond : Identified second)
    (hsize : first.workspacePath.utf8ByteSize < 2 ^ 64) (hsize' : second.workspacePath.utf8ByteSize < 2 ^ 64)
    (free : sha256 (framedTarget first.target) = sha256 (framedTarget second.target) →
      framedTarget first.target = framedTarget second.target)
    (h : digestTarget sha256 first.target = digestTarget sha256 second.target) :
    second = { first with requestId := second.requestId } := by
  refine target_injective hfirst hsecond ?_
  by_contra hne
  exact digestTarget_ne (hfirst.sized hsize) (hsecond.sized hsize') free hne h

/-! ## A used identity -/

theorem beginStartRequest_of_target_ne {requestId target eventType : String} {session : NewSession} {acceptingNew : Bool}
    {payload : Value} {tick : Tick} {db : Database} {row : ControlRequest} (hrow : db.request requestId = some row)
    (hne : row.targetId ≠ target) :
    ∃ error, beginStartRequest requestId target session acceptingNew eventType payload tick db = .error error := by
  cases hbegin : beginStartRequest requestId target session acceptingNew eventType payload tick db with
  | error error => exact ⟨error, rfl⟩
  | ok answered =>
    rcases beginStartRequest_ok hbegin with ⟨found, hfound, -, htarget, -, -⟩ | ⟨hnone, -⟩ | ⟨event, -, -, hadmits⟩
    · obtain rfl : row = found := Option.some.inj (hrow.symm.trans hfound)
      exact absurd htarget hne
    · rw [hrow] at hnone
      cases hnone
    · rw [hadmits.fresh_request] at hrow
      cases hrow

theorem admitStart_of_target_ne {request : SessionStartRequest} {w : World Database Runtime} {row : ControlRequest}
    (hrow : w.durable.request request.requestId = some row) (hne : row.targetId ≠ digestTarget sha256 request.target) :
    (∃ error, (admitStart sha256 isAbsolute request w).1 = .error error) ∧
      (admitStart sha256 isAbsolute request w).2.durable = w.durable := by
  unfold admitStart
  cases validateStartIdentity isAbsolute request with
  | error error => exact ⟨⟨_, rfl⟩, rfl⟩
  | ok u =>
    simp only [bind_apply, asks_apply]
    rcases call_cases (beginStartRequest request.requestId (digestTarget sha256 request.target) request.session
        (!w.volatile.shuttingDown) "session.created" (.object [("providerId", .string request.providerId)])) w with
      ⟨error, herror, -⟩ | ⟨answer, db, -, hbegin, -⟩
    · rw [herror]
      exact ⟨⟨_, rfl⟩, rfl⟩
    · obtain ⟨error, hrefused⟩ := beginStartRequest_of_target_ne hrow hne
      rw [hrefused] at hbegin
      cases hbegin

/-- Two starts that pass the checks share a digest only if all their digested fields are equal. -/
theorem start_identity_injective (hfirst : validateStartIdentity isAbsolute first = .ok ())
    (hsecond : validateStartIdentity isAbsolute second = .ok ())
    (hsize : first.workspacePath.utf8ByteSize < 2 ^ 64) (hsize' : second.workspacePath.utf8ByteSize < 2 ^ 64)
    (free : sha256 (framedTarget first.target) = sha256 (framedTarget second.target) →
      framedTarget first.target = framedTarget second.target) :
    (digestTarget sha256 first.target = digestTarget sha256 second.target →
      second = { first with requestId := second.requestId }) ∧
      ∀ (w : World Database Runtime) row, w.durable.request second.requestId = some row →
        row.targetId = digestTarget sha256 first.target → second ≠ { first with requestId := second.requestId } →
        (∃ error, (admitStart sha256 isAbsolute second w).1 = .error error) ∧
          (admitStart sha256 isAbsolute second w).2.durable = w.durable := by
  have hinjective := digest_injective (identified hfirst) (identified hsecond) hsize hsize' free
  refine ⟨hinjective, fun w row hrow htarget hchanged => admitStart_of_target_ne hrow ?_⟩
  rw [htarget]
  exact fun hsame => hchanged (hinjective hsame)

def startHash (input : List UInt8) : String :=
  if input = framedTarget ["s", "t", "r", "neko", "e", "/w", ""] then
    "f592cc3360d1544e59befc6e643698b35c397763ae9c039c578f61647e44e710"
  else if input = framedTarget ["s", "t", "r", "neko", "e", "/w", "dev"] then
    "5d3a9cf647b5cb7401b86670d3d815ac9766cb8d8657f1087edf4e18503c914a"
  else ""

/-- A start without a profile and one with a profile are told apart. -/
theorem start_identity_injective_profile :
    let first : SessionStartRequest := ⟨"q", "s", "t", "r", "neko", "e", "/w", none⟩
    let second : SessionStartRequest := ⟨"q", "s", "t", "r", "neko", "e", "/w", some "dev"⟩
    digestTarget startHash first.target ≠ digestTarget startHash second.target := by
  intro first second h
  let isAbsolute (path : String) : Bool := path.startsWith "/"
  have hfirst : validateStartIdentity isAbsolute first = .ok () := by decide +kernel
  have hsecond : validateStartIdentity isAbsolute second = .ok () := by decide +kernel
  have hsame := (@start_identity_injective startHash isAbsolute _ _ hfirst hsecond (by decide) (by decide) (by decide)).1 h
  cases congrArg SessionStartRequest.profileId hsame

end Wiii.Neko
