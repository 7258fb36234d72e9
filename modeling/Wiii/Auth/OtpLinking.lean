import Wiii.Auth.OneTime

/-!
# How many link codes a user gets

`generate_link_code` counts the codes of the user that are in the table and not older than the window.  The same call
deletes unused codes, so the codes that were generated are more than those counted (`limit_exceeded`).  While no call
deletes a code that is still in the window, the limit holds (`rate_limited`).
-/

namespace Wiii.Auth

/-- A row of `otp_link_codes`.  Times are in microseconds. -/
structure IssuedCode where
  code : String
  createdAt : ℤ
  otp : OtpCode

abbrev CodeTable := Table IssuedCode.code

structure OtpSettings where
  otpLinkExpirySeconds : ℕ := 300
  otpMaxGeneratePerWindow : ℕ := 5
  otpGenerateWindowMinutes : ℕ := 15
  otpMaxVerifyAttempts : ℕ := 5

namespace OtpSettings

def window (settings : OtpSettings) : ℤ := 60 * settings.otpGenerateWindowMinutes * second

def expiry (settings : OtpSettings) : ℤ := settings.otpLinkExpirySeconds * second

end OtpSettings

namespace IssuedCode

def isExpired (now : ℤ) (row : IssuedCode) : Bool := decide (row.otp.expiresAt < now)

/-- A code of the user that was created at `since` or later. -/
def isRecent (userId : String) (since : ℤ) (row : IssuedCode) : Bool :=
  decide (row.otp.userId = userId) && decide (since ≤ row.createdAt)

def isSuperseded (userId channelType : String) (row : IssuedCode) : Bool :=
  decide (row.otp.userId = userId) && decide (row.otp.channelType = channelType) && row.otp.usedAt.isNone

end IssuedCode

/-- A call; `code` is the one it draws, and `cleanup` says that it deletes what has expired. -/
inductive OtpCall where
  | generate (userId channelType code : String) (cleanup : Bool)
  | verify (code : String) (request : LinkRequest)

/-- The table, the clock, and the codes that were generated, which no call reads. -/
structure OtpBoard where
  codes : CodeTable
  clock : ℤ
  generated : List (String × ℤ)

namespace OtpBoard

def initial (clock : ℤ) : OtpBoard := ⟨∅, clock, []⟩

def cleanUp (codes : CodeTable) (cleanup : Bool) (now : ℤ) : CodeTable :=
  if cleanup then codes.deleteWhere (IssuedCode.isExpired now) else codes

variable (settings : OtpSettings)

def recentCount (codes : CodeTable) (userId : String) (now : ℤ) : ℕ :=
  codes.rows.countP (IssuedCode.isRecent userId (now - settings.window))

/-- `generate_link_code`.  It raises when the limit is reached, or when the code is taken. -/
def generateLinkCode (board : OtpBoard) (userId channelType code : String) (cleanup : Bool) (now : ℤ) : OtpBoard :=
  let codes := cleanUp board.codes cleanup now
  if settings.otpMaxGeneratePerWindow ≤ recentCount settings codes userId now then ⟨codes, now, board.generated⟩
  else
    let revoked := codes.deleteWhere (IssuedCode.isSuperseded userId channelType)
    match revoked.insert? ⟨code, now, { userId, channelType, expiresAt := now + settings.expiry }⟩ with
    | some codes => ⟨codes, now, board.generated ++ [(userId, now)]⟩
    | none => ⟨revoked, now, board.generated⟩

/-- `verify_and_link`, as far as it writes to the table. -/
def verifyCode (codes : CodeTable) (code : String) (request : LinkRequest) (now : ℤ) : CodeTable :=
  match otpLook settings.otpMaxVerifyAttempts request now ((codes.find? code).map IssuedCode.otp) with
  | .inl _ => codes
  | .inr plan =>
    codes.updateWhere (fun row => decide (row.code = code)) fun row => { row with otp := otpWrite plan now row.otp }

def apply (board : OtpBoard) (now : ℤ) : OtpCall → OtpBoard
  | .generate userId channelType code cleanup => board.generateLinkCode settings userId channelType code cleanup now
  | .verify code request => ⟨verifyCode settings board.codes code request now, now, board.generated⟩

/-- The calls one after the other, each with the time of a clock that does not go back. -/
def Step (board : OtpBoard) (call : OtpCall × ℤ) (board' : OtpBoard) : Prop :=
  board.clock ≤ call.2 ∧ board' = board.apply settings call.2 call.1

def generatedFor (board : OtpBoard) (userId : String) : List ℤ :=
  (board.generated.filter fun g => decide (g.1 = userId)).map Prod.snd

/-- The call deletes no code of the user that was created in the window. -/
def KeepsRecent (userId : String) (board : OtpBoard) (call : OtpCall × ℤ) : Prop :=
  match call with
  | (.generate user channelType _ cleanup, now) =>
    ∀ row ∈ board.codes.rows, row.isRecent userId (now - settings.window) →
      (cleanup = true → row.isExpired now = false) ∧
      (recentCount settings (cleanUp board.codes cleanup now) user now < settings.otpMaxGeneratePerWindow →
        row.isSuperseded user channelType = false)
  | (.verify .., _) => True

/-! ## Counting rows -/

variable {settings} {board board' : OtpBoard} {userId : String} {now since : ℤ}

theorem countP_deleteWhere {codes : CodeTable} {p q : IssuedCode → Bool}
    (h : ∀ row ∈ codes.rows, q row = true → p row = false) :
    (codes.deleteWhere p).rows.countP q = codes.rows.countP q := by
  rw [Table.deleteWhere, List.countP_filter]
  refine List.countP_congr fun row hrow => ?_
  rw [Bool.and_eq_true, Bool.not_eq_true', and_iff_left_iff_imp]
  exact h row hrow

theorem isRecent_mono {row : IssuedCode} {later : ℤ} (hle : since ≤ later) (h : row.isRecent userId later = true) :
    row.isRecent userId since = true := by
  simp only [IssuedCode.isRecent, Bool.and_eq_true, decide_eq_true_eq] at h ⊢
  exact ⟨h.1, hle.trans h.2⟩

theorem countP_verifyCode (codes : CodeTable) (code : String) (request : LinkRequest) :
    (verifyCode settings codes code request now).rows.countP (IssuedCode.isRecent userId since) =
      codes.rows.countP (IssuedCode.isRecent userId since) := by
  unfold verifyCode
  split
  · rfl
  next plan _ =>
    rw [Table.updateWhere, List.countP_map]
    refine List.countP_congr fun row _ => ?_
    simp only [Function.comp_apply]
    split
    · cases plan <;> rfl
    · rfl

theorem countP_insert {codes codes' : CodeTable} {row : IssuedCode} (h : codes.insert? row = some codes') :
    codes'.rows.countP (IssuedCode.isRecent userId since) =
      codes.rows.countP (IssuedCode.isRecent userId since) + if row.isRecent userId since then 1 else 0 := by
  rw [(Table.insert?_eq_some_iff.1 h).2, List.countP_append, List.countP_singleton]

/-! ## Runs -/

/-- Every code of the window is in the table, and no window has more than are allowed. -/
structure Limited (settings : OtpSettings) (userId : String) (board : OtpBoard) : Prop where
  kept : ∀ since, board.clock - settings.window ≤ since →
    (board.generatedFor userId).countP (fun time => decide (since ≤ time)) ≤
      board.codes.rows.countP (IssuedCode.isRecent userId since)
  limit : ∀ start, (board.generatedFor userId).countP
      (fun time => decide (start ≤ time) && decide (time ≤ start + settings.window)) ≤ settings.otpMaxGeneratePerWindow

theorem generatedFor_append (board : OtpBoard) (codes : CodeTable) (clock : ℤ) (user : String) (now : ℤ) :
    OtpBoard.generatedFor ⟨codes, clock, board.generated ++ [(user, now)]⟩ userId =
      board.generatedFor userId ++ if user = userId then [now] else [] := by
  by_cases h : user = userId <;> simp [OtpBoard.generatedFor, h]

namespace Limited

/-- A call that generates no code and deletes no recent one. -/
theorem unchanged {codes : CodeTable} (h : Limited settings userId board) (hnow : board.clock ≤ now)
    (hcodes : ∀ since, now - settings.window ≤ since → codes.rows.countP (IssuedCode.isRecent userId since) =
      board.codes.rows.countP (IssuedCode.isRecent userId since)) :
    Limited settings userId ⟨codes, now, board.generated⟩ := by
  refine ⟨fun since hsince => ?_, h.limit⟩
  simp only at hsince ⊢
  rw [hcodes since hsince]
  exact h.kept since (by omega)

theorem generate {user channelType code : String} {cleanup : Bool} (h : Limited settings userId board)
    (hnow : board.clock ≤ now) (hkeeps : KeepsRecent settings userId board (.generate user channelType code cleanup, now)) :
    Limited settings userId (board.generateLinkCode settings user channelType code cleanup now) := by
  have hclean : ∀ since, now - settings.window ≤ since →
      (cleanUp board.codes cleanup now).rows.countP (IssuedCode.isRecent userId since) =
        board.codes.rows.countP (IssuedCode.isRecent userId since) := by
    intro since hsince
    unfold cleanUp
    split
    next hcleanup =>
      exact countP_deleteWhere fun row hrow hrecent => (hkeeps row hrow (isRecent_mono hsince hrecent)).1 hcleanup
    next => rfl
  have hmem : ∀ row ∈ (cleanUp board.codes cleanup now).rows, row ∈ board.codes.rows := by
    intro row hrow
    unfold cleanUp at hrow
    split at hrow
    · exact (Table.mem_deleteWhere.1 hrow).1
    · exact hrow
  unfold generateLinkCode
  dsimp only
  split
  next => exact h.unchanged hnow hclean
  next hroom =>
    rw [Nat.not_le] at hroom
    have hrevoked : ∀ since, now - settings.window ≤ since →
        ((cleanUp board.codes cleanup now).deleteWhere (IssuedCode.isSuperseded user channelType)).rows.countP
            (IssuedCode.isRecent userId since) = board.codes.rows.countP (IssuedCode.isRecent userId since) := by
      intro since hsince
      rw [← hclean since hsince]
      exact countP_deleteWhere fun row hrow hrecent =>
        (hkeeps row (hmem row hrow) (isRecent_mono hsince hrecent)).2 hroom
    split
    next codes hinsert =>
      have hrows : ∀ since, now - settings.window ≤ since → codes.rows.countP (IssuedCode.isRecent userId since) =
          board.codes.rows.countP (IssuedCode.isRecent userId since) +
            if user = userId ∧ since ≤ now then 1 else 0 := by
        intro since hsince
        rw [countP_insert hinsert, hrevoked since hsince]
        simp only [IssuedCode.isRecent, Bool.and_eq_true, decide_eq_true_eq]
      have hold (since : ℤ) (hsince : now - settings.window ≤ since) := h.kept since (by omega)
      refine ⟨fun since hsince => ?_, fun start => ?_⟩
      · simp only at hsince ⊢
        have hle := hold since hsince
        rw [generatedFor_append, List.countP_append, hrows since hsince]
        by_cases huser : user = userId
        · rw [if_pos huser, List.countP_singleton]
          simp only [huser, true_and, decide_eq_true_eq]
          exact Nat.add_le_add_right hle _
        · rw [if_neg huser, List.countP_nil]
          exact Nat.le_add_right_of_le hle
      · rw [generatedFor_append, List.countP_append]
        by_cases hin : user = userId ∧ start ≤ now ∧ now ≤ start + settings.window
        · obtain ⟨huser, hstart, hend⟩ := hin
          -- the window reaches back no further than the one that was counted
          have hwindow : (board.generatedFor userId).countP
              (fun time => decide (start ≤ time) && decide (time ≤ start + settings.window)) ≤
                (board.generatedFor userId).countP fun time => decide (now - settings.window ≤ time) := by
            refine List.countP_mono_left fun time _ htime => ?_
            simp only [Bool.and_eq_true, decide_eq_true_eq] at htime ⊢
            omega
          have hcount := hold (now - settings.window) le_rfl
          have hbefore := hclean (now - settings.window) le_rfl
          rw [recentCount, huser] at hroom
          have hone : List.countP (fun time => decide (start ≤ time) && decide (time ≤ start + settings.window))
              (if user = userId then [now] else []) ≤ 1 := by
            rw [if_pos huser]
            exact List.countP_le_length
          omega
        · have hnone : List.countP (fun time => decide (start ≤ time) && decide (time ≤ start + settings.window))
              (if user = userId then [now] else []) = 0 := by
            rw [List.countP_eq_zero]
            intro time htime htrue
            split at htime
            next huser =>
              rw [List.mem_singleton.1 htime] at htrue
              exact hin ⟨huser, by simpa using htrue⟩
            next => cases htime
          rw [hnone]
          exact h.limit start
    next => exact h.unchanged hnow hrevoked

theorem step {call : OtpCall × ℤ} (h : Limited settings userId board) (hkeeps : KeepsRecent settings userId board call)
    (hstep : Step settings board call board') : Limited settings userId board' := by
  obtain ⟨call, now⟩ := call
  obtain ⟨hnow, rfl⟩ := hstep
  cases call with
  | generate user channelType code cleanup => exact h.generate hnow hkeeps
  | verify code request => exact h.unchanged hnow fun since _ => countP_verifyCode _ _ _

end Limited

/-- While no call deletes a recent code of the user, no window has more codes than are allowed. -/
theorem rate_limited (settings : OtpSettings) (userId : String) (clock : ℤ) (calls : List (OtpCall × ℤ)) (board : OtpBoard)
    (hrun : Run (Guarded (Step settings) (KeepsRecent settings userId)) (initial clock) calls board) (start : ℤ) :
    (board.generatedFor userId).countP
        (fun time => decide (start ≤ time) && decide (time ≤ start + settings.window)) ≤
      settings.otpMaxGeneratePerWindow := by
  have hinitial : Limited settings userId (initial clock) := ⟨fun _ _ => Nat.zero_le _, fun _ => Nat.zero_le _⟩
  have hlimited : Limited settings userId board :=
    hrun.invariant (I := Limited settings userId) (fun _ _ _ hI hstep => hI.step hstep.2 hstep.1) hinitial
  exact hlimited.limit start

theorem rate_limited_two_channels : ∃ board, Run (Guarded (Step {}) (KeepsRecent {} "u")) (initial 0)
    [(.generate "u" "zalo" "100000" true, 0), (.generate "u" "messenger" "100001" false, 1)] board ∧
      (board.generatedFor "u").countP (fun time => decide (0 ≤ time) && decide (time ≤ 0 + OtpSettings.window {})) ≤ 5 := by
  have hfirst : KeepsRecent {} "u" (initial 0) (.generate "u" "zalo" "100000" true, 0) := fun row hrow => by cases hrow
  have hsecond : KeepsRecent {} "u" ((initial 0).apply {} 0 (.generate "u" "zalo" "100000" true))
      (.generate "u" "messenger" "100001" false, 1) := by
    intro row hrow hrecent
    have hrow : row ∈ [(⟨"100000", 0, { userId := "u", channelType := "zalo", expiresAt := 300000000 }⟩ : IssuedCode)] :=
      hrow
    cases List.mem_singleton.1 hrow
    exact ⟨nofun, fun _ => by decide⟩
  have hstep : Guarded (Step {}) (KeepsRecent {} "u") (initial 0) (.generate "u" "zalo" "100000" true, 0)
      ((initial 0).apply {} 0 (.generate "u" "zalo" "100000" true)) := ⟨⟨le_rfl, rfl⟩, hfirst⟩
  have hrun := Run.cons hstep (Run.single ⟨⟨by decide, rfl⟩, hsecond⟩)
  exact ⟨_, hrun, rate_limited {} "u" 0 _ _ hrun 0⟩

/-- Six codes for one channel, of which each supersedes the one before. -/
def sixCodes : List (OtpCall × ℤ) :=
  [(.generate "u" "zalo" "100000" false, 0), (.generate "u" "zalo" "100001" false, 1),
    (.generate "u" "zalo" "100002" false, 2), (.generate "u" "zalo" "100003" false, 3),
    (.generate "u" "zalo" "100004" false, 4), (.generate "u" "zalo" "100005" false, 5)]

theorem limit_exceeded : ∃ board, Run (Step {}) (initial 0) sixCodes board ∧
    OtpSettings.otpMaxGeneratePerWindow {} <
      (board.generatedFor "u").countP fun time => decide (0 ≤ time) && decide (time ≤ 0 + OtpSettings.window {}) := by
  refine ⟨_, .cons ⟨by decide, rfl⟩ (.cons ⟨by decide, rfl⟩ (.cons ⟨by decide, rfl⟩ (.cons ⟨by decide, rfl⟩
    (.cons ⟨by decide, rfl⟩ (.cons ⟨by decide, rfl⟩ (.nil _)))))), ?_⟩
  decide

end OtpBoard

end Wiii.Auth
