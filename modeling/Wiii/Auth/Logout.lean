import Wiii.Auth.Rotation

/-!
# Logging out everywhere

`revoke_user_tokens` revokes the rows of the user.  Two kinds of tokens escape it: the successor that a rotation under
way stores afterwards, and the signed tokens of the degraded mode.  Where neither is there, no token of a chain that a
login of the user began before gives a pair any more (`logged_out`).
-/

namespace Wiii.Auth

open Function (update update_self update_of_ne)

namespace TokenState

variable (s : TokenState)

def Yields (c : ℕ) (token : RefreshToken) : Prop := ∃ pair, s.stage c = .returned (.refresh token) (some pair)

def ChainOf (token : RefreshToken) (chain : ℕ) : Prop :=
  match token with
  | .stored id => ∃ row, s.rows.find? id = some row ∧ row.chain = chain
  | .signed _ begun => begun = chain

/-- A rotation finds its row active; where a user's tokens are revoked, none is in rotation, and signed ones have
expired. -/
def Settled (a : TokenAct × ℤ) : Prop :=
  match a.1 with
  | .rotate c outcome => ∀ row identity, s.stage c = .rotating row identity → outcome ≠ .failed → s.Alive row.id
  | .revokeAll c outcome => ∀ userId, s.stage c = .revoking userId → outcome = .done →
      (∀ other creation, (s.stage other).Creates creation → creation.parent ≠ none → creation.identity.sub ≠ userId) ∧
        ∀ claims chain, (claims, chain) ∈ s.signed → claims.identity.sub = userId → claims.exp * second ≤ a.2
  | _ => True

/-- Every row and every signed token belongs to one login, and each login began one chain. -/
structure Lineage : Prop where
  rows : ∀ id row, s.rows.find? id = some row → (row.chain, row.userId) ∈ s.logins
  signed : ∀ claims chain, (claims, chain) ∈ s.signed → (chain, claims.identity.sub) ∈ s.logins
  returned : ∀ chain userId, (chain, userId) ∈ s.logins → ∃ cause pair, s.stage chain = .returned cause pair
  unique : ∀ chain first other, (chain, first) ∈ s.logins → (chain, other) ∈ s.logins → first = other

/-- The chain gives no token any more. -/
structure Closed (chain : ℕ) : Prop where
  begun : ∃ userId, (chain, userId) ∈ s.logins
  rows : ∀ id row, s.rows.find? id = some row → row.chain = chain → ¬ row.Active
  calls : ∀ c creation, (s.stage c).Creates creation → creation.chain ≠ chain
  signed : ∀ claims, (claims, chain) ∈ s.signed → claims.exp * second ≤ s.clock

end TokenState

namespace RefreshService

open TokenState

variable {k : RefreshService} {s t : TokenState} {a : TokenAct × ℤ} {as : List (TokenAct × ℤ)} {c id chain : ℕ}
  {stage : CallStage} {creation : Creation} {cause : Cause} {userId : String} {token : RefreshToken}

/-! ## Chains and their users -/

theorem Step.returned (h : k.Step s a t) {pair : Option TokenPair} (hs : s.stage c = .returned cause pair) :
    t.stage c = .returned cause pair := by
  rcases h.moves with hstage | ⟨moved, stage, hstage, -, hopen⟩
  · rw [hstage]
    exact hs
  · have hne : c ≠ moved := by
      rintro rfl
      rw [hs] at hopen
      exact hopen
    rw [hstage, update_of_ne hne]
    exact hs

theorem mem_withLogin {login : ℕ × String} :
    login ∈ (s.withLogin creation).logins ↔
      login ∈ s.logins ∨ creation.parent = none ∧ login = (creation.chain, creation.identity.sub) := by
  unfold withLogin Creation.begun
  cases creation.parent with
  | none => simp
  | some _ => simp

theorem Step.logins (h : k.Step s a t) {login : ℕ × String} (hlogin : login ∈ s.logins) : login ∈ t.logins := by
  cases h.hands with
  | quiet _ logins => exact logins ▸ hlogin
  | issue _ _ _ logins => exact logins ▸ mem_withLogin.2 (Or.inl hlogin)
  | renew _ _ _ _ logins => exact logins ▸ hlogin

theorem login_of_creates (hsound : s.Sound) (hs : s.Lineage) (hcreates : (s.stage c).Creates creation)
    (hlogins : t.logins = (s.withLogin creation).logins) : (creation.chain, creation.identity.sub) ∈ t.logins := by
  rw [hlogins, mem_withLogin]
  rcases (hsound.calls c).of_creates hcreates with ⟨hnone, -⟩ | ⟨id, -, row, hrow, -, hchain, huser⟩
  · exact Or.inr ⟨hnone, rfl⟩
  · left
    rw [← hchain, ← huser]
    exact hs.rows id row hrow

theorem not_login_of_creates (hsound : s.Sound) (hs : s.Lineage) (hcreates : (s.stage c).Creates creation)
    (hnone : creation.parent = none) : (creation.chain, userId) ∉ s.logins := by
  intro hlogin
  rcases (hsound.calls c).of_creates hcreates with ⟨-, -, hchain⟩ | ⟨id, hparent, -⟩
  · obtain ⟨cause, pair, hreturned⟩ := hs.returned creation.chain userId hlogin
    rw [hchain] at hreturned
    rcases hcreates with h | h
    · rw [hreturned] at h
      cases h
    · rw [hreturned] at h
      cases h
  · rw [hnone] at hparent
    cases hparent

theorem Step.lineage (h : k.Step s a t) (hsound : s.Sound) (hs : s.Lineage) : t.Lineage := by
  refine ⟨fun id row hrow => ?_, fun claims chain hsigned => ?_, fun chain userId hlogin => ?_,
    fun chain first other hfirst hother => ?_⟩
  · rcases h.rows with hmapped | ⟨c, creation, hinserts⟩
    · obtain ⟨old, hold, hbecomes⟩ := hmapped.exists_row hrow
      rw [hbecomes.chain, hbecomes.user]
      exact h.logins (hs.rows id old hold)
    · rw [hinserts.find?] at hrow
      split at hrow
      · cases hrow
        exact login_of_creates hsound hs (Or.inr hinserts.inserting) hinserts.logins
      · exact h.logins (hs.rows id row hrow)
  · cases h.hands with
    | quiet signed _ => exact h.logins (hs.signed claims chain (signed ▸ hsigned))
    | @issue c creation pair creates _ signed logins =>
      rcases signed with hsame | ⟨new, hidentity, hnew⟩
      · exact h.logins (hs.signed claims chain (hsame ▸ hsigned))
      · rw [hnew] at hsigned
        rcases List.mem_append.1 hsigned with hold | hlast
        · exact h.logins (hs.signed claims chain hold)
        · cases List.mem_singleton.1 hlast
          rw [hidentity]
          exact login_of_creates hsound hs creates logins
    | @renew old renewed begun issued _ user signed _ =>
      rw [signed] at hsigned
      rcases List.mem_append.1 hsigned with hold | hlast
      · exact h.logins (hs.signed claims chain hold)
      · cases List.mem_singleton.1 hlast
        rw [user]
        exact h.logins (hs.signed old chain issued)
  · cases h.hands with
    | quiet _ logins =>
      obtain ⟨cause, pair, hreturned⟩ := hs.returned chain userId (logins ▸ hlogin)
      exact ⟨cause, pair, h.returned hreturned⟩
    | @issue c creation pair creates stage _ logins =>
      rw [logins, mem_withLogin] at hlogin
      rcases hlogin with hold | ⟨hnone, hnew⟩
      · obtain ⟨cause, pair, hreturned⟩ := hs.returned chain userId hold
        exact ⟨cause, pair, h.returned hreturned⟩
      · cases hnew
        rcases (hsound.calls c).of_creates creates with ⟨-, -, hchain⟩ | ⟨id, hparent, -⟩
        · exact ⟨_, _, by rw [stage, hchain, update_self]⟩
        · rw [hnone] at hparent
          cases hparent
    | renew _ _ _ _ logins =>
      obtain ⟨cause, pair, hreturned⟩ := hs.returned chain userId (logins ▸ hlogin)
      exact ⟨cause, pair, h.returned hreturned⟩
  · cases h.hands with
    | quiet _ logins => exact hs.unique chain first other (logins ▸ hfirst) (logins ▸ hother)
    | @issue c creation pair creates _ _ logins =>
      have hfresh : creation.parent = none → ∀ user, (creation.chain, user) ∉ s.logins := by
        intro hnone user hlogin
        exact not_login_of_creates hsound hs creates hnone hlogin
      rw [logins, mem_withLogin] at hfirst hother
      rcases hfirst with hfirst | ⟨hnone, hfirst⟩
      · rcases hother with hother | ⟨hnone, hother⟩
        · exact hs.unique chain first other hfirst hother
        · cases hother
          exact absurd hfirst (hfresh hnone first)
      · cases hfirst
        rcases hother with hother | ⟨-, hother⟩
        · exact absurd hother (hfresh hnone other)
        · cases hother
          rfl
    | renew _ _ _ _ logins => exact hs.unique chain first other (logins ▸ hfirst) (logins ▸ hother)

theorem lineage_init : ({} : TokenState).Lineage where
  rows _ _ h := nomatch h
  signed _ _ h := nomatch h
  returned _ _ h := nomatch h
  unique _ _ _ h := nomatch h

/-! ## A closed chain -/

theorem Step.chainOf (h : k.Step s a t) (hs : s.Closed chain) (hchain : t.ChainOf token chain) :
    s.ChainOf token chain := by
  cases token with
  | signed _ _ => exact hchain
  | stored id =>
    obtain ⟨row, hrow, hrowChain⟩ := hchain
    rcases h.rows with hmapped | ⟨c, creation, hinserts⟩
    · obtain ⟨old, hold, hbecomes⟩ := hmapped.exists_row hrow
      exact ⟨old, hold, hbecomes.chain.symm.trans hrowChain⟩
    · rw [hinserts.find?] at hrow
      split at hrow
      · cases hrow
        exact absurd hrowChain (hs.calls c creation (Or.inr hinserts.inserting))
      · exact ⟨row, hrow, hrowChain⟩

theorem Step.closed (h : Guarded k.Step Settled s a t) (hsound : s.Sound) (hlineage : s.Lineage) (hs : s.Closed chain) :
    t.Closed chain := by
  obtain ⟨hstep, hsettled⟩ := h
  obtain ⟨userId, hbegun⟩ := hs.begun
  refine ⟨⟨userId, hstep.logins hbegun⟩, fun id row hrow hchain => ?_, fun c creation hcreates => ?_,
    fun claims hsigned => ?_⟩
  · rcases hstep.rows with hmapped | ⟨c, creation, hinserts⟩
    · obtain ⟨old, hold, hbecomes⟩ := hmapped.exists_row hrow
      exact fun hactive => hs.rows id old hold (hbecomes.chain ▸ hchain) (hbecomes.active hactive)
    · rw [hinserts.find?] at hrow
      split at hrow
      · cases hrow
        exact absurd hchain (hs.calls c creation (Or.inr hinserts.inserting))
      · exact hs.rows id row hrow hchain
  · rcases hstep.moves with hstage | ⟨moved, stage, hstage, hmove, hopen⟩
    · rw [hstage] at hcreates
      exact hs.calls c creation hcreates
    · rw [hstage] at hcreates
      by_cases hc : c = moved
      · subst hc
        rw [update_self] at hcreates
        rcases hcreates with rfl | rfl
        · cases hmove with
          | quiet hquiet => exact hquiet.elim
          | login _ =>
            -- the login that began the chain has returned
            rintro rfl
            obtain ⟨cause, pair, hreturned⟩ := hlineage.returned c userId hbegun
            rw [hreturned] at hopen
            exact hopen
          | @create row identity hrotating hact _ =>
            intro hchain
            have halive : s.Alive row.id := by
              unfold Settled at hsettled
              rw [hact] at hsettled
              exact hsettled row identity hrotating (by decide)
            have hcall := hsound.calls c
            rw [hrotating] at hcall
            obtain ⟨⟨found, hfound, -, hfoundChain, -⟩, -⟩ := hcall
            exact not_dead_of_alive halive ⟨found, hfound, hs.rows row.id found hfound (hfoundChain.trans hchain)⟩
        · cases hmove with
          | quiet hquiet => exact hquiet.elim
          | proceed creating => exact hs.calls c creation (Or.inl creating)
      · rw [update_of_ne hc] at hcreates
        exact hs.calls c creation hcreates
  · obtain ⟨htick, hclock⟩ := hstep.tick
    have hold : ∀ {old : Claims}, (old, chain) ∈ s.signed → old.exp * second ≤ t.clock := by
      intro old hmem
      have := hs.signed old hmem
      omega
    cases hstep.hands with
    | quiet signed _ => exact hold (signed ▸ hsigned)
    | @issue c creation pair creates _ signed _ =>
      rcases signed with hsame | ⟨new, -, hnew⟩
      · exact hold (hsame ▸ hsigned)
      · rw [hnew] at hsigned
        rcases List.mem_append.1 hsigned with hmem | hlast
        · exact hold hmem
        · cases List.mem_singleton.1 hlast
          exact absurd rfl (hs.calls c creation creates)
    | @renew old renewed begun issued live _ signed _ =>
      rw [signed] at hsigned
      rcases List.mem_append.1 hsigned with hmem | hlast
      · exact hold hmem
      · cases List.mem_singleton.1 hlast
        have := hs.signed old issued
        omega

theorem Step.yields (h : k.Step s a t) (hsound : s.Sound) (hs : s.Closed chain) (hchain : s.ChainOf token chain)
    (hyields : t.Yields c token) : s.Yields c token := by
  obtain ⟨pair, hpair⟩ := hyields
  rcases h.moves with hstage | ⟨moved, stage, hstage, hmove, -⟩
  · exact ⟨pair, hstage ▸ hpair⟩
  · rw [hstage] at hpair
    by_cases hc : c = moved
    · subst hc
      rw [update_self] at hpair
      subst hpair
      generalize hcause : Cause.refresh token = cause at hmove
      cases hmove with
      | quiet hquiet => exact hquiet.elim
      | @issue creation _ creates =>
        rcases (hsound.calls c).of_creates creates with ⟨hnone, -⟩ | ⟨id, hparent, row, hrow, -, hrowChain, -⟩
        · rw [Creation.cause, hnone] at hcause
          cases hcause
        · rw [Creation.cause, hparent] at hcause
          cases hcause
          obtain ⟨found, hfound, hfoundChain⟩ := hchain
          rw [hrow] at hfound
          cases hfound
          exact absurd (hrowChain.symm.trans hfoundChain) (hs.calls c creation creates)
      | @signed claims begun _ issued live =>
        cases hcause
        have hbegun : begun = chain := hchain
        subst hbegun
        have := hs.signed claims issued
        obtain ⟨htick, -⟩ := h.tick
        omega
    · rw [update_of_ne hc] at hpair
      exact ⟨pair, hpair⟩

/-! ## The logout -/

theorem not_active_revokedAll {now : ℤ} {row : RefreshRow} (hrow : (s.revokedAll userId now).rows.find? id = some row)
    (huser : row.userId = userId) : ¬ row.Active := by
  simp only [revokedAll, Table.find?_updateWhere] at hrow
  obtain ⟨old, -, rfl⟩ := Option.map_eq_some_iff.1 hrow
  split
  · intro hactive
    cases hactive
  · rename_i hkept
    rw [if_neg hkept] at huser
    exact fun hactive => hkept (decide_eq_true ⟨huser, hactive⟩)

theorem Step.closed_of_logout {now : ℤ} (h : Guarded k.Step Settled s (.revokeAll c .done, now) t)
    (hrevoking : s.stage c = .revoking userId) (hsound : s.Sound) (hlineage : s.Lineage)
    (hlogin : (chain, userId) ∈ s.logins) : t.Closed chain := by
  obtain ⟨hstep, hsettled⟩ := h
  obtain ⟨hstill, hexpired⟩ := hsettled userId hrevoking rfl
  have htLineage := hstep.lineage hsound hlineage
  have hbegun := hstep.logins hlogin
  have hclock := hstep.tick.2
  cases hstep with
  | @revokeAll _ user _ _ _ revoking _ =>
    rw [hrevoking] at revoking
    cases revoking
    refine ⟨⟨userId, hbegun⟩, fun id row hrow hchain => ?_, fun other creation hcreates => ?_, fun claims hsigned => ?_⟩
    · have huser : row.userId = userId :=
        htLineage.unique chain row.userId userId (hchain ▸ htLineage.rows id row hrow) hbegun
      exact not_active_revokedAll hrow huser
    · change (update s.stage c _ other).Creates creation at hcreates
      by_cases hother : other = c
      · rw [hother, update_self] at hcreates
        rcases hcreates with h | h <;> cases h
      · rw [update_of_ne hother] at hcreates
        rintro hchain
        rcases (hsound.calls other).of_creates hcreates with ⟨hnone, -⟩ | ⟨id, hparent, row, hrow, -, hrowChain, hrowUser⟩
        · exact not_login_of_creates hsound hlineage hcreates hnone (hchain ▸ hlogin)
        · have huser : row.userId = userId := by
            apply hlineage.unique chain row.userId userId _ hlogin
            rw [← hchain, ← hrowChain]
            exact hlineage.rows id row hrow
          apply hstill other creation hcreates _ (hrowUser.symm.trans huser)
          rw [hparent]
          exact Option.some_ne_none id
    · rw [hclock]
      apply hexpired claims chain hsigned
      exact hlineage.unique chain _ userId (hlineage.signed claims chain hsigned) hlogin

theorem yields_of_run (run : Run (Guarded k.Step Settled) s as t) (hsound : s.Sound) (hlineage : s.Lineage)
    (hs : s.Closed chain) : ∀ c token, t.ChainOf token chain → t.Yields c token → s.Yields c token := by
  have hkeep := run.invariant
    (I := fun u => u.Sound ∧ u.Lineage ∧ u.Closed chain ∧
      ∀ c token, u.ChainOf token chain → u.Yields c token → s.Yields c token)
    (fun u a v hu h => ?_) ⟨hsound, hlineage, hs, fun _ _ _ h => h⟩
  · exact hkeep.2.2.2
  · obtain ⟨hsoundU, hlineageU, hclosedU, hyieldsU⟩ := hu
    refine ⟨h.1.sound hsoundU, h.1.lineage hsoundU hlineageU, Step.closed h hsoundU hlineageU hclosedU, ?_⟩
    intro c token hchain hyields
    have hold := Step.chainOf h.1 hclosedU hchain
    exact hyieldsU c token hold (Step.yields h.1 hsoundU hclosedU hold hyields)

/-! ## The result -/

/-- A token of a chain that a login of the user began before a logout gives a pair after it. -/
def Escapes (k : RefreshService) (as bs : List (TokenAct × ℤ)) (c : ℕ) (now : ℤ) : Prop :=
  ∃ s t u chain userId other token, Run k.Step {} as s ∧ k.Step s (.revokeAll c .done, now) t ∧
    s.stage c = .revoking userId ∧ Run k.Step t bs u ∧ (chain, userId) ∈ s.logins ∧ u.ChainOf token chain ∧
    u.Yields other token ∧ ¬ t.Yields other token

theorem run_logout :
    ∃ s t u : TokenState, Run (Guarded devService.Step Settled) {} (signIn 0 ++ [(.logout 1 "u", 0)]) s ∧
      Guarded devService.Step Settled s (.revokeAll 1 .done, 0) t ∧ s.stage 1 = .revoking "u" ∧
      Run (Guarded devService.Step Settled) t [(.present 2 (.stored 0) "a" "r", 0)] u ∧ (0, "u") ∈ s.logins := by
  refine ⟨_, _, _, .cons ⟨.login le_rfl rfl, trivial⟩ (.cons ⟨.proceed le_rfl rfl (by decide), trivial⟩
    (.cons ⟨.insert le_rfl rfl, trivial⟩ (.single ⟨.logout le_rfl rfl, trivial⟩))),
    ⟨.revokeAll le_rfl rfl (by decide), fun userId hrevoking _ => ⟨fun other creation h _ => ?_, fun _ _ h => nomatch h⟩⟩,
    rfl, .single ⟨.presentStored le_rfl rfl, trivial⟩, List.mem_singleton.2 rfl⟩
  rcases other with _ | _ | other <;> rcases h with h | h <;> cases h

/-- After a logout no token of a chain that a login of the user began before gives a pair any more. -/
theorem logged_out {bs : List (TokenAct × ℤ)} {u : TokenState} {now : ℤ} (run : Run (Guarded k.Step Settled) {} as s)
    (hlogout : Guarded k.Step Settled s (.revokeAll c .done, now) t) (hrevoking : s.stage c = .revoking userId)
    (after : Run (Guarded k.Step Settled) t bs u) (hlogin : (chain, userId) ∈ s.logins) :
    ∀ other token, u.ChainOf token chain → u.Yields other token → t.Yields other token := by
  have hkept : s.Sound ∧ s.Lineage :=
    run.invariant (I := fun u => u.Sound ∧ u.Lineage) (fun _ _ _ hs h => ⟨h.1.sound hs.1, h.1.lineage hs.1 hs.2⟩)
      ⟨sound_init, lineage_init⟩
  exact yields_of_run after (hlogout.1.sound hkept.1) (hlogout.1.lineage hkept.1 hkept.2)
    (Step.closed_of_logout hlogout hrevoking hkept.1 hkept.2 hlogin)

theorem logged_out_signIn :
    ∃ s t u : TokenState, s.stage 1 = .revoking "u" ∧ Guarded devService.Step Settled s (.revokeAll 1 .done, 0) t ∧
      ∀ other token, u.ChainOf token 0 → u.Yields other token → t.Yields other token := by
  obtain ⟨s, t, u, run, hlogout, hrevoking, after, hlogin⟩ := run_logout
  exact ⟨s, t, u, hrevoking, hlogout, logged_out run hlogout hrevoking after hlogin⟩

def signedToken : RefreshToken := .signed (createStatelessRefreshToken {} { sub := "u" } "r" (1 * second)) 0

/-- The successor of a rotation under way escapes a logout, and so does a signed token. -/
theorem not_logged_out :
    Escapes devService (signIn 0 ++ [(.present 1 (.stored 0) "a" "r", 0), (.lookup 1 true someUser, 0), (.logout 2 "u", 0)])
        [(.rotate 1 .done, 0), (.create 1 "a" "r", 0), (.insert 1 .done "a" "r", 0)] 2 0 ∧
      Escapes devService [(.outage 0 (30 * second), 0), (.login 0 { sub := "u" }, 1 * second),
          (.create 0 "a" "r", 1 * second), (.logout 1 "u", 31 * second)]
        [(.outage 0 (70 * second), 40 * second),
          (.present 2 signedToken "b" "q", 41 * second)]
        1 (31 * second) := by
  constructor
  · exact ⟨_, _, _, 0, "u", 1, .stored 0,
      .cons (.login le_rfl rfl) (.cons (.proceed le_rfl rfl (by decide)) (.cons (.insert le_rfl rfl)
        (.cons (.presentStored le_rfl rfl) (.cons (.lookup le_rfl rfl) (.single (.logout le_rfl rfl)))))),
      .revokeAll le_rfl rfl (by decide), rfl,
      .cons (.rotate le_rfl rfl) (.cons (.proceed le_rfl rfl (by decide)) (.single (.insert le_rfl rfl))),
      List.mem_singleton.2 rfl, ⟨_, rfl, rfl⟩, ⟨_, rfl⟩, fun ⟨_, h⟩ => nomatch h⟩
  · exact ⟨_, _, _, 0, "u", 2, signedToken,
      .cons (.outage (by decide)) (.cons (.login (by decide) rfl) (.cons (.degrade (by decide) rfl (by decide))
        (.single (.logout (by decide) rfl)))),
      .revokeAll (by decide) rfl (by decide), rfl,
      .cons (.outage (by decide)) (.single (.presentSigned (by decide) rfl (List.mem_singleton.2 rfl) rfl (by decide))),
      List.mem_singleton.2 rfl, rfl, ⟨_, rfl⟩, fun ⟨_, h⟩ => nomatch h⟩

end RefreshService

end Wiii.Auth
