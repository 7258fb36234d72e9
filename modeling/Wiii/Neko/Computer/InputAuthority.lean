import Wiii.Lib.Run

/-!
# The input authority of the container

The threads of the semantic bridge share one `InputAuthority`.  Every block under its condition is one step, and so is
the input that a dispatch sends after its check; a revocation that waits for the active run is resumed in a step of its
own.

Once the revocation of a lease has returned, no run for it executes, as long as no lease is activated that was revoked
already and is not the remembered one (`revoked_is_silent`, `revoked_runs_again`).
-/

namespace Wiii.Neko.Computer.Input

inductive LeaseId where
  | absent
  | text (value : String)
  | other
  deriving DecidableEq

inductive Raised where
  | valueError (message : String)
  | runtimeError (message : String)
  | inputRevoked (message : String)
  | timeoutError (message : String)

structure InputAuthority where
  lease : LeaseId
  /-- The flags of the events, the oldest first. -/
  events : List Bool
  cancelled : ℕ
  active : Bool
  cleanupFailed : Bool
  revocationPending : Bool

/-- How far a revocation came. -/
inductive Progress where
  | returned
  | raised (error : Raised)
  | waiting

structure Local where
  cancelled : Option ℕ
  cleaning : Bool

namespace InputAuthority

/-- The event of the first lease is set from the start. -/
def new : InputAuthority where
  lease := .absent
  events := [true]
  cancelled := 0
  active := false
  cleanupFailed := false
  revocationPending := false

variable (a : InputAuthority)

def isSet (event : ℕ) : Bool := a.events.getD event false

def isCancelled : Bool := a.isSet a.cancelled

def activate (lease : LeaseId) : Except Raised InputAuthority :=
  match lease with
  | .absent | .other => .error (.valueError "Invalid input lease")
  | .text value =>
    if ¬ (1 ≤ value.length ∧ value.length ≤ 200) then .error (.valueError "Invalid input lease")
    else if a.cleanupFailed ∨ a.revocationPending then
      .error (.runtimeError "Input cleanup is unconfirmed")
    else if a.lease = lease then
      if a.isCancelled then .error (.inputRevoked "Input lease has been revoked") else .ok a
    else if a.active ∨ ¬ a.isCancelled then .error (.runtimeError "Another input lease is active")
    else .ok { a with
      lease := lease
      events := a.events ++ [false]
      cancelled := a.events.length }

/-- What a revocation does as soon as it looks whether a run is active. -/
def quiesce (cleanup : Except Raised Unit) : Progress × InputAuthority :=
  if a.active then (.waiting, a)
  else if a.cleanupFailed then (.raised (.runtimeError "Input cleanup is unconfirmed"), a)
  else
    match cleanup with
    | .error error => (.raised error, a)
    | .ok () => (.returned, { a with revocationPending := false })

def revoke (lease : LeaseId) (cleanup : Except Raised Unit) : Progress × InputAuthority :=
  if a.lease ≠ lease then
    if a.active ∨ ¬ a.isCancelled ∨ a.revocationPending ∨ a.cleanupFailed then
      (.raised (.runtimeError "A different input authority requires reconciliation"), a)
    else (.returned, a)
  else quiesce { a with events := a.events.set a.cancelled true, revocationPending := true } cleanup

def run (lease : LeaseId) : Except Raised InputAuthority :=
  if lease ≠ a.lease ∨ a.isCancelled ∨ a.active then
    .error (.inputRevoked "Input lease is not current")
  else .ok { a with active := true }

def checkpoint (own : Local) : Except Raised Unit :=
  match own.cancelled with
  | none => .ok ()
  | some event =>
    if a.isSet event ∧ ¬ own.cleaning then .error (.inputRevoked "Input lease has been revoked")
    else .ok ()

end InputAuthority

/-! ## The threads -/

structure Thread where
  own : Local
  /-- The lease of the run that the thread is in. -/
  running : Option LeaseId
  /-- The lease whose revocation waits. -/
  revoking : Option LeaseId
  /-- A dispatch was let through and has not sent its input yet. -/
  dispatching : Bool

def Thread.new : Thread where
  own := ⟨none, false⟩
  running := none
  revoking := none
  dispatching := false

structure System (ι : Type) where
  authority : InputAuthority
  threads : ι → Thread
  /-- The leases whose revocation has returned. -/
  revoked : List LeaseId

inductive Event (ι : Type) where
  | activate (i : ι) (lease : LeaseId)
  | revoke (i : ι) (lease : LeaseId)
  | resume (i : ι)
  | timeout (i : ι)
  | run (i : ι) (lease : LeaseId)
  | finish (i : ι)
  | dispatch (i : ι)
  /-- An input is sent, in a run for the lease or outside of any. -/
  | input (i : ι) (lease : Option LeaseId)
  | cleanup (i : ι)
  | cleaned (i : ι) (failed : Bool)

namespace System

variable {ι : Type} [DecidableEq ι]

def new : System ι := ⟨.new, fun _ => .new, []⟩

def setThread (s : System ι) (i : ι) (f : Thread → Thread) : System ι :=
  { s with threads := Function.update s.threads i (f (s.threads i)) }

def progress (s : System ι) (i : ι) (lease : LeaseId) : Progress × InputAuthority → System ι
  | (.returned, a) =>
    setThread { s with authority := a, revoked := lease :: s.revoked } i fun t => { t with revoking := none }
  | (.raised _, a) => setThread { s with authority := a } i fun t => { t with revoking := none }
  | (.waiting, a) => setThread { s with authority := a } i fun t => { t with revoking := some lease }

end System

variable {ι : Type} [DecidableEq ι]

/-- The steps of the threads.  A thread whose revocation waits does nothing else. -/
inductive Step : System ι → Event ι → System ι → Prop
  | activate {s : System ι} {i : ι} {lease : LeaseId} {a : InputAuthority}
      (hi : (s.threads i).revoking = none) (h : s.authority.activate lease = .ok a) :
      Step s (.activate i lease) { s with authority := a }
  | activateRaised {s : System ι} {i : ι} {lease : LeaseId} {error : Raised}
      (hi : (s.threads i).revoking = none) (h : s.authority.activate lease = .error error) :
      Step s (.activate i lease) s
  | revoke {s : System ι} {i : ι} (lease : LeaseId) (cleanup : Except Raised Unit)
      (hi : (s.threads i).revoking = none) :
      Step s (.revoke i lease) (s.progress i lease (s.authority.revoke lease cleanup))
  | resume {s : System ι} {i : ι} {lease : LeaseId} (cleanup : Except Raised Unit)
      (hi : (s.threads i).revoking = some lease) :
      Step s (.resume i) (s.progress i lease (s.authority.quiesce cleanup))
  | timeout {s : System ι} {i : ι} {lease : LeaseId} (hi : (s.threads i).revoking = some lease)
      (h : s.authority.active = true) :
      Step s (.timeout i) (s.setThread i fun t => { t with revoking := none })
  | run {s : System ι} {i : ι} {lease : LeaseId} {a : InputAuthority}
      (hi : (s.threads i).revoking = none) (h : s.authority.run lease = .ok a) :
      Step s (.run i lease) (System.setThread { s with authority := a } i fun t => { t with
        own := { t.own with cancelled := some s.authority.cancelled }
        running := some lease })
  | runRaised {s : System ι} {i : ι} {lease : LeaseId} {error : Raised}
      (hi : (s.threads i).revoking = none) (h : s.authority.run lease = .error error) :
      Step s (.run i lease) s
  | finish {s : System ι} {i : ι} {lease : LeaseId} (hi : (s.threads i).revoking = none)
      (hd : (s.threads i).dispatching = false) (h : (s.threads i).running = some lease) :
      Step s (.finish i) (System.setThread { s with authority := { s.authority with active := false } } i
        fun t => { t with own := { t.own with cancelled := none }, running := none })
  | dispatch {s : System ι} {i : ι} (hi : (s.threads i).revoking = none)
      (h : s.authority.checkpoint (s.threads i).own = .ok ()) :
      Step s (.dispatch i) (s.setThread i fun t => { t with dispatching := true })
  | dispatchRaised {s : System ι} {i : ι} {error : Raised} (hi : (s.threads i).revoking = none)
      (h : s.authority.checkpoint (s.threads i).own = .error error) : Step s (.dispatch i) s
  | input {s : System ι} {i : ι} (hd : (s.threads i).dispatching = true) :
      Step s (.input i (s.threads i).running) (s.setThread i fun t => { t with dispatching := false })
  | cleanup {s : System ι} {i : ι} (hi : (s.threads i).revoking = none) :
      Step s (.cleanup i) (s.setThread i fun t => { t with own := { t.own with cleaning := true } })
  | cleaned {s : System ι} {i : ι} (failed : Bool) (hi : (s.threads i).revoking = none) :
      Step s (.cleaned i failed) (System.setThread
        { s with authority := { s.authority with cleanupFailed := s.authority.cleanupFailed || failed } } i
        fun t => { t with own := { t.own with cleaning := false } })

/-! ## What the calls do -/

namespace InputAuthority

variable {a a' : InputAuthority} {lease : LeaseId}

theorem activate_ok (h : a.activate lease = .ok a') :
    a' = a ∨ a.lease ≠ lease ∧ a.active = false ∧
      a' = { a with lease := lease, events := a.events ++ [false], cancelled := a.events.length } := by
  unfold activate at h
  split at h
  · cases h
  · cases h
  · split_ifs at h with hlength hclean hsame hset hother
    · cases h
      exact .inl rfl
    · cases h
      rw [not_or, Bool.not_eq_true] at hother
      exact .inr ⟨hsame, hother.1, rfl⟩

theorem run_ok (h : a.run lease = .ok a') :
    lease = a.lease ∧ a.isCancelled = false ∧ a.active = false ∧ a' = { a with active := true } := by
  unfold run at h
  split_ifs at h with hc
  simp only [not_or, ne_eq, not_not, Bool.not_eq_true] at hc
  cases h
  exact ⟨hc.1, hc.2.1, hc.2.2, rfl⟩

/-- What a revocation leaves of the authority, however far it comes. -/
structure Kept (a a' : InputAuthority) : Prop where
  lease : a'.lease = a.lease
  active : a'.active = a.active
  event : a.cancelled < a.events.length → a'.cancelled < a'.events.length
  isCancelled : a.isCancelled = true → a'.isCancelled = true

theorem Kept.refl (a : InputAuthority) : Kept a a := ⟨rfl, rfl, id, id⟩

theorem quiesce_spec (a : InputAuthority) (cleanup : Except Raised Unit) :
    Kept a (a.quiesce cleanup).2 ∧ ((a.quiesce cleanup).1 = .returned → a.active = false) := by
  unfold quiesce
  split_ifs with hactive
  · exact ⟨.refl a, False.elim⟩
  · exact ⟨.refl a, False.elim⟩
  · cases cleanup with
    | error error => exact ⟨.refl a, Progress.noConfusion⟩
    | ok _ => exact ⟨⟨rfl, rfl, id, id⟩, fun _ => Bool.eq_false_iff.2 hactive⟩

/-- The event of the lease that is revoked is set, unless another lease is the remembered one. -/
theorem revoke_spec (ha : a.cancelled < a.events.length) (lease : LeaseId) (cleanup : Except Raised Unit) :
    Kept a (a.revoke lease cleanup).2 ∧ ((a.revoke lease cleanup).1 = .returned → a.active = false) ∧
      (a.lease = lease → (a.revoke lease cleanup).2.isCancelled = true) := by
  have hset : InputAuthority.isCancelled
      { a with events := a.events.set a.cancelled true, revocationPending := true } = true := by
    simp [isCancelled, isSet, List.getD_eq_getElem?_getD, ha]
  unfold revoke
  split_ifs with hlease hother
  · exact ⟨.refl a, False.elim, fun h => absurd h hlease⟩
  · simp only [not_or, Bool.not_eq_true] at hother
    exact ⟨.refl a, fun _ => hother.1, fun h => absurd h hlease⟩
  · obtain ⟨hkept, hreturned⟩ := quiesce_spec
      { a with events := a.events.set a.cancelled true, revocationPending := true } cleanup
    refine ⟨⟨hkept.lease, hkept.active, fun h => hkept.event ?_, fun _ => hkept.isCancelled hset⟩,
      hreturned, fun _ => hkept.isCancelled hset⟩
    rwa [List.length_set]

end InputAuthority

open InputAuthority

/-! ## What holds in every run -/

section Runs

variable {ι : Type} {s s' : System ι}

/-- At most one thread is in a run, and it is for the remembered lease. -/
structure Sound (s : System ι) : Prop where
  current : ∀ i lease, (s.threads i).running = some lease →
    s.authority.active = true ∧ s.authority.lease = lease
  alone : ∀ i j lease lease', (s.threads i).running = some lease →
    (s.threads j).running = some lease' → i = j
  event : s.authority.cancelled < s.authority.events.length

/-- No lease whose revocation has returned or waits can be run for. -/
structure Barred (s : System ι) : Prop where
  returned : ∀ lease ∈ s.revoked, s.authority.lease = lease → s.authority.isCancelled = true
  waits : ∀ i lease, (s.threads i).revoking = some lease → s.authority.lease = lease →
    s.authority.isCancelled = true
  silent : ∀ i lease, (s.threads i).running = some lease → lease ∉ s.revoked

/-- A lease that was revoked, or whose revocation waits, is not activated anew. -/
def FreshLease (s : System ι) : Event ι → Prop
  | .activate _ lease =>
    s.authority.lease = lease ∨ lease ∉ s.revoked ∧ ∀ i, (s.threads i).revoking ≠ some lease
  | _ => True

theorem Sound.frame (h : Sound s) (hr : ∀ i, (s'.threads i).running = (s.threads i).running)
    (hk : Kept s.authority s'.authority) : Sound s' where
  current := by
    intro i lease hi
    rw [hr] at hi
    rw [hk.active, hk.lease]
    exact h.current i lease hi
  alone := by
    intro i j lease lease' hi hj
    rw [hr] at hi hj
    exact h.alone i j lease lease' hi hj
  event := hk.event h.event

theorem Sound.idle (h : Sound s) (ha : s.authority.active = false) (i : ι) :
    (s.threads i).running = none := by
  cases hi : (s.threads i).running with
  | none => rfl
  | some lease =>
    have hactive := (h.current i lease hi).1
    rw [ha] at hactive
    cases hactive

theorem Barred.frame (h : Barred s) (hrevoked : s'.revoked = s.revoked)
    (hr : ∀ i lease, (s'.threads i).running = some lease → (s.threads i).running = some lease)
    (hw : ∀ i lease, (s'.threads i).revoking = some lease → (s.threads i).revoking = some lease)
    (hlease : s'.authority.lease = s.authority.lease)
    (hset : s.authority.isCancelled = true → s'.authority.isCancelled = true) : Barred s' where
  returned := by
    intro lease hmem hcurrent
    rw [hrevoked] at hmem
    rw [hlease] at hcurrent
    exact hset (h.returned lease hmem hcurrent)
  waits := by
    intro i lease hi hcurrent
    rw [hlease] at hcurrent
    exact hset (h.waits i lease (hw i lease hi) hcurrent)
  silent := by
    intro i lease hi
    rw [hrevoked]
    exact h.silent i lease (hr i lease hi)

theorem sound_new : Sound (System.new : System ι) :=
  ⟨fun _ _ h => (nomatch h), fun _ _ _ _ h => (nomatch h), Nat.one_pos⟩

theorem barred_new : Barred (System.new : System ι) :=
  ⟨fun _ h => (nomatch h), fun _ _ h => (nomatch h), fun _ _ h => (nomatch h)⟩

end Runs

variable {s s' : System ι} {e : Event ι}

theorem System.threads_setThread (i j : ι) (f : Thread → Thread) :
    (s.setThread i f).threads j = if j = i then f (s.threads i) else s.threads j := by
  by_cases h : j = i
  · subst h
    simp [setThread]
  · simp [setThread, h]

theorem System.running_setThread (i : ι) (f : Thread → Thread) (hf : ∀ t, (f t).running = t.running)
    (j : ι) : ((s.setThread i f).threads j).running = (s.threads j).running := by
  rw [threads_setThread]
  split_ifs with hj
  · rw [hf, hj]
  · rfl

theorem System.running_of_setThread {i j : ι} {f : Thread → Thread} {lease : LeaseId}
    (hf : ∀ t, (f t).running = some lease → t.running = some lease)
    (hj : ((s.setThread i f).threads j).running = some lease) : (s.threads j).running = some lease := by
  rw [threads_setThread] at hj
  split_ifs at hj with hji
  · exact hji ▸ hf _ hj
  · exact hj

theorem System.revoking_of_setThread {i j : ι} {f : Thread → Thread} {lease : LeaseId}
    (hf : ∀ t, (f t).revoking = some lease → t.revoking = some lease)
    (hj : ((s.setThread i f).threads j).revoking = some lease) : (s.threads j).revoking = some lease := by
  rw [threads_setThread] at hj
  split_ifs at hj with hji
  · exact hji ▸ hf _ hj
  · exact hj

theorem System.progress_spec (s : System ι) (i : ι) (lease : LeaseId) (p : Progress × InputAuthority) :
    (s.progress i lease p).authority = p.2 ∧
      ∀ j, ((s.progress i lease p).threads j).running = (s.threads j).running := by
  obtain ⟨p, a⟩ := p
  cases p with
  | returned | raised | waiting =>
    refine ⟨rfl, fun j => ?_⟩
    unfold progress
    rw [threads_setThread]
    split_ifs with hj
    · rw [hj]
    · rfl

theorem Sound.progress (h : Sound s) {i : ι} {lease : LeaseId} {p : Progress × InputAuthority}
    (hk : Kept s.authority p.2) : Sound (s.progress i lease p) := by
  obtain ⟨ha, hr⟩ := s.progress_spec i lease p
  exact h.frame hr (ha ▸ hk)

theorem Sound.step (h : Sound s) (hstep : Step s e s') : Sound s' := by
  cases hstep with
  | activate _ ha =>
    rcases activate_ok ha with rfl | ⟨-, hactive, rfl⟩
    · exact h
    · have hidle := h.idle hactive
      refine ⟨fun j lease hj => ?_, h.alone, ?_⟩
      · rw [hidle j] at hj
        cases hj
      · show s.authority.events.length < (s.authority.events ++ [false]).length
        rw [List.length_append]
        exact Nat.lt_succ_self _
  | activateRaised | runRaised | dispatchRaised => exact h
  | revoke lease cleanup => exact h.progress (revoke_spec h.event lease cleanup).1
  | resume cleanup => exact h.progress (quiesce_spec s.authority cleanup).1
  | timeout | dispatch | input | cleanup =>
    exact h.frame (System.running_setThread _ _ fun _ => rfl) (.refl _)
  | cleaned => exact h.frame (System.running_setThread _ _ fun _ => rfl) ⟨rfl, rfl, id, id⟩
  | @run i lease a _ ha =>
    obtain ⟨rfl, -, hactive, rfl⟩ := run_ok ha
    have hidle := h.idle hactive
    have honly : ∀ j lease', ((System.setThread
        { s with authority := { s.authority with active := true } } i fun t => { t with
        own := { t.own with cancelled := some s.authority.cancelled }
        running := some s.authority.lease }).threads j).running = some lease' →
          j = i ∧ lease' = s.authority.lease := by
      intro j lease' hj
      rw [System.threads_setThread] at hj
      split_ifs at hj with hji
      · exact ⟨hji, (Option.some.inj hj).symm⟩
      · rw [hidle j] at hj
        cases hj
    refine ⟨fun j lease' hj => ⟨rfl, (honly j lease' hj).2.symm⟩, fun j k lease' lease'' hj hk => ?_, h.event⟩
    rw [(honly j lease' hj).1, (honly k lease'' hk).1]
  | @finish i lease _ _ hi =>
    have hnone : ∀ j, ((System.setThread
        { s with authority := { s.authority with active := false } } i fun t => { t with
        own := { t.own with cancelled := none }, running := none }).threads j).running = none := by
      intro j
      rw [System.threads_setThread]
      split_ifs with hji
      · rfl
      · cases hj : (s.threads j).running with
        | none => rfl
        | some lease' => exact absurd (h.alone j i lease' lease hj hi) hji
    refine ⟨fun j lease' hj => ?_, fun j k lease' lease'' hj _ => ?_, h.event⟩
    · exact absurd ((hnone j).symm.trans hj) nofun
    · exact absurd ((hnone j).symm.trans hj) nofun

theorem Barred.progress (h : Barred s) (hs : Sound s) {i : ι} {lease : LeaseId}
    {p : Progress × InputAuthority} (hk : Kept s.authority p.2)
    (hidle : p.1 = .returned → s.authority.active = false)
    (hset : s.authority.lease = lease → p.2.isCancelled = true) : Barred (s.progress i lease p) := by
  have hruns := (s.progress_spec i lease p).2
  obtain ⟨p, a⟩ := p
  have hdone : Barred (System.setThread { s with authority := a } i fun t => { t with revoking := none }) :=
    h.frame rfl (fun _ _ => System.running_of_setThread fun _ ht => ht)
      (fun _ _ => System.revoking_of_setThread fun _ ht => nomatch ht) hk.lease hk.isCancelled
  cases p with
  | raised => exact hdone
  | returned =>
    refine ⟨fun lease' hmem hlease => ?_, hdone.waits, fun j lease' hj => ?_⟩
    · rcases List.mem_cons.1 hmem with rfl | hmem
      · exact hset (hk.lease ▸ hlease)
      · exact hdone.returned lease' hmem hlease
    · rw [hruns, hs.idle (hidle rfl) j] at hj
      cases hj
  | waiting =>
    refine ⟨hdone.returned, fun j lease' hj hlease => ?_, fun j lease' hj => ?_⟩
    · unfold System.progress at hj
      rw [System.threads_setThread] at hj
      split_ifs at hj with hji
      · cases hj
        exact hset (hk.lease ▸ hlease)
      · exact hk.isCancelled (h.waits j lease' hj (hk.lease ▸ hlease))
    · rw [hruns] at hj
      exact h.silent j lease' hj

theorem Barred.step (h : Barred s) (hs : Sound s) (hstep : Step s e s') (hfresh : FreshLease s e) :
    Barred s' := by
  cases hstep with
  | @activate i lease a _ ha =>
    rcases activate_ok ha with rfl | ⟨hother, -, rfl⟩
    · exact h
    · obtain ⟨hrevoked, hwaits⟩ := hfresh.resolve_left hother
      refine ⟨?_, ?_, h.silent⟩
      · rintro lease' hmem rfl
        exact absurd hmem hrevoked
      · rintro j lease' hj rfl
        exact absurd hj (hwaits j)
  | activateRaised | runRaised | dispatchRaised => exact h
  | revoke lease cleanup =>
    obtain ⟨hk, hidle, hset⟩ := revoke_spec hs.event lease cleanup
    exact h.progress hs hk hidle hset
  | @resume i lease cleanup hi =>
    obtain ⟨hk, hidle⟩ := quiesce_spec s.authority cleanup
    exact h.progress hs hk hidle fun hlease => hk.isCancelled (h.waits i lease hi hlease)
  | timeout =>
    exact h.frame rfl (fun _ _ => System.running_of_setThread fun _ ht => ht)
      (fun _ _ => System.revoking_of_setThread fun _ ht => nomatch ht) rfl id
  | dispatch | input | cleanup | cleaned =>
    exact h.frame rfl (fun _ _ => System.running_of_setThread fun _ ht => ht)
      (fun _ _ => System.revoking_of_setThread fun _ ht => ht) rfl id
  | finish =>
    exact h.frame rfl (fun _ _ => System.running_of_setThread fun _ ht => nomatch ht)
      (fun _ _ => System.revoking_of_setThread fun _ ht => ht) rfl id
  | @run i lease a _ ha =>
    obtain ⟨rfl, hcancelled, -, rfl⟩ := run_ok ha
    refine ⟨h.returned, fun j lease' hj hlease => ?_, fun j lease' hj => ?_⟩
    · rw [System.threads_setThread] at hj
      split_ifs at hj
      · exact h.waits i lease' hj hlease
      · exact h.waits j lease' hj hlease
    · rw [System.threads_setThread] at hj
      split_ifs at hj
      · obtain rfl := Option.some.inj hj
        intro hmem
        rw [h.returned _ hmem rfl] at hcancelled
        cases hcancelled
      · exact h.silent j lease' hj

theorem Step.revoked_subset (h : Step s e s') : s.revoked ⊆ s'.revoked := by
  have hprogress : ∀ i lease (p : Progress × InputAuthority), s.revoked ⊆ (s.progress i lease p).revoked := by
    rintro i lease ⟨_ | _ | _, a⟩
    · exact List.subset_cons_self ..
    · exact List.Subset.refl _
    · exact List.Subset.refl _
  cases h with
  | revoke lease cleanup => exact hprogress _ _ _
  | resume cleanup => exact hprogress _ _ _
  | activate | activateRaised | timeout | run | runRaised | finish | dispatch | dispatchRaised | input |
      cleanup | cleaned => exact List.Subset.refl _

/-- At most one thread is in a run, and once a revocation of a lease has returned none runs or sends an input under it,
unless a revoked lease is activated again. -/
theorem revoked_is_silent {es : List (Event ι)} {s : System ι} (hrun : Run Step .new es s) :
    (∀ i j lease lease', (s.threads i).running = some lease → (s.threads j).running = some lease' → i = j) ∧
      (Run (Guarded Step FreshLease) .new es s → ∀ lease ∈ s.revoked, ∀ es' s',
        Run (Guarded Step FreshLease) s es' s' →
          (∀ i, (s'.threads i).running ≠ some lease) ∧ ∀ i, Event.input i (some lease) ∉ es') := by
  have hsound : Sound s := hrun.invariant (fun _ _ _ h hstep => h.step hstep) sound_new
  refine ⟨hsound.alone, fun hfresh lease hmem es' s' hlater => ?_⟩
  have hkeep : ∀ (s : System ι) e s', Sound s ∧ Barred s → Guarded Step FreshLease s e s' →
      Sound s' ∧ Barred s' := fun _ _ _ h hstep => ⟨h.1.step hstep.1, h.2.step h.1 hstep.1 hstep.2⟩
  have hs := hfresh.invariant hkeep ⟨sound_new, barred_new⟩
  clear hrun hfresh
  induction hlater with
  | nil s => exact ⟨fun i hi => hs.2.silent i lease hi hmem, fun _ h => nomatch h⟩
  | @cons s t u e es hstep hrest ih =>
    have ht := hkeep s e t hs hstep
    obtain ⟨hrunning, hinputs⟩ := ih ht.1 (hstep.1.revoked_subset hmem) ht
    refine ⟨hrunning, fun i hi => ?_⟩
    rcases List.mem_cons.1 hi with rfl | hi
    · obtain ⟨hinput, -⟩ := hstep
      generalize hlease : some lease = running at hinput
      cases hinput with
      | input => exact hs.2.silent i lease hlease.symm hmem
    · exact hinputs i hi

def leaseOne : LeaseId := .text "lease-one"

def leaseTwo : LeaseId := .text "lease-two"

/-- After a revocation a run is refused. -/
theorem revoked_is_silent_run : ∃ s s' : System Unit,
    Run (Guarded Step FreshLease) .new [.activate () leaseOne, .revoke () leaseOne] s ∧ leaseOne ∈ s.revoked ∧
      Run (Guarded Step FreshLease) s [.run () leaseOne] s' ∧
      (∀ i, (s'.threads i).running ≠ some leaseOne) ∧
        ∀ i, Event.input i (some leaseOne) ∉ [Event.run () leaseOne] := by
  have hrun : ∃ s : System Unit, Run (Guarded Step FreshLease) .new
      [.activate () leaseOne, .revoke () leaseOne] s ∧ leaseOne ∈ s.revoked ∧
        Run (Guarded Step FreshLease) s [.run () leaseOne] s :=
    ⟨_, .cons ⟨.activate rfl rfl, .inr ⟨List.not_mem_nil, fun _ h => (nomatch h)⟩⟩
      (.single ⟨.revoke leaseOne (.ok ()) rfl, trivial⟩), List.mem_singleton_self _,
      .single ⟨.runRaised rfl rfl, trivial⟩⟩
  obtain ⟨s, hrun, hmem, hlater⟩ := hrun
  exact ⟨s, s, hrun, hmem, hlater,
    (revoked_is_silent (hrun.mono fun _ _ _ h => h.1)).2 hrun leaseOne hmem _ _ hlater⟩

/-- After another lease the first one is activated again. -/
theorem revoked_runs_again : ¬ ∀ (es : List (Event Unit)) s, Run Step .new es s →
    ∀ lease ∈ s.revoked, ∀ i, (s.threads i).running ≠ some lease := by
  intro h
  have hrun : ∃ es, ∃ s : System Unit, Run Step .new es s ∧ leaseOne ∈ s.revoked ∧
      (s.threads ()).running = some leaseOne :=
    ⟨[.activate () leaseOne, .revoke () leaseOne, .activate () leaseTwo, .revoke () leaseTwo, .activate () leaseOne,
        .run () leaseOne], _,
      .cons (.activate rfl rfl) <| .cons (.revoke leaseOne (.ok ()) rfl) <| .cons (.activate rfl rfl) <|
      .cons (.revoke leaseTwo (.ok ()) rfl) <| .cons (.activate rfl rfl) <| .single (.run rfl rfl),
      List.mem_cons_of_mem _ List.mem_cons_self, rfl⟩
  obtain ⟨es, s, hrun, hmem, hrunning⟩ := hrun
  exact h es s hrun leaseOne hmem () hrunning

end Wiii.Neko.Computer.Input
