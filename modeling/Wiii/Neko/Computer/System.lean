import Wiii.Lib.Run
import Wiii.Neko.Computer.Journal

/-!
# The computer journal as a system of calls

`Op` lists the operations that write the journal, and the recovery when it is opened.  A `Step` is one call: it is
refused or failed by the storage and leaves the journal as it was, or it commits.  A run is any interleaving of them,
with any clock readings.
-/

namespace Wiii.Neko.Computer

inductive Op where
  | beginRequest (requestId method targetId : String)
  | markSideEffectStarted (requestId : String)
  | completeRequest (requestId : String) (result : Value)
  | failRequest (requestId code : String)
  | markUnknownOutcome (requestId environmentId : String)
  | recoverIncomplete
  | adoptLegacyCoworker (coworkerId : String)
  | grantProject (coworkerId projectId projectName projectPath : String)
  | activateCoworkerProject (activation : CoworkerProjectActivation)
  | revokeProject (coworkerId projectId : String)
  | deleteEnvironment (environmentId : String)
  | upsertEnvironment (environmentId projectName projectPath : String) (state : ComputerState)
      (resources : ComputerResources) (eventType : String)
  | setEnvironmentState (environmentId : String) (state : ComputerState) (eventType : String)
  | acquireSeat (environmentId ownerId : String) (userControlled : Bool)
  | releaseSeat (environmentId leaseId : String)
  | appendEvent (environmentId eventType : String) (payload : Value)

inductive Answer where
  | done
  | decision (decision : RequestDecision)
  | grant (grant : ComputerProjectGrant)
  | detached (environmentId : Option String)
  | seat (seat : DisplaySeat)

variable (newV4 : ℕ → String)

def Op.apply (op : Op) (now : Timestamp) (db : ComputerJournal) : Except String (Answer × ComputerJournal) :=
  match op with
  | beginRequest requestId method targetId => (db.beginRequest requestId method targetId now).map fun x =>
      (.decision x.1, x.2)
  | markSideEffectStarted requestId => (db.markSideEffectStarted requestId now).map fun x => (.done, x.2)
  | completeRequest requestId result => (db.completeRequest requestId result now).map fun x => (.done, x.2)
  | failRequest requestId code => (db.failRequest requestId code now).map fun x => (.done, x.2)
  | markUnknownOutcome requestId environmentId =>
    (db.markUnknownOutcome newV4 requestId environmentId now).map fun x => (.done, x.2)
  | recoverIncomplete => .ok (.done, db.recoverIncomplete now)
  | adoptLegacyCoworker coworkerId => (db.adoptLegacyCoworker newV4 coworkerId now).map fun x => (.done, x.2)
  | grantProject coworkerId projectId projectName projectPath =>
    (db.grantProject coworkerId projectId projectName projectPath now).map fun x => (.grant x.1, x.2)
  | activateCoworkerProject activation =>
    (db.activateCoworkerProject newV4 activation now).map fun x => (.done, x.2)
  | revokeProject coworkerId projectId => (db.revokeProject newV4 coworkerId projectId now).map fun x =>
      (.detached x.1, x.2)
  | deleteEnvironment environmentId => (db.deleteEnvironment environmentId).map fun x => (.done, x.2)
  | upsertEnvironment environmentId projectName projectPath state resources eventType =>
    (db.upsertEnvironment newV4 environmentId projectName projectPath state resources eventType now).map
      fun x => (.done, x.2)
  | setEnvironmentState environmentId state eventType =>
    (db.setEnvironmentState newV4 environmentId state eventType now).map fun x => (.done, x.2)
  | acquireSeat environmentId ownerId userControlled =>
    (db.acquireSeat newV4 environmentId ownerId userControlled now).map fun x => (.seat x.1, x.2)
  | releaseSeat environmentId leaseId => (db.releaseSeat newV4 environmentId leaseId now).map fun x =>
      (.seat x.1, x.2)
  | appendEvent environmentId eventType payload =>
    (db.appendEvent newV4 now environmentId eventType payload).map fun x => (.done, x.2)

structure Call where
  op : Op
  answer : Except String Answer

/-- One call: rolled back, or committed. -/
inductive Step : ComputerJournal → Call → ComputerJournal → Prop
  | failed (db : ComputerJournal) (op : Op) (error : String) : Step db ⟨op, .error error⟩ db
  | committed {db db' : ComputerJournal} {op : Op} {answer : Answer} {now : Timestamp}
      (h : op.apply newV4 now db = .ok (answer, db')) : Step db ⟨op, .ok answer⟩ db'

/-- The journals that runs of calls from the empty one reach. -/
def Reachable (db : ComputerJournal) : Prop := Reaches (Step newV4) ∅ db

/-- A call at a time, on a storage that does not fail. -/
def perform (op : Op) (now : Timestamp) (db : ComputerJournal) : Call × ComputerJournal :=
  match op.apply newV4 now db with
  | .error error => (⟨op, .error error⟩, db)
  | .ok (answer, db') => (⟨op, .ok answer⟩, db')

theorem step_perform (op : Op) (now : Timestamp) (db : ComputerJournal) :
    Step newV4 db (perform newV4 op now db).1 (perform newV4 op now db).2 := by
  unfold perform
  split
  · exact .failed db op _
  · rename_i happly
    exact .committed happly

/-- What the operations leave, each at a time. -/
def execute (ops : List (Op × Timestamp)) (db : ComputerJournal) : ComputerJournal :=
  ops.foldl (fun db op => (perform newV4 op.1 op.2 db).2) db

theorem reaches_execute (ops : List (Op × Timestamp)) (db : ComputerJournal) :
    Reaches (Step newV4) db (execute newV4 ops db) := by
  induction ops generalizing db with
  | nil => exact .refl db
  | cons op ops ih => exact (Reaches.single (step_perform newV4 op.1 op.2 db)).trans (ih _)

theorem reachable_execute (ops : List (Op × Timestamp)) : Reachable newV4 (execute newV4 ops ∅) :=
  reaches_execute newV4 ops ∅

end Wiii.Neko.Computer

/-!
## What a call may reach

The checks of the service that a call on an environment goes through: the environment as its coworker sees
it, and the grant of the active project.  They read the journal and write nothing.
-/

namespace Wiii.Neko.Computer

open ComputerJournal

def ComputerEnvironment.boundTo (environment : ComputerEnvironment) (binding : CoworkerBinding) :
    ComputerEnvironment :=
  let environment := { environment with projectId := binding.activeProjectId }
  match binding.activeProjectName, binding.activeProjectPath with
  | some projectName, some projectPath => { environment with projectName := projectName, projectPath := projectPath }
  | _, _ => environment

def requireEnvironment (environmentId : String) (db : ComputerJournal) : Except String ComputerEnvironment :=
  match db.environment environmentId with
  | none => .error "Computer environment does not exist"
  | some environment =>
    match db.coworkerBindingForEnvironment environmentId with
    | none => .ok environment
    | some binding => .ok (environment.boundTo binding)

def projectAccessDenied : String := "project_access_denied: Computer requires an active Project grant"

def requireGrantedEnvironment (environmentId : String) (db : ComputerJournal) :
    Except String ComputerEnvironment := do
  let environment ← requireEnvironment environmentId db
  match db.coworkerBindingForEnvironment environmentId with
  | none => .error projectAccessDenied
  | some binding =>
    match binding.activeProjectId with
    | none => .error projectAccessDenied
    | some projectId =>
      let grants ← projectGrants binding.coworkerId db
      if (¬ grants.any fun grant => decide (grant.projectId = some projectId) &&
          decide (grant.projectPath = environment.projectPath)) ∨
          binding.activeProjectPath ≠ some environment.projectPath then .error projectAccessDenied
      else .ok environment

variable {db : ComputerJournal} {environmentId : String}

theorem ComputerEnvironment.projectId_boundTo (environment : ComputerEnvironment) (binding : CoworkerBinding) :
    (environment.boundTo binding).projectId = binding.activeProjectId := by
  unfold boundTo
  split <;> rfl

theorem mem_of_coworkerBindingForEnvironment {binding : CoworkerBinding}
    (h : db.coworkerBindingForEnvironment environmentId = some binding) :
    binding ∈ db.bindings ∧ binding.environmentId = environmentId := by
  unfold coworkerBindingForEnvironment at h
  exact ⟨List.mem_of_find?_eq_some h, of_decide_eq_true (List.find?_some (p := fun other : CoworkerBinding =>
    decide (other.environmentId = environmentId)) h)⟩

theorem requireGrantedEnvironment_ok {environment : ComputerEnvironment}
    (h : requireGrantedEnvironment environmentId db = .ok environment) :
    ∃ binding projectId, db.coworkerBindingForEnvironment environmentId = some binding ∧
      binding.activeProjectId = some projectId ∧ environment.projectId = some projectId ∧
      binding.activeProjectPath = some environment.projectPath ∧
      ∃ grant ∈ db.grants.rows, ComputerProjectGrant.covers binding.coworkerId projectId grant = true ∧
        grant.projectPath = environment.projectPath := by
  obtain ⟨environment', hrequire, h⟩ := bind_ok_iff.1 h
  split at h
  · cases h
  · rename_i binding hbinding
    split at h
    · cases h
    · rename_i projectId hactive
      obtain ⟨grants, hgrants, h⟩ := bind_ok_iff.1 h
      obtain ⟨hchecked, h⟩ := ite_error_ok_iff.1 h
      cases h
      obtain ⟨-, hgrants⟩ := bind_unit_ok_iff.1 hgrants
      cases hgrants
      rw [not_or, not_not, not_not, List.any_eq_true] at hchecked
      obtain ⟨⟨grant, hgrant, hcovers⟩, hpath⟩ := hchecked
      obtain ⟨hmem, hcoworker⟩ := List.mem_filter.1 hgrant
      rw [Bool.and_eq_true, decide_eq_true_eq, decide_eq_true_eq] at hcovers
      refine ⟨binding, projectId, hbinding, hactive, ?_, hpath, grant, hmem, ?_, hcovers.2⟩
      · unfold requireEnvironment at hrequire
        rw [hbinding] at hrequire
        split at hrequire
        · cases hrequire
        · cases hrequire
          exact (ComputerEnvironment.projectId_boundTo ..).trans hactive
      · unfold ComputerProjectGrant.covers
        rw [hcoworker, decide_eq_true hcovers.1]
        rfl

end Wiii.Neko.Computer
