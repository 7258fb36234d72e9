import Wiii.Neko.Journal.Maintenance
import Wiii.Neko.Runtime.System

/-!
# Who owns a provider process

A process that was spawned stands in the session map, is in the hands of its monitor or of `kill_all`, was terminated,
or was left behind by a crash, and it is so in one place only.  `Custody.Sound` says this of a state, with what keeps it
so: a session is in the journal before its start is executed, and is started once.

Most of what a section does changes neither the hands of a process nor the row of a session: such programs keep every
`Stable` predicate.  The sections (`Event.program_owned`) and so all runs keep `Owned`, whatever the storage does.
-/

namespace Wiii.Neko

open Program Journal Wiii.Neko.Runtime

/-! ## Custody -/

/-- Where the processes are. -/
structure Custody where
  up : Bool
  shuttingDown : Bool
  /-- The sessions whose starts are under way. -/
  starts : List String
  processes : Table Process.agentSessionId
  exits : List Process
  kills : List Process
  spawned : String → ℕ
  terminated : List Process
  orphans : List Process

namespace Custody

/-- How often the process is owned, was terminated or was left behind. -/
def count (c : Custody) (p : Process) : ℕ :=
  c.processes.rows.count p + c.exits.count p + c.kills.count p + c.terminated.count p + c.orphans.count p

structure Sound (db : Database) (c : Custody) : Prop where
  journal : Reachable db
  once : ∀ p, c.count p = if p.serial < c.spawned p.agentSessionId then 1 else 0
  known : ∀ s, (c.processes.find? s).isSome ∨ s ∈ c.starts → (db.session s).isSome
  unspawned : ∀ s ∈ c.starts, c.processes.find? s = none
  nodup : c.starts.Nodup
  closed : c.shuttingDown = true → ∀ s, c.processes.find? s = none
  down : c.up = false → c.starts = [] ∧ ∀ s, c.processes.find? s = none

/-- The start of the session is executed. -/
structure Launching (s : String) (db : Database) (c : Custody) : Prop where
  sound : c.Sound db
  known : (db.session s).isSome
  unstarted : s ∉ c.starts
  unspawned : c.processes.find? s = none
  up : c.up = true

def next (c : Custody) (s : String) : Process := ⟨s, c.spawned s⟩

def spawn (c : Custody) (s : String) : Custody :=
  { c with spawned := fun s' => if s' = s then c.spawned s' + 1 else c.spawned s' }

variable {c : Custody} {db db' : Database} {s : String} {process : Process}

theorem spawn_once (h : c.Sound db) (s : String) (p : Process) :
    c.count p + [c.next s].count p = if p.serial < (c.spawn s).spawned p.agentSessionId then 1 else 0 := by
  obtain ⟨session, serial⟩ := p
  rw [h.once, List.count_singleton, spawn, next]
  by_cases hs : session = s
  · subst hs
    simp only [beq_iff_eq, Process.mk.injEq, true_and, if_true]
    split_ifs <;> omega
  · simp [hs, Ne.symm hs]

namespace Sound

theorem mono (h : c.Sound db) (hjournal : Reachable db') (hdb : ∀ s, (db.session s).isSome → (db'.session s).isSome) :
    c.Sound db' :=
  { h with journal := hjournal, known := fun s hs => hdb s (h.known s hs) }

/-- Processes change hands, and leave the session map. -/
theorem moved (h : c.Sound db) {shuttingDown : Bool} {processes : Table Process.agentSessionId}
    {exits kills terminated : List Process}
    (hcount : ∀ p, count { c with shuttingDown, processes, exits, kills, terminated } p = c.count p)
    (hfind : ∀ s, processes.find? s = none ∨ processes.find? s = c.processes.find? s)
    (hclosed : shuttingDown = true → c.shuttingDown = true ∨ ∀ s, processes.find? s = none) :
    Sound db { c with shuttingDown, processes, exits, kills, terminated } := by
  have hnone : ∀ {s}, c.processes.find? s = none → processes.find? s = none := fun {s} hs => (hfind s).elim id (·.trans hs)
  refine { h with
    once := fun p => (hcount p).trans (h.once p)
    known := fun s hs => h.known s (hs.imp_left fun hsome => ?_)
    unspawned := fun s hs => hnone (h.unspawned s hs)
    closed := fun hdown s => (hclosed hdown).elim (fun hc => hnone (h.closed hc s)) fun hn => hn s
    down := fun hup => (h.down hup).imp_right fun hall s => hnone (hall s) }
  rcases hfind s with hs | hs
  · cases hs ▸ hsome
  · exact hs ▸ hsome

theorem find?_delete_or (t : Table Process.agentSessionId) (s s' : String) :
    (t.delete s).find? s' = none ∨ (t.delete s).find? s' = t.find? s' := by
  rw [Table.find?_delete]
  exact ite_eq_or_eq _ _ _

theorem terminate (h : c.Sound db) (hfind : c.processes.find? s = some process) :
    Sound db { c with processes := c.processes.delete s, terminated := c.terminated ++ [process] } := by
  refine h.moved (fun p => ?_) (find?_delete_or _ s) .inl
  simp only [count, (Table.perm_delete hfind).count_eq p, List.count_append, List.count_cons, List.count_nil]
  omega

theorem supervise (h : c.Sound db) (hfind : c.processes.find? s = some process) :
    Sound db { c with processes := c.processes.delete s, exits := c.exits ++ [process] } := by
  refine h.moved (fun p => ?_) (find?_delete_or _ s) .inl
  simp only [count, (Table.perm_delete hfind).count_eq p, List.count_append, List.count_cons, List.count_nil]
  omega

theorem finish (h : c.Sound db) {exits kills : List Process} (hperm : (c.exits ++ c.kills).Perm (process :: (exits ++ kills))) :
    Sound db { c with exits, kills, terminated := c.terminated ++ [process] } := by
  refine h.moved (fun p => ?_) (fun _ => .inr rfl) .inl
  have hp := hperm.count_eq p
  simp only [count, List.count_append, List.count_cons, List.count_nil] at hp ⊢
  omega

theorem drain (h : c.Sound db) :
    Sound db { c with shuttingDown := true, processes := ∅, kills := c.kills ++ c.processes.rows } := by
  refine h.moved (fun p => ?_) (fun _ => .inl rfl) fun _ => .inr fun _ => rfl
  simp only [count, List.count_append, Table.rows_empty, List.count_nil]
  omega

theorem crash (h : c.Sound db) : Sound db { c with
    up := false, shuttingDown := false, starts := [], processes := ∅, exits := [], kills := []
    orphans := c.orphans ++ (c.processes.rows ++ c.exits ++ c.kills) } := by
  refine ⟨h.journal, fun p => (h.once p).symm ▸ ?_, by simp, by simp, List.nodup_nil, nofun, fun _ => ⟨rfl, fun _ => rfl⟩⟩
  simp only [count, List.count_append, Table.rows_empty, List.count_nil]
  omega

/-- The process that is spawned is terminated at once. -/
theorem abandon (h : c.Sound db) (s : String) : Sound db { c.spawn s with terminated := c.terminated ++ [c.next s] } := by
  refine { h with once := fun p => ?_ }
  rw [← spawn_once h s p]
  simp only [count, spawn, List.count_append]
  omega

theorem addStart (h : c.Sound db) (hup : c.up = true) (hnone : db.session s = none) (h' : c.Sound db')
    (hsome : (db'.session s).isSome) : Sound db' { c with starts := c.starts ++ [s] } := by
  have hfree : ¬ ((c.processes.find? s).isSome ∨ s ∈ c.starts) := fun hs => by
    have hsession := h.known s hs
    rw [hnone] at hsession
    cases hsession
  rw [not_or, Option.not_isSome_iff_eq_none] at hfree
  refine { h' with known := fun s' hs' => ?_, unspawned := fun s' hs' => ?_, nodup := ?_, down := fun hdown => ?_ }
  · rw [List.mem_append, List.mem_singleton, ← or_assoc] at hs'
    exact hs'.elim (h'.known s') fun e => e ▸ hsome
  · exact (List.mem_append.1 hs').elim (h'.unspawned s') fun hs' => List.mem_singleton.1 hs' ▸ hfree.1
  · exact List.nodup_append'.2 ⟨h.nodup, List.nodup_singleton s, List.disjoint_singleton.2 hfree.2⟩
  · exact absurd (hdown.symm.trans hup) Bool.false_ne_true

theorem launch (h : c.Sound db) (hup : c.up = true) {starts : List String} (hperm : c.starts.Perm (s :: starts)) :
    Launching s db { c with starts } := by
  have hmem : ∀ {s'}, s' ∈ s :: starts → s' ∈ c.starts := hperm.mem_iff.2
  obtain ⟨hunstarted, hnodup⟩ := List.nodup_cons.1 (hperm.nodup_iff.1 h.nodup)
  refine ⟨{ h with known := fun s' hs' => ?_, unspawned := fun s' hs' => ?_, nodup := hnodup, down := fun hdown => ?_ },
    h.known s (.inr (hmem List.mem_cons_self)), hunstarted, h.unspawned s (hmem List.mem_cons_self), hup⟩
  · exact h.known s' (hs'.imp_right fun hs' => hmem (List.mem_cons_of_mem s hs'))
  · exact h.unspawned s' (hmem (List.mem_cons_of_mem s hs'))
  · exact absurd (hdown.symm.trans hup) Bool.false_ne_true

end Sound

theorem Launching.publish (h : c.Launching s db) (hopen : c.shuttingDown = false) :
    Sound db { c.spawn s with processes := c.processes.upsert (c.next s) } := by
  have hother : ∀ {s'}, s' ≠ s → (c.processes.upsert (c.next s)).find? s' = c.processes.find? s' := fun {s'} e =>
    (Table.find?_upsert _ _ s').trans (if_neg e)
  refine ⟨h.sound.journal, fun p => ?_, fun s' hs' => ?_, fun s' hs' => ?_, h.sound.nodup, fun hc => ?_, fun hup => ?_⟩
  · rw [← spawn_once h.sound s p]
    simp only [count, spawn, Table.rows_upsert (show c.processes.find? (c.next s).agentSessionId = none from h.unspawned),
      List.count_append]
    omega
  · by_cases e : s' = s
    · exact e ▸ h.known
    · exact h.sound.known s' (hs'.imp_left (hother e ▸ ·))
  · exact (hother fun e => h.unstarted (e ▸ hs')).trans (h.sound.unspawned s' hs')
  · exact absurd (hopen.symm.trans hc) Bool.false_ne_true
  · exact absurd (hup.symm.trans h.up) Bool.false_ne_true

end Custody

namespace Runtime

def custody (v : Runtime) : Custody where
  up := v.up
  shuttingDown := v.shuttingDown
  starts := v.starts.map SessionStartRequest.agentSessionId
  processes := v.processes
  exits := v.exits.map Exit.process
  kills := v.kills
  spawned := v.history.spawned
  terminated := v.history.terminations.map Termination.process
  orphans := v.history.orphans

theorem custody_noteTermination (v : Runtime) (process : Process) (actor : Actor) (termination : Except String Unit) :
    (v.noteTermination process actor termination).custody =
      { v.custody with terminated := v.custody.terminated ++ [process] } := by
  cases termination <;> exact congrArg (fun terminated => { v.custody with terminated }) List.map_append

end Runtime

/-! ## What a program keeps -/

def Op.isMaintenance : Op → Bool
  | .startupMaintenance _ _ => true
  | _ => false

theorem Step.session_isSome {db db' : Database} {call : Call} (h : Step db call db') (hop : call.op.isMaintenance = false)
    {s : String} (hs : (db.session s).isSome) : (db'.session s).isSome := by
  rcases h.effects with heffects | ⟨terminalNow, requestNow, heq, -⟩
  · clear h
    induction heffects with
    | refl => exact hs
    | tail _ heffect ih => exact heffect.session_isSome ih
  · rw [heq] at hop
    cases hop

/-- Neither a transaction of the open journal nor what is not custody changes it. -/
structure Stable (I : Database → Runtime → Prop) : Prop where
  step : ∀ {db db' v call}, Step db call db' → call.op.isMaintenance = false → I db v → I db' v
  custody : ∀ {db v v'}, v'.custody = v.custody → I db v → I db v'

namespace Stable

variable {I : Database → Runtime → Prop} {α : Type} {s r reason error eventType run : String} {fact : PendingTerminalFact}
  {request : SessionStartRequest} {payload : Value} {version : Option String} {phase : OperationPhase}

theorem update (hI : Stable I) {f : Runtime → Runtime} (h : ∀ v, (f v).custody = v.custody) : Meets I (Program.update f) I :=
  meets_update fun _ v => hI.custody (h v)

theorem update_bind {m : Action α} {f : Runtime → Runtime} (hI : Stable I) (h : ∀ v, (f v).custody = v.custody)
    (hm : Meets I m I) : Meets I (Program.update f >>= fun _ => m) I :=
  (hI.update h).bind fun _ => hm

theorem read (f : Database → α) : Meets I (call fun _ db => .ok (f db, db)) I := by
  refine meets_call fun t d a d' v _ h hv => ?_
  cases h
  exact hv

theorem op (hI : Stable I) (op : Op) (answer : α → Answer) {m : Tick → Database → Except String (α × Database)}
    (h : ∀ t d, op.apply t d = (m t d).map fun x => (answer x.1, x.2)) (hop : op.isMaintenance = false) :
    Meets I (call m) I := by
  refine meets_call fun t d a d' v hf hm hv => ?_
  have hstep : Step d ⟨op, t, .ok (answer a)⟩ d' := Step.of_apply hf (by rw [h, hm]; rfl)
  exact hI.step hstep hop hv

theorem write (hI : Stable I) (op : Op) {m : Tick → Database → Except String (Unit × Database)}
    (h : ∀ t d, op.apply t d = (m t d).map fun x => (.done, x.2)) (hop : op.isMaintenance = false) :
    Meets I (call m) I :=
  hI.op op (fun _ => .done) h hop

theorem commitFact (hI : Stable I) : Meets I (call (Runtime.commitFact s fact)) I := by
  obtain ⟨_, _, _, _, _, _, _ | completion, _ | failure⟩ := fact
  · exact hI.op (.updateSessionWithEvent _) .event (fun _ _ => rfl) rfl
  · exact hI.op (.failRequestWithSessionEvent _ _ _) .event (fun _ _ => rfl) rfl
  all_goals exact hI.op (.completeRequestWithSessionEvent _ _ _) .event (fun _ _ => rfl) rfl

theorem reconcileFact (hI : Stable I) : Meets I (call (Runtime.reconcileFact s fact)) I := by
  obtain ⟨_, _, _, _, _, _, _ | completion, _ | failure⟩ := fact
  · exact hI.write (.removeTerminalFact _) (fun _ _ => rfl) rfl
  · exact hI.write (.reconcileTerminalRequestFailure _ _ _) (fun _ _ => rfl) rfl
  all_goals exact hI.write (.reconcileTerminalRequest _ _ _) (fun _ _ => rfl) rfl

theorem persistTerminalFact (hI : Stable I) : Meets I (Runtime.persistTerminalFact s fact) I := by
  refine (hI.write (.retainTerminalFact _ _ _) (fun _ _ => rfl) rfl).bind fun retention => ?_
  refine hI.update_bind (fun _ => rfl) (hI.commitFact.bind fun answer => ?_)
  cases answer with
  | ok _ => exact hI.update_bind (fun _ => rfl) (meets_pure _)
  | error _ => cases retention <;> exact meets_pure _

theorem flushPendingTerminalFact (hI : Stable I) : Meets I (Runtime.flushPendingTerminalFact s) I := by
  refine meets_asks fun held => Meets.weaken ?_ fun _ _ h => h.1
  cases held with
  | none => exact meets_pure _
  | some fact =>
    refine (read _).andThen fun session => ?_
    split
    · exact hI.reconcileFact.andThen fun _ => hI.update_bind (fun _ => rfl) (meets_pure _)
    · exact hI.persistTerminalFact.andThen fun _ => meets_pure _

theorem setRequestPhase (hI : Stable I) : Meets I (call (Journal.setRequestPhase r phase)) I :=
  hI.write (.setRequestPhase _ _) (fun _ _ => rfl) rfl

theorem failRequest (hI : Stable I) : Meets I (call (Journal.failRequest r reason)) I :=
  hI.write (.failRequest _ _) (fun _ _ => rfl) rfl

theorem completeRequest (hI : Stable I) : Meets I (call (Journal.completeRequest r payload)) I :=
  hI.write (.completeRequest _ _) (fun _ _ => rfl) rfl

theorem markRequestUnknown (hI : Stable I) : Meets I (call (Journal.markRequestUnknown r)) I :=
  hI.write (.markRequestUnknown _) (fun _ _ => rfl) rfl

theorem transitionSessionEvent (hI : Stable I) {c : SessionCommit} : Meets I (Runtime.transitionSessionEvent c) I :=
  (hI.op (.updateSessionWithEvent _) .event (fun _ _ => rfl) rfl).andThen fun _ => meets_pure _

theorem emitControlEvent (hI : Stable I) : Meets I (Runtime.emitControlEvent run eventType s payload) I :=
  (hI.op (.appendEvent _ _ _ _ _) .event (fun _ _ => rfl) rfl).andThen fun _ => meets_pure _

theorem markTerminationUnknown (hI : Stable I) : Meets I (Runtime.markTerminationUnknown r s reason error) I := by
  refine hI.markRequestUnknown.bind fun first => hI.transitionSessionEvent.bind fun second => ?_
  split <;> exact meets_pure _

theorem ensureExitSupervisionComplete {id : Option String} {operation : String} :
    Meets I (Runtime.ensureExitSupervisionComplete id operation) I := by
  refine meets_asks fun blocked => Meets.weaken ?_ fun _ _ h => h.1
  cases blocked <;> exact meets_pure _

theorem rejectStartError (hI : Stable I) : Meets I (Runtime.rejectStartError request reason version error) I := by
  refine hI.failRequest.bind fun first => hI.transitionSessionEvent.bind fun second => ?_
  split <;> exact meets_pure _

theorem classifySpawnFailure (hI : Stable I) {stage : SpawnStage} {termination : Except String Unit} :
    Meets I (Runtime.classifySpawnFailure request stage version error termination) I := by
  cases termination with
  | ok _ =>
    refine hI.persistTerminalFact.bind fun answer => ?_
    cases answer <;> exact meets_pure _
  | error _ => exact hI.markTerminationUnknown

theorem advanceStartPhase (hI : Stable I) : Meets I (Runtime.advanceStartPhase request phase) I :=
  hI.setRequestPhase.andThen fun _ => hI.write (.setSessionPhase _ _) (fun _ _ => rfl) rfl

theorem commitOwnership (hI : Stable I) {resolved : ResolvedProvider} {path : String} {pid : ℕ} :
    Meets I (Runtime.commitOwnership request resolved path pid) I :=
  hI.transitionSessionEvent.andThen fun _ => hI.setRequestPhase.andThen fun _ => hI.emitControlEvent.andThen fun _ =>
    hI.completeRequest

theorem beginRequestFor (hI : Stable I) {sha256 : List UInt8 → String} {method : String} {target : List String}
    {owner : Owner} : Meets I (Runtime.beginRequestFor sha256 r method target owner) I := by
  refine (hI.op (.beginRequest _ _ _) .request (fun _ _ => rfl) rfl).bind fun answer => ?_
  split
  · exact hI.update_bind (fun _ => rfl) (meets_pure _)
  · exact meets_pure _

theorem recordExit (hI : Stable I) {code : Option Int} {exitReason : Option String} {proven : Bool}
    {stderrTail : Option String} : Meets I (Runtime.recordExit s fact code exitReason proven stderrTail) I := by
  refine (read _).bind fun session => ?_
  have hsession : Meets I (sessionOrRetainTerminalFact session s fact) I := by
    cases session with
    | ok session => exact meets_pure _
    | error error => exact hI.update_bind (fun _ => rfl) (meets_pure _)
  refine hsession.bind fun session => ?_
  cases session with
  | none => exact meets_pure _
  | some session =>
    dsimp only
    split
    · exact (meets_pure true).bind fun _ => hI.emitControlEvent.map
    · exact hI.persistTerminalFact.bind fun result => (meets_pure result.isOk).bind fun _ => hI.emitControlEvent.map

end Stable

/-! ## The sections -/

def Owned (db : Database) (v : Runtime) : Prop := v.custody.Sound db

def Launching (s : String) (db : Database) (v : Runtime) : Prop := v.custody.Launching s db

def Ready (s : String) (db : Database) (v : Runtime) : Prop := Launching s db v ∧ v.shuttingDown = false

theorem owned : Stable Owned where
  step hs hop h := h.mono (Reaches.trans h.journal (.single hs)) fun _ => hs.session_isSome hop
  custody hv h := (congrArg (Custody.Sound _) hv).mpr h

theorem ready (s : String) : Stable (Ready s) where
  step hs hop h := ⟨{ h.1 with sound := owned.step hs hop h.1.sound, known := hs.session_isSome hop h.1.known }, h.2⟩
  custody hv h := ⟨(congrArg (Custody.Launching s _) hv).mpr h.1, (congrArg Custody.shuttingDown hv).trans h.2⟩

theorem Owned.terminate {db : Database} {v : Runtime} {s : String} {process : Process} (h : Owned db v)
    (hfind : v.process s = some process) (actor : Actor) (termination : Except String Unit) :
    Owned db ((v.removeProcess s).noteTermination process actor termination) := by
  rw [Owned, custody_noteTermination]
  exact Custody.Sound.terminate h hfind

section Start

variable {request : SessionStartRequest} {stage : SpawnStage} {version : Option String} {error : String}
  {termination : Except String Unit}

theorem abandonChild_owned : Meets Owned (abandonChild request stage version error termination) Owned := by
  refine (meets_update fun db v h => ?_).bind fun _ => owned.classifySpawnFailure
  rw [Owned, custody_noteTermination]
  exact Custody.Sound.abandon h request.agentSessionId

theorem abandonProcess_owned : Meets Owned (abandonProcess request stage version error termination) Owned := by
  have hterminate : Meets Owned (terminateOwnedProcess request.agentSessionId termination) Owned := by
    refine meets_asks fun found => ?_
    cases found with
    | none => exact (meets_pure _).weaken fun _ _ h => h.1
    | some process => exact (meets_update fun _ _ h => h.1.terminate h.2 .start termination).map
  exact hterminate.bind fun _ => owned.classifySpawnFailure

theorem publishProcess_owned (s : String) : Meets (Ready s) (publishProcess s) Owned :=
  meets_update fun _ _ h => h.1.publish h.2

theorem finishSpawn_owned (resolved : ResolvedProvider) (path : String) (spawned : Spawned) :
    Meets (Ready request.agentSessionId) (finishSpawn request resolved path spawned) Owned := by
  have hsound : ∀ db v, Ready request.agentSessionId db v → Owned db v := fun _ _ h => h.1.sound
  cases spawned with
  | notSpawned error => exact owned.rejectStartError.map.weaken hsound
  | cleanupUnproven error => exact Meets.weaken (owned.update_bind (fun _ => rfl) owned.markTerminationUnknown.map) hsound
  | cleanupProven error => exact owned.classifySpawnFailure.map.weaken hsound
  | stdioUnavailable termination => exact abandonChild_owned.map.weaken hsound
  | writerUnavailable error termination | stderrUnavailable error termination =>
    exact abandonChild_owned.map.weaken hsound
  | readerUnavailable error termination | monitorUnavailable error termination =>
    exact (publishProcess_owned _).bind fun _ => abandonProcess_owned.map
  | attended pid termination =>
    refine (publishProcess_owned _).bind fun _ => owned.commitOwnership.bind fun answer => ?_
    cases answer with
    | ok _ => exact meets_pure _
    | error error => exact abandonProcess_owned.map

theorem launchStart_owned (resolved : ResolvedProvider) (path : String) (spawned : Spawned) :
    Meets (Launching request.agentSessionId) (launchStart request resolved path spawned) Owned := by
  have hready := ready request.agentSessionId
  have hsound : ∀ db v, Ready request.agentSessionId db v → Owned db v := fun _ _ h => h.1.sound
  refine meets_asks fun closing => ?_
  cases closing with
  | true => exact owned.rejectStartError.map.weaken fun _ _ h => h.1.sound
  | false =>
    refine (Stable.read _).bind fun current => ?_
    rcases current with _ | _ | current
    · exact (meets_pure _).weaken hsound
    · exact (meets_pure _).weaken hsound
    · dsimp only
      split
      · refine Meets.weaken (owned.failRequest.bind fun answer => ?_) hsound
        cases answer <;> exact meets_pure _
      -- nothing is spawned before the two phases are recorded
      · refine hready.advanceStartPhase.bind fun answer => ?_
        cases answer with
        | error error => exact owned.rejectStartError.map.weaken hsound
        | ok _ =>
          refine hready.advanceStartPhase.bind fun answer => ?_
          cases answer with
          | error error => exact owned.rejectStartError.map.weaken hsound
          | ok _ => exact finishSpawn_owned resolved path spawned

theorem finishStart_owned (probed : Probed) :
    Meets (fun db v => Owned db v ∧ v.up ∧ request ∈ v.starts) (finishStart request probed) Owned := by
  refine (meets_update (Q := Launching request.agentSessionId) fun db v h => ?_).bind fun _ => ?_
  · exact h.1.launch h.2.1 ((List.perm_cons_erase h.2.2).map SessionStartRequest.agentSessionId)
  have hsound : ∀ db v, Launching request.agentSessionId db v → Owned db v := fun _ _ h => h.sound
  cases probed with
  | invalidWorkspace error | unavailable error => exact owned.rejectStartError.map.weaken hsound
  | cleanupUnproven error => exact Meets.weaken (owned.update_bind (fun _ => rfl) owned.markTerminationUnknown.map) hsound
  | resolved resolved path spawned =>
    dsimp only
    split
    · exact owned.rejectStartError.map.weaken hsound
    · exact launchStart_owned resolved path spawned

end Start

variable (sha256 : List UInt8 → String) (isAbsolute : String → Bool)

theorem admitStart_owned (request : SessionStartRequest) :
    Meets (fun db v => Owned db v ∧ v.up) (admitStart sha256 isAbsolute request) Owned := by
  unfold admitStart
  split
  · exact (meets_pure _).weaken fun _ _ h => h.1
  refine meets_asks fun acceptingNew w hw => ?_
  obtain ⟨⟨h, hup⟩, -⟩ := hw
  rw [bind_apply]
  rcases call_cases (beginStartRequest request.requestId (digestTarget sha256 request.target) request.session acceptingNew
    "session.created" (.object [("providerId", .string request.providerId)])) w with ⟨error, he, -⟩ | ⟨d, db, hf, ho, he⟩
  · rw [he]
    exact h
  · rw [he]
    have hstep : Step w.durable ⟨.beginStartRequest _ _ _ _ _ _, nextTick w, .ok (.start d)⟩ db :=
      Step.of_apply hf (by rw [Op.apply, ho]; rfl)
    have hnext := owned.step hstep rfl h
    cases d with
    | execute event =>
      rcases beginStartRequest_ok ho with ⟨row, -, -, -, hd, -⟩ | ⟨-, hd, -⟩ | ⟨_, -, -, hadmits⟩
      · exact absurd hd.symm (recordedStartDecision_ne_execute row event)
      · cases hd
      · have hsome : (db.session request.agentSessionId).isSome :=
          Option.isSome_iff_exists.2 ⟨_, (hadmits.session_eq _).trans (if_pos rfl)⟩
        refine (congrArg (Custody.Sound db) ?_).mpr (h.addStart hup hadmits.fresh_session hnext hsome)
        exact congrArg (fun starts => { w.volatile.custody with starts }) List.map_append
    | replay _ | recordedError _ | unknownOutcome | admissionClosed => exact hnext

theorem beginWriting_owned (request : SessionWriteRequest) : Meets Owned (beginWriting sha256 request) Owned := by
  unfold beginWriting
  split
  · exact meets_pure _
  refine owned.beginRequestFor.bind fun answer => ?_
  split
  all_goals try exact meets_pure _
  refine owned.setRequestPhase.escalate fun _ => meets_asks fun found => Meets.weaken ?_ fun _ _ h => h.1
  cases found with
  | none => exact owned.failRequest.escalate fun _ => meets_pure _
  | some process => exact owned.setRequestPhase.escalate fun _ => owned.update_bind (fun _ => rfl) (meets_pure _)

theorem finishWriting_owned (request : SessionWriteRequest) (outcome : Written) :
    Meets Owned (finishWriting request outcome) Owned := by
  refine owned.update_bind (fun _ => rfl) ?_
  cases outcome with
  | queueFull | disconnected => exact owned.failRequest.escalate fun _ => meets_pure _
  | failed error | lost error => exact owned.markRequestUnknown.escalate fun _ => meets_pure _
  | written => exact owned.setRequestPhase.escalate fun _ => owned.completeRequest.escalate fun _ => meets_pure _

theorem executeCancel_owned (request : SessionCancelRequest) (session : SessionRecord) (termination : Except String Unit) :
    Meets Owned (executeCancel request session termination) Owned := by
  have hcancel : Meets Owned (cancelProcess request.agentSessionId session termination) Owned := by
    refine meets_asks fun found => ?_
    cases found with
    | none =>
      dsimp only
      split <;> exact (meets_pure _).weaken fun _ _ h => h.1
    | some process =>
      refine (meets_update fun _ _ h => h.1.terminate h.2 .cancel termination).bind fun _ => ?_
      split <;> exact meets_pure _
  refine hcancel.bind fun answer => ?_
  cases answer with
  | some error => exact owned.markTerminationUnknown.map
  | none =>
    dsimp only
    split
    · exact owned.persistTerminalFact.escalate fun _ => meets_pure _
    · exact owned.setRequestPhase.escalate fun _ => owned.completeRequest.escalate fun _ => meets_pure _

theorem cancelSession_owned (request : SessionCancelRequest) (termination : Except String Unit) :
    Meets Owned (cancelSession sha256 request termination) Owned := by
  unfold cancelSession
  split
  · exact meets_pure _
  refine owned.flushPendingTerminalFact.escalate fun _ => Stable.ensureExitSupervisionComplete.andThen fun _ => ?_
  refine owned.beginRequestFor.bind fun answer => ?_
  split
  all_goals try exact meets_pure _
  refine (Stable.read _).escalate fun session => ?_
  split
  · exact owned.failRequest.escalate fun _ => meets_pure _
  split
  · exact owned.failRequest.escalate fun _ => meets_pure _
  exact owned.setRequestPhase.escalate fun _ => owned.setRequestPhase.escalate fun _ => executeCancel_owned request _ termination

theorem pollProcessExit_owned (s : String) (status : ProcessStatus) : Meets Owned (pollProcessExit s status) Owned := by
  refine meets_asks fun found => ?_
  cases found with
  | none => exact (meets_pure _).weaken fun _ _ h => h.1
  | some process =>
    have hsupervise (code : Option Int) (reason : ExitReason) : Meets (fun db v => Owned db v ∧ v.process s = some process)
        (update (supervise ⟨process, code, reason⟩)) Owned := by
      refine meets_update fun db v h => ?_
      obtain rfl : process.agentSessionId = s := Table.key_of_find? h.2
      refine (congrArg (Custody.Sound db) ?_).mpr (h.1.supervise h.2)
      exact congrArg (fun exits => { v.custody with processes := v.processes.delete process.agentSessionId, exits })
        List.map_append
    cases status with
    | running => exact (meets_pure _).weaken fun _ _ h => h.1
    | exited code => exact hsupervise code .exited
    | unavailable => exact hsupervise none .statusUnavailable

theorem finishProcessExit_owned (exit : Exit) (termination : Except String Unit) (stderrTail : Option String) :
    Meets (fun db v => Owned db v ∧ exit ∈ v.exits) (finishProcessExit exit termination stderrTail) Owned := by
  refine (meets_update (Q := Owned) fun db v h => ?_).bind fun _ => owned.recordExit.bind fun _ => owned.update fun _ => rfl
  rw [Owned, custody_noteTermination]
  exact h.1.finish (((List.perm_cons_erase h.2).map Exit.process).append_right _)

theorem failProviderProtocol_owned (s : String) (termination : Except String Unit) (stderrTail : Option String) :
    Meets Owned (failProviderProtocol s termination stderrTail) Owned := by
  refine meets_asks fun found => ?_
  cases found with
  | none => exact (meets_pure _).weaken fun _ _ h => h.1
  | some process =>
    exact (meets_update fun _ _ h => h.1.terminate h.2 .protocol termination).bind fun _ => owned.recordExit

theorem killDrained_owned (process : Process) (termination : Except String Unit) :
    Meets (fun db v => Owned db v ∧ process ∈ v.kills) (killDrained process termination) Owned := by
  refine (meets_update (Q := Owned) fun db v h => ?_).bind fun _ => (Stable.read _).bind fun read => ?_
  · rw [Owned, custody_noteTermination]
    exact h.1.finish (((List.perm_cons_erase h.2).append_left _).trans List.perm_middle)
  split
  · exact meets_pure _
  · split
    · exact meets_pure _
    · exact owned.persistTerminalFact.map
  · exact owned.update_bind (fun _ => rfl) owned.persistTerminalFact.map

theorem listSessions_owned (runId : Option String) (order : List String) : Meets Owned (listSessions runId order) Owned := by
  have hhydrate : Meets Owned (hydrate order) Owned := by
    induction order with
    | nil => exact meets_pure _
    | cons s order ih => exact owned.flushPendingTerminalFact.escalate fun _ => ih
  exact hhydrate.andThen fun _ => Stable.ensureExitSupervisionComplete.andThen fun _ =>
    (Stable.read _).escalate fun _ => meets_pure _

/-- Startup changes the journal by its transactions only. -/
theorem evolves_openJournal (terminalNow requestNow : Timestamp) :
    Evolves Neko.Step (openJournal terminalNow requestNow : Action (Except String Unit)) := by
  have hkeep : Evolves Neko.Step (call housekeeping : Action (Except String Unit)) := by
    refine evolves_call fun t d a d' _ h => ?_
    cases h
    exact .refl d
  refine hkeep.andThen fun _ => evolves_recoverIncomplete.andThen fun _ => ?_
  exact (evolves_op (.startupMaintenance _ _) (fun _ => .done) fun _ _ => rfl).andThen fun _ => hkeep

theorem openJournal_volatile (v : Runtime) (terminalNow requestNow : Timestamp) :
    Meets (fun _ u => u = v) (openJournal terminalNow requestNow) fun _ u => u = v := by
  have hcall {α : Type} {m : Tick → Database → Except String (α × Database)} :
      Meets (fun _ u => u = v) (call m) fun _ u => u = v := meets_call fun _ _ _ _ _ _ _ h => h
  refine hcall.andThen fun _ => Meets.andThen ?_ fun _ => hcall.andThen fun _ => hcall
  refine hcall.andThen fun rows => (meets_tryEach (fun row => ?_) rows).andThen fun _ => hcall.andThen fun _ => hcall
  unfold recoverSession
  split
  · exact meets_pure _
  · refine hcall.andThen fun pending => ?_
    split
    · exact meets_pure _
    · exact hcall.andThen fun _ => meets_pure _

theorem openJournal_owned (terminalNow requestNow : Timestamp) :
    Meets (fun db v => Owned db v ∧ v.up = false) (openJournal terminalNow requestNow) fun db v =>
      Owned db v ∧ v.up = false := by
  intro w hw
  obtain ⟨hstarts, hprocesses⟩ := hw.1.down hw.2
  rw [openJournal_volatile w.volatile terminalNow requestNow w rfl]
  refine ⟨{ hw.1 with
    journal := Reaches.trans hw.1.journal (evolves_openJournal terminalNow requestNow w)
    known := fun s hs => ?_ }, hw.2⟩
  simp [hstarts, hprocesses s] at hs

theorem openRuntime_owned (terminalNow requestNow : Timestamp) :
    Meets (fun db v => Owned db v ∧ v.up = false) (openRuntime terminalNow requestNow) Owned := by
  have hfail (error : String) : Meets (fun db v => Owned db v ∧ v.up = false)
      (pure (.error error) : Action (Except String Unit)) Owned := (meets_pure _).weaken fun _ _ h => h.1
  refine (openJournal_owned terminalNow requestNow).bind fun answer => ?_
  cases answer with
  | error error => exact hfail error
  | ok _ =>
    refine (Stable.read _).bind fun rows => ?_
    cases rows with
    | error error => exact hfail error
    | ok rows =>
      dsimp only
      split
      · exact hfail _
      · exact (meets_update fun db v h => { h.1 with down := fun hup => absurd hup.symm Bool.false_ne_true }).map

namespace System

theorem Event.program_owned (event : Event) :
    Meets (fun db v => Owned db v ∧ event.Enabled v) (event.program sha256 isAbsolute) Owned := by
  have hall {α : Type} {m : Action α} {P : Runtime → Prop} (h : Meets Owned m Owned) :
      Meets (fun db v => Owned db v ∧ P v) m Owned := h.weaken fun _ _ h => h.1
  cases event with
  | admitStart request => exact (admitStart_owned sha256 isAbsolute request).andThen fun _ => meets_pure _
  | finishStart request probed => exact (finishStart_owned probed).andThen fun _ => meets_pure _
  | beginWriting request => exact hall ((beginWriting_owned sha256 request).andThen fun _ => meets_pure _)
  | finishWriting request outcome => exact hall ((finishWriting_owned request outcome).andThen fun _ => meets_pure _)
  | cancelSession request termination =>
    exact hall ((cancelSession_owned sha256 request termination).andThen fun _ => meets_pure _)
  | drainProcesses => exact hall (meets_update fun _ _ h => h.drain).map
  | killDrained process termination => exact (killDrained_owned process termination).map.weaken fun _ _ h => ⟨h.1, h.2.2⟩
  | flushAll order => exact hall (meets_forEach (fun s => owned.flushPendingTerminalFact.map) order).map
  | listSessions runId order => exact hall ((listSessions_owned runId order).andThen fun _ => meets_pure _)
  | pollProcessExit s status => exact hall (pollProcessExit_owned s status).map
  | finishProcessExit exit termination stderrTail =>
    exact (finishProcessExit_owned exit termination stderrTail).map.weaken fun _ _ h => ⟨h.1, h.2.2⟩
  | failProviderProtocol s termination stderrTail => exact hall (failProviderProtocol_owned s termination stderrTail).map
  | openRuntime terminalNow requestNow => exact (openRuntime_owned terminalNow requestNow).escalate fun _ => meets_pure _
  | crash => exact hall (meets_update fun _ _ h => h.crash).map

def initial : System := ⟨∅, Runtime.initial⟩

variable {sha256 isAbsolute} {σ : System}

theorem Reaches.owned (h : Reaches (Step sha256 isAbsolute) initial σ) : Owned σ.journal σ.runtime := by
  refine @Reaches.invariant _ _ _ (fun σ => Owned σ.journal σ.runtime) (fun σ act σ' hσ hstep => ?_) _ _ h ?_
  · obtain ⟨henabled, -, hjournal, hruntime⟩ := hstep
    rw [← hjournal, ← hruntime]
    exact act.event.program_owned sha256 isAbsolute (σ.world act.ticks) ⟨hσ, henabled⟩
  · exact ⟨.refl ∅, fun p => rfl, nofun, nofun, List.nodup_nil, fun _ _ => rfl, fun _ => ⟨rfl, fun _ => rfl⟩⟩

/-- The section with a storage that fails no call. -/
def Event.next (event : Event) (σ : System) : System :=
  let after := (event.program (fun _ => "") (fun _ => true) (σ.world [])).2
  ⟨after.durable, after.volatile⟩

theorem reaches_next {e : Event} (h : Reaches (Step (fun _ => "") fun _ => true) initial σ)
    (he : e.Enabled σ.runtime) : Reaches (Step (fun _ => "") fun _ => true) initial (e.next σ) :=
  h.trans (.single (a := ⟨e, [], (e.program (fun _ => "") (fun _ => true) (σ.world [])).1⟩) ⟨he, rfl, rfl, rfl⟩)

def oneStart : SessionStartRequest := ⟨"request", "session", "task", "run", "opencode", "local", "/work", none⟩

/-- One session is started. -/
def oneSession : System :=
  (Event.finishStart oneStart (.resolved ⟨⟨"opencode", "OpenCode", ["acp"], none, true⟩, none, false⟩ "/work"
    (.attended 4711 (.ok ())))).next ((Event.admitStart oneStart).next ((Event.openRuntime 0 0).next initial))

theorem reaches_oneSession : Reaches (Step (fun _ => "") fun _ => true) initial oneSession :=
  reaches_next (reaches_next (reaches_next (.refl _) rfl) (show _ = true by decide +kernel))
    ⟨by decide +kernel, by decide +kernel⟩

/-- In every state that is reached, a process that was spawned is in one hand, was terminated once, or was left behind by
a crash. -/
theorem processes_accounted (h : Reaches (Step sha256 isAbsolute) initial σ) (p : Process) :
    σ.runtime.alive.count p + (σ.runtime.history.terminations.map Termination.process).count p +
      σ.runtime.history.orphans.count p = if p.serial < σ.runtime.history.spawned p.agentSessionId then 1 else 0 := by
  refine Eq.trans ?_ ((Reaches.owned h).once p)
  rw [Runtime.alive, List.count_append, List.count_append]
  rfl

theorem processes_accounted_oneSession : oneSession.runtime.alive.count ⟨"session", 0⟩ +
    (oneSession.runtime.history.terminations.map Termination.process).count ⟨"session", 0⟩ +
      oneSession.runtime.history.orphans.count ⟨"session", 0⟩ = 1 :=
  (processes_accounted reaches_oneSession _).trans (if_pos (by decide +kernel))

/-- Once `kill_all` and the monitors are done, nothing that was spawned is left over but what a crash left behind. -/
theorem shutdown_complete (h : Reaches (Step sha256 isAbsolute) initial σ) (hclosed : σ.runtime.shuttingDown = true)
    (hkills : σ.runtime.kills = []) (hexits : σ.runtime.exits = []) {p : Process}
    (hspawned : p.serial < σ.runtime.history.spawned p.agentSessionId) :
    (σ.runtime.history.terminations.map Termination.process).count p + σ.runtime.history.orphans.count p = 1 := by
  have hnone : σ.runtime.processes.rows = [] := List.eq_nil_iff_forall_not_mem.2 fun q hq => by
    cases ((Reaches.owned h).closed hclosed q.agentSessionId).symm.trans (Table.find?_of_mem hq)
  have hcount := ((Reaches.owned h).once p).trans (if_pos hspawned)
  simpa [Custody.count, Runtime.custody, hnone, hkills, hexits] using hcount

theorem shutdown_complete_oneSession :
    let σ := (Event.killDrained ⟨"session", 0⟩ (.ok ())).next (Event.drainProcesses.next oneSession)
    (σ.runtime.history.terminations.map Termination.process).count ⟨"session", 0⟩ +
      σ.runtime.history.orphans.count ⟨"session", 0⟩ = 1 :=
  shutdown_complete (reaches_next (e := .killDrained ⟨"session", 0⟩ (.ok ()))
    (reaches_next (e := .drainProcesses) reaches_oneSession (show _ = true by decide +kernel))
      ⟨by decide +kernel, by decide +kernel⟩)
    (by decide +kernel) (by decide +kernel) (by decide +kernel) (by decide +kernel)

/-- The runtime changes its journal by the transactions of the journal only. -/
theorem journal_reachable (h : Reaches (Step sha256 isAbsolute) initial σ) : Reachable σ.journal := (Reaches.owned h).journal

theorem journal_reachable_oneSession : Reachable oneSession.journal := journal_reachable reaches_oneSession

end System

end Wiii.Neko
