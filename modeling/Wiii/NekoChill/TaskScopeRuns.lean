import Wiii.Lib.Run
import Wiii.NekoChill.TaskScope

/-!
# Runs of a task link

The link of a session is created, bound, loaded, marked and saved, and after a restart it is restored from what
was saved.  `Admissible` is the invariant: every mapping is well formed, and each one with a receipt is of the
task that was bound first.
-/

namespace Wiii.NekoChill

variable {lower : JsText → JsText} {mapping next : NekoTaskScopeMapping} {host : NekoTaskMappingHost}

/-! ## Operations -/

theorem parseNekoTaskMapping_toValue (h : mapping.Ok lower) :
    parseNekoTaskMapping lower mapping.toValue = .scoped mapping := by
  have hstate : (mapping.toValue.own "state").isString "invalid" = decide (js mapping.state.text = js "invalid") := rfl
  have hname : js mapping.state.text ≠ js "invalid" := by
    cases mapping.state with
    | pendingNew => exact of_decide_eq_false (show decide (js "pending-new" = js "invalid") = false by decide +kernel)
    | bound => exact of_decide_eq_false (show decide (js "bound" = js "invalid") = false by decide +kernel)
    | pendingLoad => exact of_decide_eq_false (show decide (js "pending-load" = js "invalid") = false by decide +kernel)
    | recoveryRequired =>
      exact of_decide_eq_false (show decide (js "recovery-required" = js "invalid") = false by decide +kernel)
  have hguard : ¬ (mapping.toValue.own "state").isString "invalid" = true := by
    rw [hstate, decide_eq_true_eq]
    exact hname
  unfold parseNekoTaskMapping
  rw [if_neg hguard, readMapping_toValue h]
  rfl

theorem createPendingNekoTaskMapping_eq_ok (lower : JsText → JsText) {label : JsText}
    (h : createPendingNekoTaskMapping host label = .ok (some mapping)) :
    mapping.Ok lower ∧ mapping.state = .pendingNew := by
  unfold createPendingNekoTaskMapping at h
  split at h
  · cases h
  · split at h
    · cases h
    · split at h
      · cases h
      · rename_i binding hbinding
        simp only [ite_error_ok_iff, Except.ok.injEq, Option.some.injEq, Bool.or_eq_true, not_or, Bool.not_eq_true,
          Bool.not_eq_false'] at h
        obtain ⟨⟨⟨hthread, hproject⟩, hworkspace⟩, hlabel, rfl⟩ := h
        exact ⟨⟨⟨hthread, readExecution_eq_some hbinding, hproject, hworkspace, hlabel⟩, hworkspace,
          canonicalRootsEqual_refl _⟩, rfl⟩

theorem markNekoTaskRecovery_of_ok (h : mapping.Ok lower) (reason : NekoTaskMappingRecoveryReason) :
    markNekoTaskRecovery lower mapping reason = .ok { mapping with
      state := .recoveryRequired mapping.state.backendSessionId mapping.state.receipt reason } ∧
    NekoTaskScopeMapping.Ok lower { mapping with
      state := .recoveryRequired mapping.state.backendSessionId mapping.state.receipt reason } := by
  constructor
  · rw [markNekoTaskRecovery, readMapping_toValue h]
    rfl
  · refine ⟨h.identity, h.authorizedRoot, ?_⟩
    have hstate := h.state
    show StateOk _ _ _ _ (.recoveryRequired mapping.state.backendSessionId mapping.state.receipt reason)
    cases hcase : mapping.state with
    | pendingNew => trivial
    | bound backendSessionId receipt =>
      rw [hcase] at hstate
      exact hstate
    | pendingLoad backendSessionId receipt =>
      rw [hcase] at hstate
      exact hstate
    | recoveryRequired backendSessionId receipt before =>
      rw [hcase] at hstate
      match backendSessionId, receipt, hstate with
      | none, none, _ => trivial
      | some _, some _, hstate => exact hstate

theorem beginNekoTaskLoad_eq_ok (h : mapping.Ok lower) (hnext : beginNekoTaskLoad lower mapping = .ok next) :
    ∃ backendSessionId receipt, (mapping.state = .bound backendSessionId receipt ∨
        mapping.state = .pendingLoad backendSessionId receipt) ∧
      next = { mapping with state := .pendingLoad backendSessionId receipt } ∧ next.Ok lower := by
  have hstate := h.state
  rw [beginNekoTaskLoad, readMapping_toValue h] at hnext
  simp only [bind_ok_iff, Except.ok.injEq, exists_eq_left'] at hnext
  cases hcase : mapping.state with
  | pendingNew =>
    rw [hcase] at hnext
    cases hnext
  | bound backendSessionId receipt =>
    rw [hcase] at hnext hstate
    cases hnext
    exact ⟨_, _, .inl rfl, rfl, h.identity, h.authorizedRoot, hstate⟩
  | pendingLoad backendSessionId receipt =>
    rw [hcase] at hnext hstate
    cases hnext
    exact ⟨_, _, .inr rfl, rfl, h.identity, h.authorizedRoot, hstate⟩
  | recoveryRequired backendSessionId receipt reason =>
    rw [hcase] at hnext
    cases hnext

/-- What a receipt of a task that was bound before agrees on. -/
structure Again (lower : JsText → JsText) (mapping next : NekoTaskScopeMapping) (saved receipt : NekoTaskReceipt) :
    Prop where
  id : receipt.id = saved.id
  authorizedRoot : canonicalRootsEqual lower next.authorizedRoot mapping.authorizedRoot = true
  root : canonicalRootsEqual lower receipt.root saved.root = true

theorem bindAgain_eq_ok {provenRoot backendSessionId savedSessionId : JsText} {receipt saved : NekoTaskReceipt}
    {isLoad : Bool} (h : bindAgain lower mapping provenRoot backendSessionId receipt savedSessionId saved isLoad =
      .ok next) : next = { mapping with authorizedRoot := provenRoot, state := .bound backendSessionId receipt } ∧
      backendSessionId = savedSessionId ∧ Again lower mapping next saved receipt ∧
      continues receipt saved isLoad = true := by
  unfold bindAgain at h
  simp only [ite_error_ok_iff, not_or, not_not, Except.ok.injEq, Bool.not_eq_true, Bool.not_eq_false'] at h
  obtain ⟨⟨hsession, hid, hauthorized, hroot⟩, hcontinues, rfl⟩ := h
  exact ⟨rfl, hsession, ⟨hid, by simpa using hauthorized, by simpa using hroot⟩, hcontinues⟩

theorem bindNekoTaskMapping_eq_ok {value : JsValue} {backendSessionId : JsText} {root : Option JsText}
    (h : mapping.Ok lower) (hnext : bindNekoTaskMapping lower mapping value backendSessionId root = .ok next) :
    ∃ receipt, next.state = .bound backendSessionId receipt ∧ next.identity = mapping.identity ∧ next.Ok lower ∧
      (mapping.state = .pendingNew ∧ receipt.activationEpoch = 1 ∨
        ∃ saved isLoad, mapping.state = (if isLoad then .pendingLoad backendSessionId saved
            else .bound backendSessionId saved) ∧
          Again lower mapping next saved receipt ∧ continues receipt saved isLoad = true) := by
  rw [bindNekoTaskMapping, readMapping_toValue h] at hnext
  simp only [bind_ok_iff, Except.ok.injEq, exists_eq_left', ite_error_ok_iff] at hnext
  obtain ⟨receipt, hreceipt, hsession, -, -, hroots, hlabel, hnext⟩ := hnext
  simp only [Bool.or_eq_true, not_or, Bool.not_eq_true, Bool.not_eq_false', decide_eq_false_iff_not] at hsession hroots
  rw [not_not] at hlabel
  have hok : ∀ {m : NekoTaskScopeMapping}, m = { mapping with
      authorizedRoot := root.getD mapping.authorizedRoot, state := .bound backendSessionId receipt } → m.Ok lower := by
    rintro m rfl
    exact ⟨h.identity, hroots.1, hsession.1.1, receiptValue_eq_ok hreceipt, hroots.2, hlabel, fun heq => hsession.1.2 heq.symm,
      fun heq => hsession.2 heq.symm⟩
  cases hcase : mapping.state with
  | pendingNew =>
    rw [hcase] at hnext
    simp only [ite_error_ok_iff, not_not, Except.ok.injEq] at hnext
    obtain ⟨hepoch, rfl⟩ := hnext
    exact ⟨receipt, rfl, rfl, hok rfl, .inl ⟨rfl, hepoch⟩⟩
  | bound savedSessionId saved =>
    rw [hcase] at hnext
    obtain ⟨rfl, rfl, hagain, hcontinues⟩ := bindAgain_eq_ok hnext
    exact ⟨receipt, rfl, rfl, hok rfl, .inr ⟨saved, false, rfl, hagain, hcontinues⟩⟩
  | pendingLoad savedSessionId saved =>
    rw [hcase] at hnext
    obtain ⟨rfl, rfl, hagain, hcontinues⟩ := bindAgain_eq_ok hnext
    exact ⟨receipt, rfl, rfl, hok rfl, .inr ⟨saved, true, rfl, hagain, hcontinues⟩⟩
  | recoveryRequired savedSessionId saved reason =>
    rw [hcase] at hnext
    cases hnext

theorem restoreNekoTaskMapping_toValue (h : mapping.Ok lower) : restoreNekoTaskMapping lower mapping.toValue host =
    .ok (if !sameHost lower mapping host then .blocked .hostBindingMismatch (some mapping)
      else .scoped (match mapping.state with
        | .pendingNew => { mapping with state := .recoveryRequired none none .unfinishedNew }
        | .pendingLoad backendSessionId receipt => { mapping with
            state := .recoveryRequired (some backendSessionId) (some receipt) .unfinishedLoad }
        | _ => mapping)) := by
  unfold restoreNekoTaskMapping
  rw [parseNekoTaskMapping_toValue h]
  dsimp only
  split
  · rfl
  · cases hcase : mapping.state with
    | pendingNew =>
      dsimp only
      rw [(markNekoTaskRecovery_of_ok h _).1, hcase]
      rfl
    | pendingLoad backendSessionId receipt =>
      dsimp only
      rw [(markNekoTaskRecovery_of_ok h _).1, hcase]
      rfl
    | bound backendSessionId receipt => rfl
    | recoveryRequired backendSessionId receipt reason => rfl

/-! ## Links -/

/-- The mapping of a session, or a marker that its mapping was refused. -/
inductive NekoTaskScopeState where
  | task (mapping : NekoTaskScopeMapping)
  | invalid (reason : InvalidReason) (retained : Option NekoTaskScopeMapping)
  deriving DecidableEq

namespace NekoTaskScopeState

def mappings : NekoTaskScopeState → List NekoTaskScopeMapping
  | .task mapping => [mapping]
  | .invalid _ retained => retained.toList

def toValue : NekoTaskScopeState → JsValue
  | .task mapping => mapping.toValue
  | .invalid reason retained => .object ([("state", .string (js "invalid")), ("reason", .string (js reason.text))] ++
      (retained.map fun mapping => ("retained", mapping.toValue)).toList)

end NekoTaskScopeState

structure TaskLink where
  memory : Option NekoTaskScopeState := none
  /-- What was saved last, and what a restart finds. -/
  disk : Option NekoTaskScopeState := none
  /-- The mapping that was bound first; no operation reads it. -/
  first : Option NekoTaskScopeMapping := none
  deriving DecidableEq

inductive TaskLinkAct where
  | create (host : NekoTaskMappingHost) (label : JsText)
  | bind (receipt : JsValue) (backendSessionId : JsText) (authorizedCanonicalRoot : Option JsText)
  | beginLoad
  | recover (reason : NekoTaskMappingRecoveryReason)
  | save
  /-- The process ends wherever it is, and the link is restored. -/
  | restart (host : NekoTaskMappingHost)

/-- No operation starts from it. -/
def NekoTaskScopeState.isClosed : NekoTaskScopeState → Bool
  | .task mapping => mapping.state.isRecoveryRequired
  | .invalid _ _ => true

def MappingState.isPending : MappingState → Bool
  | .pendingNew | .pendingLoad _ _ => true
  | _ => false

def TaskLinkAct.isRestart : TaskLinkAct → Bool
  | restart _ => true
  | _ => false

namespace TaskLink

def mappings (link : TaskLink) : List NekoTaskScopeMapping :=
  (link.memory.toList ++ link.disk.toList).flatMap NekoTaskScopeState.mappings

def update (link : TaskLink) (op : NekoTaskScopeMapping → Except TaskError NekoTaskScopeMapping)
    (first : NekoTaskScopeMapping → Option NekoTaskScopeMapping) : TaskLink :=
  match link.memory with
  | some (.task mapping) => match op mapping with
    | .ok next => { link with memory := some (.task next), first := first next }
    | .error _ => link
  | _ => link

def diskValue (link : TaskLink) : JsValue := (link.disk.map NekoTaskScopeState.toValue).getD .undefined

section

variable (lower : JsText → JsText)

def step (link : TaskLink) : TaskLinkAct → TaskLink
  | .create host label =>
    if link.memory.isSome || link.disk.isSome || link.first.isSome then link
    else match createPendingNekoTaskMapping host label with
      | .ok (some mapping) => { link with memory := some (.task mapping) }
      | _ => link
  | .bind receipt backendSessionId authorizedCanonicalRoot =>
    link.update (fun mapping => bindNekoTaskMapping lower mapping receipt backendSessionId authorizedCanonicalRoot)
      fun next => link.first.or (some next)
  | .beginLoad => link.update (beginNekoTaskLoad lower) fun _ => link.first
  | .recover reason => link.update (fun mapping => markNekoTaskRecovery lower mapping reason) fun _ => link.first
  | .save => { link with disk := link.memory }
  | .restart host => match restoreNekoTaskMapping lower link.diskValue host with
    | .ok .legacy => { link with memory := none }
    | .ok (.scoped mapping) => { link with memory := some (.task mapping) }
    | .ok (.blocked reason retained) => { link with memory := some (.invalid reason retained) }
    | .error _ => link

def run (acts : List TaskLinkAct) : TaskLink := acts.foldl (step lower) {}

end

/-! ## What a run keeps -/

/-- What a mapping with a receipt shares with the one that was bound first. -/
structure SameTask (lower : JsText → JsText) (first mapping : NekoTaskScopeMapping) : Prop where
  backendSessionId : mapping.state.backendSessionId = first.state.backendSessionId
  authorizedRoot : canonicalRootsEqual lower mapping.authorizedRoot first.authorizedRoot = true
  receipt : ∃ before receipt, first.state.receipt = some before ∧ mapping.state.receipt = some receipt ∧
    receipt.id = before.id ∧ receipt.label = before.label ∧ canonicalRootsEqual lower receipt.root before.root = true

structure Linked (lower : JsText → JsText) (identity : MappingIdentity) (first : Option NekoTaskScopeMapping)
    (mapping : NekoTaskScopeMapping) : Prop where
  ok : mapping.Ok lower
  identity_eq : mapping.identity = identity
  same : mapping.state.receipt.isSome = true → ∃ bound, first = some bound ∧ SameTask lower bound mapping

structure Admissible (lower : JsText → JsText) (identity : MappingIdentity) (link : TaskLink) : Prop where
  linked : ∀ mapping ∈ link.mappings, Linked lower identity link.first mapping
  first_eq : ∀ bound, link.first = some bound → bound.identity = identity
  begun : ∀ bound mapping, link.first = some bound → link.memory = some (.task mapping) → mapping.state ≠ .pendingNew
  known : link.disk.isSome = true → link.memory.isSome = true

section

variable {lower : JsText → JsText} {identity : MappingIdentity} {first : Option NekoTaskScopeMapping} {link : TaskLink}
  {mapping next : NekoTaskScopeMapping}

theorem mem_mappings_of_memory {state : NekoTaskScopeState} (h : link.memory = some state)
    (hmem : mapping ∈ state.mappings) : mapping ∈ link.mappings := by
  rw [mappings, h]
  exact List.mem_append_left _ hmem

theorem mem_mappings_of_disk {state : NekoTaskScopeState} (h : link.disk = some state)
    (hmem : mapping ∈ state.mappings) : mapping ∈ link.mappings := by
  unfold mappings
  rw [h, List.flatMap_append]
  refine List.mem_append_right _ ?_
  simpa using hmem

theorem Linked.of_eq (h : Linked lower identity first mapping) (hok : next.Ok lower)
    (hidentity : next.identity = mapping.identity) (hroot : next.authorizedRoot = mapping.authorizedRoot)
    (hsession : next.state.backendSessionId = mapping.state.backendSessionId)
    (hreceipt : next.state.receipt = mapping.state.receipt) : Linked lower identity first next := by
  refine ⟨hok, hidentity.trans h.identity_eq, fun hsome => ?_⟩
  rw [hreceipt] at hsome
  obtain ⟨bound, hbound, hsame⟩ := h.same hsome
  refine ⟨bound, hbound, hsession.trans hsame.backendSessionId, ?_, ?_⟩
  · rw [hroot]
    exact hsame.authorizedRoot
  · rw [hreceipt]
    exact hsame.receipt

theorem Linked.recover (h : Linked lower identity first mapping) (reason : NekoTaskMappingRecoveryReason) :
    Linked lower identity first { mapping with
      state := .recoveryRequired mapping.state.backendSessionId mapping.state.receipt reason } :=
  h.of_eq (markNekoTaskRecovery_of_ok h.ok reason).2 rfl rfl rfl rfl

theorem Linked.load (h : Linked lower identity first mapping) (hnext : beginNekoTaskLoad lower mapping = .ok next) :
    Linked lower identity first next := by
  obtain ⟨backendSessionId, receipt, hstate, rfl, hok⟩ := beginNekoTaskLoad_eq_ok h.ok hnext
  rcases hstate with hstate | hstate
  · exact h.of_eq hok rfl rfl (by rw [hstate]; rfl) (by rw [hstate]; rfl)
  · exact h.of_eq hok rfl rfl (by rw [hstate]) (by rw [hstate])

theorem Linked.mono (h : Linked lower identity first mapping) :
    Linked lower identity (first.or (some next)) mapping := by
  refine ⟨h.ok, h.identity_eq, fun hsome => ?_⟩
  obtain ⟨bound, rfl, hsame⟩ := h.same hsome
  exact ⟨bound, rfl, hsame⟩

theorem SameTask.again {bound : NekoTaskScopeMapping} {saved receipt : NekoTaskReceipt}
    (h : SameTask lower bound mapping) (hsaved : mapping.state.receipt = some saved)
    (hreceipt : next.state.receipt = some receipt) (hlabel : receipt.label = saved.label)
    (hsession : next.state.backendSessionId = mapping.state.backendSessionId)
    (hagain : Again lower mapping next saved receipt) : SameTask lower bound next := by
  obtain ⟨before, receipt', hbefore, hreceipt', hid, hlabel', hroot⟩ := h.receipt
  rw [hsaved] at hreceipt'
  cases hreceipt'
  exact ⟨hsession.trans h.backendSessionId, canonicalRootsEqual_trans hagain.authorizedRoot h.authorizedRoot, before,
    receipt, hbefore, hreceipt, hagain.id.trans hid, hlabel.trans hlabel', canonicalRootsEqual_trans hagain.root hroot⟩

theorem Linked.bind {value : JsValue} {backendSessionId : JsText} {root : Option JsText}
    (h : Linked lower identity first mapping) (hbegun : first.isSome = true → mapping.state ≠ .pendingNew)
    (hnext : bindNekoTaskMapping lower mapping value backendSessionId root = .ok next) :
    Linked lower identity (first.or (some next)) next := by
  obtain ⟨receipt, hstate, hidentity, hok, hcase⟩ := bindNekoTaskMapping_eq_ok h.ok hnext
  have hreceipt : next.state.receipt = some receipt := by
    rw [hstate]
    rfl
  refine ⟨hok, hidentity.trans h.identity_eq, fun _ => ?_⟩
  rcases hcase with ⟨hpending, -⟩ | ⟨saved, isLoad, hmapping, hagain, -⟩
  · cases first with
    | some bound => exact absurd hpending (hbegun rfl)
    | none =>
      exact ⟨next, rfl, rfl, canonicalRootsEqual_refl _, receipt, receipt, hreceipt, hreceipt, rfl, rfl,
        canonicalRootsEqual_refl _⟩
  · have hsaved : mapping.state.receipt = some saved ∧ mapping.state.backendSessionId = some backendSessionId := by
      rw [hmapping]
      cases isLoad <;> exact ⟨rfl, rfl⟩
    obtain ⟨bound, rfl, hsame⟩ := h.same (by rw [hsaved.1]; rfl)
    have hlabel : receipt.label = saved.label := by
      have hold := h.ok.state
      have hnew := hok.state
      rw [hmapping] at hold
      rw [hstate, hidentity] at hnew
      have hold : Admitted lower mapping.authorizedRoot mapping.identity.label backendSessionId saved := by
        cases isLoad <;> exact hold
      exact (Admitted.label_eq hnew).trans hold.label_eq.symm
    refine ⟨bound, rfl, hsame.again hsaved.1 hreceipt hlabel ?_ hagain⟩
    rw [hstate, hsaved.2]
    rfl

theorem Admissible.put {state : NekoTaskScopeState} (h : Admissible lower identity link)
    (hstate : ∀ mapping ∈ state.mappings, Linked lower identity first mapping)
    (hothers : ∀ mapping, Linked lower identity link.first mapping → Linked lower identity first mapping)
    (hfirst : ∀ bound, first = some bound → bound.identity = identity)
    (hbegun : ∀ mapping, state = .task mapping → first.isSome = true → mapping.state ≠ .pendingNew) :
    Admissible lower identity { link with memory := some state, first := first } := by
  refine ⟨fun mapping hmem => ?_, hfirst, fun bound mapping hbound hmemory => ?_, fun _ => rfl⟩
  · unfold mappings at hmem
    rw [List.flatMap_append, List.mem_append] at hmem
    rcases hmem with hmem | hmem
    · exact hstate mapping (by simpa using hmem)
    · refine hothers mapping (h.linked mapping ?_)
      unfold mappings
      rw [List.flatMap_append]
      exact List.mem_append_right _ hmem
  · cases hmemory
    exact hbegun mapping rfl (by rw [show first = some bound from hbound]; rfl)

theorem Admissible.update {op : NekoTaskScopeMapping → Except TaskError NekoTaskScopeMapping}
    {f : NekoTaskScopeMapping → Option NekoTaskScopeMapping} (h : Admissible lower identity link)
    (hop : ∀ mapping next, link.memory = some (.task mapping) → op mapping = .ok next →
      Admissible lower identity { link with memory := some (.task next), first := f next }) :
    Admissible lower identity (link.update op f) := by
  unfold TaskLink.update
  split
  · rename_i mapping hmemory
    split
    · rename_i next hnext
      exact hop mapping next hmemory hnext
    · exact h
  · exact h

theorem parseNekoTaskMapping_invalid {reason : InvalidReason} {retained : Option NekoTaskScopeMapping}
    (h : ∀ mapping ∈ retained.toList, mapping.Ok lower) :
    parseNekoTaskMapping lower (NekoTaskScopeState.invalid reason retained).toValue = .blocked reason retained := by
  let raw := (NekoTaskScopeState.invalid reason retained).toValue
  have hstate : (raw.own "state").isString "invalid" = true := JsValue.isString_self "invalid"
  have hreason : (if (raw.own "reason").isString InvalidReason.hostBindingMismatch.text
      then InvalidReason.hostBindingMismatch else .invalidMapping) = reason := by
    have hown : (raw.own "reason").isString InvalidReason.hostBindingMismatch.text =
      decide (js reason.text = js InvalidReason.hostBindingMismatch.text) := rfl
    rw [hown]
    cases reason with
    | invalidMapping => decide +kernel
    | hostBindingMismatch => rfl
  have hretained : readRetained lower (raw.own "retained") = retained := by
    cases retained with
    | none => rfl
    | some mapping =>
      show (readMapping lower mapping.toValue).toOption = _
      rw [readMapping_toValue (h mapping (List.mem_singleton.2 rfl))]
      rfl
  show parseNekoTaskMapping lower raw = _
  unfold parseNekoTaskMapping
  rw [if_neg (by simp [raw, NekoTaskScopeState.toValue, JsValue.isUndefined]), if_pos hstate, hreason, hretained]

/-- A mapping after a restart under its host. -/
def restored (mapping : NekoTaskScopeMapping) : NekoTaskScopeMapping :=
  match mapping.state with
  | .pendingNew => { mapping with state := .recoveryRequired none none .unfinishedNew }
  | .pendingLoad backendSessionId receipt => { mapping with
      state := .recoveryRequired (some backendSessionId) (some receipt) .unfinishedLoad }
  | _ => mapping

theorem Linked.restored (h : Linked lower identity first mapping) : Linked lower identity first (restored mapping) := by
  unfold TaskLink.restored
  split
  · rename_i hcase
    have hmarked := h.recover .unfinishedNew
    rw [hcase] at hmarked
    exact hmarked
  · rename_i hcase
    have hmarked := h.recover .unfinishedLoad
    rw [hcase] at hmarked
    exact hmarked
  · exact h

theorem restored_ne_pendingNew : (restored mapping).state ≠ .pendingNew := by
  unfold restored
  split
  · exact fun h => nomatch h
  · exact fun h => nomatch h
  · assumption

def afterRestart (lower : JsText → JsText) (host : NekoTaskMappingHost) : NekoTaskScopeState → NekoTaskScopeState
  | .task mapping =>
    if !sameHost lower mapping host then .invalid .hostBindingMismatch (some mapping) else .task (restored mapping)
  | .invalid reason retained => .invalid reason retained

theorem step_restart {host : NekoTaskMappingHost} (h : Admissible lower identity link) :
    link.step lower (.restart host) = { link with memory := link.disk.map (afterRestart lower host) } := by
  unfold TaskLink.step
  cases hdisk : link.disk with
  | none =>
    have hvalue : link.diskValue = .undefined := by rw [diskValue, hdisk]; rfl
    rw [hvalue]
    rfl
  | some state =>
    have hvalue : link.diskValue = state.toValue := by rw [diskValue, hdisk]; rfl
    have hok : ∀ mapping ∈ state.mappings, mapping.Ok lower := fun mapping hmem =>
      (h.linked mapping (mem_mappings_of_disk hdisk hmem)).ok
    rw [hvalue]
    cases state with
    | task mapping =>
      unfold NekoTaskScopeState.toValue
      dsimp only
      rw [restoreNekoTaskMapping_toValue (hok mapping (List.mem_singleton.2 rfl))]
      dsimp only [Option.map_some, afterRestart]
      by_cases hhost : (!sameHost lower mapping host) = true
      · rw [if_pos hhost, if_pos hhost]
      · rw [if_neg hhost, if_neg hhost]
        rfl
    | invalid reason retained =>
      unfold restoreNekoTaskMapping
      rw [parseNekoTaskMapping_invalid hok]
      rfl

theorem Admissible.restart {host : NekoTaskMappingHost} (h : Admissible lower identity link) :
    Admissible lower identity (link.step lower (.restart host)) := by
  rw [step_restart h]
  cases hdisk : link.disk with
  | none =>
    refine ⟨fun mapping hmem => h.linked mapping ?_, h.first_eq, fun _ _ _ hmemory => (nomatch hmemory), ?_⟩
    · simp [mappings] at hmem
    · intro hsome
      exact absurd hsome (by simp)
  | some state =>
    have hlinked : ∀ mapping ∈ state.mappings, Linked lower identity link.first mapping := fun mapping hmem =>
      h.linked mapping (mem_mappings_of_disk hdisk hmem)
    suffices hput : Admissible lower identity { link with memory := some (afterRestart lower host state) } by
      rw [hdisk] at hput
      exact hput
    refine h.put (fun mapping hmem => ?_) (fun _ hlinked => hlinked) h.first_eq fun mapping hstate _ => ?_
    · cases state with
      | task saved =>
        have hsaved := hlinked saved (List.mem_singleton.2 rfl)
        dsimp only [afterRestart] at hmem
        split at hmem
        · exact List.mem_singleton.1 hmem ▸ hsaved
        · exact List.mem_singleton.1 hmem ▸ hsaved.restored
      | invalid reason retained => exact hlinked mapping hmem
    · cases state with
      | task saved =>
        dsimp only [afterRestart] at hstate
        split at hstate
        · cases hstate
        · cases hstate
          exact restored_ne_pendingNew
      | invalid reason retained => cases hstate

theorem Admissible.create {host : NekoTaskMappingHost} {label : JsText} (h : Admissible lower identity link) :
    ∃ identity, Admissible lower identity (link.step lower (.create host label)) := by
  unfold TaskLink.step
  dsimp only
  split
  · exact ⟨identity, h⟩
  · rename_i hnew
    simp only [Bool.or_eq_true, not_or, Bool.not_eq_true, Option.isSome_eq_false_iff, Option.isNone_iff_eq_none] at hnew
    obtain ⟨⟨hmemory, hdisk⟩, hfirst⟩ := hnew
    split
    · rename_i mapping hmapping
      obtain ⟨hok, hpending⟩ := createPendingNekoTaskMapping_eq_ok lower hmapping
      refine ⟨mapping.identity, fun other hmem => ?_, fun bound hbound => ?_, fun bound other hbound => ?_, fun _ => rfl⟩
      · have hother : other = mapping := by simpa [mappings, hdisk, NekoTaskScopeState.mappings] using hmem
        rw [hother]
        refine ⟨hok, rfl, fun hsome => ?_⟩
        rw [hpending] at hsome
        cases hsome
      · exact absurd (hfirst.symm.trans hbound) (by simp)
      · exact absurd (hfirst.symm.trans hbound) (by simp)
    · exact ⟨identity, h⟩

theorem Admissible.save (h : Admissible lower identity link) : Admissible lower identity (link.step lower .save) := by
  refine ⟨fun mapping hmem => h.linked mapping ?_, h.first_eq, h.begun, id⟩
  have hmem : mapping ∈ (link.memory.toList ++ link.memory.toList).flatMap NekoTaskScopeState.mappings := hmem
  unfold mappings
  rw [List.flatMap_append, List.mem_append] at hmem ⊢
  exact .inl (hmem.elim id id)

theorem Admissible.step (h : Admissible lower identity link) (act : TaskLinkAct) :
    ∃ identity, Admissible lower identity (link.step lower act) := by
  cases act with
  | create host label => exact h.create
  | bind receipt backendSessionId root =>
    refine ⟨identity, h.update fun mapping next hmemory hnext => ?_⟩
    have hlinked := h.linked mapping (mem_mappings_of_memory hmemory (List.mem_singleton.2 rfl))
    have hbound : Linked lower identity (link.first.or (some next)) next := by
      refine hlinked.bind (fun hsome => ?_) hnext
      obtain ⟨bound, hbound⟩ := Option.isSome_iff_exists.1 hsome
      exact h.begun bound mapping hbound hmemory
    refine h.put (fun other hmem => ?_) (fun _ hother => hother.mono) (fun bound hfirst => ?_) fun other hother _ => ?_
    · exact List.mem_singleton.1 hmem ▸ hbound
    · cases hcase : link.first with
      | none =>
        rw [hcase] at hfirst
        cases hfirst
        exact hbound.identity_eq
      | some before =>
        rw [hcase] at hfirst
        cases hfirst
        exact h.first_eq _ hcase
    · obtain ⟨_, hstate, -⟩ := bindNekoTaskMapping_eq_ok hlinked.ok hnext
      cases hother
      rw [hstate]
      exact fun heq => nomatch heq
  | beginLoad =>
    refine ⟨identity, h.update fun mapping next hmemory hnext => ?_⟩
    have hlinked := h.linked mapping (mem_mappings_of_memory hmemory (List.mem_singleton.2 rfl))
    refine h.put (fun other hmem => ?_) (fun _ hother => hother) h.first_eq fun other hother _ => ?_
    · exact List.mem_singleton.1 hmem ▸ hlinked.load hnext
    · obtain ⟨_, _, -, rfl, -⟩ := beginNekoTaskLoad_eq_ok hlinked.ok hnext
      cases hother
      exact fun heq => nomatch heq
  | recover reason =>
    refine ⟨identity, h.update fun mapping next hmemory hnext => ?_⟩
    have hlinked := h.linked mapping (mem_mappings_of_memory hmemory (List.mem_singleton.2 rfl))
    rw [(markNekoTaskRecovery_of_ok hlinked.ok reason).1] at hnext
    cases hnext
    refine h.put (fun other hmem => ?_) (fun _ hother => hother) h.first_eq fun other hother _ => ?_
    · exact List.mem_singleton.1 hmem ▸ hlinked.recover reason
    · cases hother
      exact fun heq => nomatch heq
  | save => exact ⟨identity, h.save⟩
  | restart host => exact ⟨identity, h.restart⟩

theorem admissible_run (lower : JsText → JsText) (acts : List TaskLinkAct) : ∃ identity, Admissible lower identity (run lower acts) := by
  have hstart : ∀ identity, Admissible lower identity ({} : TaskLink) := fun identity =>
    ⟨fun _ hmem => (nomatch hmem), fun _ hfirst => (nomatch hfirst), fun _ _ hfirst => (nomatch hfirst),
      fun hdisk => (nomatch hdisk)⟩
  suffices h : ∀ link : TaskLink, (∃ identity, Admissible lower identity link) →
      ∃ identity, Admissible lower identity (acts.foldl (step lower) link) from
    h {} ⟨⟨[], ⟨[], [], []⟩, none, [], []⟩, hstart _⟩
  induction acts with
  | nil => exact fun _ h => h
  | cons act acts ih =>
    rintro link ⟨identity, h⟩
    exact ih _ (h.step act)

/-! ## The protocol -/

/-- What holds of every link that a run reaches. -/
structure Lawful (lower : JsText → JsText) (link : TaskLink) : Prop where
  reads : ∀ mapping ∈ link.mappings, readMapping lower mapping.toValue = .ok mapping ∧
    parseNekoTaskMapping lower mapping.toValue = .scoped mapping
  identity : ∀ bound, link.first = some bound → ∀ mapping ∈ link.mappings, mapping.identity = bound.identity
  same : ∀ bound, link.first = some bound → ∀ mapping ∈ link.mappings, mapping.state.receipt.isSome = true →
    SameTask lower bound mapping
  /-- A bind that was not saved is lost, and the task needs recovery. -/
  lost : ∀ bound mapping, link.first = some bound → link.memory = some (.task mapping) →
    mapping.state.receipt = none → mapping.state.isRecoveryRequired = true
  fixed : ∀ bound, link.first = some bound → ∀ act, (link.step lower act).first = some bound
  loaded : ∀ mapping next value savedSessionId backendSessionId saved root, link.memory = some (.task mapping) →
    mapping.state = .pendingLoad savedSessionId saved →
    bindNekoTaskMapping lower mapping value backendSessionId root = .ok next →
    ∃ receipt, next.state = .bound savedSessionId receipt ∧ receipt.activationEpoch = saved.activationEpoch + 1 ∧
      receipt.activationId ≠ saved.activationId
  interrupted : ∀ mapping host, link.disk = some (.task mapping) → mapping.state.isPending = true →
    (link.step lower (.restart host)).memory = some (if sameHost lower mapping host
      then .task { mapping with
        state := .recoveryRequired mapping.state.backendSessionId mapping.state.receipt
          (if mapping.state = .pendingNew then .unfinishedNew else .unfinishedLoad) }
      else .invalid .hostBindingMismatch (some mapping))
  recovered : ∀ mapping host, link.disk = some (.task mapping) → mapping.state.isRecoveryRequired = true →
    (link.step lower (.restart host)).memory = some (if sameHost lower mapping host then .task mapping
      else .invalid .hostBindingMismatch (some mapping))
  recovery : ∀ mapping act, link.memory = some (.task mapping) → mapping.state.isRecoveryRequired = true →
    act.isRestart = false → ∃ next, (link.step lower act).memory = some (.task next) ∧
      next.state.isRecoveryRequired = true
  /-- What needs recovery in memory and on disk is never left. -/
  closed : ∀ state saved (acts : List TaskLinkAct), link.memory = some state → link.disk = some saved → state.isClosed = true →
    saved.isClosed = true → ∃ next, (acts.foldl (step lower) link).memory = some next ∧ next.isClosed = true

theorem step_recovery {act : TaskLinkAct} (h : Admissible lower identity link)
    (hmemory : link.memory = some (.task mapping)) (hrecovery : mapping.state.isRecoveryRequired = true)
    (hact : act.isRestart = false) : ∃ next, (link.step lower act).memory = some (.task next) ∧
      next.state.isRecoveryRequired = true := by
  have hok := (h.linked mapping (mem_mappings_of_memory hmemory (List.mem_singleton.2 rfl))).ok
  cases act with
  | create host label =>
    refine ⟨mapping, ?_, hrecovery⟩
    unfold TaskLink.step
    rw [hmemory]
    exact hmemory
  | bind receipt backendSessionId root =>
    refine ⟨mapping, ?_, hrecovery⟩
    show (link.update _ _).memory = _
    unfold TaskLink.update
    rw [hmemory]
    dsimp only
    split
    · rename_i next hnext
      obtain ⟨_, -, -, -, hcase⟩ := bindNekoTaskMapping_eq_ok hok hnext
      rcases hcase with ⟨hpending, -⟩ | ⟨saved, isLoad, hbound, -⟩
      · rw [hpending] at hrecovery
        cases hrecovery
      · rw [hbound] at hrecovery
        cases isLoad <;> cases hrecovery
    · exact hmemory
  | beginLoad =>
    refine ⟨mapping, ?_, hrecovery⟩
    show (link.update _ _).memory = _
    unfold TaskLink.update
    rw [hmemory]
    dsimp only
    split
    · rename_i next hnext
      obtain ⟨_, _, hcase, -⟩ := beginNekoTaskLoad_eq_ok hok hnext
      rcases hcase with hbound | hload
      · rw [hbound] at hrecovery
        cases hrecovery
      · rw [hload] at hrecovery
        cases hrecovery
    · exact hmemory
  | recover reason =>
    refine ⟨{ mapping with
      state := .recoveryRequired mapping.state.backendSessionId mapping.state.receipt reason }, ?_, rfl⟩
    show (link.update _ _).memory = _
    unfold TaskLink.update
    rw [hmemory]
    dsimp only
    rw [(markNekoTaskRecovery_of_ok hok reason).1]
  | save => exact ⟨mapping, hmemory, hrecovery⟩
  | restart host => cases hact

theorem step_invalid {act : TaskLinkAct} {reason : InvalidReason} {retained : Option NekoTaskScopeMapping}
    (hmemory : link.memory = some (.invalid reason retained)) (hact : act.isRestart = false) :
    (link.step lower act).memory = link.memory := by
  have hupdate : ∀ op f, (link.update op f).memory = link.memory := by
    intro op f
    unfold TaskLink.update
    rw [hmemory]
    exact hmemory
  cases act with
  | create host label =>
    unfold TaskLink.step
    rw [hmemory]
    exact hmemory
  | bind receipt backendSessionId root => exact hupdate _ _
  | beginLoad => exact hupdate _ _
  | recover reason => exact hupdate _ _
  | save => rfl
  | restart host => cases hact

theorem afterRestart_closed {host : NekoTaskMappingHost} {state : NekoTaskScopeState} (h : state.isClosed = true) :
    (afterRestart lower host state).isClosed = true := by
  cases state with
  | invalid reason retained => rfl
  | task mapping =>
    dsimp only [afterRestart]
    split
    · rfl
    · have hstate : restored mapping = mapping := by
        unfold restored
        split
        · rename_i hcase
          exact absurd h (by simp [NekoTaskScopeState.isClosed, hcase, MappingState.isRecoveryRequired])
        · rename_i hcase
          exact absurd h (by simp [NekoTaskScopeState.isClosed, hcase, MappingState.isRecoveryRequired])
        · rfl
      rw [hstate]
      exact h

theorem step_disk (lower : JsText → JsText) (link : TaskLink) (act : TaskLinkAct) : (link.step lower act).disk = link.disk ∨
    (link.step lower act).disk = link.memory ∧ (link.step lower act).memory = link.memory := by
  have hupdate : ∀ op f, (link.update op f).disk = link.disk := by
    intro op f
    unfold TaskLink.update
    split
    · split <;> rfl
    · rfl
  cases act with
  | create host label =>
    refine .inl ?_
    unfold TaskLink.step
    dsimp only
    split
    · rfl
    · split <;> rfl
  | bind receipt backendSessionId root => exact .inl (hupdate _ _)
  | beginLoad => exact .inl (hupdate _ _)
  | recover reason => exact .inl (hupdate _ _)
  | save => exact .inr ⟨rfl, rfl⟩
  | restart host =>
    refine .inl ?_
    unfold TaskLink.step
    dsimp only
    split <;> rfl

/-- A link that needs recovery in memory and on disk. -/
def IsClosed (link : TaskLink) : Prop :=
  ∃ state saved, link.memory = some state ∧ link.disk = some saved ∧ state.isClosed = true ∧ saved.isClosed = true

theorem IsClosed.step {act : TaskLinkAct} (h : link.IsClosed) (hlink : Admissible lower identity link) :
    (link.step lower act).IsClosed := by
  obtain ⟨state, saved, hmemory, hdisk, hstate, hsaved⟩ := h
  cases hact : act.isRestart with
  | true =>
    cases act with
    | restart host =>
      refine ⟨afterRestart lower host saved, saved, ?_, ?_, afterRestart_closed hsaved, hsaved⟩
      · rw [step_restart hlink, hdisk]
        rfl
      · rw [step_restart hlink]
        exact hdisk
    | _ => cases hact
  | false =>
    obtain ⟨next, hnext, hclosed⟩ : ∃ next, (link.step lower act).memory = some next ∧ next.isClosed = true := by
      cases state with
      | task mapping =>
        obtain ⟨next, hnext, hclosed⟩ := step_recovery hlink hmemory hstate hact
        exact ⟨.task next, hnext, hclosed⟩
      | invalid reason retained => exact ⟨_, (step_invalid hmemory hact).trans hmemory, rfl⟩
    rcases step_disk lower link act with hkept | ⟨hsave, -⟩
    · exact ⟨next, saved, hnext, hkept.trans hdisk, hclosed, hsaved⟩
    · exact ⟨next, state, hnext, hsave.trans hmemory, hclosed, hstate⟩

theorem IsClosed.foldl (acts : List TaskLinkAct) (h : link.IsClosed)
    (hlink : ∃ identity, Admissible lower identity link) : (acts.foldl (TaskLink.step lower) link).IsClosed := by
  induction acts generalizing link with
  | nil => exact h
  | cons act acts ih =>
    obtain ⟨identity, hlink⟩ := hlink
    exact ih (h.step hlink) (hlink.step act)

theorem step_first {bound : NekoTaskScopeMapping} {act : TaskLinkAct} (hbound : link.first = some bound) :
    (link.step lower act).first = some bound := by
  have hupdate : ∀ op, (link.update op fun _ => link.first).first = some bound := by
    intro op
    unfold TaskLink.update
    split
    · split <;> exact hbound
    · exact hbound
  cases act with
  | create host label =>
    unfold TaskLink.step
    dsimp only
    split
    · exact hbound
    · split <;> exact hbound
  | bind receipt backendSessionId root =>
    have hor : (fun next => link.first.or (some next)) = fun _ : NekoTaskScopeMapping => link.first := by
      funext next
      rw [hbound]
      rfl
    show (link.update _ _).first = _
    rw [hor]
    exact hupdate _
  | beginLoad => exact hupdate _
  | recover reason => exact hupdate _
  | save => exact hbound
  | restart host =>
    unfold TaskLink.step
    dsimp only
    split <;> exact hbound

/-- Every link that a run reaches is lawful. -/
theorem lawful_of_run (lower : JsText → JsText) (acts : List TaskLinkAct) : (run lower acts).Lawful lower := by
  obtain ⟨identity, h⟩ := admissible_run lower acts
  refine ⟨fun mapping hmem => ?_, fun bound hbound mapping hmem => ?_, fun bound hbound mapping hmem hsome => ?_,
    fun bound mapping hbound hmemory hnone => ?_, fun bound hbound act => step_first hbound,
    fun mapping next value savedSessionId backendSessionId saved root hmemory hstate hnext => ?_,
    fun mapping host hdisk hpending => ?_, fun mapping host hdisk hrecovery => ?_,
    fun mapping act hmemory hrecovery hact => step_recovery h hmemory hrecovery hact,
    fun state saved more hmemory hdisk hstate hsaved => ?_⟩
  · have hok := (h.linked mapping hmem).ok
    exact ⟨readMapping_toValue hok, parseNekoTaskMapping_toValue hok⟩
  · exact (h.linked mapping hmem).identity_eq.trans (h.first_eq bound hbound).symm
  · obtain ⟨first, hfirst, hsame⟩ := (h.linked mapping hmem).same hsome
    rw [hbound] at hfirst
    cases hfirst
    exact hsame
  · have hbegun := h.begun bound mapping hbound hmemory
    cases hcase : mapping.state with
    | pendingNew => exact absurd hcase hbegun
    | bound backendSessionId receipt =>
      rw [hcase] at hnone
      cases hnone
    | pendingLoad backendSessionId receipt =>
      rw [hcase] at hnone
      cases hnone
    | recoveryRequired backendSessionId receipt reason => rfl
  · have hok := (h.linked mapping (mem_mappings_of_memory hmemory (List.mem_singleton.2 rfl))).ok
    obtain ⟨receipt, hbound, -, -, hcase⟩ := bindNekoTaskMapping_eq_ok hok hnext
    rcases hcase with ⟨hpending, -⟩ | ⟨before, isLoad, hload, -, hcontinues⟩
    · rw [hstate] at hpending
      cases hpending
    · rw [hstate] at hload
      cases isLoad with
      | false => cases hload
      | true =>
        cases hload
        simp only [continues, if_pos, Bool.and_eq_true, decide_eq_true_eq] at hcontinues
        exact ⟨receipt, hbound, hcontinues.1.2, hcontinues.2⟩
  · rw [step_restart h, hdisk]
    dsimp only [Option.map_some, afterRestart]
    cases hhost : sameHost lower mapping host with
    | false => rfl
    | true =>
      cases hcase : mapping.state with
      | pendingNew =>
        unfold restored
        rw [hcase]
        rfl
      | pendingLoad backendSessionId receipt =>
        unfold restored
        rw [hcase]
        rfl
      | bound backendSessionId receipt =>
        rw [hcase] at hpending
        cases hpending
      | recoveryRequired backendSessionId receipt reason =>
        rw [hcase] at hpending
        cases hpending
  · rw [step_restart h, hdisk]
    dsimp only [Option.map_some, afterRestart]
    cases hhost : sameHost lower mapping host with
    | false => rfl
    | true =>
      unfold restored
      cases hcase : mapping.state with
      | recoveryRequired backendSessionId receipt reason => rfl
      | pendingNew =>
        rw [hcase] at hrecovery
        cases hrecovery
      | bound backendSessionId receipt =>
        rw [hcase] at hrecovery
        cases hrecovery
      | pendingLoad backendSessionId receipt =>
        rw [hcase] at hrecovery
        cases hrecovery
  · obtain ⟨next, _, hnext, -, hclosed, -⟩ :=
      IsClosed.foldl more ⟨state, saved, hmemory, hdisk, hstate, hsaved⟩ ⟨identity, h⟩
    exact ⟨next, hnext, hclosed⟩

end

/-! ## Links that are interrupted -/

/-- A host with a root that `toLowerCase` is not asked about. -/
def hostOf (threadId : String) : NekoTaskMappingHost :=
  ⟨js threadId, js "neko", none, some ⟨js "task", js "run", js "environment"⟩, js "/work"⟩

def firstReceipt : NekoTaskReceipt := ⟨js "receipt", js "label", js "/work", 1, js "activation"⟩

def unsavedBind : List TaskLinkAct :=
  [.create (hostOf "thread") (js "label"), .save, .bind firstReceipt.toValue (js "session") (some (js "/work")),
    .restart (hostOf "thread")]

/-- A pending mapping is refused, and so is one that needs recovery; an unsaved bind is forgotten. -/
theorem interrupted_elsewhere :
    (∃ acts mapping host, (run id acts).disk = some (.task mapping) ∧ mapping.state.isPending = true ∧
      ¬ ∃ next, ((run id acts).step id (.restart host)).memory = some (.task next)) ∧
    (∃ acts mapping host, (run id acts).memory = some (.task mapping) ∧ mapping.state.isRecoveryRequired = true ∧
      ¬ ∃ next, ((run id acts).step id (.restart host)).memory = some (.task next)) ∧
    ∃ acts bound mapping, (run id acts).first = some bound ∧ (run id acts).memory = some (.task mapping) ∧
      bound.state.backendSessionId = some (js "session") ∧ mapping.state.backendSessionId = none := by
  let pending : NekoTaskScopeMapping := ⟨⟨js "thread", ⟨js "task", js "run", js "environment"⟩, none, js "/work",
    js "label"⟩, js "/work", .pendingNew⟩
  let failed : NekoTaskScopeMapping := { pending with state := .recoveryRequired none none .admissionFailed }
  let unfinished : NekoTaskScopeMapping := { pending with state := .recoveryRequired none none .unfinishedNew }
  let bound : NekoTaskScopeMapping := { pending with state := .bound (js "session") firstReceipt }
  refine ⟨⟨[.create (hostOf "thread") (js "label"), .save], pending, hostOf "other", ?_, rfl, ?_⟩,
    ⟨[.create (hostOf "thread") (js "label"), .recover .admissionFailed, .save], failed, hostOf "other", ?_, rfl, ?_⟩,
    unsavedBind, bound, unfinished, ?_, ?_, rfl, rfl⟩
  · decide +kernel
  · rintro ⟨next, hnext⟩
    have hrefused : ((run id [.create (hostOf "thread") (js "label"), .save]).step id (.restart (hostOf "other"))).memory =
      some (.invalid .hostBindingMismatch (some pending)) := by decide +kernel
    rw [hrefused] at hnext
    cases hnext
  · decide +kernel
  · rintro ⟨next, hnext⟩
    have hrefused : ((run id [.create (hostOf "thread") (js "label"), .recover .admissionFailed, .save]).step id
      (.restart (hostOf "other"))).memory = some (.invalid .hostBindingMismatch (some failed)) := by decide +kernel
    rw [hrefused] at hnext
    cases hnext
  · decide +kernel
  · decide +kernel

end TaskLink

end Wiii.NekoChill
