import Wiii.NekoChill.Outbox

/-!
# Copies of the queues

A copy of the queues is well formed when its messages are (`ItemsOk`), and then it is read back as it was
written (`parseOutbox_of_ok`).  Every change works message by message (`Rewrite`), and may add one message at
the end (`Rewrites`).
-/

namespace Wiii.NekoChill

variable {items : List OutboxItem} {sessionId : String} {id : ℕ} {c next : OutboxSnapshot}

/-! ## Well-formed copies -/

/-- What is checked of the messages of a session; their ids are in the order of the draws. -/
structure ItemsOk (sessionId : String) (items : List OutboxItem) : Prop where
  length : items.length ≤ maxItems
  text : ∀ d ∈ items, isBadText d.text = false
  binding : ∀ d ∈ items, d.binding.sessionId = sessionId
  increasing : items.Pairwise fun d e => d.id < e.id

theorem ItemsOk.head_le {d : OutboxItem} {rest : List OutboxItem} (h : ItemsOk sessionId (d :: rest)) :
    ∀ e ∈ d :: rest, d.id ≤ e.id := by
  intro e he
  obtain rfl | he := List.mem_cons.1 he
  · exact Nat.le_refl _
  · exact Nat.le_of_lt (List.rel_of_pairwise_cons h.increasing he)

theorem ItemsOk.eq_of_id {d e : OutboxItem} (h : ItemsOk sessionId items) (hd : d ∈ items) (he : e ∈ items)
    (hid : d.id = e.id) : d = e := by
  have hnodup : (items.map OutboxItem.id).Nodup := List.pairwise_map.2 (h.increasing.imp Nat.ne_of_lt)
  exact List.inj_on_of_nodup_map hnodup hd he hid

theorem findItem_eq_some {d : OutboxItem} (h : findItem id items = some d) : d ∈ items ∧ d.id = id :=
  ⟨List.mem_of_find?_eq_some h, by simpa using List.find?_some h⟩

theorem parseItems_of_ok (sessionId : String) : ∀ (seen : List ℕ) (items : List OutboxItem),
    (∀ d ∈ items, isBadText d.text = false) → (∀ d ∈ items, d.binding.sessionId = sessionId) →
    items.Pairwise (fun d e => d.id < e.id) → (∀ d ∈ items, d.id ∉ seen) → parseItems sessionId seen items = .ok ()
  | _, [], _, _, _, _ => rfl
  | seen, item :: items, htext, hbinding, hincreasing, hseen => by
    have hguard : ¬ (item.id ∈ seen ∨ isBadText item.text ∨ item.binding.sessionId ≠ sessionId) := by
      rintro (hmem | hbad | hne)
      · exact hseen item List.mem_cons_self hmem
      · rw [htext item List.mem_cons_self] at hbad
        cases hbad
      · exact hne (hbinding item List.mem_cons_self)
    rw [parseItems, if_neg hguard]
    rw [List.pairwise_cons] at hincreasing
    refine parseItems_of_ok sessionId _ items (fun d hd => htext d (List.mem_cons_of_mem _ hd))
      (fun d hd => hbinding d (List.mem_cons_of_mem _ hd)) hincreasing.2 fun d hd hmem => ?_
    obtain heq | hmem := List.mem_cons.1 hmem
    · exact absurd heq (Nat.ne_of_gt (hincreasing.1 d hd))
    · exact hseen d (List.mem_cons_of_mem _ hd) hmem

theorem parseQueues_of_ok : ∀ (seen : List String) (queues : List OutboxQueue),
    (∀ queue ∈ queues, ItemsOk queue.sessionId queue.items) → (queues.map OutboxQueue.sessionId).Nodup →
    (∀ queue ∈ queues, queue.sessionId ∉ seen) → parseQueues seen queues = .ok ()
  | _, [], _, _, _ => rfl
  | seen, queue :: queues, hok, hnodup, hseen => by
    have hqueue := hok queue List.mem_cons_self
    have hguard : ¬ (queue.sessionId ∈ seen ∨ maxItems < queue.items.length) := by
      rintro (hmem | hlong)
      · exact hseen queue List.mem_cons_self hmem
      · exact absurd hqueue.length (Nat.not_le_of_lt hlong)
    rw [List.map_cons, List.nodup_cons] at hnodup
    have hitems := parseItems_of_ok queue.sessionId [] queue.items hqueue.text hqueue.binding hqueue.increasing
      fun d _ => List.not_mem_nil
    rw [parseQueues, if_neg hguard, hitems]
    refine parseQueues_of_ok _ queues (fun q hq => hok q (List.mem_cons_of_mem _ hq)) hnodup.2 fun q hq hmem => ?_
    obtain heq | hmem := List.mem_cons.1 hmem
    · exact hnodup.1 (heq ▸ List.mem_map_of_mem hq)
    · exact hseen q (List.mem_cons_of_mem _ hq) hmem

namespace OutboxSnapshot

def Ok (c : OutboxSnapshot) : Prop := ∀ sessionId, ItemsOk sessionId (c.items sessionId)

theorem items_of_find? {queue : OutboxQueue} (h : c.find? sessionId = some queue) : c.items sessionId = queue.items := by
  rw [items, h]
  rfl

theorem parseOutbox_of_ok (h : c.Ok) : parseOutbox c.rows = .ok c.rows := by
  have hqueues : ∀ queue ∈ c.rows, ItemsOk queue.sessionId queue.items := fun queue hqueue =>
    items_of_find? (Table.find?_of_mem hqueue) ▸ h queue.sessionId
  rw [parseOutbox, parseQueues_of_ok [] c.rows hqueues c.nodup fun _ _ => List.not_mem_nil]
  rfl

end OutboxSnapshot

/-! ## Changes of the messages of a session -/

/-- What is being delivered stays but `own`, only `free` is queued again, only `gone` goes. -/
structure Rewrite (own free gone : ℕ → Prop) (d : OutboxItem) (d' : Option OutboxItem) : Prop where
  id : ∀ e, d' = some e → e.id = d.id
  binding : ∀ e, d' = some e → e.binding = d.binding
  text : ∀ e, d' = some e → isBadText d.text = false → isBadText e.text = false
  queued : ∀ e, d' = some e → e.state = .queued → d.state = .queued ∨ free d.id
  delivering : d.state = .delivering → ¬ own d.id → d' = some d
  gone : d' = none → gone d.id

/-- The messages are changed one by one, and one may be added. -/
def Rewrites (own free gone : ℕ → Prop) (extra : Option OutboxItem) (old new : List OutboxItem) : Prop :=
  ∃ g, new = old.filterMap g ++ extra.toList ∧ ∀ d ∈ old, Rewrite own free gone d (g d)

section

variable {own free gone : ℕ → Prop} {extra : Option OutboxItem} {old new : List OutboxItem} {d : OutboxItem}

theorem Rewrite.refl (d : OutboxItem) : Rewrite own free gone d (some d) where
  id := fun _ h => by cases h; rfl
  binding := fun _ h => by cases h; rfl
  text := fun _ h htext => by cases h; exact htext
  queued := fun _ h hqueued => by cases h; exact .inl hqueued
  delivering := fun _ _ => rfl
  gone := fun h => by cases h

theorem Rewrite.state {state : ItemState} (hown : own d.id) (hfree : state = .queued → d.state = .queued ∨ free d.id) :
    Rewrite own free gone d (some { d with state := state }) where
  id := fun _ h => by cases h; rfl
  binding := fun _ h => by cases h; rfl
  text := fun _ h htext => by cases h; exact htext
  queued := fun _ h hqueued => by cases h; exact hfree hqueued
  delivering := fun _ hforeign => absurd hown hforeign
  gone := fun h => by cases h

theorem Rewrites.of_map (f : OutboxItem → OutboxItem) (h : ∀ d ∈ old, Rewrite own free gone d (some (f d))) :
    Rewrites own free gone none old (old.map f) :=
  ⟨some ∘ f, by rw [List.filterMap_eq_map, Option.toList_none, List.append_nil], h⟩

theorem Rewrites.refl (items : List OutboxItem) : Rewrites own free gone none items items := by
  have h : Rewrites own free gone none items (items.map id) := .of_map id fun d _ => .refl d
  rwa [List.map_id] at h

theorem rewrites_setState {state : ItemState} (items : List OutboxItem) (hown : own id)
    (hfree : state = .queued → free id) : Rewrites own free gone none items (setState id state items) := by
  refine .of_map _ fun d _ => ?_
  split
  · rename_i heq
    exact .state (heq ▸ hown) fun hqueued => .inr (heq ▸ hfree hqueued)
  · exact .refl d

theorem rewrites_remove (items : List OutboxItem) (hgone : gone id)
    (hdelivering : ∀ d ∈ items, d.id = id → d.state = .delivering → own id) :
    Rewrites own free gone none items (items.filter fun d => decide (d.id ≠ id)) := by
  refine ⟨Option.guard fun d => decide (d.id ≠ id), by simp [List.filterMap_eq_filter], fun d hd => ?_⟩
  by_cases heq : d.id = id
  · have hnone : Option.guard (fun d : OutboxItem => decide (d.id ≠ id)) d = none := by simp [Option.guard, heq]
    rw [hnone]
    exact ⟨nofun, nofun, nofun, nofun, fun hstate hforeign => absurd (hdelivering d hd heq hstate) (heq ▸ hforeign),
      fun _ => heq ▸ hgone⟩
  · have hsome : Option.guard (fun d : OutboxItem => decide (d.id ≠ id)) d = some d := by simp [Option.guard, heq]
    exact hsome ▸ .refl d

/-! ## What a change keeps -/

theorem Rewrites.mem {e : OutboxItem} (h : Rewrites own free gone extra old new) (he : e ∈ new) :
    (∃ d ∈ old, ∃ d', Rewrite own free gone d d' ∧ d' = some e) ∨ extra = some e := by
  obtain ⟨g, rfl, hg⟩ := h
  obtain he | he := List.mem_append.1 he
  · obtain ⟨d, hd, hde⟩ := List.mem_filterMap.1 he
    exact .inl ⟨d, hd, _, hg d hd, hde⟩
  · exact .inr (Option.mem_toList.1 he)

theorem Rewrites.exists_of_mem (h : Rewrites own free gone extra old new) (hd : d ∈ old) (hkept : ¬ gone d.id) :
    ∃ e ∈ new, e.id = d.id := by
  obtain ⟨g, rfl, hg⟩ := h
  cases hde : g d with
  | none => exact absurd ((hg d hd).gone hde) hkept
  | some e => exact ⟨e, List.mem_append_left _ (List.mem_filterMap.2 ⟨d, hd, hde⟩), (hg d hd).id e hde⟩

theorem Rewrites.head (h : Rewrites own free gone extra (d :: old) new) (hstate : d.state = .delivering)
    (hforeign : ¬ own d.id) : ∃ rest, new = d :: rest := by
  obtain ⟨g, rfl, hg⟩ := h
  rw [List.filterMap_cons, (hg d List.mem_cons_self).delivering hstate hforeign]
  exact ⟨_, rfl⟩

theorem Rewrites.itemsOk (h : Rewrites own free gone extra old new) (hok : ItemsOk sessionId old)
    (hextra : ∀ e, extra = some e → isBadText e.text = false ∧ e.binding.sessionId = sessionId ∧
      old.length < maxItems ∧ ∀ d ∈ old, d.id < e.id) : ItemsOk sessionId new := by
  have hmem := fun e => h.mem (e := e)
  obtain ⟨g, rfl, hg⟩ := h
  refine ⟨?_, fun e he => ?_, fun e he => ?_, ?_⟩
  · have hlength := List.length_filterMap_le g old
    have hold := hok.length
    rw [List.length_append]
    cases extra with
    | none =>
      rw [Option.toList_none, List.length_nil]
      omega
    | some e =>
      have hroom := (hextra e rfl).2.2.1
      rw [Option.toList_some, List.length_singleton]
      omega
  · obtain ⟨d, hd, d', hrewrite, hde⟩ | hde := hmem e he
    · exact hrewrite.text e hde (hok.text d hd)
    · exact (hextra e hde).1
  · obtain ⟨d, hd, d', hrewrite, hde⟩ | hde := hmem e he
    · exact (hrewrite.binding e hde).symm ▸ hok.binding d hd
    · exact (hextra e hde).2.1
  · refine List.pairwise_append.2 ⟨?_, ?_, fun e he e' he' => ?_⟩
    · rw [List.pairwise_filterMap]
      refine hok.increasing.imp_of_mem fun hd hd' hlt e he e' he' => ?_
      rw [(hg _ hd).id e he, (hg _ hd').id e' he']
      exact hlt
    · cases extra with
      | none => exact List.Pairwise.nil
      | some e => exact List.pairwise_singleton _ _
    · obtain ⟨d, hd, hde⟩ := List.mem_filterMap.1 he
      rw [(hg d hd).id e hde]
      exact (hextra e' (Option.mem_toList.1 he')).2.2.2 d hd

end

/-! ## The changes -/

namespace OutboxSnapshot

variable {own free gone : ℕ → Prop} {target : String}

theorem items_update {f : OutboxQueue → OutboxQueue} {hf : ∀ queue, (f queue).sessionId = queue.sessionId}
    {F : List OutboxItem → List OutboxItem} (hF : ∀ queue, (f queue).items = F queue.items) (hnil : F [] = []) :
    OutboxSnapshot.items (c.update target f hf) sessionId = if sessionId = target then F (c.items target) else c.items sessionId := by
  unfold OutboxSnapshot.items
  rw [Table.find?_update]
  split
  · cases c.find? target with
    | none => exact hnil.symm
    | some queue => exact hF queue
  · rfl

theorem items_update_of_same {f : OutboxQueue → OutboxQueue} {hf : ∀ queue, (f queue).sessionId = queue.sessionId}
    (hF : ∀ queue, (f queue).items = queue.items) : OutboxSnapshot.items (c.update target f hf) = c.items := by
  funext sessionId
  rw [items_update (F := id) hF rfl]
  split
  · rename_i heq
    rw [heq]
    rfl
  · rfl

theorem rewrites_update {f : OutboxQueue → OutboxQueue} {hf : ∀ queue, (f queue).sessionId = queue.sessionId}
    (F : List OutboxItem → List OutboxItem) (hF : ∀ queue, (f queue).items = F queue.items) (hnil : F [] = [])
    (h : sessionId = target → Rewrites own free gone none (c.items sessionId) (F (c.items sessionId))) :
    Rewrites own free gone none (c.items sessionId) (OutboxSnapshot.items (c.update target f hf) sessionId) := by
  rw [items_update hF hnil]
  split
  · rename_i heq
    rw [← heq]
    exact h heq
  · exact .refl _

theorem items_pause (c : OutboxSnapshot) (target reason : String) : (c.pause target reason).items = c.items :=
  items_update_of_same fun _ => rfl

theorem resume_eq_ok (h : c.resume target = .ok next) :
    next = c.update target (fun queue => { queue with paused := false, reason := none }) ∧ next.items = c.items := by
  unfold resume at h
  split at h
  · cases h
  · cases h
    exact ⟨rfl, items_update_of_same fun _ => rfl⟩

theorem withItem_eq_ok {f : OutboxQueue → OutboxQueue} {hf : ∀ queue, (f queue).sessionId = queue.sessionId}
    (h : c.withItem target id f hf = .ok next) : (findItem id (c.items target)).isSome ∧ next = c.update target f hf := by
  unfold withItem at h
  split at h
  · exact ⟨‹_›, (Except.ok.inj h).symm⟩
  · cases h

theorem rewrites_edit {text : JsText} (h : c.edit target id text = .ok next) (hok : c.Ok) (sessionId : String) :
    Rewrites own free gone none (c.items sessionId) (next.items sessionId) := by
  unfold edit at h
  split at h
  · cases h
  · rename_i hfound
    split at h
    · cases h
    · rename_i htext
      cases h
      refine rewrites_update (setText id text) (by intro; rfl) rfl fun heq => .of_map _ fun d hd => ?_
      split
      · rename_i hid
        -- it is the message that was found to be queued
        simp only [Bool.not_eq_true, Bool.not_eq_false', Option.any_eq_true, decide_eq_true_eq] at hfound
        obtain ⟨e, he, hqueued⟩ := hfound
        obtain ⟨hmem, hid'⟩ := findItem_eq_some he
        cases (hok sessionId).eq_of_id hd (heq ▸ hmem) (hid.trans hid'.symm)
        exact ⟨fun _ h => by cases h; rfl, fun _ h => by cases h; rfl,
          fun _ h _ => by cases h; simpa using htext, fun _ _ _ => .inl hqueued,
          fun hstate => absurd (hqueued.symm.trans hstate) nofun, nofun⟩
      · exact .refl d

theorem rewrites_remove (h : c.remove target id = .ok next) (hok : c.Ok) (sessionId : String)
    (hgone : sessionId = target → gone id) : Rewrites own free gone none (c.items sessionId) (next.items sessionId) := by
  unfold remove at h
  split at h
  · cases h
  · rename_i hfound
    cases h
    refine rewrites_update (fun items => items.filter fun d => decide (d.id ≠ id)) (by intro; rfl) rfl fun heq =>
      Wiii.NekoChill.rewrites_remove _ (hgone heq) fun d hd hid hstate => ?_
    have hfind : findItem id (c.items target) = some d := by
      have hsome : (findItem id (c.items target)).isSome := by
        rw [findItem, List.find?_isSome]
        exact ⟨d, heq ▸ hd, decide_eq_true hid⟩
      obtain ⟨e, he⟩ := Option.isSome_iff_exists.1 hsome
      obtain ⟨hmem, hid'⟩ := findItem_eq_some he
      rw [he, (hok target).eq_of_id hmem (heq ▸ hd) (hid'.trans hid.symm)]
    rw [hfind] at hfound
    exact absurd (decide_eq_true hstate) hfound

theorem rewrites_claim (h : c.claim target id = .ok next) (sessionId : String) (hown : sessionId = target → own id) :
    Rewrites own free gone none (c.items sessionId) (next.items sessionId) := by
  obtain ⟨-, rfl⟩ := withItem_eq_ok h
  exact rewrites_update (setState id .delivering) (by intro; rfl) rfl fun heq =>
    rewrites_setState _ (hown heq) nofun

theorem rewrites_hold (h : c.hold target id = .ok next) (sessionId : String) (hown : sessionId = target → own id)
    (hfree : sessionId = target → free id) :
    Rewrites own free gone none (c.items sessionId) (next.items sessionId) := by
  obtain ⟨-, rfl⟩ := withItem_eq_ok h
  exact rewrites_update (setState id .queued) (by intro; rfl) rfl fun heq =>
    rewrites_setState _ (hown heq) fun _ => hfree heq

theorem rewrites_settle {invoked completed : Bool} (h : c.settle target id invoked completed = .ok next)
    (sessionId : String) (hown : sessionId = target → own id) (hfree : sessionId = target → invoked = false → free id)
    (hgone : sessionId = target → invoked = true → completed = true → gone id) :
    Rewrites own free gone none (c.items sessionId) (next.items sessionId) := by
  unfold settle at h
  split at h
  · rename_i hdone
    rw [Bool.and_eq_true] at hdone
    cases h
    exact rewrites_update (fun items => items.filter fun d => decide (d.id ≠ id)) (by intro; rfl) rfl fun heq =>
      Wiii.NekoChill.rewrites_remove _ (hgone heq hdone.1 hdone.2) fun _ _ _ _ => hown heq
  · obtain ⟨-, rfl⟩ := withItem_eq_ok h
    refine rewrites_update (setState id (if invoked then .uncertain else .queued)) (by intro; rfl) rfl fun heq =>
      rewrites_setState _ (hown heq) fun hqueued => hfree heq ?_
    cases invoked with
    | false => rfl
    | true => cases hqueued

theorem rewrite_deliveringToUncertain {d : OutboxItem} (hown : own d.id) :
    Rewrite own free gone d (some (deliveringToUncertain d)) := by
  unfold deliveringToUncertain
  split
  · exact .state hown nofun
  · exact .refl d

theorem rewrites_withHeld (c : OutboxSnapshot) (reason : String) (sessionId : String)
    (hown : sessionId = target → own id) :
    Rewrites own free gone none (c.items sessionId) ((c.withHeld target reason id).items sessionId) := by
  refine rewrites_update (List.map fun d => if d.id = id then deliveringToUncertain d else d) (by intro; rfl) rfl
    fun heq => .of_map _ fun d _ => ?_
  split
  · rename_i hid
    exact rewrite_deliveringToUncertain (hid ▸ hown heq)
  · exact .refl d

theorem rewrites_restored (c : OutboxSnapshot) (sessionId : String) :
    Rewrites (fun _ => True) free gone none (c.items sessionId) (c.restored.items sessionId) := by
  have hitems : c.restored.items sessionId = (c.items sessionId).map deliveringToUncertain := by
    unfold restored OutboxSnapshot.items
    rw [Table.find?_updateWhere]
    cases c.find? sessionId <;> rfl
  rw [hitems]
  exact .of_map _ fun d _ => rewrite_deliveringToUncertain trivial

theorem rewrites_enqueue {binding : OutboxBinding} {text : JsText} (h : c.enqueue binding text id = .ok next)
    (hfresh : ∀ d ∈ c.items binding.sessionId, d.id ≠ id) : isBadText text = false ∧
    (c.items binding.sessionId).length < maxItems ∧ ∀ sessionId, Rewrites own free gone
      (if sessionId = binding.sessionId then some ⟨id, text, binding, .queued⟩ else none)
      (c.items sessionId) (next.items sessionId) := by
  have hitems : ((c.find? binding.sessionId).getD ⟨binding.sessionId, false, none, []⟩).items =
      c.items binding.sessionId := by
    unfold OutboxSnapshot.items
    cases c.find? binding.sessionId <;> rfl
  unfold enqueue at h
  dsimp only at h
  rw [hitems] at h
  split at h
  · cases h
  · rename_i htext
    split at h
    · cases h
    · rename_i hroom
      split at h
      · rename_i hfound
        obtain ⟨d, hd⟩ := Option.isSome_iff_exists.1 hfound
        obtain ⟨hmem, hid⟩ := findItem_eq_some hd
        exact absurd hid (hfresh d hmem)
      · cases h
        refine ⟨by simpa using htext, Nat.lt_of_not_le hroom, fun sessionId => ?_⟩
        refine ⟨some, ?_, fun d _ => .refl d⟩
        rw [List.filterMap_some]
        unfold OutboxSnapshot.items
        rw [Table.find?_upsert]
        split
        · rename_i heq
          rw [show sessionId = binding.sessionId from heq]
          rfl
        · rw [Option.toList_none, List.append_nil]

/-! ## Paused queues -/

def IsPaused (c : OutboxSnapshot) (sessionId : String) : Prop :=
  ∃ queue, c.find? sessionId = some queue ∧ queue.paused = true

theorem IsPaused.update {f : OutboxQueue → OutboxQueue} {hf : ∀ queue, (f queue).sessionId = queue.sessionId}
    (h : c.IsPaused sessionId) (hpaused : ∀ queue, queue.paused = true → (f queue).paused = true) :
    IsPaused (c.update target f hf) sessionId := by
  obtain ⟨queue, hfind, hqueue⟩ := h
  unfold IsPaused
  rw [Table.find?_update]
  split
  · rename_i heq
    rw [← heq, hfind]
    exact ⟨_, rfl, hpaused queue hqueue⟩
  · exact ⟨queue, hfind, hqueue⟩

theorem IsPaused.enqueue {binding : OutboxBinding} {text : JsText} (h : c.IsPaused sessionId)
    (hnext : c.enqueue binding text id = .ok next) : next.IsPaused sessionId := by
  obtain ⟨queue, hfind, hqueue⟩ := h
  unfold OutboxSnapshot.enqueue at hnext
  dsimp only at hnext
  split at hnext
  · cases hnext
  · split at hnext
    · cases hnext
    · split at hnext
      · cases hnext
        exact ⟨queue, hfind, hqueue⟩
      · cases hnext
        unfold IsPaused
        rw [Table.find?_upsert]
        split
        · rename_i heq
          refine ⟨_, rfl, ?_⟩
          rw [← show sessionId = binding.sessionId from heq, hfind]
          exact hqueue
        · exact ⟨queue, hfind, hqueue⟩

theorem IsPaused.withItem {f : OutboxQueue → OutboxQueue} {hf : ∀ queue, (f queue).sessionId = queue.sessionId}
    (h : c.IsPaused sessionId) (hnext : c.withItem target id f hf = .ok next)
    (hpaused : ∀ queue, queue.paused = true → (f queue).paused = true) : next.IsPaused sessionId := by
  obtain ⟨-, rfl⟩ := withItem_eq_ok hnext
  exact h.update hpaused

theorem IsPaused.withHeld (h : c.IsPaused sessionId) (reason : String) :
    (c.withHeld target reason id).IsPaused sessionId := by
  unfold OutboxSnapshot.withHeld
  exact h.update fun _ _ => rfl

theorem paused_restored {queue : OutboxQueue} (h : c.restored.find? sessionId = some queue) : queue.paused = true := by
  unfold restored at h
  rw [Table.find?_updateWhere] at h
  obtain ⟨old, -, rfl⟩ := Option.map_eq_some_iff.1 h
  rfl

end OutboxSnapshot

end Wiii.NekoChill
