import Mathlib.Data.List.Nodup
import Wiii.Service.Payload

/-!
# What a payload keeps

A field with an ordinary key, among the first items of a dictionary, is kept by the sanitizer with its own value
sanitized (`Field.sanitize`).  Texts are cut and redacted, lists and dictionaries stay what they are.
-/

namespace Wiii.Service

namespace Payload

variable {lib : Runtime}

/-! ## Keys -/

def isPlainKey (key : String) : Bool :=
  key ≠ "" && key.toList.all PyText.isPlainChar && !controlKeys.contains key &&
    !(["user_id", "user_id_hash", "redacted_secret_count"].contains key) && !looksSensitiveKey key

theorem normalizeKey_of_plain {key : String} (h : key.toList.all PyText.isPlainChar) : normalizeKey lib key = key := by
  have hplain : ∀ c ∈ key.toList, PyText.isPlainChar c = true := List.all_eq_true.1 h
  have hne : ∀ c, PyText.isPlainChar c = false → c ∉ key.toList := fun c hc hmem => by simp [hplain c hmem] at hc
  rw [normalizeKey, PyText.strip_of_forall fun c hc => PyText.isSpace_of_plain (hplain c hc),
    PyText.lower_of_forall fun c hc => ⟨PyText.toNat_lt_of_plain (hplain c hc), PyText.toLower_of_plain (hplain c hc)⟩,
    PyText.replace_of_not_mem (hne '-' (by decide)), PyText.replace_of_not_mem (hne '.' (by decide))]

theorem mem_keys_set {key k : String} {value : PyValue} {payload : Payload} :
    k ∈ (set key value payload).map Prod.fst ↔ k = key ∨ k ∈ payload.map Prod.fst := by
  induction payload with
  | nil => simp [set]
  | cons field rest ih =>
    obtain ⟨k', v⟩ := field
    rw [set]
    by_cases hk : k' = key
    · subst hk
      simp
    · rw [if_neg hk, List.map_cons, List.mem_cons, ih, List.map_cons, List.mem_cons]
      exact or_left_comm

theorem nodup_set {key : String} {value : PyValue} {payload : Payload} (h : (payload.map Prod.fst).Nodup) :
    ((set key value payload).map Prod.fst).Nodup := by
  induction payload with
  | nil => simp [set]
  | cons field rest ih =>
    obtain ⟨k, v⟩ := field
    rw [List.map_cons, List.nodup_cons] at h
    rw [set]
    by_cases hk : k = key
    · rw [if_pos hk]
      exact List.nodup_cons.2 h
    · rw [if_neg hk, List.map_cons, List.nodup_cons, mem_keys_set, not_or]
      exact ⟨⟨hk, h.1⟩, ih h.2⟩

theorem length_set_le (key : String) (value : PyValue) (payload : Payload) :
    (set key value payload).length ≤ payload.length + 1 := by
  induction payload with
  | nil => exact le_rfl
  | cons field rest ih =>
    obtain ⟨k, v⟩ := field
    rw [set]
    split_ifs with hk
    · exact Nat.le_succ _
    · simpa using ih

theorem get?_take_set {key k : String} {value : PyValue} {payload : Payload} {n : ℕ} (hk : key ≠ k)
    (hlength : payload.length ≤ n) : get? key ((set k value payload).take n) = get? key payload := by
  induction payload generalizing n with
  | nil => cases n <;> simp [set, get?_cons, hk]
  | cons field rest ih =>
    obtain ⟨k', v⟩ := field
    obtain ⟨n, rfl⟩ : ∃ m, n = m + 1 := ⟨n - 1, by simp at hlength; omega⟩
    have hrest : rest.length ≤ n := by simpa using hlength
    rw [set]
    by_cases hk' : k' = k
    · rw [if_pos hk', List.take_succ_cons, List.take_of_length_le hrest, get?_cons, get?_cons]
      subst hk'
      rw [if_neg hk, if_neg hk]
    · rw [if_neg hk', List.take_succ_cons, get?_cons, get?_cons, ih hrest]

theorem get?_of_take {key : String} {payload : Payload} {value : PyValue} {n : ℕ}
    (h : get? key (payload.take n) = some value) : get? key payload = some value := by
  induction payload generalizing n with
  | nil => simp at h
  | cons field rest ih =>
    obtain ⟨k, v⟩ := field
    cases n with
    | zero => simp at h
    | succ n =>
      rw [List.take_succ_cons, get?_cons] at h
      rw [get?_cons]
      split_ifs at h ⊢ with hk
      · exact h
      · exact ih h

theorem get?_eq_none_iff {key : String} {payload : Payload} : get? key payload = none ↔ key ∉ payload.map Prod.fst := by
  induction payload with
  | nil => simp
  | cons field rest ih =>
    obtain ⟨k, v⟩ := field
    rw [get?_cons, List.map_cons, List.mem_cons, not_or, ← ih]
    split_ifs with hk
    · simp [hk]
    · simp [hk]

/-! ## Fields -/

structure PlainKey (lib : Runtime) (key : String) : Prop where
  normal : normalizeKey lib key = key
  nonempty : key ≠ ""
  control : key ∉ controlKeys
  userId : key ≠ "user_id"
  userIdHash : key ≠ "user_id_hash"
  count : key ≠ "redacted_secret_count"
  sensitive : looksSensitiveKey key = false

theorem plainKey {key : String} (h : isPlainKey key = true) : PlainKey lib key := by
  simp only [isPlainKey, Bool.and_eq_true, Bool.not_eq_true', decide_eq_true_eq, List.contains_eq_mem,
    decide_eq_false_iff_not, List.mem_cons, List.not_mem_nil, or_false, not_or] at h
  obtain ⟨⟨⟨⟨hne, hplain⟩, hcontrol⟩, huser, hhash, hcount⟩, hsensitive⟩ := h
  exact ⟨normalizeKey_of_plain hplain, hne, hcontrol, huser, hhash, hcount, hsensitive⟩

variable {sanitize : PyValue → PyValue} {key : String} {value : PyValue}

/-- What becomes of an ordinary item: a text that holds JSON is parsed first. -/
def cleanItem (lib : Runtime) (sanitize : PyValue → PyValue) (key : String) (value : PyValue) : PyValue :=
  sanitize ((parsedItem lib key value).getD value)

theorem cleanItem_of_not_parsed (h : parsedItem lib key value = none) :
    cleanItem lib sanitize key value = sanitize value := by rw [cleanItem, h, Option.getD_none]

theorem cleanField_self (hkey : PlainKey lib key) (value : PyValue) (c : Cleaned) :
    (cleanField lib sanitize c (key, value)).fields = set key (cleanItem lib sanitize key value) c.fields := by
  simp only [cleanField, hkey.normal]
  rw [if_neg fun h => h.elim hkey.nonempty hkey.control, if_neg hkey.userId, if_neg hkey.count,
    if_neg (by simp [hkey.sensitive]), cleanItem]
  cases parsedItem lib key value <;> rfl

theorem cleanField_cases (c : Cleaned) (field : String × PyValue) :
    (cleanField lib sanitize c field).fields = c.fields ∨ ∃ k v, (k = field.1 ∨ k = "user_id_hash" ∨
      k = "redacted_secret_count") ∧ (cleanField lib sanitize c field).fields = set k v c.fields := by
  obtain ⟨k, v⟩ := field
  unfold cleanField
  dsimp only
  split_ifs with hblank huser hcount hsensitive hflag hempty
  · exact Or.inl rfl
  · cases lib.hashRuntimeIdentifier v with
    | some hash => exact Or.inr ⟨_, _, Or.inr (Or.inl rfl), rfl⟩
    | none => exact Or.inl rfl
  · cases lib.toInt v with
    | some n => exact Or.inr ⟨_, _, Or.inr (Or.inr rfl), rfl⟩
    | none => exact Or.inl rfl
  · exact Or.inr ⟨_, _, Or.inl rfl, rfl⟩
  · exact Or.inl rfl
  · exact Or.inl rfl
  · cases parsedItem lib (normalizeKey lib k) v with
    | some parsed => exact Or.inr ⟨_, _, Or.inl rfl, rfl⟩
    | none => exact Or.inr ⟨_, _, Or.inl rfl, rfl⟩

theorem get?_cleanField_of_ne (hkey : PlainKey lib key) (c : Cleaned) {field : String × PyValue} (hne : key ≠ field.1) :
    get? key (cleanField lib sanitize c field).fields = get? key c.fields := by
  rcases cleanField_cases c field with hsame | ⟨k, v, hk, hset⟩
  · rw [hsame]
  · rw [hset, get?_set, if_neg]
    rcases hk with rfl | rfl | rfl
    · exact hne
    · exact hkey.userIdHash
    · exact hkey.count

theorem length_cleanField_le (lib : Runtime) (sanitize : PyValue → PyValue) (c : Cleaned) (field : String × PyValue) :
    (cleanField lib sanitize c field).fields.length ≤ c.fields.length + 1 := by
  rcases cleanField_cases c field with hsame | ⟨k, v, -, hset⟩
  · rw [hsame]
    exact Nat.le_succ _
  · rw [hset]
    exact length_set_le k v c.fields

theorem nodup_cleanField {c : Cleaned} (h : (c.fields.map Prod.fst).Nodup) (field : String × PyValue) :
    ((cleanField lib sanitize c field).fields.map Prod.fst).Nodup := by
  rcases cleanField_cases c field with hsame | ⟨k, v, -, hset⟩
  · rwa [hsame]
  · rw [hset]
    exact nodup_set h

/-! ## Dictionaries -/

theorem length_foldl_le (lib : Runtime) (sanitize : PyValue → PyValue) (fields : Payload) (c : Cleaned) :
    (fields.foldl (cleanField lib sanitize) c).fields.length ≤ c.fields.length + fields.length := by
  induction fields generalizing c with
  | nil => exact le_rfl
  | cons field rest ih =>
    have hone := length_cleanField_le lib sanitize c field
    have hrest := ih (cleanField lib sanitize c field)
    rw [List.foldl_cons, List.length_cons]
    omega

theorem nodup_foldl (lib : Runtime) (sanitize : PyValue → PyValue) {c : Cleaned}
    (h : (c.fields.map Prod.fst).Nodup) (fields : Payload) :
    ((fields.foldl (cleanField lib sanitize) c).fields.map Prod.fst).Nodup := by
  induction fields generalizing c with
  | nil => exact h
  | cons field rest ih =>
    rw [List.foldl_cons]
    exact ih (nodup_cleanField h field)

theorem get?_foldl_of_not_mem (sanitize : PyValue → PyValue) (hkey : PlainKey lib key) {fields : Payload}
    (h : key ∉ fields.map Prod.fst) (c : Cleaned) :
    get? key (fields.foldl (cleanField lib sanitize) c).fields = get? key c.fields := by
  induction fields generalizing c with
  | nil => rfl
  | cons field rest ih =>
    rw [List.map_cons, List.mem_cons, not_or] at h
    rw [List.foldl_cons]
    exact (ih h.2 _).trans (get?_cleanField_of_ne hkey c h.1)

theorem get?_foldl (sanitize : PyValue → PyValue) (hkey : PlainKey lib key) {fields : Payload}
    (hnodup : (fields.map Prod.fst).Nodup) (h : get? key fields = some value) (c : Cleaned) :
    get? key (fields.foldl (cleanField lib sanitize) c).fields = some (cleanItem lib sanitize key value) := by
  induction fields generalizing c with
  | nil => cases h
  | cons field rest ih =>
    obtain ⟨k, v⟩ := field
    rw [List.map_cons, List.nodup_cons] at hnodup
    rw [get?_cons] at h
    rw [List.foldl_cons]
    by_cases hk : key = k
    · subst hk
      rw [if_pos rfl, Option.some.injEq] at h
      subst h
      rw [get?_foldl_of_not_mem sanitize hkey hnodup.1, cleanField_self hkey, get?_set, if_pos rfl]
    · rw [if_neg hk] at h
      exact ih hnodup.2 h _

/-- An ordinary field among the first items of a dictionary. -/
structure Field (fields : Payload) (key : String) (value : PyValue) : Prop where
  nodup : (fields.map Prod.fst).Nodup
  value : get? key (fields.take maxSanitizedItems) = some value

theorem Field.get? {fields : Payload} (h : Field fields key value) : get? key fields = some value := get?_of_take h.value

theorem length_foldl_take_le (lib : Runtime) (sanitize : PyValue → PyValue) (fields : Payload) :
    ((fields.take maxSanitizedItems).foldl (cleanField lib sanitize) {}).fields.length ≤ maxSanitizedItems := by
  have hle := length_foldl_le lib sanitize (fields.take maxSanitizedItems) {}
  have htake := List.length_take_le maxSanitizedItems fields
  simp only [List.length_nil] at hle
  omega

theorem Field.clean {fields : Payload} (h : Field fields key value) (hkey : PlainKey lib key) :
    Field (cleanDict lib sanitize fields) key (cleanItem lib sanitize key value) := by
  have hfold := get?_foldl sanitize hkey
    ((List.take_sublist maxSanitizedItems fields).map _ |>.nodup h.nodup) h.value {}
  have hlength := length_foldl_take_le lib sanitize fields
  have hnodup := nodup_foldl lib sanitize (c := {}) .nil (fields.take maxSanitizedItems)
  unfold cleanDict Cleaned.done
  split_ifs with hnone
  · exact ⟨hnodup, by rw [List.take_of_length_le hlength, hfold]⟩
  · exact ⟨nodup_set hnodup, by rw [get?_take_set hkey.count hlength, hfold]⟩

theorem not_mem_cleanDict (sanitize : PyValue → PyValue) {fields : Payload} (h : key ∉ fields.map Prod.fst)
    (hkey : PlainKey lib key) :
    get? key (cleanDict lib sanitize fields) = none := by
  have htake : key ∉ (fields.take maxSanitizedItems).map Prod.fst := fun hmem =>
    h (((List.take_sublist maxSanitizedItems fields).map _).subset hmem)
  have hfold := get?_foldl_of_not_mem sanitize hkey htake {}
  unfold cleanDict Cleaned.done
  split_ifs
  · exact hfold
  · rw [get?_set, if_neg hkey.count, hfold]
    rfl

/-! ## Several passes -/

abbrev cleanLevel (lib : Runtime) (levels : ℕ) : Payload → Payload := cleanDict lib (sanitizeValue lib levels)

variable {fields : Payload}

theorem Field.cleanAll (lib : Runtime) (h : Field fields key value) (hkey : PlainKey lib key) (levels n : ℕ) :
    Field ((cleanLevel lib levels)^[n] fields) key ((cleanItem lib (sanitizeValue lib levels) key)^[n] value) := by
  induction n with
  | zero => exact h
  | succ n ih =>
    rw [Function.iterate_succ_apply', Function.iterate_succ_apply']
    exact ih.clean hkey

theorem not_mem_cleanAll (h : key ∉ fields.map Prod.fst) (hkey : PlainKey lib key) (levels n : ℕ) :
    key ∉ ((cleanLevel lib levels)^[n] fields).map Prod.fst := by
  induction n with
  | zero => exact h
  | succ n ih =>
    rw [Function.iterate_succ_apply']
    exact get?_eq_none_iff.1 (not_mem_cleanDict _ ih hkey)

theorem parsedItem_of_not_json (h : key ∉ jsonStringKeys) : parsedItem lib key value = none := by
  cases value <;> simp [parsedItem, h]

theorem parsedItem_of_json (h : key ∈ jsonStringKeys) (s : String) :
    parsedItem lib key (.str s) = parseJsonString lib s := if_pos h

/-- A text that is not read as JSON on the way is cut and redacted in every pass. -/
theorem cleanItem_text (levels n : ℕ) {s : String}
    (hparsed : ∀ i < n, parsedItem lib key (.str ((redactRuntimeSecretText lib)^[i] s)) = none) :
    (cleanItem lib (sanitizeValue lib (levels + 1)) key)^[n] (.str s) = .str ((redactRuntimeSecretText lib)^[n] s) := by
  induction n with
  | zero => rfl
  | succ n ih =>
    rw [Function.iterate_succ_apply', Function.iterate_succ_apply', ih fun i hi => hparsed i (Nat.lt_succ_of_lt hi),
      cleanItem_of_not_parsed (hparsed n (Nat.lt_succ_self n)), sanitizeValue]

theorem cleanItem_dict (levels n : ℕ) (entries : Payload) :
    (cleanItem lib (sanitizeValue lib (levels + 1)) key)^[n] (.dict entries) =
      .dict ((cleanLevel lib levels)^[n] entries) := by
  induction n with
  | zero => rfl
  | succ n ih =>
    rw [Function.iterate_succ_apply', Function.iterate_succ_apply', ih, cleanItem_of_not_parsed rfl, sanitizeValue]

theorem cleanItem_list (levels n : ℕ) (items : List PyValue) :
    (cleanItem lib (sanitizeValue lib (levels + 1)) key)^[n + 1] (.list items) =
      .list ((items.take maxSanitizedItems).map (sanitizeValue lib levels)^[n + 1]) := by
  induction n with
  | zero => rw [Function.iterate_one, Function.iterate_one, cleanItem_of_not_parsed rfl, sanitizeValue]
  | succ n ih =>
    have hlength := List.length_take_le maxSanitizedItems items
    rw [Function.iterate_succ_apply', ih, cleanItem_of_not_parsed rfl, sanitizeValue,
      List.take_of_length_le (by rwa [List.length_map]), List.map_map, ← Function.iterate_succ']

theorem sanitizeValue_dict (levels n : ℕ) (entries : Payload) :
    (sanitizeValue lib (levels + 1))^[n] (.dict entries) = .dict ((cleanLevel lib levels)^[n] entries) := by
  induction n with
  | zero => rfl
  | succ n ih => rw [Function.iterate_succ_apply', Function.iterate_succ_apply', ih, sanitizeValue]

end Payload

end Wiii.Service
