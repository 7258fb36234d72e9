import Wiii.Lib.Except
import Wiii.Neko.AppEvents.Model

/-!
# The source of application events

The bridge in the workstation numbers the accessibility events it records, keeps the newest of them in a bounded buffer
and hands out pages of them.  When it starts it draws a new epoch, and the numbers start again: a cursor names an epoch
and a number.
-/

namespace Wiii.Neko.AppEvents

def maxAppEventBuffer : ℕ := 2048
def maxAppEventPoll : ℕ := 512

/-! ## Cursors -/

/-- The digits after the value read so far, with single underscores between them. -/
def readDigits : List Char → ℕ → Option ℕ
  | [], value => some value
  | '_' :: c :: cs, value =>
    if c.isDigit then readDigits cs (10 * value + (c.toNat - 48)) else none
  | c :: cs, value => if c.isDigit then readDigits cs (10 * value + (c.toNat - 48)) else none

/-- `int`, of identifier characters. -/
def int : List Char → Option ℤ
  | '-' :: c :: cs =>
    if c.isDigit then (readDigits (c :: cs) 0).map fun n => -(n : ℤ) else none
  | c :: cs => if c.isDigit then (readDigits (c :: cs) 0).map fun n => (n : ℤ) else none
  | [] => none

theorem readDigits_eq {digits : List Char} (h : ∀ c ∈ digits, c.isDigit) (value : ℕ) :
    readDigits digits value = some (Nat.ofDigitChars 10 digits value) := by
  induction digits generalizing value with
  | nil => simp [readDigits]
  | cons c cs ih =>
    obtain ⟨hc, hcs⟩ := List.forall_mem_cons.1 h
    have hne : c ≠ '_' := by
      rintro rfl
      exact absurd hc (by decide)
    rw [readDigits, if_pos hc, ih hcs, Nat.ofDigitChars_cons]
    · rfl
    · rintro _ _ rfl
      exact absurd rfl hne

theorem int_toDigits (n : ℕ) : int (Nat.toDigits 10 n) = some (n : ℤ) := by
  have hdigits : ∀ c ∈ Nat.toDigits 10 n, c.isDigit := fun _ =>
    Nat.isDigit_of_mem_toDigits (by decide) (by decide)
  cases hn : Nat.toDigits 10 n with
  | nil => exact absurd hn Nat.toDigits_ne_nil
  | cons c cs =>
    rw [hn] at hdigits
    have hc := hdigits c (List.mem_cons_self ..)
    have hne : c ≠ '-' := by
      rintro rfl
      exact absurd hc (by decide)
    rw [int, if_pos hc, readDigits_eq hdigits, ← hn, Nat.ofDigitChars_ten_toDigits]
    · rfl
    · rintro _ _ rfl
      exact absurd rfl hne

def appEventCursor (epoch : String) (sequence : ℕ) : String := s!"atspi:{epoch}:{sequence}"

def readCursor (value : String) : Option (String × ℕ) :=
  match value.toList.splitOn ':' with
  | [source, epoch, number] =>
    if source = "atspi".toList ∧ epoch.length = 16 then
      (int number).bind fun sequence =>
        if 0 ≤ sequence then some (.ofList epoch, sequence.toNat) else none
    else none
  | _ => none

def parseAppEventCursor : Option String → Except String (Option (String × ℕ))
  | none => .ok none
  | some value =>
    if 80 < value.length then .error "The app-event cursor is invalid."
    else match readCursor value with
      | some parsed => .ok (some parsed)
      | none => .error "The app-event cursor is invalid."

/-- The names of epochs: sixteen characters, none of which separates the parts of a cursor. -/
def IsEpoch (epoch : String) : Prop := epoch.length = 16 ∧ ':' ∉ epoch.toList

instance (epoch : String) : Decidable (IsEpoch epoch) := inferInstanceAs (Decidable (_ ∧ _))

theorem readCursor_appEventCursor {epoch : String} (h : IsEpoch epoch) (sequence : ℕ) :
    readCursor (appEventCursor epoch sequence) = some (epoch, sequence) := by
  have htext : (appEventCursor epoch sequence).toList = [':'].intercalate
      ["atspi".toList, epoch.toList, Nat.toDigits 10 sequence] := by
    simp [appEventCursor, List.intercalate_cons_cons, toString]
  have hsplit : (appEventCursor epoch sequence).toList.splitOn ':' =
      ["atspi".toList, epoch.toList, Nat.toDigits 10 sequence] := by
    rw [htext, List.splitOn_intercalate _ ?_ (by simp)]
    simp only [List.mem_cons, List.not_mem_nil, or_false, forall_eq_or_imp, forall_eq]
    refine ⟨by decide, h.2, fun hmem => ?_⟩
    have hdigit := Nat.isDigit_of_mem_toDigits (by decide) (by decide) hmem
    exact absurd hdigit (by decide)
  have hlength : epoch.toList.length = 16 := h.1
  simp [readCursor, hsplit, hlength, int_toDigits]

theorem parse_ok {cursor : String} {parsed : Option (String × ℕ)}
    (h : parseAppEventCursor (some cursor) = .ok parsed) :
    ∃ name sequence, readCursor cursor = some (name, sequence) ∧ parsed = some (name, sequence) := by
  simp only [parseAppEventCursor] at h
  split_ifs at h
  cases hread : readCursor cursor with
  | none =>
    rw [hread] at h
    cases h
  | some read =>
    rw [hread] at h
    cases h
    exact ⟨read.1, read.2, rfl, rfl⟩

/-! ## Recording -/

def eventId (epoch : String) (sequence : ℕ) : String := s!"atspi-event:{epoch}:{sequence}"

theorem appEventCursor_of_eventId {epoch epoch' : String} {n n' : ℕ}
    (h : eventId epoch n = eventId epoch' n') : appEventCursor epoch n = appEventCursor epoch' n' := by
  rw [← String.toList_inj] at h ⊢
  simpa [eventId, appEventCursor] using h

def appEventKind (eventType : String) : AppEventKind :=
  let startsWith := fun part : String => decide (part.toList <+: eventType.toList)
  if startsWith "object:text-changed" || startsWith "object:children-changed" then .contentChanged
  else if startsWith "window:activate" || startsWith "object:state-changed:focused" then
    .attentionRequired
  else .stateChanged

structure AppLauncher where
  appId : String
  ref : String

/-- The launcher of its application, its type, as a bounded text, and the clock. -/
structure AccessibilityEvent where
  launcher : Option AppLauncher
  type : String
  now : Instant

structure Record where
  sequence : ℕ
  signal : AppEventSignal
  deriving DecidableEq

structure Bridge where
  epoch : String
  sequence : ℕ
  /-- The newest events, the oldest of them first. -/
  buffer : List Record
  deriving DecidableEq

namespace Bridge

def start (epoch : String) : Bridge := ⟨epoch, 0, []⟩

/-- `deque.append`: the oldest entries make place. -/
def push (record : Record) (buffer : List Record) : List Record :=
  (buffer ++ [record]).drop (buffer.length + 1 - maxAppEventBuffer)

def signalOf (launcher : AppLauncher) (event : AccessibilityEvent) (epoch : String)
    (sequence : ℕ) : AppEventSignal where
  eventId := eventId epoch sequence
  cursor := appEventCursor epoch sequence
  appId := launcher.appId
  resourceRef := launcher.ref
  kind := appEventKind event.type
  observedAt := event.now.text

def recorded (event : AccessibilityEvent) (b : Bridge) : Option AppEventSignal :=
  match event.launcher with
  | none => none
  | some launcher =>
    if event.type.isEmpty then none else some (signalOf launcher event b.epoch (b.sequence + 1))

def recordAppEvent (event : AccessibilityEvent) (b : Bridge) : Bridge :=
  match recorded event b with
  | none => b
  | some signal =>
    { b with
      sequence := b.sequence + 1
      buffer := push ⟨b.sequence + 1, signal⟩ b.buffer }

theorem recorded_numbered {b : Bridge} {event : AccessibilityEvent} {signal : AppEventSignal}
    (h : recorded event b = some signal) :
    signal.cursor = appEventCursor b.epoch (b.sequence + 1) ∧
      signal.eventId = eventId b.epoch (b.sequence + 1) := by
  unfold recorded at h
  split at h
  · cases h
  · split_ifs at h
    cases h
    exact ⟨rfl, rfl⟩

theorem epoch_recordAppEvent (event : AccessibilityEvent) (b : Bridge) :
    (recordAppEvent event b).epoch = b.epoch := by
  unfold recordAppEvent
  split <;> rfl

/-! ## Polls -/

end Bridge

structure PollRequest where
  environmentId : String
  afterCursor : Option String
  limit : ℕ
  waitMs : ℕ

namespace Bridge

def oldestSequence (b : Bridge) : ℕ :=
  (b.buffer.head?.map Record.sequence).getD (b.sequence + 1)

/-- The number after which the page starts, and whether events before it are missed. -/
def afterSequence (parsed : Option (String × ℕ)) (b : Bridge) : Except String (ℕ × Bool) :=
  match parsed with
  | none => .ok (0, decide (1 < b.oldestSequence))
  | some (epoch, after) =>
    if epoch ≠ b.epoch then .ok (b.oldestSequence - 1, true)
    else if b.sequence < after then .error "The app-event cursor is ahead of the source."
    else if after < b.oldestSequence - 1 then .ok (b.oldestSequence - 1, true)
    else .ok (after, false)

def page (after limit : ℕ) (b : Bridge) : List Record :=
  (b.buffer.filter fun record => decide (after < record.sequence)).take limit

/-- A poll, in the state in which the page is taken. -/
def pollAppEvents (request : PollRequest) (b : Bridge) : Except String WatcherBatch :=
  if request.environmentId.isEmpty ∨ 160 < request.environmentId.length then
    .error "The app-event environment is invalid."
  else if ¬ (1 ≤ request.limit ∧ request.limit ≤ maxAppEventPoll) then
    .error "The app-event limit must be between 1 and 512."
  else if 15000 < request.waitMs then
    .error "The app-event waitMs must be between 0 and 15000."
  else do
    let parsed ← parseAppEventCursor request.afterCursor
    let (after, gapDetected) ← b.afterSequence parsed
    let page := b.page after request.limit
    let pageSequence := (page.getLast?.map Record.sequence).getD b.sequence
    .ok {
      source := .atSpi
      sourceId := "atspi"
      cursor := appEventCursor b.epoch pageSequence
      gapDetected := gapDetected
      events := page.map Record.signal }

/-! ## The buffer and what was recorded -/

/-- The signals as entries, numbered from the one after `n` on. -/
def numbered : ℕ → List AppEventSignal → List Record
  | _, [] => []
  | n, signal :: signals => ⟨n + 1, signal⟩ :: numbered (n + 1) signals

section Numbered

variable (n : ℕ) (signals signals' : List AppEventSignal)

@[simp] theorem length_numbered : (numbered n signals).length = signals.length := by
  induction signals generalizing n with
  | nil => rfl
  | cons signal signals ih => simp [numbered, ih]

@[simp] theorem map_signal_numbered : (numbered n signals).map Record.signal = signals := by
  induction signals generalizing n with
  | nil => rfl
  | cons signal signals ih => simp [numbered, ih]

theorem numbered_append :
    numbered n (signals ++ signals') = numbered n signals ++ numbered (n + signals.length) signals' := by
  induction signals generalizing n with
  | nil => rfl
  | cons signal signals ih =>
    rw [List.cons_append, numbered, ih, numbered, List.cons_append, List.length_cons,
      Nat.add_right_comm, Nat.add_assoc n]

theorem drop_numbered (k : ℕ) : (numbered n signals).drop k = numbered (n + k) (signals.drop k) := by
  induction signals generalizing n k with
  | nil => simp [numbered]
  | cons signal signals ih =>
    cases k with
    | zero => rfl
    | succ k => rw [numbered, List.drop_succ_cons, List.drop_succ_cons, ih, Nat.add_right_comm, Nat.add_assoc]

theorem take_numbered (k : ℕ) : (numbered n signals).take k = numbered n (signals.take k) := by
  induction signals generalizing n k with
  | nil => simp [numbered]
  | cons signal signals ih =>
    cases k with
    | zero => rfl
    | succ k => simp [numbered, ih]

theorem filter_numbered (after : ℕ) :
    (numbered n signals).filter (fun record => decide (after < record.sequence)) =
      numbered (n + (after - n)) (signals.drop (after - n)) := by
  induction signals generalizing n with
  | nil => simp [numbered]
  | cons signal signals ih =>
    rw [numbered, List.filter_cons, ih]
    by_cases h : after < n + 1
    · have h₀ : after - n = 0 := by omega
      have h₁ : after - (n + 1) = 0 := by omega
      simp [h, h₀, h₁, numbered]
    · have h₁ : after - n = after - (n + 1) + 1 := by omega
      rw [if_neg (by simpa using h), h₁, List.drop_succ_cons]
      congr 1
      omega

theorem getLast_numbered :
    ((numbered n signals).getLast?.map Record.sequence) =
      if signals = [] then none else some (n + signals.length) := by
  induction signals generalizing n with
  | nil => rfl
  | cons signal signals ih =>
    cases signals with
    | nil => rfl
    | cons signal' signals' =>
      have hcons : numbered n (signal :: signal' :: signals') =
          ⟨n + 1, signal⟩ :: ⟨n + 1 + 1, signal'⟩ :: numbered (n + 1 + 1) signals' := rfl
      rw [hcons, List.getLast?_cons_cons, ← numbered, ih]
      simp
      omega

end Numbered

/-- The bridge has numbered the signals, and kept the newest. -/
structure Mirrors (b : Bridge) (signals : List AppEventSignal) : Prop where
  sequence : b.sequence = signals.length
  buffer : b.buffer = numbered (signals.length - maxAppEventBuffer)
    (signals.drop (signals.length - maxAppEventBuffer))

theorem mirrors_start (epoch : String) : Mirrors (start epoch) [] := ⟨rfl, rfl⟩

variable {b : Bridge} {signals : List AppEventSignal}

theorem Mirrors.recordAppEvent (h : Mirrors b signals) (event : AccessibilityEvent) :
    Mirrors (recordAppEvent event b) (signals ++ (recorded event b).toList) := by
  unfold Bridge.recordAppEvent
  cases recorded event b with
  | none => simpa using h
  | some signal =>
    refine ⟨by simp [h.sequence], ?_⟩
    set k := signals.length - maxAppEventBuffer with hk
    have hlength : b.buffer.length = signals.length - k := by simp [h.buffer, hk]
    have hbuffer : b.buffer ++ [⟨b.sequence + 1, signal⟩] =
        numbered k ((signals ++ [signal]).drop k) := by
      rw [h.buffer, List.drop_append_of_le_length (by omega), numbered_append, h.sequence]
      have hnext : k + (signals.drop k).length = signals.length := by
        rw [List.length_drop]
        omega
      rw [hnext]
      rfl
    simp only [push]
    rw [hbuffer, drop_numbered, List.drop_drop, hlength, Option.toList_some,
      List.length_append, List.length_singleton]
    have hfirst : k + (signals.length - k + 1 - maxAppEventBuffer) =
        signals.length + 1 - maxAppEventBuffer := by
      omega
    rw [hfirst]

theorem Mirrors.oldestSequence (h : Mirrors b signals) :
    b.oldestSequence = signals.length - maxAppEventBuffer + 1 := by
  unfold Bridge.oldestSequence
  rw [h.buffer, h.sequence]
  cases hs : signals.drop (signals.length - maxAppEventBuffer) with
  | nil =>
    have hle := List.drop_eq_nil_iff.1 hs
    have hpos : 0 < maxAppEventBuffer := by decide
    simp [numbered]
    omega
  | cons signal rest => rfl

theorem Mirrors.page (h : Mirrors b signals) {after start : ℕ}
    (hstart : start = max after (signals.length - maxAppEventBuffer)) (limit : ℕ) :
    b.page after limit = numbered start ((signals.drop start).take limit) := by
  have hsum : signals.length - maxAppEventBuffer + (after - (signals.length - maxAppEventBuffer)) =
      start := by
    omega
  rw [Bridge.page, h.buffer, filter_numbered, List.drop_drop, hsum, take_numbered]

end Bridge

/-- The cursor stands at a number of an epoch; no cursor stands at the start of any. -/
def Stands : Option String → String → ℕ → Prop
  | none, _, n => n = 0
  | some cursor, epoch, n => readCursor cursor = some (epoch, n)

namespace Bridge

/-- What a poll hands out, where `start` is the number that the page starts after. -/
structure Page (afterCursor : Option String) (epoch : String) (signals : List AppEventSignal)
    (batch : WatcherBatch) (start : ℕ) : Prop where
  le : start ≤ signals.length
  events : ∃ limit, batch.events = (signals.drop start).take limit
  cursor : batch.cursor = appEventCursor epoch (start + batch.events.length)
  /-- Without a gap, the page starts where the cursor stands. -/
  stands : batch.gapDetected = false → Stands afterCursor epoch start
  /-- It never starts before. -/
  after : ∀ cursor n, afterCursor = some cursor → readCursor cursor = some (epoch, n) → n ≤ start
  /-- Only at the start of an epoch there may be nothing after a gap. -/
  empty : batch.gapDetected = true → batch.events = [] →
    start = 0 ∧ ∀ cursor n, afterCursor = some cursor → readCursor cursor ≠ some (epoch, n)

variable {b : Bridge} {signals : List AppEventSignal}

theorem Mirrors.afterSequence (h : Mirrors b signals) {afterCursor : Option String}
    {parsed : Option (String × ℕ)} (hparsed : parseAppEventCursor afterCursor = .ok parsed)
    {after : ℕ} {gapDetected : Bool} (hafter : b.afterSequence parsed = .ok (after, gapDetected))
    {start : ℕ} (hstart : start = max after (signals.length - maxAppEventBuffer)) :
    start ≤ signals.length ∧
      (gapDetected = false → Stands afterCursor b.epoch start) ∧
      (∀ cursor n, afterCursor = some cursor → readCursor cursor = some (b.epoch, n) →
        n ≤ start ∧ (gapDetected = true → 0 < start)) ∧
      (gapDetected = true → start = signals.length - maxAppEventBuffer) := by
  cases afterCursor with
  | none =>
    cases hparsed
    cases hafter
    rw [h.oldestSequence, decide_eq_false_iff_not]
    refine ⟨by omega, fun hgap => ?_, by simp, fun _ => by omega⟩
    simp only [Stands]
    omega
  | some cursor =>
    obtain ⟨name, n, hread, rfl⟩ := parse_ok hparsed
    simp only [Bridge.afterSequence, h.oldestSequence, h.sequence] at hafter
    split_ifs at hafter with hname hahead hold
    · obtain ⟨rfl, rfl⟩ := Prod.mk.inj (Except.ok.inj hafter)
      refine ⟨by omega, by simp, fun cursor' n' hcursor hread' => ?_, fun _ => by omega⟩
      cases hcursor
      rw [hread] at hread'
      cases hread'
      exact absurd rfl hname
    · obtain ⟨rfl, rfl⟩ := Prod.mk.inj (Except.ok.inj hafter)
      refine ⟨by omega, by simp, fun cursor' n' hcursor hread' => ?_, fun _ => by omega⟩
      cases hcursor
      rw [hread] at hread'
      cases hread'
      exact ⟨by omega, fun _ => by omega⟩
    · cases hafter
      have hsame : start = after := by omega
      subst hsame
      rw [not_not] at hname
      subst hname
      refine ⟨by omega, fun _ => hread, fun cursor' n' hcursor hread' => ?_, by simp⟩
      cases hcursor
      rw [hread] at hread'
      cases hread'
      exact ⟨le_rfl, by simp⟩

theorem Mirrors.pollAppEvents (h : Mirrors b signals) {request : PollRequest}
    {batch : WatcherBatch} (hpoll : b.pollAppEvents request = .ok batch) :
    ∃ start, Page request.afterCursor b.epoch signals batch start := by
  obtain ⟨-, hpoll⟩ := ite_error_ok_iff.1 hpoll
  obtain ⟨hlimit, hpoll⟩ := ite_error_ok_iff.1 hpoll
  obtain ⟨-, hpoll⟩ := ite_error_ok_iff.1 hpoll
  obtain ⟨parsed, hparsed, hpoll⟩ := bind_ok_iff.1 hpoll
  obtain ⟨⟨after, gapDetected⟩, hafter, hpoll⟩ := bind_ok_iff.1 hpoll
  cases hpoll
  obtain ⟨start, hstart⟩ : ∃ start, start = max after (signals.length - maxAppEventBuffer) := ⟨_, rfl⟩
  obtain ⟨hle, hstands, hnames, hgap⟩ := h.afterSequence hparsed hafter hstart
  have hpage := h.page hstart request.limit
  have hempty : (signals.drop start).take request.limit = [] ↔ signals.length ≤ start := by
    rw [List.take_eq_nil_iff, List.drop_eq_nil_iff]
    omega
  refine ⟨start, hle, ⟨request.limit, by simp [hpage]⟩, ?_, hstands,
    fun cursor n hcursor hread => (hnames cursor n hcursor hread).1, fun hg he => ?_⟩
  · simp only [hpage, getLast_numbered, map_signal_numbered, h.sequence]
    split_ifs with hnil
    · have heq := hempty.1 hnil
      simp [hnil, le_antisymm heq hle]
    · rfl
  · simp only [hpage, map_signal_numbered, hempty] at he
    have hzero : start = 0 := by
      have hpos : 0 < maxAppEventBuffer := by decide
      have := hgap hg
      omega
    refine ⟨hzero, fun cursor n hcursor hread => ?_⟩
    exact absurd ((hnames cursor n hcursor hread).2 hg) (by omega)

end Bridge

end Wiii.Neko.AppEvents
