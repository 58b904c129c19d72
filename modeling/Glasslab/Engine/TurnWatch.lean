import Glasslab.Foundation.Document
import Mathlib.Algebra.GroupWithZero.Nat

/-!
# The watchdog of a turn

`_watch_turn` in `app/opencode_runtime.py` polls the messages of the session while a turn is
running, and aborts the turn at the first poll that gives a reason to: the time is up, the last tool
calls that finished are all the same, or there are too many steps. The steps are counted from the
latest message of the user on, the tool calls over the whole session.
-/

namespace Glasslab.Engine.TurnWatch

open Foundation List Option

inductive Atom where
  | null
  | bool (b : Bool)
  | number (text : String)
  | str (s : String)
  deriving DecidableEq

abbrev Json := Document Atom

def str (s : String) : Json := .scalar (.str s)

/-- `value.get(key)`; a value that is no dict has no `get`. -/
def get (value : Json) (key : String) : Option (Option Json) :=
  match value with
  | .map entries => some (entries.lookup key)
  | _ => none

/-- What `for item in value` runs through; `none` is a `TypeError`. -/
def iterate : Json → Option (List Json)
  | .list items => some items
  | .map entries => some (entries.map fun entry => str entry.1)
  | .scalar (.str s) => some (s.toList.map fun c => str (String.singleton c))
  | .scalar _ => none

/-- `value.get('parts', [])`, run through. -/
def partsOf (message : Json) : Option (List Json) := do
  let parts ← get message "parts"
  iterate (parts.getD (.list []))

/-- The functions that write and read JSON, and hash a text. -/
structure JsonText where
  /-- `json.dumps(value, sort_keys=True, separators=(',', ':'))`. -/
  dumps : Json → String
  /-- `json.loads`. -/
  loads : String → Option Json
  /-- `sha256(text).hexdigest()`. -/
  sha256 : String → String

variable (json : JsonText)

/-- The signature of a part that is a finished tool call. `none` is an error that is raised. -/
def partSignature (part : Json) : Option (Option String) := do
  let type ← get part "type"
  if type ≠ some (str "tool") then pure none
  else
    match ← get part "state" with
    | some (.map state) =>
      match state.lookup "status" with
      | some (.list _) | some (.map _) => none
      | status =>
        if status = some (str "completed") ∨ status = some (str "error") then do
          let tool ← get part "tool"
          let null : Json := .scalar .null
          pure (some (json.dumps (.map [("tool", tool.getD null),
            ("input", (state.lookup "input").getD null)])))
        else pure none
    | _ => pure none

def messageSignatures (message : Json) : Option (List String) := do
  let parts ← partsOf message
  (parts.mapM (partSignature json)).map List.reduceOption

def terminalToolSignatures (messages : List Json) : Option (List String) :=
  (messages.mapM (messageSignatures json)).map List.flatten

structure ToolDetails where
  tool : Option String
  count : Nat
  inputDigest : String
  deriving DecidableEq

inductive AbortDetails where
  | tool (details : ToolDetails)
  | steps (stepCount : Nat) (stepLimit : Int)
  deriving DecidableEq

def repeatedToolAbort (signatures : List String) (limit : Int) : Option ToolDetails :=
  if limit ≤ 1 ∨ signatures.length < limit then none
  else
    let repeated := signatures.drop (signatures.length - limit.toNat)
    if repeated.dedup.length ≠ 1 then none
    else
      let signature := repeated.headD ""
      let tool := match json.loads signature with
        | some (.map parsed) => match parsed.lookup "tool" with
          | some (.scalar (.str tool)) => some tool
          | _ => none
        | _ => none
      some ⟨tool, repeated.length, String.ofList ((json.sha256 signature).toList.take 16)⟩

/-- `message['info'].get('role')`, where these are there. -/
def roleOf (message : Json) : Option Json :=
  match message with
  | .map entries => match entries.lookup "info" with
    | some (.map info) => info.lookup "role"
    | _ => none
  | _ => none

def isUser (message : Json) : Bool := roleOf message = some (str "user")

def afterLatestUser : List Json → Option (List Json)
  | [] => none
  | message :: rest =>
    match afterLatestUser rest with
    | some after => some after
    | none => if isUser message then some rest else none

def stepMarkers (message : Json) : Option Nat :=
  match message with
  | .map _ => do
    let parts ← partsOf message
    pure (parts.countP fun part => match part with
      | .map entries => entries.lookup "type" = some (str "step-start")
      | _ => false)
  | _ => some 0

def turnStepCount (messages : List Json) : Option Nat :=
  match afterLatestUser messages with
  | some turn => some (turn.countP fun message => roleOf message = some (str "assistant"))
  | none => do
    let markers ← messages.mapM stepMarkers
    if markers.sum ≠ 0 then pure markers.sum
    else do
      let signatures ← terminalToolSignatures json messages
      pure signatures.length

structure WatchSettings where
  /-- The time limit of a turn as it is written into the reason. -/
  turnTimeout : String
  repeatedToolLimit : Int
  stepLimit : Int

structure TurnAbort where
  reason : String
  failureClass : String
  details : Option AbortDetails
  deriving DecidableEq

/-- What a poll finds: whether the time is up, and the answer of the server unless there is none. -/
structure Poll where
  pastDeadline : Bool
  answer : Option Json

variable (settings : WatchSettings)

/-- What the messages give a reason for; an error that is raised gives none. -/
def inspectMessages (messages : List Json) : Option TurnAbort := do
  let signatures ← terminalToolSignatures json messages
  match repeatedToolAbort json signatures settings.repeatedToolLimit with
  | some details =>
    some {
      reason := "OpenCode turn aborted after " ++ toString settings.repeatedToolLimit ++
        " identical terminal tool calls"
      failureClass := "repeated_tool_loop"
      details := some (.tool details) }
  | none => do
    let stepCount ← turnStepCount json messages
    if 0 < settings.stepLimit ∧ settings.stepLimit < stepCount then
      some {
        reason := "OpenCode turn exceeded the step budget of " ++ toString settings.stepLimit ++
          " steps (" ++ toString stepCount ++ " steps) without returning a result"
        failureClass := "step_budget_exceeded"
        details := some (.steps stepCount settings.stepLimit) }
    else none

def inspect (poll : Poll) : Option TurnAbort :=
  if poll.pastDeadline then
    some {
      reason := "OpenCode turn exceeded the hard wall-clock limit of " ++ settings.turnTimeout ++
        " seconds"
      failureClass := "turn_timeout"
      details := none }
  else
    match poll.answer with
    | some (.list messages) => inspectMessages json settings messages
    | _ => none

/-- `_watch_turn`: the polls until the turn stops, and the abort if there is one. -/
def watchTurn (polls : List Poll) : Option TurnAbort := polls.findSome? (inspect json settings)

def currentTurn (messages : List Json) : List Json := (afterLatestUser messages).getD messages

/-- There are as many calls as the limit, and the last ones of them are all the same. -/
def LastSame (limit : Int) (signatures : List String) : Prop :=
  limit ≤ signatures.length ∧
    ∀ s ∈ signatures.drop (signatures.length - limit.toNat),
      ∀ t ∈ signatures.drop (signatures.length - limit.toNat), s = t

instance (limit : Int) (signatures : List String) : Decidable (LastSame limit signatures) :=
  inferInstanceAs (Decidable (_ ∧ _))

def Stuck (messages : List Json) : Prop :=
  ∃ signatures, terminalToolSignatures json (currentTurn messages) = some signatures ∧
    LastSame settings.repeatedToolLimit signatures

def JudgesTurn (messages : List Json) : Prop :=
  (∃ abort, inspect json settings ⟨false, some (.list messages)⟩ = some abort ∧
    abort.failureClass = "repeated_tool_loop") ↔ Stuck json settings messages

/-- Too few calls of the turn stand at the end of equal calls, of which the first are older. -/
def OlderCallsDecide (messages : List Json) : Prop :=
  ∃ signatures own, terminalToolSignatures json messages = some signatures ∧
    terminalToolSignatures json (currentTurn messages) = some own ∧
      own.length < settings.repeatedToolLimit ∧ LastSame settings.repeatedToolLimit signatures

/-- The turn is stuck, but the guard raises for a message of an earlier turn. -/
def OlderCallsRaise (messages : List Json) : Prop :=
  terminalToolSignatures json messages = none ∧ Stuck json settings messages

variable {json settings} {messages : List Json} {signatures : List String} {limit : Int}

/-- A list has one distinct item exactly if it is not empty and all its items are equal. -/
theorem length_dedup_eq_one_iff {l : List String} :
    l.dedup.length = 1 ↔ l ≠ [] ∧ ∀ s ∈ l, ∀ t ∈ l, s = t := by
  constructor
  · intro h
    obtain ⟨a, ha⟩ := length_eq_one_iff.mp h
    have hAll : ∀ s ∈ l, s = a := by
      intro s hs
      have hMem := mem_dedup.mpr hs
      rw [ha] at hMem
      exact mem_singleton.mp hMem
    refine ⟨?_, fun s hs t ht => (hAll s hs).trans (hAll t ht).symm⟩
    rintro rfl
    cases ha
  · rintro ⟨hNonempty, hAll⟩
    obtain ⟨a, rest, rfl⟩ := exists_cons_of_ne_nil hNonempty
    have hReplicate : a :: rest = List.replicate (rest.length + 1) a :=
      eq_replicate_iff.mpr ⟨rfl, fun s hs => hAll s hs a mem_cons_self⟩
    rw [hReplicate, replicate_dedup (Nat.succ_ne_zero _)]
    rfl

theorem repeatedToolAbort_isSome_iff (hLimit : 1 < limit) :
    (repeatedToolAbort json signatures limit).isSome ↔ LastSame limit signatures := by
  unfold repeatedToolAbort
  by_cases hFew : (signatures.length : Int) < limit
  · rw [if_pos (.inr hFew)]
    constructor
    · intro h
      cases h
    · rintro ⟨hLong, -⟩
      omega
  · rw [if_neg (not_or.mpr ⟨not_le.mpr hLimit, hFew⟩)]
    have hNonempty : signatures.drop (signatures.length - limit.toNat) ≠ [] := by
      intro hEmpty
      have hLength := congrArg List.length hEmpty
      rw [length_drop, length_nil] at hLength
      omega
    by_cases hSame : (signatures.drop (signatures.length - limit.toNat)).dedup.length = 1
    · rw [if_neg (not_not.mpr hSame)]
      exact iff_of_true rfl ⟨by omega, (length_dedup_eq_one_iff.mp hSame).2⟩
    · rw [if_pos hSame]
      refine iff_of_false (by simp) ?_
      rintro ⟨-, hAll⟩
      exact hSame (length_dedup_eq_one_iff.mpr ⟨hNonempty, hAll⟩)

/-- Where there are enough newer calls, the older ones do not matter. -/
theorem lastSame_append_iff {older own : List String} (h : limit ≤ own.length) :
    LastSame limit (older ++ own) ↔ LastSame limit own := by
  have hDrop : (older ++ own).drop ((older ++ own).length - limit.toNat) =
      own.drop (own.length - limit.toNat) := by
    have hPlace : (older ++ own).length - limit.toNat =
        older.length + (own.length - limit.toNat) := by
      rw [length_append]
      omega
    rw [hPlace, drop_append, drop_of_length_le (by omega), nil_append,
      Nat.add_sub_cancel_left]
  unfold LastSame
  rw [hDrop]
  apply and_congr_left'
  rw [length_append]
  omega

/-! ## The turn within the session -/

theorem exists_older (messages : List Json) :
    ∃ older, messages = older ++ currentTurn messages := by
  have hAfter : ∀ turn, afterLatestUser messages = some turn →
      ∃ older, messages = older ++ turn := by
    induction messages with
    | nil => nofun
    | cons message rest ih =>
      intro turn hTurn
      rw [afterLatestUser] at hTurn
      cases hRest : afterLatestUser rest with
      | some after =>
        rw [hRest] at hTurn
        obtain rfl := Option.some.inj hTurn
        obtain ⟨older, hOlder⟩ := ih _ hRest
        exact ⟨message :: older, congrArg (message :: ·) hOlder⟩
      | none =>
        rw [hRest] at hTurn
        dsimp only at hTurn
        split at hTurn
        · obtain rfl := Option.some.inj hTurn
          exact ⟨[message], rfl⟩
        · cases hTurn
  unfold currentTurn
  cases hTurn : afterLatestUser messages with
  | none => exact ⟨[], rfl⟩
  | some turn => exact hAfter turn hTurn

theorem terminalToolSignatures_append {older turn : List Json}
    (h : terminalToolSignatures json (older ++ turn) = some signatures) :
    ∃ first own, terminalToolSignatures json turn = some own ∧ signatures = first ++ own := by
  unfold terminalToolSignatures at h ⊢
  rw [mapM_append] at h
  cases hOlder : older.mapM (messageSignatures json) with
  | none =>
    rw [hOlder] at h
    cases h
  | some first =>
    rw [hOlder] at h
    cases hTurn : turn.mapM (messageSignatures json) with
    | none =>
      rw [hTurn] at h
      cases h
    | some own =>
      rw [hTurn] at h
      refine ⟨first.flatten, own.flatten, rfl, ?_⟩
      rw [← Option.some.inj h, flatten_append]

/-- The turn is aborted for repeated calls where the last calls of the session are all the same. -/
theorem inspect_repeated_iff (hLimit : 1 < settings.repeatedToolLimit) :
    (∃ abort, inspect json settings ⟨false, some (.list messages)⟩ = some abort ∧
      abort.failureClass = "repeated_tool_loop") ↔
    ∃ signatures, terminalToolSignatures json messages = some signatures ∧
      LastSame settings.repeatedToolLimit signatures := by
  have hInspect : inspect json settings ⟨false, some (.list messages)⟩ =
      inspectMessages json settings messages := rfl
  rw [hInspect]
  unfold inspectMessages
  cases hSignatures : terminalToolSignatures json messages with
  | none =>
    constructor
    · rintro ⟨abort, hAbort, -⟩
      cases hAbort
    · rintro ⟨signatures, hNone, -⟩
      cases hNone
  | some signatures =>
    have hGuard := @repeatedToolAbort_isSome_iff json signatures _ hLimit
    rw [bind_eq_bind, bind_some]
    cases hRepeated : repeatedToolAbort json signatures settings.repeatedToolLimit with
    | some details =>
      rw [hRepeated] at hGuard
      exact iff_of_true ⟨_, rfl, rfl⟩ ⟨signatures, rfl, hGuard.mp rfl⟩
    | none =>
      rw [hRepeated] at hGuard
      constructor
      · rintro ⟨abort, hAbort, hClass⟩
        obtain ⟨stepCount, -, hSteps⟩ := bind_eq_some_iff.mp hAbort
        split at hSteps
        · rw [← Option.some.inj hSteps] at hClass
          have hSame : "step_budget_exceeded" = "repeated_tool_loop" := hClass
          exact absurd hSame (by decide)
        · cases hSteps
      · rintro ⟨signatures', hSame, hLast⟩
        obtain rfl := Option.some.inj hSame
        cases hGuard.mpr hLast

/-- A run of polls ends with the first one that gives a reason. -/
theorem watchTurn_eq_some_iff {polls : List Poll} {abort : TurnAbort} :
    watchTurn json settings polls = some abort ↔
      ∃ before poll after, polls = before ++ poll :: after ∧ inspect json settings poll =
    some abort ∧
        ∀ p ∈ before, inspect json settings p = none :=
  List.findSome?_eq_some_iff

/-- The guard judges the turn exactly if no older calls decide in place of it, and no older message
makes it raise. -/
theorem judges_turn_iff (hLimit : 1 < settings.repeatedToolLimit) :
    JudgesTurn json settings messages ↔
      ¬OlderCallsDecide json settings messages ∧ ¬OlderCallsRaise json settings messages := by
  unfold JudgesTurn
  rw [inspect_repeated_iff hLimit]
  cases hSignatures : terminalToolSignatures json messages with
  | none =>
    constructor
    · intro hJudges
      constructor
      · rintro ⟨signatures, own, hSome, -⟩
        rw [hSignatures] at hSome
        cases hSome
      · rintro ⟨-, hStuck⟩
        obtain ⟨signatures, hNone, -⟩ := hJudges.mpr hStuck
        cases hNone
    · rintro ⟨-, hRaise⟩
      constructor
      · rintro ⟨signatures, hNone, -⟩
        cases hNone
      · intro hStuck
        exact absurd ⟨hSignatures, hStuck⟩ hRaise
  | some signatures =>
    obtain ⟨older, hOlder⟩ := exists_older messages
    have hSplit := hSignatures
    rw [hOlder] at hSplit
    obtain ⟨first, own, hOwn, rfl⟩ := terminalToolSignatures_append hSplit
    have hStuck : Stuck json settings messages ↔ LastSame settings.repeatedToolLimit own := by
      constructor
      · rintro ⟨own', hOwn', hSame⟩
        rw [hOwn] at hOwn'
        obtain rfl := Option.some.inj hOwn'
        exact hSame
      · exact fun hSame => ⟨own, hOwn, hSame⟩
    have hNoRaise : ¬OlderCallsRaise json settings messages := by
      rintro ⟨hNone, -⟩
      rw [hSignatures] at hNone
      cases hNone
    have hWhole : (∃ signatures, some (first ++ own) = some signatures ∧
        LastSame settings.repeatedToolLimit signatures) ↔
        LastSame settings.repeatedToolLimit (first ++ own) := by
      simp
    rw [hStuck, hWhole, and_iff_left hNoRaise]
    rcases lt_or_ge (own.length : Int) settings.repeatedToolLimit with hFew | hEnough
    · have hNotOwn : ¬LastSame settings.repeatedToolLimit own := fun h => not_le.mpr hFew h.1
      rw [iff_false_right hNotOwn]
      apply not_congr
      constructor
      · exact fun hSame => ⟨_, own, hSignatures, hOwn, hFew, hSame⟩
      · rintro ⟨signatures, own', hSome, -, -, hSame⟩
        rw [hSignatures] at hSome
        obtain rfl := Option.some.inj hSome
        exact hSame
    · refine iff_of_true (lastSame_append_iff hEnough) ?_
      rintro ⟨signatures, own', -, hOwn', hFew, -⟩
      rw [hOwn] at hOwn'
      obtain rfl := Option.some.inj hOwn'
      omega

def readCall : Json := .map [("tool", str "read"), ("input", .map [("filePath", str "run.py")])]

def readText : String :=
  "\x7b\"input\":\x7b\"filePath\":\"run.py\"\x7d,\"tool\":\"read\"\x7d"

def plainJson : JsonText where
  dumps value := if value = readCall then readText else ""
  loads text := if text = readText then some readCall else none
  sha256 _ := "e63868113f41f01a962bfa5b1a3890340b17b8b18dfbfb85eea5beef2789410c"

def userMessage : Json := .map [("info", .map [("role", str "user")]), ("parts", .list [])]

/-- An answer with one finished call. -/
def readMessage : Json :=
  .map [("info", .map [("role", str "assistant")]),
    ("parts", .list [.map [("type", str "tool"), ("tool", str "read"),
      ("state", .map [("status", str "completed"),
        ("input", .map [("filePath", str "run.py")])])]])]

def twoCalls : WatchSettings := ⟨"3600", 2, 250⟩

theorem judges_turn_iff_first_turn :
    JudgesTurn plainJson twoCalls [userMessage, readMessage, readMessage] ↔
      ¬OlderCallsDecide plainJson twoCalls [userMessage, readMessage, readMessage] ∧
        ¬OlderCallsRaise plainJson twoCalls [userMessage, readMessage, readMessage] :=
  judges_turn_iff (by decide)

/-- A turn without any call is aborted for the calls of the turn before it. -/
theorem new_turn_aborted : 1 < twoCalls.repeatedToolLimit ∧
    ¬ JudgesTurn plainJson twoCalls [userMessage, readMessage, readMessage, userMessage] := by
  refine ⟨by decide, fun hJudges => ?_⟩
  have hAborted : (inspect plainJson twoCalls
      ⟨false, some (.list [userMessage, readMessage, readMessage, userMessage])⟩).map
        TurnAbort.failureClass = some "repeated_tool_loop" := by
    decide +kernel
  obtain ⟨abort, hAbort, hClass⟩ := map_eq_some_iff.mp hAborted
  obtain ⟨signatures, hSignatures, hLong, -⟩ := hJudges.mp ⟨abort, hAbort, hClass⟩
  have hNone : terminalToolSignatures plainJson
      (currentTurn [userMessage, readMessage, readMessage, userMessage]) = some [] := by
    decide +kernel
  obtain rfl := Option.some.inj hSignatures
  exact absurd hLong (by decide)

end Glasslab.Engine.TurnWatch
