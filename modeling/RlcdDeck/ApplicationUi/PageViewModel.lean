import RlcdDeck.AiSnapshot.Projection
import RlcdDeck.ApplicationUi.LocalClock
import RlcdDeck.Json.Print

/-!
# The page of a provider

The model of `deck_ai_page_view_model.cpp`: the selection of a provider and the text of its page.
What `std::snprintf` writes into the arrays for a time, a temperature, a duration or a count always
has room there.
-/

namespace RlcdDeck.ApplicationUi

open AiSnapshot (ProviderStatus Confidence SessionState QuotaProjection SessionProjection
  ProviderProjection PagesProjection CodexProjection cString textField timezoneCapacity
  errorCodeCapacity)
open Json (Bytes bytes decimalText)

/-- `deck_ai_page_wifi_state_t`. -/
inductive WifiState where
  | unavailable
  | disconnected
  | connected

/-- `deck_ai_page_companion_state_t`. -/
inductive CompanionState where
  | unpaired
  | offline
  | connecting
  | online
  deriving DecidableEq

/-- `deck_ai_page_snapshot_state_t`. -/
inductive SnapshotState where
  | empty
  | fresh
  | stale
  | unavailable
  deriving DecidableEq

/-- `deck_ai_page_view_model_t`. -/
structure PageModel where
  active : Bool := false
  rtcAvailable : Bool := false
  rtcHour : UInt8 := 0
  rtcMinute : UInt8 := 0
  temperatureAvailable : Bool := false
  calibratedTemperatureTenthsC : Int16 := 0
  wifiState : WifiState := .unavailable
  wifiSignalBars : UInt8 := 0
  companionState : CompanionState := .unpaired
  snapshotState : SnapshotState := .empty
  trustedUtcMs : UInt64 := 0
  codex : CodexProjection := { hasTimezone := false, timezone := textField timezoneCapacity [] }
  pages : PagesProjection :=
    { hasTimezone := false, timezone := textField timezoneCapacity [], providers := [] }
  selectedProvider : ℕ := 0
  configurationHint : Bool := false

/-! ### The selection -/

/-- `DECK_AI_SNAPSHOT_MAX_PROVIDERS`. -/
def maximumProviders : ℕ := 8

/-- `DECK_AI_SNAPSHOT_MAX_WINDOWS`. -/
def maximumWindows : ℕ := 4

/-- The provider that is selected, if there is one. -/
def PageModel.selected (model : PageModel) : Option ProviderProjection :=
  model.pages.providers[model.selectedProvider]?

/-- The text of `selected_id`. -/
def PageModel.selectedId (model : PageModel) : Bytes :=
  if model.configurationHint = true then []
  else (model.selected.map fun provider => cString provider.providerId).getD []

/-- `deck_ai_page_view_model_apply_pages`: `none` where it answers false. -/
def PageModel.applyPages (model : PageModel) (pages : PagesProjection) : Option PageModel :=
  if maximumProviders < pages.providers.length then none
  else
    let selectedId := model.selectedId
    let next := { model with pages := pages, selectedProvider := 0 }
    if pages.providers.length = 0 then some { next with configurationHint := true }
    else if model.configurationHint = true ∧ pages.providers.length = 1 then some next
    else
      let next := { next with configurationHint := false }
      match pages.providers.findIdx? fun provider =>
          selectedId ≠ [] ∧ selectedId = cString provider.providerId with
      | some index => some { next with selectedProvider := index }
      | none =>
        match pages.providers.findIdx? fun provider =>
            cString provider.providerId = bytes "codex" with
        | some index => some { next with selectedProvider := index }
        | none => some next

/-- `deck_ai_page_view_model_next`. -/
def PageModel.next (model : PageModel) : PageModel :=
  if model.pages.providers.length ≤ 1 then
    { model with selectedProvider := 0, configurationHint := !model.configurationHint }
  else
    { model with
      configurationHint := false
      selectedProvider := (model.selectedProvider + 1) % model.pages.providers.length }

/-! ### Texts -/

/-- `DECK_AI_PAGE_MAX_LINES`. -/
def pageMaxLines : ℕ := 13

/-- `DECK_AI_PAGE_MAX_SESSION_NAME_CELLS`. -/
def maxSessionNameCells : ℕ := 27

/-- `kDivider`. -/
def divider : Bytes := List.replicate 40 0x2d

/-- `'\n'`. -/
def newline : Bytes := [0x0a]

/-- `Writer`, whose size is that of its text. -/
structure Writer where
  text : Bytes
  capacity : ℕ
  lines : ℕ

/-- `append` of a formatted text; the NUL behind it needs room as well. -/
def append (writer : Writer) (text : Bytes) : Option Writer :=
  if writer.capacity ≤ writer.text.length then none
  else if writer.capacity - writer.text.length ≤ text.length then none
  else
    let lines := writer.lines + text.count 0x0a
    if lines ≤ pageMaxLines then some { writer with text := writer.text ++ text, lines := lines }
    else none

/-- `utf8_sequence_size`. -/
def utf8SequenceSize (first : UInt8) : ℕ :=
  if first < 0x80 then 1
  else if first &&& 0xe0 = 0xc0 then 2
  else if first &&& 0xf0 = 0xe0 then 3
  else if first &&& 0xf8 = 0xf0 then 4
  else 0

/-- A lower-case letter is made a capital. -/
def upperCase (character : UInt8) : UInt8 :=
  if 0x61 ≤ character ∧ character ≤ 0x7a then character - 0x20 else character

/-- The loop of `display_text`, which takes one byte or more in every turn. -/
def displayTextLoop (capacity maximumCells : ℕ) (uppercaseAscii : Bool) :
    (fuel written cells : ℕ) → Bytes → Option Bytes
  | _, _, _, [] => some []
  | 0, _, _, _ :: _ => none
  | fuel + 1, written, cells, first :: input =>
    let sequence := utf8SequenceSize first
    if sequence = 0 then none
    else
      let continuation := input.take (sequence - 1)
      if continuation.length < sequence - 1 ∨ ∃ byte ∈ continuation, byte &&& 0xc0 ≠ 0x80 then none
      else
        let width := if sequence = 1 then 1 else 2
        if maximumCells < cells + width then some []
        else if capacity ≤ written + sequence then none
        else
          let character :=
            if sequence = 1 ∧ uppercaseAscii = true then [upperCase first]
            else first :: continuation
          (character ++ ·) <$> displayTextLoop capacity maximumCells uppercaseAscii fuel
            (written + sequence) (cells + width) (input.drop (sequence - 1))

/-- `display_text`, into an array of `capacity` bytes. -/
def displayText (input : Bytes) (capacity maximumCells : ℕ) (uppercaseAscii : Bool) :
    Option Bytes :=
  match displayTextLoop capacity maximumCells uppercaseAscii input.length 0 0 input with
  | none | some [] => none
  | some text => some text

/-- `confidence_name`. -/
def confidenceName : Confidence → Bytes
  | .verified => bytes "VERIFIED"
  | .inferred => bytes "INFERRED"
  | .unavailable => bytes "UNAVAILABLE"

/-- `provider_status_name`. -/
def providerStatusName : ProviderStatus → Bytes
  | .ok => bytes "OK"
  | .degraded => bytes "DEGRADED"
  | .unavailable => bytes "UNAVAILABLE"

/-- `session_state_name`. -/
def sessionStateName : SessionState → Bytes
  | .running => bytes "RUNNING"
  | .waitingApproval => bytes "WAITING APPROVAL"
  | .waitingInput => bytes "WAITING INPUT"
  | .completed => bytes "COMPLETED"
  | .failed => bytes "FAILED"
  | .recent => bytes "RECENT"
  | .ended => bytes "ENDED"
  | .unknown => bytes "UNKNOWN"
  | .unavailable => bytes "UNAVAILABLE"

/-- `%02u`. -/
def twoDigits (value : ℕ) : Bytes :=
  if value < 10 then 0x30 :: decimalText value else decimalText value

/-- `%-8s`. -/
def padded (text : Bytes) : Bytes := text ++ List.replicate (8 - text.length) 0x20

/-- `compact_count`. -/
def compactCount (value : ℕ) : Bytes :=
  if 1000000000 ≤ value then
    decimalText (value / 1000000000) ++ bytes "." ++ decimalText (value / 100000000 % 10) ++
      bytes "B"
  else if 1000000 ≤ value then
    decimalText (value / 1000000) ++ bytes "." ++ decimalText (value / 100000 % 10) ++ bytes "M"
  else if 100000 ≤ value then decimalText (value / 1000) ++ bytes "K"
  else if 1000 ≤ value then
    decimalText (value / 1000) ++ bytes "." ++ decimalText (value / 100 % 10) ++ bytes "K"
  else decimalText value

/-- `duration_text`. -/
def durationText (seconds : ℕ) : Bytes :=
  if 86400 ≤ seconds then
    let days := seconds / 86400
    if 999 < days then bytes "999d+"
    else decimalText days ++ bytes "d" ++ twoDigits (seconds / 3600 % 24) ++ bytes "h"
  else if 3600 ≤ seconds then
    decimalText (seconds / 3600) ++ bytes "h" ++ twoDigits (seconds / 60 % 60) ++ bytes "m"
  else if 60 ≤ seconds then decimalText (seconds / 60) ++ bytes "m"
  else decimalText seconds ++ bytes "s"

/-! ### The status -/

/-- The name in an array of a time zone. -/
def timezoneName (array : Bytes) : String :=
  String.ofList ((cString array).map fun c => Char.ofNat c.toNat)

/-- `time` of `append_status`. -/
def PageModel.timeText (model : PageModel) : Bytes :=
  let timezone :=
    if model.pages.hasTimezone = true then some model.pages.timezone
    else if model.codex.hasTimezone = true then some model.codex.timezone
    else none
  match timezone.bind fun array => localTimeFromUtc model.trustedUtcMs (timezoneName array) with
  | some (hour, minute) => twoDigits hour.toNat ++ bytes ":" ++ twoDigits minute.toNat
  | none =>
    if model.rtcAvailable = true ∧ model.rtcHour ≤ 23 ∧ model.rtcMinute ≤ 59 then
      twoDigits model.rtcHour.toNat ++ bytes ":" ++ twoDigits model.rtcMinute.toNat
    else bytes "--:--"

/-- `temperature` of `append_status`. -/
def PageModel.temperatureText (model : PageModel) : Bytes :=
  if model.temperatureAvailable = true then
    let signedValue := model.calibratedTemperatureTenthsC.toInt
    let magnitude := signedValue.natAbs
    (if signedValue < 0 then bytes "-" else bytes "+") ++ decimalText (magnitude / 10) ++
      bytes "." ++ decimalText (magnitude % 10) ++ bytes "C"
  else bytes "--.-C"

/-- `wifi` of `append_status`. -/
def PageModel.wifiText (model : PageModel) : Bytes :=
  match model.wifiState with
  | .connected =>
    if 1 ≤ model.wifiSignalBars ∧ model.wifiSignalBars ≤ 4 then
      decimalText model.wifiSignalBars.toNat ++ bytes "/4"
    else bytes "--"
  | .disconnected => bytes "OFF"
  | .unavailable => bytes "--"

/-- `companion` of `append_status`. -/
def companionName : CompanionState → Bytes
  | .online => bytes "ON"
  | .connecting => bytes "LINK"
  | .offline => bytes "OFF"
  | .unpaired => bytes "NONE"

/-- `append_status`. -/
def appendStatus (model : PageModel) (writer : Writer) : Option Writer :=
  append writer (model.timeText ++ bytes "  " ++ model.temperatureText ++ bytes "  WIFI " ++
    model.wifiText ++ bytes "  AGENT " ++ companionName model.companionState ++ newline ++
    divider ++ newline)

/-! ### Windows -/

/-- `bar` of `append_window`. -/
def windowBar (basisPoints : ℕ) : Bytes :=
  let filled := min ((basisPoints + 500) / 1000) 10
  List.replicate filled 0x23 ++ List.replicate (10 - filled) 0x2d

/-- `timing` of `append_window`. -/
def windowTiming (window : QuotaProjection) (nowUtcMs : UInt64) : Bytes :=
  let minutesText :=
    match window.windowMinutes with
    | none => []
    | some minutes =>
      if minutes.toNat % 1440 = 0 then decimalText (minutes.toNat / 1440) ++ bytes "d"
      else durationText (minutes.toNat * 60)
  match window.resetsAtUnixMs with
  | none => minutesText
  | some resetsAt =>
    if nowUtcMs < resetsAt then
      bytes "@" ++ durationText ((resetsAt.toNat - nowUtcMs.toNat) / 1000)
    else minutesText

/-- `append_window`. -/
def appendWindow (nowUtcMs : UInt64) (window : QuotaProjection) (writer : Writer) :
    Option Writer :=
  let shown :=
    match window.remainingBasisPoints, window.usedBasisPoints with
    | some remaining, _ => some (remaining, bytes "R")
    | none, some used => some (used, bytes "U")
    | none, none => none
  match shown with
  | none => some writer
  | some (basisPoints, qualifier) =>
    match displayText (cString window.name) 10 8 true with
    | none => none
    | some name =>
      let timing := windowTiming window nowUtcMs
      append writer (padded name ++ bytes "[" ++ windowBar basisPoints.toNat ++ bytes "] " ++
        qualifier ++ decimalText (basisPoints.toNat / 100) ++ bytes "%" ++
        (if timing = [] then [] else bytes " " ++ timing) ++ newline)

/-! ### The page of a provider -/

/-- The lines of `append_provider_page` that name the provider and its status. -/
def appendProviderHeading (model : PageModel) (provider : ProviderProjection) (writer : Writer) :
    Option Writer :=
  match displayText (cString provider.displayName) 128 24 true with
  | none => none
  | some name =>
    (append writer (name ++ newline)).bind fun writer =>
      let status :=
        match model.snapshotState with
        | .stale => bytes "STALE"
        | .unavailable => bytes "UNAVAILABLE"
        | _ => providerStatusName provider.status
      append writer (status ++ bytes " / " ++ confidenceName provider.confidence ++
        (if provider.experimental = true then bytes " / EXPERIMENTAL" else []) ++ newline)

/-- The line that says when the provider was updated. -/
def appendUpdated (model : PageModel) (provider : ProviderProjection) (writer : Writer) :
    Option Writer :=
  match provider.updatedAtUnixMs with
  | some updatedAt =>
    if updatedAt ≤ model.trustedUtcMs then
      append writer (bytes "UPDATED " ++
        durationText ((model.trustedUtcMs.toNat - updatedAt.toNat) / 1000) ++ bytes " AGO" ++
        newline)
    else append writer (bytes "UPDATED --" ++ newline)
  | none => append writer (bytes "UPDATED --" ++ newline)

/-- The line of the balance, with `metric_line_limit`; the sum before the division may wrap. -/
def appendBalance (metricLineLimit : ℕ) (provider : ProviderProjection) (writer : Writer) :
    Option Writer :=
  match provider.balanceAmountMicros with
  | none => some writer
  | some amount =>
    if writer.lines < metricLineLimit then
      let cents := ((amount + 5000) / 10000).toNat
      append writer (bytes "BAL " ++ decimalText (cents / 100) ++ bytes "." ++
        twoDigits (cents % 100) ++ bytes " " ++ cString provider.balanceCurrency ++ newline)
    else some writer

/-- The loop over the windows, up to `metric_line_limit`. -/
def appendWindows (metricLineLimit : ℕ) (nowUtcMs : UInt64) :
    List QuotaProjection → Writer → Option Writer
  | [], writer => some writer
  | window :: windows, writer =>
    if writer.lines < metricLineLimit then
      (appendWindow nowUtcMs window writer).bind (appendWindows metricLineLimit nowUtcMs windows)
    else some writer

/-- The line of the tokens. -/
def appendTotal (totalTokens : Option UInt64) (writer : Writer) : Option Writer :=
  match totalTokens with
  | none => some writer
  | some tokens => append writer (bytes "TOKEN " ++ compactCount tokens.toNat ++ newline)

/-- The line of the error. -/
def appendProblem (provider : ProviderProjection) (writer : Writer) : Option Writer :=
  if provider.hasError = true ∧ writer.lines < pageMaxLines - 2 then
    match displayText (cString provider.errorCode) errorCodeCapacity (errorCodeCapacity - 1)
        true with
    | none => none
    | some problem => append writer (bytes "ERROR " ++ problem ++ newline)
  else some writer

/-- The last two lines. -/
def appendKey (writer : Writer) : Option Writer :=
  append writer (divider ++ newline ++ bytes "KEY: NEXT  TX DISARMED")

/-- `append_provider_page`. -/
def appendProviderPage (model : PageModel) (provider : ProviderProjection) (writer : Writer) :
    Option Writer :=
  (appendProviderHeading model provider writer).bind fun writer =>
    if model.snapshotState = .unavailable then
      (if model.companionState = .offline then append writer (bytes "AGENT OFFLINE" ++ newline)
        else some writer).bind fun writer =>
          append writer (bytes "NO CURRENT AI DATA" ++ newline ++ divider ++ newline ++
            bytes "KEY: NEXT  TX DISARMED")
    else
      let metricLineLimit := pageMaxLines - 2 - (if provider.hasError = true then 1 else 0)
      (appendUpdated model provider writer).bind fun writer =>
        (appendBalance metricLineLimit provider writer).bind fun writer =>
          (appendWindows metricLineLimit model.trustedUtcMs provider.windows writer).bind
            fun writer =>
              (if writer.lines < metricLineLimit then appendTotal provider.totalTokens writer
                else some writer).bind fun writer =>
                  (appendProblem provider writer).bind appendKey

/-! ### The page of Codex -/

/-- `append_configuration_hint`. -/
def appendConfigurationHint (writer : Writer) : Option Writer :=
  append writer (bytes "ADD AI PROVIDER" ++ newline ++ bytes "OPEN COMPANION WEB" ++ newline ++
    bytes "WEB ON COMPUTER" ++ newline ++ bytes "NO EXTRA PROVIDERS" ++ newline ++
    bytes "KEY: CODEX" ++ newline ++ bytes "TX DISARMED")

/-- The name of a session. -/
def sessionName (session : SessionProjection) : Option Bytes :=
  if session.hasDisplayName = true then
    displayText (cString session.displayName) 96 maxSessionNameCells true
  else
    let sessionId := cString session.sessionId
    some (bytes "SESSION " ++ sessionId.drop (sessionId.length - 8))

/-- The duration of a session. -/
def appendDuration (durationSeconds : Option UInt32) (writer : Writer) : Option Writer :=
  match durationSeconds with
  | none => some writer
  | some seconds => append writer (bytes " / " ++ durationText seconds.toNat)

/-- A text behind a slash, unless it is the first: `has_metric` is set. -/
def appendMetric (text : Bytes) : Writer × Bool → Option (Writer × Bool)
  | (writer, hasMetric) =>
    (append writer ((if hasMetric = true then bytes " / " else []) ++ text)).map (·, true)

/-- The tokens of a turn. -/
def appendTurnTokens (turnTokens : Option UInt64) (line : Writer × Bool) :
    Option (Writer × Bool) :=
  match turnTokens with
  | none => some line
  | some tokens => appendMetric (compactCount tokens.toNat ++ bytes " TOK") line

/-- The context that is used. -/
def appendContextUsed (contextUsedBasisPoints : Option UInt16) (line : Writer × Bool) :
    Option (Writer × Bool) :=
  match contextUsedBasisPoints with
  | none => some line
  | some used => appendMetric (bytes "CTX " ++ decimalText (used.toNat / 100) ++ bytes "%") line

/-- The number of the other sessions. -/
def appendOtherSessions (sessionCount : ℕ) (line : Writer × Bool) : Option (Writer × Bool) :=
  if 1 < sessionCount then
    appendMetric (bytes "+" ++ decimalText (sessionCount - 1) ++ bytes " SESS") line
  else some line

/-- `append_session`. -/
def appendSession (codex : CodexProjection) (writer : Writer) : Option Writer :=
  let session := codex.featuredSession
  if session.present = false then
    append writer (bytes "NO CODEX SESSION" ++ newline ++ bytes "TX DISARMED")
  else
    match sessionName session with
    | none => none
    | some name =>
      (append writer (name ++ newline ++ sessionStateName session.state ++ bytes " / " ++
        confidenceName session.confidence)).bind fun writer =>
          (appendDuration session.durationSeconds writer).bind fun writer =>
            (append writer newline).bind fun writer =>
              (appendTurnTokens session.turnTokens (writer, false)).bind fun line =>
                (appendContextUsed session.contextUsedBasisPoints line).bind fun line =>
                  (appendOtherSessions codex.sessionCount line).bind fun (writer, hasMetric) =>
                    append writer ((if hasMetric = true then newline else []) ++
                      bytes "TX DISARMED")

/-- The reason why there is no data of Codex. -/
def noCodexReason : CompanionState → Bytes
  | .offline => bytes "AGENT OFFLINE"
  | .unpaired => bytes "NO ACTIVE COMPANION"
  | _ => bytes "NO CODEX DATA"

/-- The page without data of Codex. -/
def appendNoCodex (model : PageModel) (writer : Writer) : Option Writer :=
  (append writer (bytes "CODEX  UNAVAILABLE" ++ newline)).bind fun writer =>
    (append writer (noCodexReason model.companionState ++ newline)).bind fun writer =>
      append writer (bytes "NO CURRENT AI DATA" ++ newline ++ bytes "TX DISARMED")

/-- The page of Codex, below its first line. -/
def appendCodexBody (model : PageModel) (writer : Writer) : Option Writer :=
  (model.codex.windows.foldlM (fun writer window => appendWindow model.trustedUtcMs window writer)
    writer).bind fun writer =>
      (appendTotal model.codex.totalTokens writer).bind fun writer =>
        (append writer (divider ++ newline)).bind (appendSession model.codex)

/-- The page of Codex. -/
def appendCodexPage (model : PageModel) (writer : Writer) : Option Writer :=
  let confidence := confidenceName model.codex.providerConfidence
  if model.snapshotState = .unavailable ∨ model.codex.providerPresent = false then
    appendNoCodex model writer
  else if model.snapshotState = .stale then
    (append writer (bytes "CODEX  STALE / " ++ confidence ++ newline)).bind (appendCodexBody model)
  else
    match model.codex.providerStatus with
    | .degraded =>
      (append writer (bytes "CODEX  DEGRADED / " ++ confidence ++ newline)).bind
        (appendCodexBody model)
    | .unavailable =>
      append writer (bytes "CODEX  UNAVAILABLE / " ++ confidence ++ newline ++
        bytes "NO CURRENT AI DATA" ++ newline ++ bytes "TX DISARMED")
    | .ok =>
      (append writer (bytes "CODEX  " ++ confidence ++ newline)).bind (appendCodexBody model)

/-- `deck_ai_page_view_model_format` into a buffer of `capacity` bytes: the text before the NUL. -/
def PageModel.format (model : PageModel) (capacity : ℕ) : Option Bytes :=
  if capacity = 0 ∨ model.active = false then none
  else if maximumWindows < model.codex.windows.length then none
  else
    ((appendStatus model ⟨[], capacity, 1⟩).bind fun writer =>
      if model.configurationHint = true then appendConfigurationHint writer
      else if model.pages.providers.length = 0 then appendCodexPage model writer
      else if maximumProviders < model.pages.providers.length then none
      else
        match model.selected with
        | none => none
        | some provider =>
          if cString provider.providerId = bytes "codex" then appendCodexPage model writer
          else appendProviderPage model provider writer).map (·.text)

end RlcdDeck.ApplicationUi
