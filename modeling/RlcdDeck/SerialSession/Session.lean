import RlcdDeck.Counter.Nonzero

/-!
# The serial session state machine

The model of `deck_serial_session.cpp`: who may transmit to the target UART
(`DISARMED → USB_TX ↔ WEB_TX`), the Web lease and its deadline, and the three fences that keep
delayed commands from taking effect (the control epoch, the Web transport epoch and the request
id).

The hardware adapter is a record of functions over a context `σ`, as the source's table of
function pointers with its `void *context`.  Nothing is assumed about what they answer, so an
installation or an uninstallation may fail at any call.  Sessions and results are never null
here; the null checks of the source are left out.
-/

namespace RlcdDeck.SerialSession

open Counter

/-- `deck_serial_state_t`. -/
inductive SerialState where
  | disarmed
  | usbTx
  | webTx
  deriving DecidableEq

/-- `deck_serial_command_code_t`. -/
inductive CommandCode where
  | applied
  | noChange
  | staleSession
  | staleRequest
  | uartInstallFailed
  | uartUninstallFailed
  | invalid
  deriving DecidableEq

/-- `deck_serial_command_result_t`. -/
structure CommandResult where
  code : CommandCode
  state : SerialState
  sessionId : UInt64
  requestId : UInt64
  ownerGeneration : UInt64
  leaseId : UInt64
  deriving DecidableEq

/-- `deck_serial_hardware_adapter_t`, over the context `σ`. -/
structure HardwareAdapter (σ : Type*) where
  installUart : σ → UInt64 → Bool × σ
  uninstallUart : σ → Bool × σ
  setTxHighImpedance : σ → σ
  clearUsbTx : σ → σ
  clearWebTx : σ → σ

/-- The fields of `deck_serial_session` other than the adapter. -/
structure Session where
  leaseTimeoutMs : UInt64
  state : SerialState := .disarmed
  sessionId : UInt64 := 0
  ownerGeneration : UInt64 := 0
  leaseId : UInt64 := 0
  leaseDeadlineMs : UInt64 := 0
  usbTxRejected : UInt64 := 0
  controlEpoch : UInt64 := 0
  webTransportEpoch : UInt64 := 0
  lastRequestId : UInt64 := 0
  lastRequestResult : CommandResult := ⟨.applied, .disarmed, 0, 0, 0, 0⟩
  uartInstallFailures : UInt32 := 0
  uartInstallFailed : Bool := false
  uartInstalled : Bool := false
  hasLastRequest : Bool := false

/-- A session together with the context its adapter acts on. -/
structure Device (σ : Type*) where
  session : Session
  context : σ

/-- `deck_serial_session_snapshot_t`. -/
structure Snapshot where
  state : SerialState
  sessionId : UInt64
  ownerGeneration : UInt64
  leaseId : UInt64
  leaseDeadlineMs : UInt64
  usbTxRejected : UInt64
  uartInstallFailures : UInt32
  uartInstallFailed : Bool
  uartInstalled : Bool
  deriving DecidableEq

/-! ### Helpers -/

def incrementNonzero (value : UInt64) : UInt64 :=
  nonzeroNext value

/-- The source tests `left > UINT64_MAX - right`; the sum of the naturals says the same. -/
def saturatingAdd (left right : UInt64) : UInt64 :=
  if 0xffffffffffffffff < left.toNat + right.toNat then 0xffffffffffffffff else left + right

def fillResult (session : Session) (code : CommandCode) (requestId : UInt64) : CommandResult :=
  { code, state := session.state, sessionId := session.sessionId, requestId,
    ownerGeneration := session.ownerGeneration, leaseId := session.leaseId }

def clearWebLease (session : Session) : Session :=
  { session with leaseId := 0, leaseDeadlineMs := 0 }

variable {σ : Type*} (hw : HardwareAdapter σ)

def returnToUsb (d : Device σ) : Device σ :=
  if d.session.state ≠ .webTx then d
  else
    { session :=
        { clearWebLease d.session with
          state := .usbTx
          ownerGeneration := incrementNonzero d.session.ownerGeneration }
      context := hw.clearWebTx d.context }

def expireWebLease (d : Device σ) (nowMs : UInt64) : Device σ :=
  if d.session.state = .webTx ∧ d.session.leaseDeadlineMs ≤ nowMs then returnToUsb hw d else d

/-- Revokes the owner, then clears both source queues and uninstalls the UART; the answer is
whether nothing was left installed.  The session is disarmed even if it was. -/
def disarm (d : Device σ) : Bool × Device σ :=
  let installed := d.session.uartInstalled
  let stateChanged := d.session.state ≠ .disarmed
  let context := hw.clearWebTx (hw.clearUsbTx d.context)
  let uninstalled := if installed then hw.uninstallUart context else (true, context)
  (uninstalled.1,
    { session :=
        { clearWebLease d.session with
          state := .disarmed
          uartInstalled := installed && !uninstalled.1
          ownerGeneration :=
            if stateChanged then incrementNonzero d.session.ownerGeneration
            else d.session.ownerGeneration
          hasLastRequest := false
          lastRequestId := 0 }
      context := hw.setTxHighImpedance uninstalled.2 })

/-! ### The operations -/

/-- `deck_serial_session_create`; `none` for a zero lease timeout. -/
def create (webLeaseTimeoutMs : UInt64) (context : σ) : Option (Device σ) :=
  if webLeaseTimeoutMs = 0 then none
  else some ⟨{ leaseTimeoutMs := webLeaseTimeoutMs }, hw.setTxHighImpedance context⟩

/-- The part of `enter` that arms a disarmed session whose UART is not installed. -/
def install (d : Device σ) : CommandResult × Device σ :=
  let nextSessionId := incrementNonzero d.session.sessionId
  let installed := hw.installUart d.context nextSessionId
  if installed.1 = false then
    let uninstalled := hw.uninstallUart (hw.clearWebTx (hw.clearUsbTx installed.2))
    let session :=
      { d.session with
        uartInstalled := !uninstalled.1
        uartInstallFailures :=
          if d.session.uartInstallFailures ≠ 0xffffffff then d.session.uartInstallFailures + 1
          else d.session.uartInstallFailures
        uartInstallFailed := true }
    (fillResult session .uartInstallFailed 0, ⟨session, hw.setTxHighImpedance uninstalled.2⟩)
  else
    let session :=
      clearWebLease
        { d.session with
          uartInstallFailed := false
          uartInstalled := true
          sessionId := nextSessionId
          ownerGeneration := incrementNonzero d.session.ownerGeneration
          state := .usbTx
          usbTxRejected := 0
          hasLastRequest := false
          lastRequestId := 0 }
    (fillResult session .applied 0, ⟨session, installed.2⟩)

def enter (d : Device σ) (controlEpoch : UInt64) : CommandResult × Device σ :=
  if controlEpoch ≠ d.session.controlEpoch then (fillResult d.session .staleRequest 0, d)
  else if d.session.state ≠ .disarmed then (fillResult d.session .noChange 0, d)
  else if d.session.uartInstalled then
    let uninstalled := hw.uninstallUart d.context
    if uninstalled.1 = false then
      (fillResult d.session .uartUninstallFailed 0,
        ⟨d.session, hw.setTxHighImpedance uninstalled.2⟩)
    else install hw ⟨{ d.session with uartInstalled := false }, uninstalled.2⟩
  else install hw d

def exit (d : Device σ) (controlEpoch : UInt64) : CommandResult × Device σ :=
  if controlEpoch < d.session.controlEpoch then (fillResult d.session .staleRequest 0, d)
  else
    let d : Device σ := { d with session := { d.session with controlEpoch } }
    if d.session.state = .disarmed ∧ d.session.uartInstalled = false then
      (fillResult d.session .noChange 0, d)
    else
      let disarmed := disarm hw d
      let code : CommandCode :=
        if disarmed.1 = false then .uartUninstallFailed
        else if d.session.state ≠ .disarmed then .applied
        else .noChange
      (fillResult disarmed.2.session code 0, disarmed.2)

/-- The transition a granted Web request makes, from `USB_TX` or from an earlier lease. -/
def enableWeb (d : Device σ) (requestId nowMs : UInt64) : Device σ :=
  { session :=
      { d.session with
        state := .webTx
        ownerGeneration := incrementNonzero d.session.ownerGeneration
        leaseId := requestId
        leaseDeadlineMs := saturatingAdd nowMs d.session.leaseTimeoutMs }
    context := if d.session.state = .usbTx then hw.clearUsbTx d.context else d.context }

/-- The last result may be replayed: no transition happened since. -/
def transitionStillCurrent (s : Session) : Bool :=
  s.ownerGeneration == s.lastRequestResult.ownerGeneration &&
    s.state == s.lastRequestResult.state && s.leaseId == s.lastRequestResult.leaseId

/-- The request passed every fence: it decides the owner and becomes the last request. -/
def acceptRequest (d : Device σ) (requestId : UInt64) (enable : Bool) (nowMs : UInt64) :
    CommandResult × Device σ :=
  let d' := if enable then enableWeb hw d requestId nowMs else returnToUsb hw d
  let code : CommandCode :=
    if d.session.state = d'.session.state ∧ enable = false then .noChange else .applied
  let result := fillResult d'.session code requestId
  (result,
    { d' with
      session :=
        { d'.session with
          lastRequestId := requestId, lastRequestResult := result, hasLastRequest := true } })

/-- `deck_serial_session_request_web_at_epoch`; `none` is the answer `false`. -/
def requestWebAtEpoch (d : Device σ) (webTransportEpoch sessionId requestId : UInt64)
    (enable : Bool) (nowMs : UInt64) : Option CommandResult × Device σ :=
  if requestId = 0 then (none, d)
  else if webTransportEpoch ≠ d.session.webTransportEpoch then
    (some (fillResult d.session .staleRequest requestId), d)
  else
    let d := expireWebLease hw d nowMs
    let s := d.session
    if s.state = .disarmed ∨ sessionId ≠ s.sessionId then
      (some (fillResult s .staleSession requestId), d)
    else if s.hasLastRequest = true ∧ requestId = s.lastRequestId then
      (some (if transitionStillCurrent s then s.lastRequestResult
        else fillResult s .staleRequest requestId), d)
    else if s.hasLastRequest = true ∧ requestId < s.lastRequestId then
      (some (fillResult s .staleRequest requestId), d)
    else
      let accepted := acceptRequest hw d requestId enable nowMs
      (some accepted.1, accepted.2)

def requestWeb (d : Device σ) (sessionId requestId : UInt64) (enable : Bool) (nowMs : UInt64) :
    Option CommandResult × Device σ :=
  requestWebAtEpoch hw d d.session.webTransportEpoch sessionId requestId enable nowMs

def revokeWebTransport (d : Device σ) (webTransportEpoch : UInt64) : CommandResult × Device σ :=
  if webTransportEpoch < d.session.webTransportEpoch then
    (fillResult d.session .staleRequest 0, d)
  else
    let previous := d.session.state
    let d : Device σ := returnToUsb hw { d with session := { d.session with webTransportEpoch } }
    let context := if previous ≠ .webTx then hw.clearWebTx d.context else d.context
    let session := { d.session with hasLastRequest := false, lastRequestId := 0 }
    (fillResult session (if previous = .webTx then .applied else .noChange) 0, ⟨session, context⟩)

def webActivity (d : Device σ) (sessionId leaseId nowMs : UInt64) : Bool × Device σ :=
  let d := expireWebLease hw d nowMs
  if d.session.state ≠ .webTx ∨ d.session.sessionId ≠ sessionId ∨ d.session.leaseId ≠ leaseId ∨
      leaseId = 0 then (false, d)
  else
    (true,
      { d with
        session :=
          { d.session with leaseDeadlineMs := saturatingAdd nowMs d.session.leaseTimeoutMs } })

def webDisconnect (d : Device σ) (sessionId leaseId : UInt64) : Bool × Device σ :=
  if d.session.state ≠ .webTx ∨ d.session.sessionId ≠ sessionId ∨ d.session.leaseId ≠ leaseId ∨
      leaseId = 0 then (false, d)
  else (true, returnToUsb hw d)

def acceptWebInput (s : Session) (sessionId leaseId : UInt64) : Bool :=
  s.state == .webTx && s.uartInstalled && sessionId != 0 && sessionId == s.sessionId &&
    leaseId != 0 && leaseId == s.leaseId

def acceptUsbInputGeneration (s : Session) (ownerGeneration byteCount : UInt64) :
    Bool × Session :=
  if s.state = .usbTx ∧ ownerGeneration ≠ 0 ∧ ownerGeneration = s.ownerGeneration then (true, s)
  else if s.state ≠ .disarmed ∧ byteCount ≠ 0 then
    (false, { s with usbTxRejected := saturatingAdd s.usbTxRejected byteCount })
  else (false, s)

def acceptUsbInput (s : Session) (byteCount : UInt64) : Bool × Session :=
  acceptUsbInputGeneration s s.ownerGeneration byteCount

def recordUsbRejection (s : Session) (byteCount : UInt64) : Bool × Session :=
  if byteCount = 0 ∨ s.state = .disarmed then (false, s)
  else (true, { s with usbTxRejected := saturatingAdd s.usbTxRejected byteCount })

def tick (d : Device σ) (nowMs : UInt64) : Device σ :=
  expireWebLease hw d nowMs

def snapshot (s : Session) : Snapshot :=
  { state := s.state, sessionId := s.sessionId, ownerGeneration := s.ownerGeneration,
    leaseId := s.leaseId, leaseDeadlineMs := s.leaseDeadlineMs,
    usbTxRejected := s.usbTxRejected, uartInstallFailures := s.uartInstallFailures,
    uartInstallFailed := s.uartInstallFailed, uartInstalled := s.uartInstalled }

/-! ### Runs -/

/-- One call of the session's interface. -/
inductive Op where
  | enter (controlEpoch : UInt64)
  | exit (controlEpoch : UInt64)
  | requestWeb (sessionId requestId : UInt64) (enable : Bool) (nowMs : UInt64)
  | requestWebAtEpoch (webTransportEpoch sessionId requestId : UInt64) (enable : Bool)
      (nowMs : UInt64)
  | revokeWebTransport (webTransportEpoch : UInt64)
  | webActivity (sessionId leaseId nowMs : UInt64)
  | webDisconnect (sessionId leaseId : UInt64)
  | acceptWebInput (sessionId leaseId : UInt64)
  | acceptUsbInput (byteCount : UInt64)
  | acceptUsbInputGeneration (ownerGeneration byteCount : UInt64)
  | recordUsbRejection (byteCount : UInt64)
  | tick (nowMs : UInt64)

/-- The session after one call. -/
def step (d : Device σ) : Op → Device σ
  | .enter e => (enter hw d e).2
  | .exit e => (exit hw d e).2
  | .requestWeb sid rid enable now => (requestWeb hw d sid rid enable now).2
  | .requestWebAtEpoch e sid rid enable now => (requestWebAtEpoch hw d e sid rid enable now).2
  | .revokeWebTransport e => (revokeWebTransport hw d e).2
  | .webActivity sid lid now => (webActivity hw d sid lid now).2
  | .webDisconnect sid lid => (webDisconnect hw d sid lid).2
  | .acceptWebInput _ _ => d
  | .acceptUsbInput n => { d with session := (acceptUsbInput d.session n).2 }
  | .acceptUsbInputGeneration g n =>
    { d with session := (acceptUsbInputGeneration d.session g n).2 }
  | .recordUsbRejection n => { d with session := (recordUsbRejection d.session n).2 }
  | .tick now => tick hw d now

/-- The session after a sequence of calls. -/
def run (d : Device σ) (ops : List Op) : Device σ :=
  ops.foldl (step hw) d

end RlcdDeck.SerialSession
