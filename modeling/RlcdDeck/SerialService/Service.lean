import RlcdDeck.SerialSession.Equiv.Ownership

/-!
# The serial service

The model of the transmit side of `deck_serial_service.cpp`: the owner task with its command
queue, the two input queues with their partially written blocks, and the tasks that fill them.
The session (`RlcdDeck.SerialSession`) runs over a `DataPath`, so that `clear_usb_tx`,
`install_target_uart` and the other adapter functions act on the queues.

The owner task takes one step at a time (`Service.ownerStep`), from one access to shared state
to the next, with a program counter between the steps; the input task and the callers of
`submit_web` and of the commands take theirs in between, in any order.  What the environment
decides (the clock, the driver, the bytes a UART write accepts) is in the step's `Inputs`.

Every ownership period has a number.  The fields `stampedIn`, `submittedIn`, `grantedIn`,
`authorityPeriod`, `snapshotPeriod` and `owners` record such numbers for the theorems only: no
definition branches on them.

Router, USB output, receive path and command results are left out: they do not reach the
transmitter.
-/

namespace RlcdDeck.SerialService

open SerialSession

/-! ### Data -/

/-- `DECK_SERIAL_ROUTER_BLOCK_BYTES`. -/
def blockBytes : ℕ := 256

/-- `kUsbInputQueueDepth`, `kWebInputQueueDepth` and `kCommandQueueDepth`. -/
def queueDepth : ℕ := 16

/-- `CommandKind`. -/
inductive CommandKind where
  | enter
  | exit
  | requestWeb
  | webActivity
  | webDisconnect
  | revokeWebTransport
  | stop
  deriving DecidableEq

structure Command where
  kind : CommandKind
  enable : Bool := false
  sessionId : UInt64 := 0
  requestId : UInt64 := 0
  leaseId : UInt64 := 0
  controlEpoch : UInt64 := 0
  deriving DecidableEq

structure UsbInputBlock where
  ownerGeneration : UInt64
  bytes : List UInt8
  /-- The period whose generation is the stamp. -/
  stampedIn : ℕ
  /-- The period in which the block was queued. -/
  submittedIn : ℕ
  deriving DecidableEq

structure WebInputBlock where
  sessionId : UInt64
  leaseId : UInt64
  bytes : List UInt8
  /-- The period of the snapshot that admitted the block. -/
  grantedIn : ℕ
  /-- The period in which the block was queued. -/
  submittedIn : ℕ
  deriving DecidableEq

/-- `pending_usb_input` with its offset and its authorization. -/
structure PendingUsb where
  block : UsbInputBlock
  offset : ℕ
  authorized : Bool

structure PendingWeb where
  block : WebInputBlock
  offset : ℕ

/-- Where `deck_serial_usb_bridge_pump_input` stands. -/
inductive UsbTask where
  | idle
  | ready
  | loaded (authorityGeneration : UInt64) (period : ℕ)
  deriving DecidableEq

/-- What one `install_target_uart` meets. -/
inductive InstallOutcome where
  | mutexTimeout
  | allocationFails
  | startFails (released : Bool)
  | started

/-- What one `uninstall_target_uart` meets. -/
inductive UninstallOutcome where
  | tasksRunning
  | driverKept
  | released (highImpedance : Bool)

/-- The part of `deck_serial_service` the adapter functions act on. -/
structure DataPath where
  usbInputBlocks : Option (List UsbInputBlock) := none
  webInputBlocks : Option (List WebInputBlock) := none
  pendingUsb : Option PendingUsb := none
  pendingWeb : Option PendingWeb := none
  usbInputAuthorityGeneration : UInt64 := 0
  authorityPeriod : ℕ := 0
  pendingUsbRejectedBytes : UInt64 := 0
  stopRequested : Bool := false
  usbTask : UsbTask := .idle
  /-- The outcomes of the driver calls of the current command. -/
  installOutcome : InstallOutcome := .mutexTimeout
  uninstallOutcomes : List UninstallOutcome := []

/-! ### The hardware adapter -/

def clearUsbInputState (p : DataPath) : DataPath :=
  { p with usbInputBlocks := p.usbInputBlocks.map fun _ => [], pendingUsb := none }

def clearWebInputState (p : DataPath) : DataPath :=
  { p with webInputBlocks := p.webInputBlocks.map fun _ => [], pendingWeb := none }

def releaseDataPathAllocations (p : DataPath) : DataPath :=
  { p with
    usbInputAuthorityGeneration := 0
    pendingUsbRejectedBytes := 0
    pendingUsb := none
    pendingWeb := none
    usbInputBlocks := none
    webInputBlocks := none
    stopRequested := false }

/-- `prepare_data_path`: refused while an earlier data path is still allocated. -/
def prepareDataPath (usbBridgeEnabled allocated : Bool) (p : DataPath) : Bool × DataPath :=
  if p.webInputBlocks.isSome then (false, p)
  else
    let p :=
      { p with
        usbInputAuthorityGeneration := 0, pendingUsbRejectedBytes := 0, stopRequested := false }
    if allocated then
      (true,
        { p with
          usbInputBlocks := if usbBridgeEnabled then some [] else none
          webInputBlocks := some [] })
    else (false, releaseDataPathAllocations p)

/-- `abort_data_path_start`: the tasks never ran; the allocations stay if a driver does. -/
def abortDataPathStart (released : Bool) (p : DataPath) : DataPath :=
  let p := { p with stopRequested := true, usbTask := .idle }
  if released then releaseDataPathAllocations p else p

def installTargetUart (usbBridgeEnabled : Bool) (p : DataPath) : Bool × DataPath :=
  match p.installOutcome with
  | .mutexTimeout => (false, p)
  | .allocationFails => (false, (prepareDataPath usbBridgeEnabled false p).2)
  | .startFails released =>
    let prepared := prepareDataPath usbBridgeEnabled true p
    if prepared.1 then (false, abortDataPathStart released prepared.2) else (false, prepared.2)
  | .started => prepareDataPath usbBridgeEnabled true p

/-- `uninstall_target_uart`: it needs the input task to have finished its block. -/
def uninstallTargetUart (p : DataPath) : Bool × DataPath :=
  let outcome := p.uninstallOutcomes.headD .tasksRunning
  let p := { p with stopRequested := true, uninstallOutcomes := p.uninstallOutcomes.tail }
  if p.usbTask ≠ .idle then (false, p)
  else
    match outcome with
    | .tasksRunning => (false, p)
    | .driverKept => (false, p)
    | .released highImpedance => (highImpedance, releaseDataPathAllocations p)

def adapter (usbBridgeEnabled : Bool) : HardwareAdapter DataPath where
  installUart p _ := installTargetUart usbBridgeEnabled p
  uninstallUart := uninstallTargetUart
  setTxHighImpedance p := p
  clearUsbTx := clearUsbInputState
  clearWebTx := clearWebInputState

/-! ### The service -/

/-- Where the owner task stands. -/
inductive Pc where
  | top
  | sync (before : Snapshot)
  | publishThenReceive
  | receive
  | process (command : Command)
  | fence (command : Command) (nowMs : UInt64)
  | apply (command : Command) (nowMs : UInt64)
  | resync (command : Command)
  | finish (command : Command)
  | rejections
  | web
  | usb
  | publishThenTop
  | halted

/-- A call of `submit_web` that passed the snapshot check and has not queued its block yet. -/
structure WebCaller where
  sessionId : UInt64
  leaseId : UInt64
  bytes : List UInt8
  grantedIn : ℕ

/-- A command that is stamped and not sent yet. -/
structure Outgoing where
  command : Command
  /-- `xQueueSendToFront`. -/
  toFront : Bool
  /-- The first `stop`, which takes its request back if the queue is full. -/
  firstStop : Bool := false

structure Service where
  usbBridgeEnabled : Bool
  device : Device DataPath
  latestSnapshot : Snapshot
  snapshotPeriod : ℕ := 0
  /-- `commands`, the front first. -/
  commands : List Command := []
  stopRequested : Bool := false
  controlEpoch : UInt64 := 0
  webTransportEpoch : UInt64 := 0
  completedWebRevokeEpoch : UInt64 := 0
  sending : List Outgoing := []
  webCallers : List WebCaller := []
  pc : Pc := .top
  /-- The owners so far, one for each ownership period; the last is the current one. -/
  owners : List TxOwner

/-- What the environment decides for one step of the owner task. -/
structure Inputs where
  nowMs : UInt64 := 0
  routerAlertChanged : Bool := false
  written : ℤ := 0
  install : InstallOutcome := .mutexTimeout
  uninstall : List UninstallOutcome := []

namespace Service

abbrev session (s : Service) : Session := s.device.session

abbrev path (s : Service) : DataPath := s.device.context

abbrev hw (s : Service) : HardwareAdapter DataPath := adapter s.usbBridgeEnabled

/-- The number of the current ownership period. -/
def period (s : Service) : ℕ := s.owners.length - 1

def setPath (s : Service) (p : DataPath) : Service :=
  { s with device := { s.device with context := p } }

/-- The history after the owner became (or stayed) `owner`. -/
def recordOwner (owners : List TxOwner) (owner : TxOwner) : List TxOwner :=
  if owners.getLast? = some owner then owners else owners ++ [owner]

/-- One call of the session's interface by the owner task. -/
def call (s : Service) (op : Op) : Service :=
  { s with
    device := step s.hw s.device op
    owners := recordOwner
      (recordOwner s.owners (expired s.hw s.device op).session.txOwner)
      (step s.hw s.device op).session.txOwner }

/-- `deck_serial_service_start`, up to the top of the owner's loop. -/
def start (usbBridgeEnabled : Bool) : Service :=
  let session : Session := { leaseTimeoutMs := 600000 }
  { usbBridgeEnabled, device := ⟨session, {}⟩, latestSnapshot := snapshot session,
    owners := [.nobody] }

/-! ### The owner task -/

def syncUsbInputAuthority (s : Service) : Service :=
  let authorized := s.session.state = .usbTx ∧ s.session.uartInstalled = true
  s.setPath
    { s.path with
      usbInputAuthorityGeneration := if authorized then s.session.ownerGeneration else 0
      authorityPeriod := s.period }

def publish (s : Service) : Service :=
  { s with latestSnapshot := snapshot s.session, snapshotPeriod := s.period }

/-- The commands that close the input authority while they run. -/
def fencesInput : CommandKind → Bool
  | .enter | .exit | .requestWeb | .webDisconnect | .revokeWebTransport | .stop => true
  | .webActivity => false

/-- The switch of `process_command`. -/
def applyCommand (s : Service) (c : Command) (nowMs : UInt64) : Service :=
  match c.kind with
  | .enter => s.call (.enter c.controlEpoch)
  | .exit => s.call (.exit c.controlEpoch)
  | .requestWeb =>
    if c.controlEpoch = s.webTransportEpoch then
      s.call (.requestWebAtEpoch c.controlEpoch c.sessionId c.requestId c.enable nowMs)
    else s
  | .webActivity => s.call (.webActivity c.sessionId c.leaseId nowMs)
  | .webDisconnect => s.call (.webDisconnect c.sessionId c.leaseId)
  | .revokeWebTransport =>
    { s.call (.revokeWebTransport c.controlEpoch) with
      completedWebRevokeEpoch := c.controlEpoch }
  | .stop => s.call (.exit c.controlEpoch)

inductive InputDrainResult where
  | idle
  | progress
  | stalled
  | rejected
  deriving DecidableEq

/-- Where transmitted bytes come from. -/
inductive Source where
  | usb (block : UsbInputBlock)
  | web (block : WebInputBlock)
  deriving DecidableEq

/-- The bytes `uart_tx_chars` accepted in one step. -/
structure Transmission where
  source : Source
  bytes : List UInt8
  deriving DecidableEq

/-- The outcome of `drain_usb_input` or `drain_web_input`. -/
structure Drained where
  result : InputDrainResult
  service : Service
  sent : Option Transmission := none

/-- Writes what the UART takes of an authorized block; `written` is its answer. -/
def writeUsb (s : Service) (p : PendingUsb) (written : ℤ) : Drained :=
  let remaining := p.block.bytes.length - p.offset
  if written < 0 ∨ (remaining : ℤ) < written then
    { result := .rejected, service := s.setPath { s.path with pendingUsb := none } }
  else if written = 0 then
    { result := .stalled, service := s.setPath { s.path with pendingUsb := some p } }
  else
    let offset := p.offset + written.toNat
    { result := .progress
      service := s.setPath
        { s.path with
          pendingUsb := if offset = p.block.bytes.length then none else some { p with offset } }
      sent := some ⟨.usb p.block, (p.block.bytes.drop p.offset).take written.toNat⟩ }

/-- Authorizes a pending block once, before its first byte. -/
def authorizeUsb (s : Service) (p : PendingUsb) (written : ℤ) : Drained :=
  if p.authorized then s.writeUsb p written
  else
    let op : Op := .acceptUsbInputGeneration p.block.ownerGeneration
      (UInt64.ofNat p.block.bytes.length)
    let accepted := (acceptUsbInputGeneration s.session p.block.ownerGeneration
      (UInt64.ofNat p.block.bytes.length)).1
    let s := s.call op
    if accepted then s.writeUsb { p with authorized := true } written
    else { result := .rejected, service := s.setPath { s.path with pendingUsb := none } }

def drainUsbInput (s : Service) (written : ℤ) : Drained :=
  match s.path.usbInputBlocks with
  | none => { result := .idle, service := s }
  | some queue =>
    match s.path.pendingUsb with
    | some p => s.authorizeUsb p written
    | none =>
      match queue with
      | [] => { result := .idle, service := s }
      | block :: rest =>
        let s := s.setPath { s.path with usbInputBlocks := some rest }
        if block.bytes.length = 0 ∨ blockBytes < block.bytes.length then
          { result := .rejected, service := s }
        else s.authorizeUsb ⟨block, 0, false⟩ written

/-- Checks the session and the lease before every write of a Web block. -/
def writeWeb (s : Service) (p : PendingWeb) (written : ℤ) : Drained :=
  let cleared := s.setPath { s.path with pendingWeb := none }
  let remaining := p.block.bytes.length - p.offset
  if acceptWebInput s.session p.block.sessionId p.block.leaseId = false then
    { result := .rejected, service := cleared }
  else if written < 0 ∨ (remaining : ℤ) < written then
    { result := .rejected, service := cleared }
  else if written = 0 then
    { result := .stalled, service := s.setPath { s.path with pendingWeb := some p } }
  else
    let offset := p.offset + written.toNat
    { result := .progress
      service := s.setPath
        { s.path with
          pendingWeb := if offset = p.block.bytes.length then none else some { p with offset } }
      sent := some ⟨.web p.block, (p.block.bytes.drop p.offset).take written.toNat⟩ }

def drainWebInput (s : Service) (written : ℤ) : Drained :=
  match s.path.webInputBlocks with
  | none => { result := .idle, service := s }
  | some queue =>
    match s.path.pendingWeb with
    | some p => s.writeWeb p written
    | none =>
      match queue with
      | [] => { result := .idle, service := s }
      | block :: rest =>
        let s := s.setPath { s.path with webInputBlocks := some rest }
        if block.bytes.length = 0 ∨ blockBytes < block.bytes.length then
          { result := .rejected, service := s }
        else s.writeWeb ⟨block, 0⟩ written

/-- `drain_usb_rejections`: whether a count was recorded. -/
def drainUsbRejections (s : Service) : Bool × Service :=
  let rejected := s.path.pendingUsbRejectedBytes
  let s := s.setPath { s.path with pendingUsbRejectedBytes := 0 }
  if rejected = 0 then (false, s)
  else ((recordUsbRejection s.session rejected).1, s.call (.recordUsbRejection rejected))

def receiveCommand (s : Service) : Service :=
  match s.commands with
  | [] => { s with pc := .rejections }
  | c :: rest => { s with commands := rest, pc := .process c }

/-- One step of the owner task, with what it transmits. -/
def ownerStep (s : Service) (i : Inputs) : Service × Option Transmission :=
  match s.pc with
  | .top => ({ s.call (.tick i.nowMs) with pc := .sync (snapshot s.session) }, none)
  | .sync before =>
    let changed := snapshot s.session ≠ before ∨ i.routerAlertChanged = true
    ({ s.syncUsbInputAuthority with pc := if changed then .publishThenReceive else .receive },
      none)
  | .publishThenReceive => ({ s.publish with pc := .receive }, none)
  | .receive => (s.receiveCommand, none)
  | .process c => ({ s.call (.tick i.nowMs) with pc := .fence c i.nowMs }, none)
  | .fence c nowMs =>
    let path :=
      if fencesInput c.kind then { s.path with usbInputAuthorityGeneration := 0 } else s.path
    ({ s.setPath path with pc := .apply c nowMs }, none)
  | .apply c nowMs =>
    -- the driver answers of this command are what the environment says now
    let s := s.setPath
      { s.path with installOutcome := i.install, uninstallOutcomes := i.uninstall }
    ({ s.applyCommand c nowMs with pc := .resync c }, none)
  | .resync c => ({ s.syncUsbInputAuthority with pc := .finish c }, none)
  | .finish c =>
    let halts := c.kind = .stop ∧ s.session.uartInstalled = false
    ({ s.publish with pc := if halts then .halted else .top }, none)
  | .rejections =>
    let drained := s.drainUsbRejections
    ({ drained.2 with pc := if drained.1 then .publishThenTop else .web }, none)
  | .web =>
    let drained := s.drainWebInput i.written
    let pc : Pc :=
      match drained.result with
      | .rejected => .publishThenTop
      | .progress => .top
      | .idle | .stalled => .usb
    ({ drained.service with pc }, drained.sent)
  | .usb =>
    let drained := s.drainUsbInput i.written
    let pc : Pc := if drained.result = .rejected then .publishThenTop else .top
    ({ drained.service with pc }, drained.sent)
  | .publishThenTop => ({ s.publish with pc := .top }, none)
  | .halted => (s, none)

/-! ### The USB input task -/

/-- `usb_input_ready`. -/
def usbInputReady (s : Service) : Bool :=
  !s.path.stopRequested && s.path.usbInputBlocks.any fun queue =>
    s.path.usbInputAuthorityGeneration == 0 || queue.length < queueDepth

/-- `submit_usb_input`. -/
def submitUsbInput (s : Service) (bytes : List UInt8) (authorityGeneration : UInt64)
    (period : ℕ) : Service :=
  if bytes.length = 0 ∨ blockBytes < bytes.length ∨ s.stopRequested = true then s
  else
    match s.path.usbInputBlocks with
    | none => s
    | some queue =>
      if authorityGeneration = 0 then
        s.setPath
          { s.path with
            pendingUsbRejectedBytes :=
              saturatingAdd s.path.pendingUsbRejectedBytes (UInt64.ofNat bytes.length) }
      else if queue.length < queueDepth then
        let block : UsbInputBlock := ⟨authorityGeneration, bytes, period, s.period⟩
        s.setPath { s.path with usbInputBlocks := some (queue ++ [block]) }
      else s

/-- One step of `pump_input`: the readiness check, the stamp, and the submission of the bytes
read meanwhile (`[]` for none). -/
def usbTaskStep (s : Service) (bytes : List UInt8) : Service :=
  match s.path.usbTask with
  | .idle => if s.usbInputReady then s.setPath { s.path with usbTask := .ready } else s
  | .ready =>
    s.setPath
      { s.path with
        usbTask := .loaded s.path.usbInputAuthorityGeneration s.path.authorityPeriod }
  | .loaded generation period =>
    (s.submitUsbInput bytes generation period).setPath
      { (s.submitUsbInput bytes generation period).path with usbTask := .idle }

/-! ### The callers -/

/-- `submit_web` up to its snapshot check. -/
def webCheck (s : Service) (sessionId leaseId : UInt64) (bytes : List UInt8) : Service :=
  let refused := bytes.length = 0 ∨ blockBytes < bytes.length ∨ sessionId = 0 ∨ leaseId = 0 ∨
    s.stopRequested = true
  let shot := s.latestSnapshot
  if refused ∨ shot.state ≠ .webTx ∨ shot.uartInstalled = false ∨ shot.sessionId ≠ sessionId ∨
      shot.leaseId ≠ leaseId then s
  else
    { s with webCallers := s.webCallers ++ [⟨sessionId, leaseId, bytes, s.snapshotPeriod⟩] }

/-- The rest of `submit_web`: queues the block, unless the mutex timed out or the queue is full
or gone. -/
def webQueue (s : Service) (index : ℕ) (locked : Bool) : Service :=
  match s.webCallers[index]? with
  | none => s
  | some caller =>
    let s := { s with webCallers := s.webCallers.eraseIdx index }
    match s.path.webInputBlocks with
    | none => s
    | some queue =>
      if locked ∧ queue.length < queueDepth then
        let block : WebInputBlock :=
          ⟨caller.sessionId, caller.leaseId, caller.bytes, caller.grantedIn, s.period⟩
        s.setPath { s.path with webInputBlocks := some (queue ++ [block]) }
      else s

/-- `enqueue` and the commands that advance an epoch, up to the send. -/
def stamp (s : Service) (c : Command) : Service :=
  match c.kind with
  | .exit =>
    if s.stopRequested then s
    else
      let epoch := incrementNonzero s.controlEpoch
      { s with
        controlEpoch := epoch
        sending := s.sending ++ [⟨{ kind := .exit, controlEpoch := epoch }, true, false⟩] }
  | .revokeWebTransport =>
    if s.stopRequested then s
    else
      let epoch := incrementNonzero s.webTransportEpoch
      { s with
        webTransportEpoch := epoch
        sending :=
          s.sending ++ [⟨{ kind := .revokeWebTransport, controlEpoch := epoch }, true, false⟩] }
  | .stop =>
    let epoch := if s.stopRequested then s.controlEpoch else incrementNonzero s.controlEpoch
    { s with
      stopRequested := true
      controlEpoch := epoch
      sending :=
        s.sending ++ [⟨{ kind := .stop, controlEpoch := epoch }, true, !s.stopRequested⟩] }
  | .enter | .webActivity | .webDisconnect =>
    if s.stopRequested then s
    else
      { s with
        sending := s.sending ++ [⟨{ c with controlEpoch := s.controlEpoch }, false, false⟩] }
  | .requestWeb =>
    if s.stopRequested then s
    else
      { s with
        sending := s.sending ++ [⟨{ c with controlEpoch := s.webTransportEpoch }, false, false⟩] }

/-- Sends a stamped command; it is dropped if the queue is full. -/
def send (s : Service) (index : ℕ) : Service :=
  match s.sending[index]? with
  | none => s
  | some out =>
    let s := { s with sending := s.sending.eraseIdx index }
    if s.commands.length < queueDepth then
      { s with
        commands := if out.toFront then out.command :: s.commands else s.commands ++ [out.command] }
    else if out.firstStop then { s with stopRequested := false }
    else s

end Service

/-! ### Runs -/

/-- One step of one of the tasks. -/
inductive Event where
  | owner (inputs : Inputs)
  | usbTask (bytes : List UInt8)
  | webCheck (sessionId leaseId : UInt64) (bytes : List UInt8)
  | webQueue (index : ℕ) (locked : Bool)
  | stamp (command : Command)
  | send (index : ℕ)

/-- The service after one step. -/
def Service.step (s : Service) : Event → Service
  | .owner i => (s.ownerStep i).1
  | .usbTask bytes => s.usbTaskStep bytes
  | .webCheck sid lid bytes => s.webCheck sid lid bytes
  | .webQueue index locked => s.webQueue index locked
  | .stamp c => s.stamp c
  | .send index => s.send index

/-- What one step transmits. -/
def Service.transmits (s : Service) : Event → Option Service.Transmission
  | .owner i => (s.ownerStep i).2
  | .usbTask _ | .webCheck .. | .webQueue .. | .stamp _ | .send _ => none

/-- The service after a sequence of steps. -/
def Service.run (s : Service) (events : List Event) : Service :=
  events.foldl Service.step s

/-! ### Command results

A command may have a result, and the owner task publishes the latest one in a single slot, from
which `deck_serial_service_command_result` reads it by its request id. -/

/-- The result of `process_command`; `none` is `has_result = false`. -/
def Service.commandResult (s : Service) (c : Command) (nowMs : UInt64) : Option CommandResult :=
  match c.kind with
  | .enter => some (enter s.hw s.device c.controlEpoch).1
  | .exit | .stop => some (exit s.hw s.device c.controlEpoch).1
  | .requestWeb =>
    if c.controlEpoch = s.webTransportEpoch then
      (requestWebAtEpoch s.hw s.device c.controlEpoch c.sessionId c.requestId c.enable nowMs).1
    else none
  | .webActivity | .webDisconnect => none
  | .revokeWebTransport => some (revokeWebTransport s.hw s.device c.controlEpoch).1

/-- The service with its results. -/
structure Publisher where
  service : Service
  /-- `result` in `process_command`. -/
  result : Option CommandResult := none
  /-- `latest_command_result`, with `has_latest_command_result`. -/
  latestCommandResult : Option CommandResult := none

namespace Publisher

/-- One step of the owner task: a command is applied with its result, and `publish` stores it. -/
def ownerStep (p : Publisher) (i : Inputs) : Publisher :=
  match p.service.pc with
  | .apply c nowMs =>
    -- the driver answers are those the step itself uses
    let driven := p.service.setPath
      { p.service.path with installOutcome := i.install, uninstallOutcomes := i.uninstall }
    { p with service := (p.service.ownerStep i).1, result := driven.commandResult c nowMs }
  | .finish _ =>
    { p with
      service := (p.service.ownerStep i).1
      latestCommandResult := p.result <|> p.latestCommandResult }
  | _ => { p with service := (p.service.ownerStep i).1 }

def step (p : Publisher) : Event → Publisher
  | .owner i => p.ownerStep i
  | e => { p with service := p.service.step e }

/-- `deck_serial_service_command_result`, once it holds the mutex. -/
def commandResult (p : Publisher) (requestId : UInt64) : Option CommandResult :=
  if requestId = 0 then none
  else p.latestCommandResult.filter fun result => result.requestId = requestId

end Publisher

end RlcdDeck.SerialService
