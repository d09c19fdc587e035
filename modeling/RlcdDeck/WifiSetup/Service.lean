import RlcdDeck.WifiSetup.Config

/-!
# The setup service and its Wi-Fi

The model of `deck_setup_service.cpp` as far as it moves the Wi-Fi station: the event handlers, the
queue of commands, `begin_wifi_validation` and `cancel_wifi_validation`, the start and the stop of the
setup network, and the loop of `service_task`.  The Wi-Fi driver, the HTTP server and the storage are
external, so what they answer comes with each step.  Notifications to the publisher, the settings and
the profiles do not touch the station and are left out.

An event of the driver waits in the event loop of the system until its handler runs, and its command
waits in the queue.  `gotIp` and `connected` carry the credentials of the attempt that the event was
raised for; the code keeps no such record.
-/

namespace RlcdDeck.WifiSetup

open TransactionStore (Storage Store)

/-- `DECK_SETUP_COMMAND_QUEUE_CAPACITY`. -/
def commandQueueCapacity : ℕ := 8

/-- `deck_setup_command_t`; `other` is one that leaves the Wi-Fi alone. -/
inductive Command where
  | enterFromBoot
  | submitWifi (credentials : Credentials)
  | connected (attempt : Credentials)
  | authFailed
  | connectionFailed
  | clearWifi
  | pairCompanion
  | other
  deriving DecidableEq

/-- An event of the driver that its handler has not been called with. -/
inductive Raised where
  | gotIp (attempt : Credentials)
  | disconnected (authentication : Bool)

/-- Where `service_task` stands in its loop. -/
inductive Loop where
  | starting
  | receiving
  | ticking
  | settling
  deriving DecidableEq

/-- `deck_setup_service_t`, with the driver.  `station` has the credentials of the attempt that the
driver makes, or of its connection. -/
structure Service where
  config : Config
  setupActive : Bool := false
  commands : List Command := []
  commandOverflow : Bool := false
  acceptingCommands : Bool := false
  suppressDisconnect : Bool := false
  wifiStarted : Bool := false
  networkActive : Bool := false
  httpServer : Bool := false
  activeStationRestorePending : Bool := false
  stopRequested : Bool := false
  stopKeepsWifi : Bool := false
  shutdownPending : Bool := false
  bootEnterPending : Bool := false
  loop : Loop := .starting
  station : Option Credentials := none
  raised : List Raised := []

/-! ### What is outside -/

/-- What `esp_wifi_disconnect` answers. -/
inductive DisconnectResult where
  | ok
  | notConnected
  | failed
  deriving DecidableEq

/-- What the driver and the HTTP server answer to `stop_network`. -/
structure StopAnswers where
  httpStopped : Bool := true
  wifiStopped : Bool := true
  apStopped : Bool := true
  modeSet : Bool := true
  configSet : Bool := true
  wifiStarted : Bool := true
  connects : Bool := true

/-- What the driver and the HTTP server answer to `start_network`. -/
structure StartAnswers where
  wifiStopped : Bool := true
  modeSet : Bool := true
  configSet : Bool := true
  wifiStarted : Bool := true
  apStarted : Bool := true
  httpStarted : Bool := true

/-- What the outside answers in one pass of the loop. -/
structure Answers where
  nowMs : UInt64 := 0
  storage : ℕ → (op : TransactionStore.Call) → op.Answer
  disconnect : DisconnectResult := .ok
  disconnectAgain : DisconnectResult := .ok
  configSet : Bool := true
  connects : Bool := true
  /-- An address came in time. -/
  addressed : Bool := true
  paired : Bool := true
  responseComplete : Bool := true
  /-- The setup session has been idle for too long. -/
  expired : Bool := false
  /-- The credentials of a new session could be made. -/
  entered : Bool := true
  stop : StopAnswers := {}
  start : StartAnswers := {}
  stopAgain : StopAnswers := {}

/-- The result of a program whose calls are answered in their order. -/
def Answers.run {α : Type} (answers : Answers) (program : Storage α) : α :=
  (program.run (fun number op => (answers.storage number op, number + 1)) 0).1

namespace Service

/-! ### Events -/

/-- `enqueue_command`. -/
def enqueue (service : Service) (command : Command) : Service :=
  if service.commands.length < commandQueueCapacity then
    { service with commands := service.commands ++ [command] }
  else { service with commandOverflow := true }

/-- `wifi_event` for a station that was disconnected. -/
def wifiEvent (service : Service) (authentication : Bool) : Service :=
  if !service.acceptingCommands then service
  else if service.suppressDisconnect then { service with suppressDisconnect := false }
  else service.enqueue (if authentication then .authFailed else .connectionFailed)

/-- `ip_event` for an address of the station. -/
def ipEvent (service : Service) (attempt : Credentials) : Service :=
  if service.acceptingCommands then service.enqueue (.connected attempt) else service

/-! ### The station -/

/-- `begin_wifi_validation`. -/
def beginWifiValidation (service : Service) (answers : Answers) (credentials : Credentials) :
    Bool × Service :=
  let dropped :=
    { service with
      suppressDisconnect := answers.disconnect = .ok
      station := if answers.disconnect = .ok then none else service.station }
  if service.wifiStarted && answers.disconnect ≠ .failed && answers.configSet && answers.connects then
    (true, { dropped with station := some credentials })
  else (false, dropped)

/-- `cancel_wifi_validation`. -/
def cancelWifiValidation (service : Service) (disconnect : DisconnectResult) : Service :=
  { service with
    suppressDisconnect := disconnect = .ok
    station := if disconnect = .ok then none else service.station }

/-- `restore_active_station_locked`. -/
def restoreActiveStation (service : Service) (answers : StopAnswers) (credentials : Credentials) :
    Bool × Service :=
  if !answers.modeSet || !answers.configSet then (false, service)
  else if !service.wifiStarted && !answers.wifiStarted then (false, service)
  else
    let started := { service with wifiStarted := true }
    if answers.connects then (true, { started with station := some credentials })
    else (false, started)

/-- The part of `stop_network` that stops the access point, and whether all of it was answered. -/
def stopAccessPoint (service : Service) (answers : StopAnswers) : Bool × Service :=
  if !service.networkActive then (true, service)
  else
    let requested :=
      if service.stopRequested then service
      else if !answers.wifiStopped then service
      else
        { service with
          stopRequested := true
          stopKeepsWifi := service.config.active.isSome
          station := if service.config.active.isSome then service.station else none }
    if !requested.stopRequested then (false, requested)
    else if answers.apStopped then
      (true,
        { requested with
          networkActive := false
          wifiStarted := requested.stopKeepsWifi
          stopRequested := false
          stopKeepsWifi := false })
    else (false, requested)

/-- The part of `stop_network` that restores the station of the active credentials. -/
def restorePending (service : Service) (answers : StopAnswers) (credentials : Option Credentials) :
    Bool × Service :=
  if service.networkActive || !service.activeStationRestorePending then (true, service)
  else
    match credentials with
    | none => (false, service)
    | some credentials =>
      let (restored, next) := service.restoreActiveStation answers credentials
      if restored then (true, { next with activeStationRestorePending := false }) else (false, next)

/-- `stop_network`, whether nothing went wrong. -/
def stopNetwork (service : Service) (answers : StopAnswers) : Bool × Service :=
  let credentials := service.config.active
  let marked :=
    if service.activeStationRestorePending && credentials.isSome then
      { service with config := (service.config.activeConnection false).2 }
    else service
  let httpStopped := !marked.httpServer || answers.httpStopped
  let unserved := { marked with httpServer := marked.httpServer && !answers.httpStopped }
  let (apStopped, stopped) := unserved.stopAccessPoint answers
  let (restored, next) := stopped.restorePending answers credentials
  let fine := httpStopped && apStopped && restored
  (fine, { next with shutdownPending := !fine })

/-- The part of `start_network` before the HTTP server starts. -/
def startAccessPoint (service : Service) (answers : StartAnswers) : Bool × Service :=
  let restarted :=
    if service.wifiStarted && answers.wifiStopped then
      { service with wifiStarted := false, station := none }
    else service
  if restarted.wifiStarted || !answers.modeSet || !answers.configSet || !answers.wifiStarted then
    (false, restarted)
  else
    (answers.apStarted,
      { restarted with wifiStarted := true, networkActive := true, stopRequested := false })

/-- `start_network`, whether nothing went wrong. -/
def startNetwork (service : Service) (answers : Answers) : Bool × Service :=
  let marked :=
    { service with
      config :=
        if service.config.active.isSome then (service.config.activeConnection false).2
        else service.config
      activeStationRestorePending := service.config.active.isSome }
  let (started, next) := marked.startAccessPoint answers.start
  if !started then
    (false, if next.networkActive then (next.stopNetwork answers.stopAgain).2 else next)
  else if !answers.start.httpStarted then (false, (next.stopNetwork answers.stopAgain).2)
  else (true, { next with httpServer := true, shutdownPending := false })

/-- `fail_session`, which ends the setup mode. -/
def failSession (service : Service) : Service := { service with setupActive := false }

/-- `enter_session`, whether it is to be tried again after the network has stopped. -/
def enterSession (service : Service) (answers : Answers) : Bool × Service :=
  let (stopped, next) := service.stopNetwork answers.stop
  if !stopped then (true, next.failSession)
  else if !answers.entered then (false, next.failSession)
  else
    let (started, next) := { next with setupActive := true }.startNetwork answers
    (false, if started then next else next.failSession)

/-- `connect_active_station`, whether it is connected. -/
def connectActiveStation (service : Service) (answers : Answers) : Bool × Service :=
  match service.config.active with
  | none => (false, service)
  | some credentials =>
    let (started, next) :=
      if !answers.stop.modeSet || !answers.stop.configSet || !answers.stop.wifiStarted then
        (false, service)
      else if !answers.stop.connects then (false, { service with wifiStarted := true })
      else (true, { service with wifiStarted := true, station := some credentials })
    let connected := started && answers.addressed
    (connected, { next with config := (next.config.activeConnection connected).2 })

/-! ### `service_task` -/

/-- `service_task` before its loop. -/
def startUp (service : Service) (answers : Answers) : Service :=
  let next :=
    if service.config.recoveryRequired then (service.enterSession answers).2
    else
      let (connected, next) := service.connectActiveStation answers
      if connected then next else (next.enterSession answers).2
  { next with acceptingCommands := true, loop := .receiving }

/-- The command of submitted credentials. -/
def submit (service : Service) (answers : Answers) (credentials : Credentials) : Service :=
  if !service.setupActive then service
  else
    match service.config.check credentials with
    | .error _ => service
    | .ok payload =>
      match answers.run (service.config.stage payload) with
      | (false, config) => { service with config }
      | (true, config) =>
        let (started, next) := { service with config }.beginWifiValidation answers credentials
        { next with config := (next.config.begun started answers.nowMs).2 }

/-- The command of a validation that has an end. -/
def validated (service : Service) (answers : Answers) (result : ValidationResult) : Service :=
  let (transitioned, config) := answers.run (service.config.validationResult result)
  let next := { service with config }
  if transitioned then
    if config.state = .active then
      ({ next with setupActive := false, activeStationRestorePending := false }.stopNetwork
        answers.stop).2
    else next
  else if config.state = .storageError then next
  else
    let (changed, config) := config.activeConnection (result = .connected)
    let next := { next with config }
    if changed && result ≠ .connected && !next.setupActive then (next.enterSession answers).2 else next

/-- The command to clear the configuration. -/
def clear (service : Service) (answers : Answers) : Service :=
  if !service.setupActive then service
  else
    let cancelled :=
      if service.config.state = .validating then service.cancelWifiValidation answers.disconnect
      else service
    let (cleared, config) := answers.run (cancelled.config.clear)
    let next := { cancelled with config }
    if cleared then
      { next with activeStationRestorePending := false }.cancelWifiValidation answers.disconnectAgain
    else next

/-- The command to pair a Companion. -/
def pair (service : Service) (answers : Answers) : Service :=
  if service.setupActive && answers.paired && answers.responseComplete then
    ({ service with setupActive := false }.stopNetwork answers.stop).2
  else service

/-- The `switch` on a command. -/
def process (service : Service) (answers : Answers) : Command → Service
  | .enterFromBoot => { service with bootEnterPending := true }
  | .submitWifi credentials => service.submit answers credentials
  | .connected _ => service.validated answers .connected
  | .authFailed => service.validated answers .authFailed
  | .connectionFailed => service.validated answers .connectionFailed
  | .clearWifi => service.clear answers
  | .pairCompanion => service.pair answers
  | .other => service

/-- The loop until it has processed a command, if there is one. -/
def dispatch (service : Service) (answers : Answers) : Service :=
  match service.commands with
  | [] => { service with loop := .ticking }
  | command :: commands =>
    { { service with commands }.process answers command with loop := .ticking }

/-- The loop after a command; a session in which Wi-Fi is validated is not idle. -/
def tick (service : Service) (answers : Answers) : Service :=
  let stops := service.setupActive && answers.expired && service.config.state ≠ .validating
  let (timedOut, config) := service.config.tick answers.nowMs
  let ticked :=
    { service with
      commandOverflow := false
      setupActive := service.setupActive && !stops
      config }
  let cancelled := if timedOut then ticked.cancelWifiValidation answers.disconnect else ticked
  let next :=
    if stops || cancelled.shutdownPending then (cancelled.stopNetwork answers.stop).2 else cancelled
  { next with loop := .settling }

/-- The end of a pass of the loop. -/
def settle (service : Service) (answers : Answers) : Service :=
  if service.bootEnterPending && !service.shutdownPending then
    let (again, next) := service.enterSession answers
    { next with bootEnterPending := again, loop := .receiving }
  else { service with loop := .receiving }

/-! ### Runs -/

inductive Event where
  /-- The station has an address. -/
  | gotIp
  /-- The attempt or the connection of the station ends. -/
  | lost (authentication : Bool)
  /-- The driver reports a disconnection that it was asked for. -/
  | reported (authentication : Bool)
  /-- The handler of the first event that was raised runs. -/
  | handler
  /-- A command comes from the Web or from a button. -/
  | request (command : Command)
  | startUp (answers : Answers)
  | dispatch (answers : Answers)
  | tick (answers : Answers)
  | settle (answers : Answers)

/-- A command that a request can make. -/
def isRequest : Command → Bool
  | .connected _ | .authFailed | .connectionFailed => false
  | _ => true

/-- The service after one step, `none` when it cannot be taken. -/
def step (service : Service) : Event → Option Service
  | .gotIp => service.station.map fun attempt =>
      { service with raised := service.raised ++ [.gotIp attempt] }
  | .lost authentication =>
    some { service with station := none, raised := service.raised ++ [.disconnected authentication] }
  | .reported authentication =>
    some { service with raised := service.raised ++ [.disconnected authentication] }
  | .handler =>
    match service.raised with
    | [] => none
    | .gotIp attempt :: raised => some ({ service with raised }.ipEvent attempt)
    | .disconnected authentication :: raised => some ({ service with raised }.wifiEvent authentication)
  | .request command =>
    if service.acceptingCommands && isRequest command then some (service.enqueue command) else none
  | .startUp answers => if service.loop = .starting then some (service.startUp answers) else none
  | .dispatch answers => if service.loop = .receiving then some (service.dispatch answers) else none
  | .tick answers => if service.loop = .ticking then some (service.tick answers) else none
  | .settle answers => if service.loop = .settling then some (service.settle answers) else none

end Service

end RlcdDeck.WifiSetup
