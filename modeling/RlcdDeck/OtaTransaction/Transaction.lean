import RlcdDeck.Effects.Program

/-!
# The OTA transaction

The model of `deck_ota_transaction.cpp`: one transaction takes an offered manifest, writes the
image chunk by chunk to the update partition while hashing it, and selects the new image for the
next boot.

The flash and crypto adapters are external calls, each of which may fail.  Character arrays and
strings are lists of bytes; a string ends at its first zero byte.  Null checks and the clearing of
the digest buffer are left out.
-/

namespace RlcdDeck.OtaTransaction

open Effects

/-- `DECK_OTA_BOARD_CAPACITY`. -/
def boardCapacity : ℕ := 49

/-- `DECK_OTA_VERSION_CAPACITY`. -/
def versionCapacity : ℕ := 33

/-- `DECK_OTA_MAX_CHUNK_BYTES`. -/
def maxChunkBytes : ℕ := 3072

/-- `deck_ota_manifest_t`. -/
structure Manifest where
  version : List UInt8
  board : List UInt8
  imageLength : UInt32
  imageSha256 : List UInt8
  signature : List UInt8
  signingKeyId : UInt32
  minimumProtocolVersion : UInt32
  deriving DecidableEq

/-- `deck_ota_state_t`. -/
inductive State where
  | idle
  | receiving
  | readyToReboot
  | failed
  deriving DecidableEq

/-- `deck_ota_result_t`. -/
inductive Result where
  | ok
  | invalidManifest
  | wrongBoard
  | incompatibleProtocol
  | downgradeRejected
  | imageTooLarge
  | signatureRejected
  | busy
  | staleOffset
  | flashFailure
  | hashMismatch
  | imageInvalid
  | timedOut
  deriving DecidableEq

/-- `deck_ota_transaction_options_t` without the adapters. -/
structure Options where
  runningVersion : List UInt8
  board : List UInt8
  protocolVersion : UInt32
  partitionCapacity : ℕ
  inactivityTimeoutMs : UInt64
  maximumDurationMs : UInt64
  deriving DecidableEq

/-- `deck_ota_transaction_snapshot_t`. -/
structure Snapshot where
  state : State
  result : Result
  receivedBytes : UInt32
  imageLength : UInt32
  deriving DecidableEq

/-- `deck_ota_transaction`; the manifest is zeroed until one is accepted. -/
structure Transaction where
  options : Options
  manifest : Option Manifest := none
  snapshot : Snapshot := ⟨.idle, .ok, 0, 0⟩
  startedMs : UInt64 := 0
  lastActivityMs : UInt64 := 0
  flashOpen : Bool := false
  hashOpen : Bool := false
  deriving DecidableEq

/-! ### The adapters -/

/-- A call of the flash or the crypto adapter. -/
inductive Call where
  | verifyManifest (manifest : Manifest)
  | hashBegin
  | hashUpdate (data : List UInt8)
  | hashFinish
  | hashAbort
  | flashBegin (imageSize : UInt32)
  | flashWrite (data : List UInt8)
  | flashFinish
  | flashAbort
  | selectBoot

/-- What a call answers: success, the digest of `hash_finish`, or nothing. -/
abbrev Answer : Call → Type
  | .hashFinish => Option (List UInt8)
  | .hashAbort | .flashAbort => Unit
  | _ => Bool

/-- A computation that calls the adapters. -/
abbrev Ota := Program Call Answer

/-- One call of an adapter. -/
def ask (call : Call) : Ota (Answer call) :=
  Program.perform call

/-! ### Versions and names -/

/-- The characters of a string before its terminator. -/
def characters (value : List UInt8) : List UInt8 :=
  value.takeWhile (· ≠ 0)

def terminated (value : List UInt8) (capacity : ℕ) : Bool :=
  (value.take capacity).contains 0

def isDigit (byte : UInt8) : Bool :=
  48 ≤ byte && byte ≤ 57

/-- The bytes `.`, `-` and `+`. -/
def isVersionMark (byte : UInt8) : Bool :=
  byte = 46 || byte = 45 || byte = 43

def safeVersion (value : List UInt8) : Bool :=
  terminated value versionCapacity &&
    let text := characters value
    text.length ≠ 0 && text.length < 32 && isDigit (text.headD 0) &&
      text.all fun byte =>
        isDigit byte || (65 ≤ byte && byte ≤ 90) || (97 ≤ byte && byte ≤ 122) ||
          isVersionMark byte

def safeBoard (value : List UInt8) : Bool :=
  terminated value boardCapacity &&
    let text := characters value
    text.length ≠ 0 && text.length < boardCapacity &&
      text.all fun byte =>
        (97 ≤ byte && byte ≤ 122) || isDigit byte || byte = 46 || byte = 45

/-- The digits at the cursor, as a 32-bit value, with what follows them. -/
def parseDigits (value : UInt32) : List UInt8 → Option (UInt32 × List UInt8)
  | [] => some (value, [])
  | byte :: rest =>
    if isDigit byte then
      let digit := byte.toUInt32 - 48
      if value > (0xffffffff - digit) / 10 then none
      else parseDigits (value * 10 + digit) rest
    else some (value, byte :: rest)

/-- One part of a version: digits without a leading zero. -/
def parsePart (cursor : List UInt8) : Option (UInt32 × List UInt8) :=
  if !isDigit (cursor.headD 0) ||
      (cursor.headD 0 = 48 && isDigit (cursor.tail.headD 0)) then none
  else parseDigits 0 cursor

/-- The dot after a part. -/
def parseDot (cursor : List UInt8) : Option (List UInt8) :=
  if cursor.headD 0 = 46 then some cursor.tail else none

def parseSemanticCore (version : List UInt8) : Option (UInt32 × UInt32 × UInt32) :=
  if !safeVersion version then none
  else do
    let (major, cursor) ← parsePart (characters version)
    let cursor ← parseDot cursor
    let (minor, cursor) ← parsePart cursor
    let cursor ← parseDot cursor
    let (patch, cursor) ← parsePart cursor
    if cursor.headD 0 = 0 || cursor.headD 0 = 45 || cursor.headD 0 = 43 then
      some (major, minor, patch)
    else none

def strictlyNewer (candidate running : List UInt8) : Bool :=
  match parseSemanticCore candidate, parseSemanticCore running with
  | some (major, minor, patch), some (major', minor', patch') =>
    if major ≠ major' then major > major'
    else if minor ≠ minor' then minor > minor'
    else patch > patch'
  | _, _ => false

/-! ### The operations -/

def closeOpenResources (t : Transaction) : Ota Transaction := do
  if t.flashOpen then
    ask .flashAbort
  if t.hashOpen then
    ask .hashAbort
  return { t with flashOpen := false, hashOpen := false }

def fail (t : Transaction) (result : Result) : Ota (Result × Transaction) := do
  let t ← closeOpenResources t
  return (result, { t with snapshot := { t.snapshot with state := .failed, result } })

def create (options : Options) : Option Transaction :=
  if !safeVersion options.runningVersion || !safeBoard options.board ||
      options.protocolVersion = 0 || options.partitionCapacity = 0 ||
      0xffffffff < options.partitionCapacity || options.inactivityTimeoutMs = 0 ||
      options.maximumDurationMs = 0 then none
  else some { options }

/-- What `destroy` does before the memory is freed. -/
def destroy (t : Transaction) : Ota Transaction :=
  closeOpenResources t

def offer (t : Transaction) (manifest : Manifest) (nowMs : UInt64) :
    Ota (Result × Transaction) := do
  if t.snapshot.state ≠ .idle then
    return (.busy, t)
  if !safeVersion manifest.version || !safeBoard manifest.board || manifest.imageLength = 0 ||
      manifest.signingKeyId = 0 || manifest.minimumProtocolVersion = 0 then
    fail t .invalidManifest
  else if characters manifest.board ≠ characters t.options.board then
    fail t .wrongBoard
  else if manifest.minimumProtocolVersion > t.options.protocolVersion then
    fail t .incompatibleProtocol
  else if !strictlyNewer manifest.version t.options.runningVersion then
    fail t .downgradeRejected
  else if t.options.partitionCapacity < manifest.imageLength.toNat then
    fail t .imageTooLarge
  else
    let verified ← ask (.verifyManifest manifest)
    if !verified then
      fail t .signatureRejected
    else
      let hashBegun ← ask .hashBegin
      if !hashBegun then
        fail t .flashFailure
      else
        let t := { t with hashOpen := true }
        let flashBegun ← ask (.flashBegin manifest.imageLength)
        if !flashBegun then
          fail t .flashFailure
        else
          return (.ok,
            { t with
              flashOpen := true
              manifest := some manifest
              snapshot := ⟨.receiving, .ok, 0, manifest.imageLength⟩
              lastActivityMs := nowMs
              startedMs := nowMs })

/-- The deadlines of `write` and `tick`. -/
def timedOut (t : Transaction) (nowMs : UInt64) : Bool :=
  nowMs < t.startedMs || t.options.maximumDurationMs ≤ nowMs - t.startedMs ||
    nowMs < t.lastActivityMs || t.options.inactivityTimeoutMs ≤ nowMs - t.lastActivityMs

/-- The end of `write`, after the last chunk: the digest, the image and the boot selection. -/
def finishImage (t : Transaction) : Ota (Result × Transaction) := do
  match ← ask .hashFinish with
  | none => fail t .flashFailure
  | some digest =>
    let t := { t with hashOpen := false }
    if some digest ≠ t.manifest.map (·.imageSha256) then
      fail t .hashMismatch
    else
      let imageValid ← ask .flashFinish
      let t := { t with flashOpen := false }
      if !imageValid then
        return (.imageInvalid,
          { t with snapshot := { t.snapshot with state := .failed, result := .imageInvalid } })
      else
        let selected ← ask .selectBoot
        if !selected then
          return (.flashFailure,
            { t with snapshot := { t.snapshot with state := .failed, result := .flashFailure } })
        else
          return (.ok,
            { t with snapshot := { t.snapshot with state := .readyToReboot, result := .ok } })

def write (t : Transaction) (offset : UInt32) (data : List UInt8) (final : Bool)
    (nowMs : UInt64) : Ota (Result × Transaction) := do
  if data.length = 0 || maxChunkBytes < data.length || t.snapshot.state ≠ .receiving then
    return (.invalidManifest, t)
  let remaining := (t.snapshot.imageLength - t.snapshot.receivedBytes).toNat
  if timedOut t nowMs then
    fail t .timedOut
  else if offset ≠ t.snapshot.receivedBytes || remaining < data.length ||
      (final && data.length ≠ remaining) || (!final && data.length = remaining) then
    fail t .staleOffset
  else
    let hashed ← ask (.hashUpdate data)
    if !hashed then
      fail t .flashFailure
    else
      let written ← ask (.flashWrite data)
      if !written then
        fail t .flashFailure
      else
        let t :=
          { t with
            snapshot :=
              { t.snapshot with
                receivedBytes := t.snapshot.receivedBytes + UInt32.ofNat data.length }
            lastActivityMs := nowMs }
        if !final then return (.ok, t) else finishImage t

def tick (t : Transaction) (nowMs : UInt64) : Ota (Result × Transaction) := do
  if t.snapshot.state = .receiving && timedOut t nowMs then
    fail t .timedOut
  else
    return (t.snapshot.result, t)

/-! ### Runs -/

/-- A call of the transaction's interface. -/
inductive Request where
  | offer (manifest : Manifest) (nowMs : UInt64)
  | write (offset : UInt32) (data : List UInt8) (final : Bool) (nowMs : UInt64)
  | tick (nowMs : UInt64)

def handle (t : Transaction) : Request → Ota (Result × Transaction)
  | .offer manifest nowMs => offer t manifest nowMs
  | .write offset data final nowMs => write t offset data final nowMs
  | .tick nowMs => tick t nowMs

end RlcdDeck.OtaTransaction
