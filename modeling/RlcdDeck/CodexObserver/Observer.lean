import Mathlib.Data.List.Dedup
import Mathlib.Data.List.Sort
import RlcdDeck.AiSnapshot.Instant
import RlcdDeck.Bytes.Hex
import RlcdDeck.StructuredProvider.Path
import RlcdDeck.Utf8.Range

/-!
# The observer of Codex sessions

The model of `codexobserver/observer.go`.  The order in which Go visits a map and what `sort.Slice`
does to elements that are equal are not fixed: they are an argument, an `Iteration`, of which only
what the language promises is known.  `crypto/sha256` and `os.SameFile` are parameters.  A time is a
number of nanoseconds after the zero time.
-/

namespace RlcdDeck.CodexObserver

open AiSnapshot.Companion (Session decodeString foldName into unmarshal)
open Json (Bytes Tree bytes)

/-! ### Snapshots -/

inductive MappingStrength where
  | weak
  | strong
  deriving DecidableEq

structure ProcessIdentity where
  pid : ℤ := 0
  startedUnixNano : ℤ := 0
  deriving DecidableEq

structure ProcessObservation where
  identity : ProcessIdentity
  openFiles : List Bytes

/-- A file; `Info` is `os.FileInfo`. -/
structure FileCandidate (Info : Type) where
  path : Bytes
  size : ℤ
  modified : ℤ
  firstLine : Bytes
  info : Option Info

structure DiscoverySnapshot (Info : Type) where
  strength : MappingStrength
  processes : List ProcessObservation
  files : List (FileCandidate Info)
  candidatesOverflow : Bool

/-- What is kept of a session; the zero value for one that is not in the map. -/
structure PriorObservation (Info : Type) where
  path : Bytes := []
  size : ℤ := 0
  process : ProcessIdentity := {}
  hasOwner : Bool := false
  info : Option Info := none

/-- The windows of the configuration, and the functions that come from outside. -/
structure Config (Info : Type) where
  recentWindow : ℤ
  retention : ℤ
  sha256 : Bytes → Bytes
  sameFile : Info → Info → Bool

def maximumSessions : ℕ := 16

/-- `now.Sub(earlier)`, which stays in the range of a duration. -/
def sub (now earlier : ℤ) : ℤ := max (-2 ^ 63) (min (now - earlier) (2 ^ 63 - 1))

/-! ### Identifiers -/

/-- The envelope of the first line. -/
structure SessionMeta where
  type : Bytes := []
  payload : Option Tree := none

def SessionMeta.assign (document : SessionMeta) (m : Bytes × Tree) : Option SessionMeta :=
  (Json.unquote m.1).bind fun key =>
    if foldName key = bytes "type" then
      (into document.type decodeString m.2).map fun value => { document with type := value }
    else if foldName key = bytes "payload" then some { document with payload := some m.2 }
    else some document

structure SessionPayload where
  id : Bytes := []
  sessionId : Bytes := []

def SessionPayload.assign (payload : SessionPayload) (m : Bytes × Tree) : Option SessionPayload :=
  (Json.unquote m.1).bind fun key =>
    if foldName key = bytes "id" then
      (into payload.id decodeString m.2).map fun value => { payload with id := value }
    else if foldName key = bytes "session_id" then
      (into payload.sessionId decodeString m.2).map fun value => { payload with sessionId := value }
    else some payload

/-- `json.Unmarshal` into a structure, one member after another. -/
def decodeInto {α : Type} (zero : α) (assign : α → Bytes × Tree → Option α) : Tree → Option α
  | .object members => members.foldlM assign zero
  | .null => some zero
  | _ => none

/-- `parseSessionIdentifier`. -/
def parseSessionIdentifier (document : Bytes) : Option Bytes := do
  guard (document.contains 0x0a)
  let line := Utf8.trimSpace (document.takeWhile (· != 0x0a))
  guard (!line.isEmpty && Utf8.valid line)
  let envelope ← (unmarshal line).bind (decodeInto {} SessionMeta.assign)
  guard (envelope.type = bytes "session_meta")
  let payload ← envelope.payload.bind (decodeInto {} SessionPayload.assign)
  let identifier := if payload.id.isEmpty then payload.sessionId else payload.id
  guard (payload.id.isEmpty || payload.sessionId.isEmpty || payload.id = payload.sessionId)
  guard (!identifier.isEmpty && identifier.length ≤ 256 && Utf8.valid identifier &&
    Utf8.trimSpace identifier = identifier)
  guard ((Utf8.runes identifier).all fun c => c.all fun point => 0x20 ≤ point && point != 0x7f)
  return identifier

section

variable {Info : Type} (config : Config Info)

local instance pathLawful : LawfulBEq Bytes := inferInstance

/-- `sessionidentity.Codex`. -/
def codex (upstreamId : Bytes) : Bytes :=
  bytes "codex_" ++ Bytes.encodeHex ((config.sha256 upstreamId).take 8)

/-- The identifier of a file's session, none if the file is left out. -/
def anonymousId (now : ℤ) (file : FileCandidate Info) : Option Bytes :=
  (parseSessionIdentifier file.firstLine).bind fun identifier =>
    if file.size ≤ 0 ∨ file.modified = 0 ∨ config.retention < sub now file.modified then none
    else some (codex config identifier)

/-! ### The maps of `collect` -/

/-- The keys of `filesByID`. -/
def identifiers (snapshot : DiscoverySnapshot Info) (now : ℤ) : List Bytes :=
  (snapshot.files.filterMap (anonymousId config now)).dedup

/-- `filesByID`. -/
def filesById (snapshot : DiscoverySnapshot Info) (now : ℤ) (id : Bytes) :
    List (FileCandidate Info) :=
  snapshot.files.filter fun file => anonymousId config now file = some id

/-- `validPaths`. -/
def validPaths (snapshot : DiscoverySnapshot Info) (now : ℤ) : List Bytes :=
  (snapshot.files.filter fun file => (anonymousId config now file).isSome).map FileCandidate.path

/-- The paths that the loop over a process counts, after those it has `seen`. -/
def countedPaths (valid : List Bytes) : (seen : List Bytes) → List Bytes → List Bytes
  | _, [] => []
  | seen, path :: paths =>
    if path ∉ valid ∨ path ∈ seen then countedPaths valid seen paths
    else path :: countedPaths valid (path :: seen) paths

/-- `pathProcesses`. -/
def pathProcesses (snapshot : DiscoverySnapshot Info) (now : ℤ) (path : Bytes) :
    List ProcessIdentity :=
  (snapshot.processes.filter fun process =>
    path ∈ countedPaths (validPaths config snapshot now) [] process.openFiles).map
      ProcessObservation.identity

/-- `processCandidates`. -/
def processCandidates (snapshot : DiscoverySnapshot Info) (now : ℤ) (identity : ProcessIdentity) :
    ℕ :=
  ((snapshot.processes.filter fun process => process.identity = identity).map fun process =>
    (countedPaths (validPaths config snapshot now) [] process.openFiles).length).sum

/-! ### Inference -/

/-- What is kept of a file without an owner. -/
def FileCandidate.observation (file : FileCandidate Info) : PriorObservation Info :=
  { path := file.path, size := file.size, info := file.info }

/-- Whether a file is the one that was seen before. -/
def isSameFile (prior : PriorObservation Info) (candidate : FileCandidate Info) : Bool :=
  match prior.info, candidate.info with
  | some before, some after => config.sameFile before after
  | _, _ => prior.path == candidate.path

/-- `inferState`. -/
def inferState (snapshot : DiscoverySnapshot Info) (candidate : FileCandidate Info)
    (prior : PriorObservation Info) (now : ℤ) : Bytes × PriorObservation Info :=
  let current := candidate.observation
  let recent : Bool := sub now candidate.modified ≤ config.recentWindow
  if now < candidate.modified then (bytes "unknown", current)
  else if snapshot.candidatesOverflow then (bytes "unknown", current)
  else if snapshot.strength = .weak then
    if !snapshot.processes.isEmpty then (bytes "unknown", current)
    else if recent then (bytes "recent", current)
    else (bytes "ended", current)
  else
    match pathProcesses config snapshot now candidate.path with
    | [owner] =>
      if processCandidates config snapshot now owner = 1 then
        let current := { current with process := owner, hasOwner := true }
        if prior.hasOwner && prior.process = owner && isSameFile config prior candidate &&
            prior.size < candidate.size then
          (bytes "running", current)
        else if recent then (bytes "recent", current)
        else (bytes "unknown", current)
      else (bytes "unknown", current)
    | _ :: _ => (bytes "unknown", current)
    | [] => if recent then (bytes "recent", current) else (bytes "ended", current)

/-- The order of the files of a session. -/
def fileBefore (a b : FileCandidate Info) : Prop :=
  if a.modified ≠ b.modified then b.modified < a.modified else a.path < b.path

/-- How the maps are visited and the files sorted: in some order, which the language leaves open. -/
structure Iteration (snapshot : DiscoverySnapshot Info) (now : ℤ) where
  ids : List Bytes
  files : Bytes → List (FileCandidate Info)
  ids_perm : ids.Perm (identifiers config snapshot now)
  files_perm : ∀ id, (files id).Perm (filesById config snapshot now id)
  sorted : ∀ id, (files id).Pairwise fun a b => ¬ fileBefore b a

/-- `result`. -/
structure Result where
  session : Session
  updated : ℤ

/-- The order of the results, of which no two have the same identifier. -/
def Result.before (a b : Result) : Prop :=
  b.updated < a.updated ∨ a.updated = b.updated ∧ a.session.id ≤ b.session.id

instance : DecidableRel Result.before := fun _ _ => inferInstanceAs (Decidable (_ ∨ _))

/-- The text of `lastActivity`. -/
def activityText (modified : ℤ) : Option Bytes :=
  (AiSnapshot.Companion.Time.ofInstant (modified - modified % 1000000000)).map
    AiSnapshot.Companion.Time.format

/-- The state of a session and what is kept of it, from its files in order. -/
def inferSession (snapshot : DiscoverySnapshot Info) (now : ℤ) (prior : PriorObservation Info)
    (candidate : FileCandidate Info) (others : List (FileCandidate Info)) :
    Bytes × PriorObservation Info :=
  if others.isEmpty then inferState config snapshot candidate prior now
  else (bytes "unknown", candidate.observation)

/-- The session of one identifier. -/
def sessionOf (now : ℤ) (id state : Bytes) (candidate : FileCandidate Info) : Result where
  session := {
    schemaVersion := ⟨1, 0⟩
    id := id
    providerId := bytes "codex"
    displayName := none
    state := state
    source := bytes "process_jsonl_observer"
    confidence := bytes "inferred"
    startedAt := none
    lastActivityAt := if now < candidate.modified then none else activityText candidate.modified
    durationSeconds := none
    turnTokens := none
    contextUsedBasisPoints := none }
  updated := candidate.modified

/-- `observer.previous`. -/
abbrev Previous (Info : Type) := Bytes → PriorObservation Info

/-- One round of the loop over `filesByID`. -/
def visit (previous : Previous Info) (snapshot : DiscoverySnapshot Info) (now : ℤ) (id : Bytes) :
    List (FileCandidate Info) → Option (Result × PriorObservation Info)
  | [] => none
  | candidate :: others =>
    let (state, current) := inferSession config snapshot now (previous id) candidate others
    some (sessionOf now id state candidate, current)

/-- `collect`, of a snapshot that was discovered. -/
def collect (previous : Previous Info) (snapshot : DiscoverySnapshot Info) (now : ℤ)
    (iteration : Iteration config snapshot now) : List Session × Previous Info :=
  let round := fun id => visit config previous snapshot now id (iteration.files id)
  let results := iteration.ids.filterMap fun id => (round id).map Prod.fst
  (((results.insertionSort Result.before).take maximumSessions).map Result.session,
    fun id => ((round id).map Prod.snd).getD {})

/-! ### Runs -/

/-- What `publishOnce` finds. -/
inductive Poll where
  | failed
  | discovered (snapshot : DiscoverySnapshot Info) (now : ℤ)
      (iteration : Iteration config snapshot now)

variable {config}

/-- `publishOnce`. -/
def publishOnce (previous : Previous Info) : Poll config → List Session × Previous Info
  | .failed => ([], fun _ => {})
  | .discovered snapshot now iteration => collect config previous snapshot now iteration

/-- `observer.previous` after the polls of a `Run`. -/
def after (polls : List (Poll config)) : Previous Info :=
  polls.foldl (fun previous poll => (publishOnce previous poll).2) fun _ => {}

/-- What the next poll publishes. -/
def published (polls : List (Poll config)) (poll : Poll config) : List Session :=
  (publishOnce (after polls) poll).1

end

end RlcdDeck.CodexObserver
