import Mathlib.Data.Int.Notation
import RlcdDeck.Json.Grammar

/-!
# The database of the Provider history

The SQLite tables of `internal/history` and the transactions of its writer.  A row also says which
capture wrote it (`writer`, `none` for a row that was there when the store was opened); no
definition branches on it.

What SQLite and the file system do not do for a transaction is a `Fault`.  The foreign key of
`quota_hours` is a field of `Database`.
-/

namespace RlcdDeck.History

open Json (Bytes bytes)

/-! ### Times -/

/-- A `time.Time` in UTC, in nanoseconds since the Unix epoch. -/
abbrev Time := ℤ

/-- `time.Time{}`, the start of the year 1. -/
def zeroTime : Time := -62135596800000000000

/-- `time.Hour`. -/
def hour : ℤ := 3600000000000

/-- `Truncate(time.Hour)`; the zero time is a whole hour. -/
def truncateHour (t : Time) : Time := t - t % hour

def unixMilli (t : Time) : ℤ := t / 1000000

/-! ### Providers and rows -/

/-- `ErrUnavailable`, `ErrCorrupt`, an error of the operation's context, and an error of
`ensureSQLiteFilesPrivate`, which is passed on as it is. -/
inductive DatabaseError where
  | unavailable
  | corrupt
  | context
  | unprotected
  deriving DecidableEq

structure Money where
  amountMicros : UInt64
  currency : Bytes
  deriving DecidableEq

structure TokenUsage where
  input : Option UInt64
  cachedInput : Option UInt64
  output : Option UInt64
  reasoning : Option UInt64
  total : Option UInt64
  deriving DecidableEq

structure QuotaWindow where
  name : Bytes
  usedBasisPoints : Option UInt16
  remainingBasisPoints : Option UInt16
  windowMinutes : Option UInt32
  resetsAtUnixMs : Option ℤ
  deriving DecidableEq

/-- The fields of `aisnapshot.Provider` that the history stores. -/
structure Provider where
  id : Bytes
  status : Bytes
  errorCode : Option Bytes := none
  balance : Option Money := none
  tokens : Option TokenUsage := none
  windows : List QuotaWindow := []
  deriving DecidableEq

/-- The primary key of `provider_hours`. -/
structure Key where
  providerId : Bytes
  hourUtcMs : ℤ
  deriving DecidableEq

/-- A row of `provider_hours`. -/
structure ProviderHour where
  key : Key
  observedAtUtcMs : ℤ
  status : Bytes
  errorCode : Option Bytes
  balanceAmountMicros : Option ℤ
  balanceCurrency : Option Bytes
  tokenInput : Option ℤ
  tokenCachedInput : Option ℤ
  tokenOutput : Option ℤ
  tokenReasoning : Option ℤ
  tokenTotal : Option ℤ
  writer : Option ℕ

/-- A row of `quota_hours`. -/
structure QuotaHour where
  key : Key
  ordinal : ℕ
  window : QuotaWindow
  writer : Option ℕ

/-- The key of an observation. -/
def keyOf (provider : Provider) (observedAt : Time) : Key :=
  ⟨provider.id, unixMilli (truncateHour observedAt)⟩

/-- `optionalUnsigned` for the 64-bit fields. -/
def optionalUnsigned (value : Option UInt64) : Option ℤ := value.map fun v => v.toInt64.toInt

/-- The row that `capture` inserts. -/
def providerHour (caller : ℕ) (provider : Provider) (observedAt : Time) : ProviderHour where
  key := keyOf provider observedAt
  observedAtUtcMs := unixMilli observedAt
  status := provider.status
  errorCode := provider.errorCode
  balanceAmountMicros := optionalUnsigned (provider.balance.map Money.amountMicros)
  balanceCurrency := provider.balance.map Money.currency
  tokenInput := optionalUnsigned (provider.tokens.bind TokenUsage.input)
  tokenCachedInput := optionalUnsigned (provider.tokens.bind TokenUsage.cachedInput)
  tokenOutput := optionalUnsigned (provider.tokens.bind TokenUsage.output)
  tokenReasoning := optionalUnsigned (provider.tokens.bind TokenUsage.reasoning)
  tokenTotal := optionalUnsigned (provider.tokens.bind TokenUsage.total)
  writer := some caller

/-- The rows of the quota windows of an observation. -/
def quotaRows (caller : ℕ) (provider : Provider) (observedAt : Time) : List QuotaHour :=
  provider.windows.mapIdx fun ordinal window =>
    ⟨keyOf provider observedAt, ordinal, window, some caller⟩

/-! ### The tables -/

/-- The tables, with the foreign key of `quota_hours`. -/
structure Database where
  providerHours : List ProviderHour
  quotaHours : List QuotaHour
  /-- `history_settings.enabled`. -/
  enabled : Bool
  foreignKey : ∀ quota ∈ quotaHours, ∃ row ∈ providerHours, row.key = quota.key

namespace Database

/-- `DELETE FROM provider_hours WHERE …`, with the cascade to `quota_hours`. -/
def deleteHours (db : Database) (expired : ProviderHour → Bool) : Database where
  providerHours := db.providerHours.filter fun row => !expired row
  quotaHours := db.quotaHours.filter fun quota =>
    (db.providerHours.filter fun row => !expired row).any fun row => row.key = quota.key
  enabled := db.enabled
  foreignKey := by
    intro quota hquota
    have hany := (List.mem_filter.mp hquota).2
    obtain ⟨row, hrow, hkey⟩ := List.any_eq_true.mp hany
    exact ⟨row, hrow, of_decide_eq_true hkey⟩

/-- `DELETE FROM quota_hours WHERE provider_id = ? AND hour_utc_ms = ?`. -/
def deleteQuota (db : Database) (key : Key) : Database where
  providerHours := db.providerHours
  quotaHours := db.quotaHours.filter fun quota => quota.key ≠ key
  enabled := db.enabled
  foreignKey := fun quota hquota => db.foreignKey quota (List.mem_filter.mp hquota).1

/-- The rows after the upsert, and whether a row changed. -/
def upsertRows (rows : List ProviderHour) (row : ProviderHour) : List ProviderHour × Bool :=
  match rows.find? fun old => old.key = row.key with
  | none => (row :: rows, true)
  | some old =>
    if old.observedAtUtcMs ≤ row.observedAtUtcMs then
      (rows.map fun other => if other.key = row.key then row else other, true)
    else (rows, false)

theorem key_mem_upsertRows {rows : List ProviderHour} {row : ProviderHour} {key : Key}
    (h : ∃ other ∈ rows, other.key = key) :
    ∃ other ∈ (upsertRows rows row).1, other.key = key := by
  obtain ⟨other, hother, hkey⟩ := h
  unfold upsertRows
  split
  · exact ⟨other, List.mem_cons_of_mem _ hother, hkey⟩
  · split
    · -- the key stays, whether or not its row is replaced
      refine ⟨_, List.mem_map_of_mem hother, ?_⟩
      split
      · rename_i hsame
        rw [← hsame, hkey]
      · exact hkey
    · exact ⟨other, hother, hkey⟩

/-- `INSERT … ON CONFLICT DO UPDATE`. -/
def upsert (db : Database) (row : ProviderHour) : Database where
  providerHours := (upsertRows db.providerHours row).1
  quotaHours := db.quotaHours
  enabled := db.enabled
  foreignKey := fun quota hquota => key_mem_upsertRows (db.foreignKey quota hquota)

/-- `INSERT INTO quota_hours` for each window; `none` when a constraint fails. -/
def insertQuota (db : Database) (rows : List QuotaHour) : Option Database :=
  if h : ∀ quota ∈ rows, quota.ordinal < 4 ∧ ∃ row ∈ db.providerHours, row.key = quota.key then
    some
      { providerHours := db.providerHours
        quotaHours := db.quotaHours ++ rows
        enabled := db.enabled
        foreignKey := by
          intro quota hquota
          rcases List.mem_append.mp hquota with hquota | hquota
          · exact db.foreignKey quota hquota
          · exact (h quota hquota).2 }
  else none

end Database

/-! ### The transactions -/

/-- What goes wrong in an operation: a statement, the commit (which may have taken effect all the
same), or the check of the files' permissions. -/
inductive Fault where
  | none
  | statement (error : DatabaseError)
  | commit (applied : Bool) (error : DatabaseError)
  | protect
  deriving DecidableEq

/-- The tables and the error after a transaction whose statements leave `body`. -/
def transact (db : Database) (body : Except DatabaseError Database) (fault : Fault) :
    Database × Option DatabaseError :=
  match fault, body with
  | .statement error, _ => (db, some error)
  | _, .error error => (db, some error)
  | .commit applied error, .ok db' => (if applied then db' else db, some error)
  | .protect, .ok db' => (db', some .unprotected)
  | .none, .ok db' => (db', Option.none)

/-- Whether a transaction was committed. -/
def committed : Except DatabaseError Database → Fault → Bool
  | .error _, _ | .ok _, .statement _ => false
  | .ok _, .commit applied _ => applied
  | .ok _, .none | .ok _, .protect => true

/-- `pruneExpired`. -/
def pruneExpired (db : Database) (now : Time) (retention : ℤ) : Except DatabaseError Database :=
  if now = zeroTime then .error .unavailable
  else
    let cutoff := truncateHour now - retention
    .ok (db.deleteHours fun row => row.key.hourUtcMs < unixMilli cutoff)

/-- The statements of `capture` before the pruning. -/
def record (db : Database) (caller : ℕ) (provider : Provider) (observedAt : Time) :
    Except DatabaseError Database :=
  if provider.status ∉ ["ok", "degraded", "unavailable"].map bytes then .error .unavailable
  else
    let row := providerHour caller provider observedAt
    if (Database.upsertRows db.providerHours row).2 then
      match ((db.upsert row).deleteQuota row.key).insertQuota
          (quotaRows caller provider observedAt) with
      | some db' => .ok db'
      | none => .error .unavailable
    else .ok db

/-- The transaction of `capture`. -/
def captureBody (db : Database) (caller : ℕ) (provider : Provider) (observedAt now : Time)
    (retention : ℤ) : Except DatabaseError Database :=
  match record db caller provider observedAt with
  | .ok recorded => pruneExpired recorded now retention
  | .error error => .error error

/-- `store.capture`. -/
def capture (db : Database) (caller : ℕ) (provider : Provider) (observedAt now : Time)
    (retention : ℤ) (fault : Fault) : Database × Option DatabaseError :=
  transact db (captureBody db caller provider observedAt now retention) fault

/-- `store.setEnabled`; the permissions are checked before the transaction. -/
def setEnabled (db : Database) (enabled : Bool) (now : Time) (retention : ℤ) (fault : Fault) :
    Database × Option DatabaseError :=
  if fault = .protect then (db, some .unavailable)
  else transact db (pruneExpired { db with enabled := enabled } now retention) fault

/-- The periodic sweep. -/
def sweep (db : Database) (now : Time) (retention : ℤ) (fault : Fault) :
    Database × Option DatabaseError :=
  transact db (pruneExpired db now retention) fault

/-- `DELETE FROM provider_hours`. -/
def clear (db : Database) (fault : Fault) : Database × Option DatabaseError :=
  if fault = .protect then (db.deleteHours fun _ => true, none)
  else transact db (.ok (db.deleteHours fun _ => true)) fault

end RlcdDeck.History
