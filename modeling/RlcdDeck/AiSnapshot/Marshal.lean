import RlcdDeck.AiSnapshot.Decode
import RlcdDeck.Json.Print

/-!
# `json.Marshal` of a snapshot

The fields under the names of their tags, in the order of the structs.
-/

namespace RlcdDeck.AiSnapshot.Companion

open Json (Bytes Tree)
open Json.Tree (member ofNat ofString)

/-- A pointer. -/
def pointerTree {α : Type} (tree : α → Tree) : Option α → Tree
  | none => .null
  | some a => tree a

/-- A slice. -/
def sliceTree {α : Type} (tree : α → Tree) : Option (List α) → Tree
  | none => .null
  | some items => .array (items.map tree)

def SchemaVersion.tree (version : SchemaVersion) : Tree :=
  .object [member "major" (ofNat version.major), member "minor" (ofNat version.minor)]

def Money.tree (money : Money) : Tree :=
  .object [member "amount_micros" (ofNat money.amountMicros),
    member "currency" (ofString money.currency)]

def QuotaWindow.tree (window : QuotaWindow) : Tree :=
  .object [member "name" (ofString window.name),
    member "used_basis_points" (pointerTree ofNat window.usedBasisPoints),
    member "remaining_basis_points" (pointerTree ofNat window.remainingBasisPoints),
    member "window_minutes" (pointerTree ofNat window.windowMinutes),
    member "resets_at" (pointerTree ofString window.resetsAt)]

def TokenUsage.tree (tokens : TokenUsage) : Tree :=
  .object [member "input" (pointerTree ofNat tokens.input),
    member "cached_input" (pointerTree ofNat tokens.cachedInput),
    member "output" (pointerTree ofNat tokens.output),
    member "reasoning" (pointerTree ofNat tokens.reasoning),
    member "total" (pointerTree ofNat tokens.total)]

def ProviderError.tree (error : ProviderError) : Tree :=
  .object [member "code" (ofString error.code), member "retryable" (.bool error.retryable)]

def Provider.tree (provider : Provider) : Tree :=
  .object [member "schema_version" provider.schemaVersion.tree,
    member "provider_id" (ofString provider.id),
    member "display_name" (ofString provider.displayName),
    member "status" (ofString provider.status), member "source" (ofString provider.source),
    member "confidence" (ofString provider.confidence),
    member "experimental" (.bool provider.experimental),
    member "updated_at" (pointerTree ofString provider.updatedAt),
    member "stale_after_seconds" (pointerTree ofNat provider.staleAfterSeconds),
    member "balance" (pointerTree Money.tree provider.balance),
    member "windows" (sliceTree QuotaWindow.tree provider.windows),
    member "tokens" (pointerTree TokenUsage.tree provider.tokens),
    member "error" (pointerTree ProviderError.tree provider.error)]

def Session.tree (session : Session) : Tree :=
  .object [member "schema_version" session.schemaVersion.tree,
    member "session_id" (ofString session.id), member "provider_id" (ofString session.providerId),
    member "display_name" (pointerTree ofString session.displayName),
    member "state" (ofString session.state), member "source" (ofString session.source),
    member "confidence" (ofString session.confidence),
    member "started_at" (pointerTree ofString session.startedAt),
    member "last_activity_at" (pointerTree ofString session.lastActivityAt),
    member "duration_seconds" (pointerTree ofNat session.durationSeconds),
    member "turn_tokens" (pointerTree ofNat session.turnTokens),
    member "context_used_basis_points" (pointerTree ofNat session.contextUsedBasisPoints)]

def Snapshot.tree (snapshot : Snapshot) : Tree :=
  .object [member "type" (ofString snapshot.type),
    member "protocol_version" (ofNat snapshot.protocolVersion),
    member "schema_version" snapshot.schemaVersion.tree,
    member "generated_at" (ofString snapshot.generatedAt),
    member "timezone" (pointerTree ofString snapshot.timezone),
    member "provider_order" (sliceTree ofString snapshot.providerOrder),
    member "providers" (sliceTree Provider.tree snapshot.providers),
    member "sessions" (sliceTree Session.tree snapshot.sessions),
    member "next_refresh_seconds" (ofNat snapshot.nextRefresh)]

/-- `json.Marshal`. -/
def Snapshot.marshal (snapshot : Snapshot) : Bytes := snapshot.tree.print

/-- `ValidateProvider`, as the snapshot of one provider that `Encode` accepts. -/
def acceptsProvider (provider : Provider) (generatedAt : Time) : Bool :=
  let encoded := encode (fun snapshot => some snapshot.marshal) {
    type := Json.bytes "snapshot.ai"
    protocolVersion := 1
    schemaVersion := ⟨1, 0⟩
    generatedAt := generatedAt.format
    generatedAtUnixMs := generatedAt.unixMilli
    timezone := none
    providerOrder := some [provider.id]
    providers := some [provider]
    sessions := some []
    nextRefresh := 1 }
  match encoded with
  | .ok _ => true
  | .error _ => false

end RlcdDeck.AiSnapshot.Companion
