import RlcdDeck.OtaTransfer.Companion

/-!
# The Deck's side of an OTA transfer

The commands of `ota_task` in `deck_ota_service.cpp`, for one connection that is not aborted: the
transaction over the adapters of the flash and the hash, and the results of
`deck_ota_protocol_format_result`.  The ticks between two commands are left out; they do nothing
before a deadline.

The adapters succeed, but for a signature that is not valid.  The hash is over everything that was
hashed, and every write puts its bytes behind those that were written before; `flash` is the log of
these writes, each byte with its offset.  SHA-256 and the signature check under the key of an
identifier are parameters.
-/

namespace RlcdDeck.OtaTransfer

open Companion (OtaResult)
open OtaTransaction (Call Manifest Options Result Snapshot State Transaction)

/-! ### The adapters -/

/-- The hash, the partition and the boot selection. -/
structure Adapters where
  hashed : List UInt8 := []
  flash : List (UInt8 × ℕ) := []
  selected : Bool := false

section Crypto

variable (sha256 : List UInt8 → List UInt8) (verify : UInt32 → List UInt8 → List UInt8 → Bool)

/-- `verify_manifest`. -/
def verifyManifest (manifest : Manifest) : Bool :=
  verify manifest.signingKeyId (sha256 (verifiedBytes manifest)) manifest.signature

/-- The calls of the flash and the crypto adapter, when they succeed. -/
def Adapters.answer (a : Adapters) : (call : Call) → OtaTransaction.Answer call × Adapters
  | .verifyManifest manifest => (verifyManifest sha256 verify manifest, a)
  | .hashBegin => (true, { a with hashed := [] })
  | .hashUpdate data => (true, { a with hashed := a.hashed ++ data })
  | .hashFinish => (some (sha256 a.hashed), a)
  | .hashAbort => ((), a)
  | .flashBegin _ => (true, { a with flash := [] })
  | .flashWrite data => (true, { a with flash := a.flash ++ data.zipIdx a.flash.length })
  | .flashFinish => (true, a)
  | .flashAbort => ((), a)
  | .selectBoot => (true, { a with selected := true })

end Crypto

/-! ### Results -/

/-- `state_name`. -/
def stateName : State → String
  | .receiving => "receiving"
  | .readyToReboot => "ready_to_reboot"
  | .failed => "failed"
  | .idle => "idle"

/-- `result_name`. -/
def resultName : Result → String
  | .ok => "ok"
  | .invalidManifest => "invalid_manifest"
  | .wrongBoard => "wrong_board"
  | .incompatibleProtocol => "incompatible_protocol"
  | .downgradeRejected => "downgrade_rejected"
  | .imageTooLarge => "image_too_large"
  | .signatureRejected => "signature_rejected"
  | .busy => "busy"
  | .staleOffset => "stale_offset"
  | .flashFailure => "flash_failure"
  | .hashMismatch => "hash_mismatch"
  | .imageInvalid => "image_invalid"
  | .timedOut => "timed_out"

/-- The fields of `deck_ota_protocol_format_result`. -/
def formatResult (transactionId : Text) (snapshot : Snapshot) : OtaResult where
  transactionId := transactionId
  state := ascii (stateName snapshot.state)
  code := ascii (resultName snapshot.result)
  receivedBytes := snapshot.receivedBytes
  imageLength := snapshot.imageLength

/-! ### The task -/

/-- What the task has, with its clock and the commands that it has handled. -/
structure Deck where
  options : Options
  clock : ℕ → UInt64
  transaction : Option Transaction := none
  activeTransactionId : Text := []
  adapters : Adapters := {}
  handled : List (Command × Result) := []

/-- `publish_rejection`. -/
def rejection (transactionId : Text) (result : Result) : OtaResult :=
  formatResult transactionId ⟨.failed, result, 0, 0⟩

/-- `publish_result`. -/
def publishedResult (transactionId : Text) (transaction : Option Transaction) (result : Result) :
    OtaResult :=
  match transaction with
  | none => formatResult transactionId ⟨.failed, result, 0, 0⟩
  | some t => formatResult transactionId { t.snapshot with result := result }

section Task

variable (decoders : Decoders) (sha256 : List UInt8 → List UInt8)
  (verify : UInt32 → List UInt8 → List UInt8 → Bool)

/-- The adapters after the transaction, if there is one, is destroyed. -/
def Deck.destroyed (deck : Deck) : Adapters :=
  match deck.transaction with
  | none => deck.adapters
  | some t => ((OtaTransaction.destroy t).run (Adapters.answer sha256 verify) deck.adapters).2

/-- An offer: a transaction that is not receiving is replaced. -/
def Deck.offer (deck : Deck) (transactionId : Text) (manifest : Manifest) : OtaResult × Deck :=
  if deck.transaction.map (fun t => t.snapshot.state) = some .receiving then
    (rejection transactionId .busy,
      { deck with handled := deck.handled ++ [(.offer transactionId manifest, .busy)] })
  else
    let adapters := deck.destroyed sha256 verify
    match OtaTransaction.create deck.options with
    | none =>
      (publishedResult transactionId none .flashFailure,
        { deck with
          transaction := none
          activeTransactionId := []
          adapters := adapters
          handled := deck.handled ++ [(.offer transactionId manifest, .flashFailure)] })
    | some t =>
      let ((result, t), adapters) :=
        (OtaTransaction.offer t manifest (deck.clock deck.handled.length)).run
          (Adapters.answer sha256 verify) adapters
      (publishedResult transactionId (some t) result,
        { deck with
          transaction := some t
          activeTransactionId := if result = .ok then transactionId else []
          adapters := adapters
          handled := deck.handled ++ [(.offer transactionId manifest, result)] })

/-- A chunk of the active transaction. -/
def Deck.chunk (deck : Deck) (transactionId : Text) (offset : UInt32) (data : List UInt8)
    (final : Bool) : OtaResult × Deck :=
  match deck.transaction with
  | none =>
    (rejection transactionId .invalidManifest,
      { deck with
        handled := deck.handled ++ [(.chunk transactionId offset data final, .invalidManifest)] })
  | some t =>
    if deck.activeTransactionId ≠ transactionId then
      (rejection transactionId .invalidManifest,
        { deck with
          handled :=
            deck.handled ++ [(.chunk transactionId offset data final, .invalidManifest)] })
    else
      let ((result, t), adapters) :=
        (OtaTransaction.write t offset data final (deck.clock deck.handled.length)).run
          (Adapters.answer sha256 verify) deck.adapters
      (publishedResult transactionId (some t) result,
        { deck with
          transaction := some t
          activeTransactionId :=
            if result ≠ .ok ∨ final = true then [] else deck.activeTransactionId
          adapters := adapters
          handled := deck.handled ++ [(.chunk transactionId offset data final, result)] })

/-- A message that reaches the Deck; what does not parse has no result. -/
def Deck.receive (deck : Deck) (text : Text) : Option OtaResult × Deck :=
  match parse decoders text with
  | none => (none, deck)
  | some (.offer transactionId manifest) =>
    ((deck.offer sha256 verify transactionId manifest).1,
      (deck.offer sha256 verify transactionId manifest).2)
  | some (.chunk transactionId offset data final) =>
    ((deck.chunk sha256 verify transactionId offset data final).1,
      (deck.chunk sha256 verify transactionId offset data final).2)

end Task

end RlcdDeck.OtaTransfer
