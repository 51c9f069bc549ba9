import WispRelay.Nostr.Libnostr

/-!
# The validator

The checks of `validator.c` on an event before it is stored and sent on.  The clock is read by
`nostr_event_validate_full` and once more by `check_event_age`; the readings are arguments.
-/

namespace WispRelay
namespace Relay

/-- `validation_result_t`. -/
inductive ValidationResult where
  | validationOk
  | errSchema
  | errId
  | errSig
  | errExpired
  | errFuture
  | errDuplicate
  | errPow
  | errBlocked
  | errTooOld
deriving DecidableEq

/-- `validator_config_t`. -/
structure ValidatorConfig where
  maxEventAgeSec : UInt32
  maxFutureSec : Int64
  minPowDifficulty : UInt8
  checkDuplicates : Bool

/-- `map_relay_error`. -/
def mapRelayError : NostrRelayError → ValidationResult
  | .ok => .validationOk
  | .errMissingField | .errInvalidId | .errInvalidPubkey | .errInvalidCreatedAt
  | .errInvalidKind | .errInvalidTags | .errInvalidContent => .errSchema
  | .errIdMismatch => .errId
  | .errSigMismatch | .errInvalidSig => .errSig
  | .errFutureEvent => .errFuture
  | .errExpiredEvent => .errExpired
  | _ => .errSchema

/-- `check_event_age`. -/
def checkEventAge
    (event : NostrEvent)
    (maxAgeSec : UInt32)
    (now : Int64) : ValidationResult :=
  if maxAgeSec = 0 then .validationOk
  else if Int64.ofNat maxAgeSec.toNat < now - event.createdAt then .errTooOld
  else .validationOk

/-- `validator_check_pow`. -/
def validatorCheckPow
    (lib : Libnostr)
    (event : NostrEvent)
    (minDifficulty : UInt8) : ValidationResult :=
  if minDifficulty = 0 then .validationOk
  else if lib.nip13CalculateDifficulty event.id < minDifficulty.toNat then .errPow
  else .validationOk

/-- `check_duplicate` accepts every event, with or without storage. -/
def checkDuplicate : ValidationResult := .validationOk

/-- `validator_check_event`, at the readings `validated` and `aged` of the clock. -/
def validatorCheckEvent
    (lib : Libnostr)
    (config : ValidatorConfig)
    (validated aged : Int64)
    (event : NostrEvent) : ValidationResult :=
  let err := lib.eventValidateFull event config.maxFutureSec validated
  if err ≠ .ok then mapRelayError err
  else
    let result := checkEventAge event config.maxEventAgeSec aged
    if result ≠ .validationOk then result
    else
      let result := validatorCheckPow lib event config.minPowDifficulty
      if result ≠ .validationOk then result
      else if config.checkDuplicates && !lib.kindIsEphemeral event.kind then checkDuplicate
      else .validationOk

/-- `validator_result_to_relay_error`. -/
def validatorResultToRelayError : ValidationResult → NostrRelayError
  | .validationOk => .ok
  | .errSig => .errSigMismatch
  | .errId => .errIdMismatch
  | .errFuture => .errFutureEvent
  | .errExpired | .errTooOld => .errExpiredEvent
  | _ => .errInvalidJson

/-- A failed validation is reported as an error. -/
theorem validatorResultToRelayError_eq_ok {result : ValidationResult} :
    validatorResultToRelayError result = .ok ↔ result = .validationOk := by
  cases result <;> simp [validatorResultToRelayError]

/-- An event that passes was accepted by the library. -/
theorem validatorCheckEvent_ok
    {lib : Libnostr}
    {config : ValidatorConfig}
    {validated aged : Int64}
    {event : NostrEvent}
    (h : validatorCheckEvent lib config validated aged event = .validationOk) :
    lib.eventValidateFull event config.maxFutureSec validated = .ok := by
  by_contra herr
  rw [validatorCheckEvent, if_pos herr] at h
  cases herror : lib.eventValidateFull event config.maxFutureSec validated <;>
    simp_all [mapRelayError]

end Relay
end WispRelay
