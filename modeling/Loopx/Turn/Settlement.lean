/- GID: Loopx/Turn/Settlement
   generality: I
   source: loopx/control_plane/turn_driver/settlement.ts, settlement_provider.ts, effect_program.ts
   digest: The reduction of one Turn settlement snapshot to the next provider action or an outcome. -/

import Loopx.Authority.Codec
import Loopx.Json.Text

set_option autoImplicit false
set_option relaxedAutoImplicit false

namespace Loopx.Turn

open Loopx.Lib.KeyedList
open Loopx.Authority (trim)

/-- The fields of a JSON object, as provider and journal payloads are. -/
abbrev Payload := List (String × Json)

/-- The steps that a provider performs. -/
inductive ProviderStepKind where
  | durableWriteback
  | quotaSpend
  | terminalCloseout
deriving DecidableEq

inductive SettlementStepKind where
  | validation
  | provider (step : ProviderStepKind)
deriving DecidableEq

def ProviderStepKind.text : ProviderStepKind → String
  | .durableWriteback => "durable_writeback"
  | .quotaSpend => "quota_spend"
  | .terminalCloseout => "terminal_closeout"

def SettlementStepKind.text : SettlementStepKind → String
  | .validation => "validation"
  | .provider step => step.text

theorem ProviderStepKind.text_injective : Function.Injective ProviderStepKind.text := by
  intro a b h
  cases a <;> cases b <;> simp_all [ProviderStepKind.text]

inductive SettlementFailureKind where
  | receiptMissing
  | invalidIdentity
  | identityMismatch
  | effectOutcomeUnknown
  | writebackRejected
  | quotaSpendRejected
  | budgetRejected
  | terminalCloseoutRejected
deriving DecidableEq

structure SettlementFailure where
  kind : SettlementFailureKind
  stepKind : SettlementStepKind
  reason : String

/-- What `settlementIdentityFromPlan` reads off a plan; a replan or request binding has no Todo. -/
structure BoundSettlementIdentity where
  effectId : String
  todoId : Option String

structure SettlementReceipt where
  stepKind : SettlementStepKind
  effectId : String
  sourceRef : String

inductive TurnResultKind where
  | validatedProgress
  | validatedCompletion
  | repairRequired
  | replanRequired
  | userActionRequired
  | wait
  | iterationFailed
  | hostFailure
  | validationFailed
  | writebackFailed
  | quotaSpendFailed
  | terminalCloseoutFailed
deriving DecidableEq

def TurnResultKind.text : TurnResultKind → String
  | .validatedProgress => "validated_progress"
  | .validatedCompletion => "validated_completion"
  | .repairRequired => "repair_required"
  | .replanRequired => "replan_required"
  | .userActionRequired => "user_action_required"
  | .wait => "wait"
  | .iterationFailed => "iteration_failed"
  | .hostFailure => "host_failure"
  | .validationFailed => "validation_failed"
  | .writebackFailed => "writeback_failed"
  | .quotaSpendFailed => "quota_spend_failed"
  | .terminalCloseoutFailed => "terminal_closeout_failed"

section EffectProgram

/-- `effectIdsMatch`: an empty id is no id. -/
def effectIdsMatch (committed : Option String) (expected : String) : Bool :=
  committed.getD "" = "" || committed = some expected

def isCommittedPayload (payload : Payload) : Bool :=
  payload.lookup "ok" = some (.bool true) && payload.lookup "appended" = some (.bool true)

def settlementReceipt (identity : BoundSettlementIdentity) (step : SettlementStepKind) :
    SettlementReceipt :=
  ⟨step, identity.effectId, "turn_journal:" ++ identity.effectId ++ "#" ++ step.text⟩

mutual

/-- `String(value)`. -/
def hostString : Json → String
  | .null => "null"
  | .bool true => "true"
  | .bool false => "false"
  | .number n => String.ofList (Json.numberText n)
  | .string s => s
  | .array items => ",".intercalate (elementStrings items)
  | .object _ => "[object Object]"

def elementStrings : List Json → List String
  | [] => []
  | .null :: items => "" :: elementStrings items
  | v :: items => hostString v :: elementStrings items

end

/-- The value counts as true in a condition. -/
def isTruthy : Json → Bool
  | .null => false
  | .bool b => b
  | .number n => n.coefficient ≠ 0
  | .string s => s ≠ ""
  | _ => true

/-- `truthyString(value)` of a field that may be missing. -/
def truthyString : Option Json → String
  | some (.bool true) => "True"
  | some v => if isTruthy v then hostString v else ""
  | none => ""

def missingPayloadReason : SettlementStepKind → String
  | .provider .durableWriteback => "Turn journal is missing its committed writeback payload"
  | .provider .quotaSpend => "Turn journal is missing its committed quota spend payload"
  | step => "Turn journal is missing its committed " ++ step.text ++ " payload"

/-- The receipts of the committed steps, in order, up to the first that lacks its payload. -/
def seedSteps (identity : BoundSettlementIdentity) (committed : SettlementStepKind → Option Payload)
    (completedPhases : List String) (requireValidation : Bool) :
    List SettlementStepKind → List SettlementReceipt →
      Except (SettlementFailure × List SettlementReceipt) (List SettlementReceipt)
  | [], receipts => .ok receipts
  | step :: steps, receipts =>
    if step = .validation ∧ requireValidation then
      if step.text ∈ completedPhases then
        seedSteps identity committed completedPhases requireValidation steps
          (receipts ++ [settlementReceipt identity step])
      else
        .error (⟨.receiptMissing, step, "Turn settlement requires a committed validation receipt"⟩,
          receipts)
    else if step.text ∈ completedPhases then
      if (committed step).any isCommittedPayload then
        seedSteps identity committed completedPhases requireValidation steps
          (receipts ++ [settlementReceipt identity step])
      else .error (⟨.receiptMissing, step, missingPayloadReason step⟩, receipts)
    else seedSteps identity committed completedPhases requireValidation steps receipts

def seedCommittedSteps (identity : BoundSettlementIdentity)
    (orderedSteps : List SettlementStepKind) (committed : SettlementStepKind → Option Payload)
    (completedPhases transactionPhases : List String) (requireValidation : Bool) :
    Except (SettlementFailure × List SettlementReceipt) (List SettlementReceipt) :=
  if completedPhases ≠ transactionPhases.take completedPhases.length then
    .error (⟨.receiptMissing, .validation,
      "Turn journal phases are not an ordered transaction prefix"⟩, [])
  else if requireValidation ∧ "validation" ∉ completedPhases then
    .error (⟨.receiptMissing, .validation,
      "Turn settlement requires a committed validation receipt"⟩, [])
  else seedSteps identity committed completedPhases requireValidation orderedSteps []

inductive SettlementNextAction where
  | failed (failure : SettlementFailure) (receipts : List SettlementReceipt)
  | execute (step : SettlementStepKind) (receipts : List SettlementReceipt)
  | complete (receipts : List SettlementReceipt)

def settlementNextAction (identity : BoundSettlementIdentity)
    (orderedSteps : List SettlementStepKind) (committed : SettlementStepKind → Option Payload)
    (completedPhases transactionPhases : List String) (requireValidation : Bool) :
    SettlementNextAction :=
  match seedCommittedSteps identity orderedSteps committed completedPhases transactionPhases
      requireValidation with
  | .error (failure, receipts) => .failed failure receipts
  | .ok receipts =>
    match orderedSteps.find? (fun step => step ≠ .validation && step.text ∉ completedPhases) with
    | some step => .execute step receipts
    | none => .complete receipts

/-- `callbackFailureKind`. -/
def callbackFailureKind (step : ProviderStepKind) (payload : Payload) : SettlementFailureKind :=
  match step with
  | .durableWriteback => .writebackRejected
  | .terminalCloseout => .terminalCloseoutRejected
  | .quotaSpend =>
    if payload.lookup "quota_rejection_action" = some (.string "throttled_skip") then
      .budgetRejected
    else .quotaSpendRejected

/-- The failure `commitStepPayload` finds in a payload; none where the step is committed. -/
def commitStepFailure (step : ProviderStepKind) (payload : Payload) : Option SettlementFailure :=
  if isCommittedPayload payload then none
  else
    let error := payload.lookup "error"
    let reason := truthyString (if error.any isTruthy then error else payload.lookup "reason")
    some ⟨callbackFailureKind step payload, .provider step,
      if reason = "" then step.text ++ " callback rejected the settlement" else reason⟩

end EffectProgram

section Provider

inductive ProviderResolutionKind where
  | committed
  | absent
  | unknown
deriving DecidableEq

structure ProviderObservation where
  kind : ProviderResolutionKind
  payload : Option Payload
  reason : Option String

structure ProviderAttemptResult where
  stepKind : ProviderStepKind
  payload : Payload

inductive ProviderAction where
  | prepareAndExecute
  | executePrepared
  | resolvePrepared
  | checkpoint (payload : Payload)
  | abortPrepared (payload : Payload)

structure ProviderEffectContext where
  stepKind : ProviderStepKind
  effectRef : String
  completedPhases : List String

structure ProviderEffect extends ProviderEffectContext where
  action : ProviderAction

/-- What the readback of a provider says; evidence of no supported kind proves nothing. -/
def decodeProviderObservation (observation : Payload) : ProviderObservation :=
  let payload := observation.lookup "payload"
  let admitted (kind : ProviderResolutionKind) : ProviderObservation :=
    ⟨kind, match payload with | some (.object fields) => some fields | _ => none,
      match observation.lookup "reason" with
      | some (.string reason) => if trim reason ≠ "" then some reason else none
      | _ => none⟩
  match observation.lookup "kind" with
  | some (.string "committed") => admitted .committed
  | some (.string "absent") =>
    if payload ≠ none ∧ payload ≠ some .null then
      ⟨.unknown, none, some "Absent provider readback must not contain a payload"⟩
    else admitted .absent
  | some (.string "unknown") => admitted .unknown
  | _ => ⟨.unknown, none, some "Unsupported provider readback kind"⟩

/-- An omitted ref is compatible; an explicit one must name this effect. -/
def providerPayloadMatchesRef (payload : Option Payload) (effectRef : String) : Bool :=
  match payload with
  | none => true
  | some payload =>
    payload.lookup "effect_ref" = none || payload.lookup "effect_ref" = some (.string effectRef)

/-- One IO action for the next ordered provider, from the facts about it. -/
def settlementProviderAction (effect : ProviderEffectContext)
    (attempts : List (ProviderStepKind × String))
    (observations : List (ProviderStepKind × ProviderObservation))
    (returned : Option ProviderAttemptResult) : Except SettlementFailure ProviderEffect :=
  let step := effect.stepKind
  let fail (kind : SettlementFailureKind) (reason : String) : Except SettlementFailure ProviderEffect :=
    .error ⟨kind, .provider step, reason⟩
  match attempts with
  | [] =>
    if observations ≠ [] ∨ returned.isSome then
      fail .receiptMissing "Turn settlement has a provider observation without a prepared effect"
    else .ok ⟨effect, .prepareAndExecute⟩
  | (prepared, preparedRef) :: others =>
    if others ≠ [] ∨ prepared ≠ step then
      .error ⟨.receiptMissing,
        .provider (((attempts.map Prod.fst).find? (· ≠ step)).getD step),
        "Prepared settlement effects do not match the next ordered provider"⟩
    else if preparedRef ≠ effect.effectRef then
      fail .identityMismatch "Prepared settlement effect does not match the current operation"
    else if (observations.any (fun entry => entry.1 ≠ step)) ∨
        returned.any (fun attempt => attempt.stepKind ≠ step) then
      fail .receiptMissing "Provider observation does not match the prepared settlement effect"
    else
      match returned, observations.lookup step with
      | some _, some _ =>
        fail .receiptMissing "Provider return and readback cannot authorize the same action"
      | none, none => .ok ⟨effect, .resolvePrepared⟩
      | some attempt, none =>
        if !providerPayloadMatchesRef (some attempt.payload) effect.effectRef then
          fail .identityMismatch "Provider payload does not match the prepared settlement effect"
        else if isCommittedPayload attempt.payload then .ok ⟨effect, .checkpoint attempt.payload⟩
        else .ok ⟨effect, .abortPrepared attempt.payload⟩
      | none, some observation =>
        match observation.kind with
        | .unknown =>
          fail .effectOutcomeUnknown
            (observation.reason.getD "Provider could not resolve the prepared settlement effect")
        | .absent =>
          if observation.payload.isSome then
            fail .effectOutcomeUnknown
              "Absent provider readback must not contain a committed payload"
          else .ok ⟨effect, .executePrepared⟩
        | .committed =>
          if !providerPayloadMatchesRef observation.payload effect.effectRef then
            fail .identityMismatch "Provider payload does not match the prepared settlement effect"
          else
            match observation.payload with
            | some payload =>
              if isCommittedPayload payload then .ok ⟨effect, .checkpoint payload⟩
              else
                fail .receiptMissing
                  "Provider reported a committed settlement effect without a durable committed payload"
            | none =>
              fail .receiptMissing
                "Provider reported a committed settlement effect without a durable committed payload"

end Provider

section Reduction

structure TurnSettlementRequest where
  identity : Except SettlementFailure BoundSettlementIdentity
  transactionPhases : List String
  completedPhases : List String
  committedEffectId : Option String
  writebackPayload : Option Payload
  quotaSpendPayload : Option Payload
  terminalCloseoutRequired : Bool
  terminalCloseoutPayload : Option Payload
  failedProviderAttempt : Option ProviderAttemptResult
  returnedProviderAttempt : Option ProviderAttemptResult
  effectAttempts : List (ProviderStepKind × String)
  providerObservations : List (ProviderStepKind × ProviderObservation)
  turnResultKind : Option TurnResultKind

/-- The optional canonical projection of an outcome. -/
structure TurnOutcome where
  resultKind : TurnResultKind
  completedPhases : List String
  failedPhase : Option SettlementStepKind
  completion : Option Json

structure TurnSettlementState where
  completedPhases : List String
  writeback : Option Payload
  quotaSpend : Option Payload

/-- The decision of a reduction; an execution authorizes exactly one provider effect. -/
inductive TurnSettlementReduction where
  | execute (effect : ProviderEffect)
  | complete (state : TurnSettlementState) (receipts : List SettlementReceipt)
      (outcome : Option TurnOutcome)
  | failed (failure : SettlementFailure) (receipts : List SettlementReceipt)
      (outcome : Option TurnOutcome)

namespace TurnSettlementRequest

def payload (request : TurnSettlementRequest) : ProviderStepKind → Option Payload
  | .durableWriteback => request.writebackPayload
  | .quotaSpend => request.quotaSpendPayload
  | .terminalCloseout => request.terminalCloseoutPayload

end TurnSettlementRequest

def effectRefOf (effectId : String) (step : ProviderStepKind) : String :=
  effectId ++ "#" ++ step.text

/-- `value === identity.todo_id`. -/
def isBoundTodo (identity : BoundSettlementIdentity) (value : Option Json) : Bool :=
  value = some (match identity.todoId with | some id => .string id | none => .null)

def isTodoIdList : Option Json → Bool
  | some (.array items) =>
    items ≠ [] && items.all (fun item => match item with | .string s => s ≠ "" | _ => false)
  | _ => false

def completionOutcomeError (identity : BoundSettlementIdentity) (payload : Payload) :
    Except String Payload :=
  match payload.lookup "completion" with
  | none | some .null => .error "completion is missing its durable Todo outcome"
  | some (.object outcome) =>
    if !isBoundTodo identity (outcome.lookup "todo_id") then
      .error "completion does not match the selected Todo"
    else
      let continuation := outcome.lookup "continuation"
      if continuation ≠ some (.string "successor") ∧ continuation ≠ some (.string "active_goal") ∧
          continuation ≠ some (.string "no_followup") then
        .error "completion has an invalid continuation outcome"
      else if continuation = some (.string "successor") ∧
          !isTodoIdList (outcome.lookup "successor_todo_ids") then
        .error "successor completion requires successor Todo ids"
      else .ok outcome
  | some _ => .error "completion has an invalid durable Todo outcome"

def terminalCompletionError (identity : BoundSettlementIdentity) (payload : Payload) :
    Except String Payload :=
  match completionOutcomeError identity payload with
  | .error reason => .error reason
  | .ok completion =>
    if completion.lookup "continuation" ≠ some (.string "no_followup") then
      .error "terminal closeout completion must declare no_followup"
    else .ok completion

def nonTerminalCompletionError (identity : BoundSettlementIdentity) (payload : Payload) :
    Except String Payload :=
  match completionOutcomeError identity payload with
  | .error reason => .error reason
  | .ok completion =>
    if completion.lookup "continuation" = some (.string "no_followup") then
      .error "non-terminal completion cannot declare no_followup"
    else .ok completion

/-- The compact public projection of an admitted completion. -/
def compactCompletion (completion : Payload) : Json :=
  let field (key : String) : Payload := (completion.lookup key).toList.map (fun v => (key, v))
  .object (field "todo_id" ++ field "continuation" ++
    if completion.lookup "continuation" = some (.string "successor") then
      field "successor_todo_ids"
    else [])

/-- Admission precedes the checkpoint: an invalid committed payload leaves the prepared operation
recoverable. -/
def admitCheckpoint (request : TurnSettlementRequest) (identity : BoundSettlementIdentity)
    (step : ProviderStepKind) (payload : Payload) : Except String Payload :=
  let compacted (admitted : Except String Payload) : Except String Payload :=
    admitted.map (fun completion => setKey payload "completion" (compactCompletion completion))
  if step = .terminalCloseout ∧ request.turnResultKind.isSome then
    compacted (terminalCompletionError identity payload)
  else if step = .durableWriteback ∧ request.turnResultKind = some .validatedCompletion ∧
      !request.terminalCloseoutRequired then
    compacted (nonTerminalCompletionError identity payload)
  else .ok payload

def providerExecution (request : TurnSettlementRequest) (identity : BoundSettlementIdentity)
    (effect : ProviderEffectContext) (receipts : List SettlementReceipt) :
    TurnSettlementReduction :=
  match settlementProviderAction effect request.effectAttempts request.providerObservations
      request.returnedProviderAttempt with
  | .error failure => .failed failure receipts none
  | .ok next =>
    match next.action with
    | .checkpoint payload =>
      match admitCheckpoint request identity effect.stepKind payload with
      | .error reason =>
        .failed ⟨.receiptMissing, .provider effect.stepKind, reason⟩ receipts none
      | .ok admitted => .execute { next with action := .checkpoint admitted }
    | _ => .execute next

def providerFailure (attempt : ProviderAttemptResult) (step : ProviderStepKind)
    (receipts : List SettlementReceipt) : Except String TurnSettlementReduction :=
  if attempt.stepKind ≠ step then
    .ok (.failed ⟨.receiptMissing, .provider step,
      "Turn settlement is missing its " ++ step.text ++ " provider outcome"⟩ receipts none)
  else
    match commitStepFailure step attempt.payload with
    | none => .error ("failed_provider_attempt for " ++ step.text ++ " unexpectedly committed")
    | some failure => .ok (.failed failure receipts none)

def reduceProviderAction (request : TurnSettlementRequest) (identity : BoundSettlementIdentity)
    (effect : ProviderEffectContext) (receipts : List SettlementReceipt) :
    Except String TurnSettlementReduction :=
  match request.failedProviderAttempt with
  | none => .ok (providerExecution request identity effect receipts)
  | some attempt => providerFailure attempt effect.stepKind receipts

def reduceBaseProviderAction (request : TurnSettlementRequest) (identity : BoundSettlementIdentity)
    (step : ProviderStepKind) (receipts : List SettlementReceipt) :
    Except String TurnSettlementReduction :=
  if step.text ∉ request.transactionPhases then
    .error ("transaction phases do not contain " ++ step.text)
  else
    reduceProviderAction request identity
      ⟨step, effectRefOf identity.effectId step,
        request.transactionPhases.take (request.transactionPhases.idxOf step.text + 1)⟩ receipts

/-- The reduction that ends here, or the receipts to go on with. -/
def reduceTerminalCloseout (request : TurnSettlementRequest) (identity : BoundSettlementIdentity)
    (receipts : List SettlementReceipt) :
    Except String (TurnSettlementReduction ⊕ List SettlementReceipt) :=
  if !request.terminalCloseoutRequired then
    if request.terminalCloseoutPayload.isSome then
      .ok (.inl (.failed ⟨.terminalCloseoutRejected, .provider .terminalCloseout,
        "Turn settlement contains an unrequested terminal closeout"⟩ receipts none))
    else .ok (.inr receipts)
  else
    match request.terminalCloseoutPayload with
    | none =>
      (reduceProviderAction request identity
        ⟨.terminalCloseout, effectRefOf identity.effectId .terminalCloseout,
          request.completedPhases⟩ receipts).map Sum.inl
    | some payload =>
      match seedCommittedSteps identity [.provider .terminalCloseout] (fun _ => some payload)
          ["terminal_closeout"] ["terminal_closeout"] false with
      | .error (failure, seeded) => .ok (.inl (.failed failure seeded none))
      | .ok terminal =>
        if request.turnResultKind.isNone then .ok (.inr (receipts ++ terminal))
        else
          match terminalCompletionError identity payload with
          | .error reason =>
            .ok (.inl (.failed ⟨.receiptMissing, .provider .terminalCloseout, reason⟩ receipts none))
          | .ok _ => .ok (.inr (receipts ++ terminal))

def failedTurnResultKinds : List TurnResultKind :=
  [.hostFailure, .validationFailed, .writebackFailed, .quotaSpendFailed, .terminalCloseoutFailed]

def validateTurnOutcomeKind : Option TurnResultKind → Except String Unit
  | none => .ok ()
  | some kind =>
    if kind = .iterationFailed then
      .error "Turn settlement cannot run for iteration stop result_kind iteration_failed"
    else if kind ∈ failedTurnResultKinds then
      .error ("Turn settlement cannot complete with failed result_kind " ++ kind.text)
    else .ok ()

def reductionWithTurnOutcome (request : TurnSettlementRequest) (state : TurnSettlementState)
    (receipts : List SettlementReceipt) : Except String TurnSettlementReduction := do
  validateTurnOutcomeKind request.turnResultKind
  let completion (payload : Option Payload) := payload.bind (fun fields => fields.lookup "completion")
  let terminal := completion request.terminalCloseoutPayload
  let observed := if terminal = none ∨ terminal = some .null then completion state.writeback
    else terminal
  .ok (.complete state receipts (request.turnResultKind.map (fun kind =>
    ⟨kind, state.completedPhases, none,
      if kind = .validatedCompletion then observed else none⟩)))

/-- The end of a settlement whose providers have all committed. -/
def reduceCommitted (request : TurnSettlementRequest) (receipts : List SettlementReceipt) :
    Except String TurnSettlementReduction :=
  match request.effectAttempts with
  | (step, _) :: _ =>
    .ok (.failed ⟨.receiptMissing, .provider step,
      "Turn settlement has a prepared effect after its provider phase"⟩ receipts none)
  | [] =>
    if request.providerObservations ≠ [] ∨ request.returnedProviderAttempt.isSome then
      .ok (.failed ⟨.receiptMissing, .provider .quotaSpend,
        "Turn settlement has provider evidence after its provider phase"⟩ receipts none)
    else if request.failedProviderAttempt.isSome then
      .error "failed_provider_attempt remains after all required settlement effects committed"
    else
      reductionWithTurnOutcome request
        ⟨request.completedPhases, request.writebackPayload, request.quotaSpendPayload⟩ receipts

/-- A writeback that settles a completion declares how the goal goes on. -/
def writebackCompletionError (request : TurnSettlementRequest)
    (identity : BoundSettlementIdentity) : Option String :=
  match request.writebackPayload with
  | none => none
  | some payload =>
    if request.turnResultKind = some .validatedCompletion ∧ !request.terminalCloseoutRequired then
      match nonTerminalCompletionError identity payload with
      | .error reason => some reason
      | .ok _ => none
    else none

/-- The checks of a request that come before its journal prefix is read. -/
def requestFailure (request : TurnSettlementRequest) (identity : BoundSettlementIdentity) :
    Option SettlementFailure :=
  let mismatched := [ProviderStepKind.durableWriteback, .quotaSpend, .terminalCloseout].find?
    (fun step => !providerPayloadMatchesRef (request.payload step)
      (effectRefOf identity.effectId step))
  if !effectIdsMatch request.committedEffectId identity.effectId then
    some ⟨.identityMismatch, .validation,
      "Turn journal belongs to another settlement effect: journal effect is " ++
        request.committedEffectId.getD "" ++ " but plan effect is " ++ identity.effectId⟩
  else
    match mismatched, request.failedProviderAttempt with
    | some step, _ =>
      some ⟨.identityMismatch, .provider step,
        "Journal provider payload does not match the current operation"⟩
    | none, some attempt =>
      if request.effectAttempts ≠ [] ∨ request.providerObservations ≠ [] ∨
          request.returnedProviderAttempt.isSome then
        some ⟨.receiptMissing, .provider attempt.stepKind,
          "Rejected provider attempt has not been durably aborted"⟩
      else terminalCloseoutFailure
    | none, none => terminalCloseoutFailure
where
  terminalCloseoutFailure : Option SettlementFailure :=
    if request.terminalCloseoutRequired ∧ request.turnResultKind.isSome ∧
        request.turnResultKind ≠ some .validatedCompletion then
      some ⟨.terminalCloseoutRejected, .provider .terminalCloseout,
        "terminal closeout requires a validated completion result"⟩
    else none

def baseSettlementSteps : List SettlementStepKind :=
  [.validation, .provider .durableWriteback, .provider .quotaSpend]

def baseCommittedPayloads (request : TurnSettlementRequest) : SettlementStepKind → Option Payload
  | .validation => some []
  | .provider step => request.payload step

def reduceAdmitted (request : TurnSettlementRequest) (identity : BoundSettlementIdentity) :
    Except String TurnSettlementReduction :=
  match settlementNextAction identity baseSettlementSteps (baseCommittedPayloads request)
      request.completedPhases request.transactionPhases true with
  | .failed failure receipts => .ok (.failed failure receipts none)
  | .execute (.provider .durableWriteback) receipts =>
    reduceBaseProviderAction request identity .durableWriteback receipts
  | .execute (.provider .quotaSpend) receipts =>
    match writebackCompletionError request identity with
    | some reason =>
      .ok (.failed ⟨.receiptMissing, .provider .durableWriteback, reason⟩ receipts none)
    | none => reduceBaseProviderAction request identity .quotaSpend receipts
  | .execute step _ => .error ("unsupported base settlement step " ++ step.text)
  | .complete receipts =>
    match writebackCompletionError request identity with
    | some reason =>
      .ok (.failed ⟨.receiptMissing, .provider .durableWriteback, reason⟩ receipts none)
    | none =>
      match reduceTerminalCloseout request identity receipts with
      | .error reason => .error reason
      | .ok (.inl outcome) => .ok outcome
      | .ok (.inr receipts) => reduceCommitted request receipts

def reduceTurnSettlementRequest (request : TurnSettlementRequest) :
    Except String TurnSettlementReduction :=
  match request.identity with
  | .error failure => .ok (.failed failure [] none)
  | .ok identity =>
    match requestFailure request identity with
    | some failure => .ok (.failed failure [] none)
    | none => reduceAdmitted request identity

def resultKindForFailedStep : SettlementStepKind → TurnResultKind
  | .validation => .validationFailed
  | .provider .durableWriteback => .writebackFailed
  | .provider .quotaSpend => .quotaSpendFailed
  | .provider .terminalCloseout => .terminalCloseoutFailed

/-- A failure is projected under the result kind of the step that failed. -/
def withTurnOutcome (request : TurnSettlementRequest) :
    TurnSettlementReduction → TurnSettlementReduction
  | .failed failure receipts _ =>
    .failed failure receipts (request.turnResultKind.map (fun _ =>
      ⟨resultKindForFailedStep failure.stepKind, request.completedPhases, some failure.stepKind,
        none⟩))
  | reduction => reduction

def reduceTurnSettlementTransaction (request : TurnSettlementRequest) :
    Except String TurnSettlementReduction :=
  (reduceTurnSettlementRequest request).map (withTurnOutcome request)

end Reduction

end Loopx.Turn
