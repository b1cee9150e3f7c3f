/- GID: Loopx/Goals/AcceptanceAuthority
   generality: I
   source: loopx/control_plane/goals/acceptance_authority.ts
   digest: What configure, verify and the lifecycle transitions write over an observed head. -/

import Loopx.Goals.AcceptanceContract

set_option autoImplicit false
set_option relaxedAutoImplicit false

namespace Loopx.Goals.Acceptance

open Loopx.Lib.KeyedList
open Loopx.Lib.Fallible (bind_eq_ok throwWhen throwWhen_eq_ok)
open Loopx.Json (JsNumber Protocol)
open Loopx.Authority (canonicalAuthoritySha256 requireAuthorityStoreId isBareSha256)

variable (host : AcceptanceHost)

/-- The head a command observed, under the revision the store gave it. -/
structure LoadedHead where
  head : Fields
  providerRevision : String
deriving DecidableEq

/-- A mutation request that passed its checks. -/
structure MutationRequest where
  fields : Fields
  goalId : String
  operationId : String
  expectedProviderRevision : String
  goalRef : Option WireExactGoalRef
  dryRun : Bool

def optionalBoolean (value : Option Json) (label : String) : Protocol Bool :=
  match value with
  | none => .ok false
  | some (.bool b) => .ok b
  | some _ => .error (label ++ " must be boolean")

def requestGoalRef (value : Option Json) : Protocol (Option WireExactGoalRef) :=
  match value with
  | none => .ok none
  | some value => do
    let ref ← parseWireExactGoalRef (some value) "acceptance request goal_ref"
    .ok (some ref)

def checkReviewContext (request : Fields) : Protocol Unit :=
  match request.lookup "review_context_digest" with
  | none => .ok ()
  | some value =>
    throwWhen (¬((bareSha256 (some value)).isSome ∧ request.lookup "document" ≠ some .null ∧
        request.lookup "disable" ≠ some (.bool true)))
      "review context requires a document and its typed acceptance digest"

/-- The verify call may leave its actor out. -/
def withActor (verification : Bool) (request : Fields) : Fields :=
  if verification && (request.lookup "actor_agent_id").isNone then
    setKey request "actor_agent_id" .null
  else request

def mutationRequest (value : Option Json) (verification : Bool) : Protocol MutationRequest := do
  let raw ← authorityFields value "acceptance request"
  let request := withActor verification raw
  acceptanceKeys request
    (["goal_id", "operation_id", "actor_agent_id", "expected_provider_revision"] ++
      (if verification then ["contract_digest", "revision", "results"] else ["document"]))
    (["runtime_root", "dry_run", "goal_ref"] ++
      (if verification then ["todo_id"] else ["disable", "review_context_digest"]))
  throwWhen (request.lookup "actor_agent_id" ≠ some .null)
    ("goal acceptance mutation requires the trusted owner/host; agent actors cannot configure " ++
      "or attest acceptance")
  let goalId ← requireAuthorityStoreId (request.lookup "goal_id") "goal_id"
  let operationId ← requireAuthorityStoreId (request.lookup "operation_id") "operation_id"
  let expected ← requireAuthorityStoreId (request.lookup "expected_provider_revision")
    "expected_provider_revision"
  let _ ← acceptanceText (request.lookup "operation_id") "acceptance operation id" 256
  let dryRun ← optionalBoolean (request.lookup "dry_run") "dry_run"
  if verification then do
    let goalRef ← requestGoalRef (request.lookup "goal_ref")
    .ok ⟨request, goalId, operationId, expected, goalRef, dryRun⟩
  else do
    let _ ← optionalBoolean (request.lookup "disable") "disable"
    checkReviewContext request
    let goalRef ← requestGoalRef (request.lookup "goal_ref")
    .ok ⟨request, goalId, operationId, expected, goalRef, dryRun⟩

/-- The reason codes with which the lifecycle refuses a mutation. -/
def validateCurrentLifecycle (head : Fields) (request : MutationRequest) :
    Protocol (Option String) := do
  let lifecycle ← readGoalAcceptanceLifecycle head request.goalId
  match lifecycle with
  | none => .ok none
  | some lifecycle =>
    match request.goalRef with
    | none => .ok (some "goal_acceptance_goal_instance_missing")
    | some goalRef =>
      if ¬sameExactGoalRef lifecycle.goalRef goalRef then
        .ok (some "goal_acceptance_goal_instance_mismatch")
      else if lifecycle.state = .retiring then .ok (some "goal_acceptance_goal_retiring")
      else .ok none

/-- `current`: whether a command may go on over the head it observed. -/
def admits (loaded : LoadedHead) (request : MutationRequest) (expected : String) :
    Protocol Bool := do
  if loaded.providerRevision ≠ expected then .ok false
  else do
    let _ ← host.acceptanceTodos loaded.head request.goalId
    let refusal ← validateCurrentLifecycle loaded.head request
    .ok refusal.isNone

def reviewedOutcome (head : Fields) (goalId : String) (outcome : Option String) :
    Protocol Fields :=
  match outcome with
  | none => .ok []
  | some outcome => do
    let basis ← host.goalOutcomeCheckBasis head goalId (some (.string outcome))
    .ok [("outcome", .object basis)]

/-- The basis of `reviewContext`: what the owner has looked at. -/
def reviewContext (head : Fields) (goalId : String) (document : AcceptanceDocument) :
    Protocol String := do
  let state ← readGoalAcceptance host head goalId
  let outcome ← reviewedOutcome host head goalId document.outcomeId
  let lifecycle ← readGoalAcceptanceLifecycle head goalId
  let authority ← readGoalAcceptanceAuthority host head goalId
  let work ← host.goalAcceptanceWorkDigest head goalId document.scope
  .ok (canonicalAuthoritySha256 host.sha (.object ([("goal_id", .string goalId),
    ("document", document.toJson)] ++ outcome ++
    [("lifecycle", (lifecycle.map GoalAcceptanceLifecycle.toJson).getD .null),
      ("configuration_revision", .number (JsNumber.ofNat authority.configurationRevision)),
      ("contract", (state.map fun state =>
        ({ state with verification := none } : AcceptanceState).toJson).getD .null),
      ("work_digest", .string work)])))

/-- `projectGoalAcceptance`: it reads the authority before anything else. -/
def projectGoalAcceptance (head : Fields) (goalId : String) : Protocol Json := do
  let _ ← readGoalAcceptanceAuthority host head goalId
  host.projectContract head goalId

/-! ## Configure and verify -/

/-- The lifecycle record and the outcomes that a first exact mutation binds. -/
def bindFirst (head : Fields) (goalId : String) (goalRef : WireExactGoalRef) (next : Fields) :
    Protocol Fields := do
  let next := setKey next "goal_acceptance_lifecycle"
    (GoalAcceptanceLifecycle.toJson ⟨.active, goalRef⟩)
  let outcomes ← host.bindGoalOutcomesStateOwner head goalId goalRef
  .ok (match outcomes with
    | none => next
    | some outcomes => setKey next "goal_outcomes" outcomes)

def bindState (state : Option AcceptanceState) (goalRef : WireExactGoalRef) :
    Protocol (Option AcceptanceState) :=
  match state with
  | none => .ok none
  | some state => do
    let bound ← bindGoalAcceptanceStateOwner state goalRef
    .ok (some bound)

/-- The head and the state of `commit`, before it is projected. -/
def committedHead (request : MutationRequest) (head : Fields) (state : Option AcceptanceState) :
    Protocol (Fields × Option AcceptanceState) := do
  let lifecycle ← readGoalAcceptanceLifecycle head request.goalId
  match request.goalRef, lifecycle with
  | some goalRef, none => do
    let committed ← bindState state goalRef
    let next ← bindFirst host head request.goalId goalRef head
    .ok (next, committed)
  | _, _ => .ok (head, state)

def acceptanceValue (request : MutationRequest) (head : Fields)
    (committed : Option AcceptanceState) : Protocol Json :=
  match committed with
  | some state => .ok state.toJson
  | none => do
    let authority ← readGoalAcceptanceAuthority host head request.goalId
    .ok (clearedGoalAcceptance (authority.configurationRevision + 1) request.goalRef)

/-- `commit` up to its transaction: the next projection, or nothing where it was only planned. -/
def commit (request : MutationRequest) (head : Fields) (state : Option AcceptanceState)
    (reviewed : Bool) : Protocol (Option Fields) := do
  let (next, committed) ← committedHead host request head state
  let value ← acceptanceValue host request head committed
  let next := setKey next "goal_acceptance" value
  let _ ← projectGoalAcceptance host next request.goalId
  match reviewed, committed with
  | true, some committed => do
    if (request.fields.lookup "review_context_digest").isSome then do
      let _ ← reviewContext host next request.goalId committed.document
      .ok (if request.dryRun then none else some next)
    else .ok (if request.dryRun then none else some next)
  | _, _ => .ok (if request.dryRun then none else some next)

def isAdvancement (todo : Fields) : Bool :=
  decide (todo.lookup "role" = some (.string "agent")) &&
    (decide (todo.lookup "task_class" = none) || decide (todo.lookup "task_class" = some .null) ||
      decide (todo.lookup "task_class" = some (.string "advancement_task")))

def requireAdvancement (todos : List (String × Fields)) (error : String) (todoId : String) :
    Protocol Fields :=
  match todos.lookup todoId with
  | some todo => if isAdvancement todo then .ok todo else .error error
  | none => .error error

def confirmBinding (todos : List (String × Fields)) (revision : Nat) (binding : DeclaredBinding) :
    Protocol AcceptanceBinding := do
  let todo ← requireAdvancement todos
    "acceptance binding must reference existing Agent advancement work" binding.todoId
  .ok ⟨binding.todoId, host.goalAcceptanceTodoDigest todo, revision, strings binding.criterionIds⟩

/-- Removing the optional oracle withdraws its current receipt. -/
def keptVerification (document : AcceptanceDocument) (previous : Option AcceptanceState) :
    Option AcceptanceVerification :=
  let verification := previous.bind (·.verification)
  if ¬document.criteria.any (·.oracle.isSome) ∧
      verification.any (fun receipt => receipt.results.any (·.oracleEvidence.isSome)) then none
  else verification

def selectedTodos : Option AcceptanceScope → List String
  | some (.selectedWork todoIds) => todoIds
  | _ => []

/-- The state that a configured document becomes over the previous one. -/
def configuredState (request : MutationRequest) (head : Fields) (document : AcceptanceDocument)
    (previous : Option AcceptanceState) : Protocol AcceptanceState := do
  let todos ← host.acceptanceTodos head request.goalId
  let _ ← (selectedTodos document.scope).mapM (requireAdvancement todos
    "acceptance scope must reference existing Agent advancement work")
  let authority ← readGoalAcceptanceAuthority host head request.goalId
  let revision := authority.configurationRevision + 1
  throwWhen (JsNumber.maxSafeInteger < revision) "acceptance revision exhausted"
  let bindings ← document.bindings.mapM (confirmBinding host todos revision)
  .ok ⟨request.goalRef, revision, canonicalAuthoritySha256 host.sha document.toJson, document,
    bindings, keptVerification document previous⟩

/-- The revision a configure call is admitted at: the observed one once the review still holds. -/
def admittedRevision (loaded : LoadedHead) (request : MutationRequest)
    (document : Option AcceptanceDocument) : Protocol (Option String) :=
  match request.fields.lookup "review_context_digest" with
  | none => .ok (some request.expectedProviderRevision)
  | some reviewed => do
    let _ ← host.acceptanceTodos loaded.head request.goalId
    match document with
    | none => .ok none
    | some document => do
      let context ← reviewContext host loaded.head request.goalId document
      .ok (if some reviewed = some (.string context) then some loaded.providerRevision else none)

/-- `document` of a configure call. -/
def requestDocument (loaded : LoadedHead) (request : MutationRequest) :
    Protocol (Option AcceptanceDocument) :=
  if request.fields.lookup "document" = some .null then .ok none
  else do
    let document ← resolveGoalAcceptanceDocument host loaded.head request.goalId
      (request.fields.lookup "document")
    .ok (some document)

/-- `configureGoalAcceptance` over a loaded head, past the receipts of earlier runs. -/
def configureGoalAcceptance (loaded : LoadedHead) (value : Option Json) :
    Protocol (Option Fields) := do
  let request ← mutationRequest value false
  throwWhen (request.fields.lookup "disable" = some (.bool true) ∧
    request.fields.lookup "document" ≠ some .null) "legacy disable requires document:null"
  let document ← requestDocument host loaded request
  let admission ← admittedRevision host loaded request document
  match admission with
  | none => .ok none
  | some expected => do
    let admitted ← admits host loaded request expected
    if ¬admitted then .ok none
    else do
      let previous ← readGoalAcceptance host loaded.head request.goalId
      match document with
      | none => commit host request loaded.head none false
      | some document =>
        if document.scope = none then .ok none
        else do
          let state ← configuredState host request loaded.head document previous
          commit host request loaded.head (some state) true

def acceptanceTaskCriteria (todos : List (String × Fields)) (state : AcceptanceState)
    (todoId : String) : Protocol (List String) :=
  match state.bindings.find? (fun binding => binding.todoId = todoId) with
  | none => .error "goal_acceptance_unbound"
  | some binding =>
    if (todos.lookup todoId).any fun todo =>
        host.acceptanceBindingMatches todo binding.todoSemanticDigest then
      .ok (criterionTexts binding.criterionIds)
    else .error "goal_acceptance_stale"

def verifiedCriteria (head : Fields) (goalId : String) (state : AcceptanceState)
    (todoId : Option String) : Protocol (List String) :=
  match todoId with
  | none => .ok (state.document.criteria.map (·.id))
  | some todoId => do
    let todos ← host.acceptanceTodos head goalId
    acceptanceTaskCriteria host todos state todoId

def verificationTodoId (value : Option Json) : Protocol (Option String) :=
  match value with
  | none => .ok none
  | some .null => .ok none
  | value => do
    let todoId ← requireAuthorityStoreId value "verification todo_id"
    .ok (some todoId)

/-- `commitGoalAcceptanceVerification` over a loaded head, past the receipts of earlier runs. -/
def commitGoalAcceptanceVerification (loaded : LoadedHead) (value : Option Json) :
    Protocol (Option Fields) := do
  let request ← mutationRequest value true
  throwWhen (¬((positiveRevision (request.fields.lookup "revision")).isSome ∧
    (bareSha256 (request.fields.lookup "contract_digest")).isSome))
    "invalid verification contract basis"
  let todoId ← verificationTodoId (request.fields.lookup "todo_id")
  let results ← normalizeAcceptanceResults host (request.fields.lookup "results") none
  let admitted ← admits host loaded request request.expectedProviderRevision
  if ¬admitted then .ok none
  else do
    let state ← readGoalAcceptance host loaded.head request.goalId
    match state with
    | none => .error "no executable checks are configured"
    | some state =>
      if ¬(positiveRevision (request.fields.lookup "revision") = some state.revision ∧
          request.fields.lookup "contract_digest" = some (.string state.digest)) then .ok none
      else do
        let criterionIds ← verifiedCriteria host loaded.head request.goalId state todoId
        let _ ← normalizeAcceptanceResults host
          (some (.array (results.map AcceptanceResult.toJson))) (some criterionIds)
        host.validateOracleResults state.document.criteria results
        let work ← host.goalAcceptanceWorkDigest loaded.head request.goalId state.document.scope
        let verification : AcceptanceVerification :=
          ⟨request.operationId, state.revision, state.digest, work, todoId, results⟩
        commit host request loaded.head
          (some { state with verification := some verification }) false

/-! ## Lifecycle transitions -/

inductive LifecyclePlan where
  | commit (lifecycle : GoalAcceptanceLifecycle) (acceptance : Option Json)
  | noChange (lifecycle : GoalAcceptanceLifecycle)
  | failure (reasonCode : String)

/-- The state that the first binding of a head gives to `owner`. -/
def initialAcceptance (head : Fields) (goalId : String) (owner : WireExactGoalRef) :
    Protocol (Option Json) := do
  let authority ← readGoalAcceptanceAuthority host head goalId
  match authority.usable with
  | none =>
    .ok (if authority.configurationRevision = 0 then none
      else some (clearedGoalAcceptance authority.configurationRevision (some owner)))
  | some state => do
    let bound ← bindGoalAcceptanceStateOwner state owner
    .ok (some bound.toJson)

def planSuccessor (head : Fields) (goalId : String) (current : GoalAcceptanceLifecycle)
    (retired goalRef : WireExactGoalRef) : Protocol LifecyclePlan :=
  if current.state ≠ .retiring ∨ ¬sameExactGoalRef current.goalRef retired then
    .ok (.failure "goal_acceptance_goal_instance_mismatch")
  else do
    let state ← readGoalAcceptance host head goalId
    .ok (.commit ⟨.active, goalRef⟩ (state.map AcceptanceState.toJson))

def planLifecycleTransition (head : Fields) (goalId : String)
    (transition : GoalAcceptanceLifecycleTransition) : Protocol LifecyclePlan := do
  let current ← readGoalAcceptanceLifecycle head goalId
  match transition, current with
  | .bindExisting goalRef, none => do
    let acceptance ← initialAcceptance host head goalId goalRef
    .ok (.commit ⟨.active, goalRef⟩ acceptance)
  | .bindExisting goalRef, some current =>
    .ok (if ¬sameExactGoalRef current.goalRef goalRef then
        .failure "goal_acceptance_goal_instance_mismatch"
      else if current.state = .active then .noChange current
      else .failure "goal_acceptance_goal_retiring")
  | .reconcileRecreated retired goalRef, none => do
    let acceptance ← initialAcceptance host head goalId retired
    .ok (.commit ⟨.active, goalRef⟩ acceptance)
  | .retire _, none => .ok (.failure "goal_acceptance_lifecycle_unbound")
  | .activateSuccessor _ _, none => .ok (.failure "goal_acceptance_lifecycle_unbound")
  | .retire goalRef, some current => do
    let authority ← readGoalAcceptanceAuthority host head goalId
    .ok (if ¬sameExactGoalRef current.goalRef goalRef then
        .failure "goal_acceptance_goal_instance_mismatch"
      else if current.state = .retiring then .noChange current
      else .commit { current with state := .retiring }
        (authority.usable.map AcceptanceState.toJson))
  | .activateSuccessor retired goalRef, some current => do
    let _ ← readGoalAcceptanceAuthority host head goalId
    planSuccessor host head goalId current retired goalRef
  | .reconcileRecreated retired goalRef, some current => do
    let _ ← readGoalAcceptanceAuthority host head goalId
    if sameExactGoalRef current.goalRef goalRef then .ok (.noChange current)
    else planSuccessor host head goalId current retired goalRef

/-- The owner whose outcomes a first binding takes. -/
def initialOwner : GoalAcceptanceLifecycleTransition → Option WireExactGoalRef
  | .bindExisting goalRef => some goalRef
  | .reconcileRecreated retired _ => some retired
  | _ => none

structure LifecycleRequest where
  goalId : String
  transition : GoalAcceptanceLifecycleTransition

def lifecycleRequest (value : Option Json) : Protocol LifecycleRequest := do
  let request ← authorityFields value "goal acceptance lifecycle request"
  acceptanceKeys request ["goal_id", "operation_id", "actor_agent_id", "transition"]
    ["runtime_root"]
  throwWhen (request.lookup "actor_agent_id" ≠ some .null)
    "goal acceptance lifecycle transition requires the trusted source owner"
  let goalId ← requireAuthorityStoreId (request.lookup "goal_id") "goal_id"
  let _ ← acceptanceText (request.lookup "operation_id")
    "goal acceptance lifecycle operation id" 256
  let transition ← parseGoalAcceptanceLifecycleTransition (request.lookup "transition")
  throwWhen (transition.goalRef.goalId ≠ goalId)
    "goal acceptance lifecycle transition changed the Goal alias"
  match transition with
  | .activateSuccessor retired _ => do
    throwWhen (retired.goalId ≠ goalId)
      "goal acceptance lifecycle transition changed the Goal alias"
    .ok ⟨goalId, transition⟩
  | transition => .ok ⟨goalId, transition⟩

def plannedHead (head : Fields) (lifecycle : GoalAcceptanceLifecycle) (acceptance : Option Json) :
    Fields :=
  let next := setKey head "goal_acceptance_lifecycle" lifecycle.toJson
  match acceptance with
  | none => next
  | some acceptance => setKey next "goal_acceptance" acceptance

/-- The outcomes that follow the first binding of a head. -/
def bindOutcomes (head : Fields) (request : LifecycleRequest) (next : Fields) :
    Protocol Fields := do
  let lifecycle ← readGoalAcceptanceLifecycle head request.goalId
  match lifecycle, initialOwner request.transition with
  | none, some owner => do
    let outcomes ← host.bindGoalOutcomesStateOwner head request.goalId owner
    .ok (match outcomes with
      | none => next
      | some outcomes => setKey next "goal_outcomes" outcomes)
  | _, _ => .ok next

/-- `transitionGoalAcceptanceLifecycle` over a loaded head, past the receipts of earlier runs. -/
def transitionGoalAcceptanceLifecycle (loaded : LoadedHead) (value : Option Json) :
    Protocol (Option Fields) := do
  let request ← lifecycleRequest value
  let _ ← host.acceptanceTodos loaded.head request.goalId
  let plan ← planLifecycleTransition host loaded.head request.goalId request.transition
  match plan with
  | .failure _ => .ok none
  | .noChange lifecycle => do
    let next := plannedHead loaded.head lifecycle none
    let _ ← projectGoalAcceptance host next request.goalId
    .ok (some next)
  | .commit lifecycle acceptance => do
    let next ← bindOutcomes host loaded.head request
      (plannedHead loaded.head lifecycle acceptance)
    let _ ← projectGoalAcceptance host next request.goalId
    .ok (some next)

end Loopx.Goals.Acceptance
