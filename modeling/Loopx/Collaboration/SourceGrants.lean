/- GID: Loopx/Collaboration/SourceGrants
   generality: I
   source: loopx/control_plane/collaboration/source_grants.ts
   digest: Which registered recipients a channel policy delivers to, and how it is configured. -/

import Loopx.Collaboration.SemanticRequest

set_option autoImplicit false
set_option relaxedAutoImplicit false

namespace Loopx.Collaboration

open Loopx.Lib.KeyedList
open Loopx.Lib.Fallible
open Loopx.Json (stringify)
open Loopx.Authority (trim)

/-! ## Reading a policy -/

def requireBoolean (value : Option Json) (label : String) : Checked Bool :=
  match value with
  | some (.bool b) => .ok b
  | _ => .error (invalidRequest (label ++ " must be a boolean"))

def stringItem : Json → Option String
  | .string s => some s
  | _ => none

def requireStringArray (value : Option Json) (label : String) : Checked (List String) :=
  match value with
  | some (.array items) =>
    match items.mapM stringItem with
    | some texts => .ok texts
    | none => .error (invalidRequest (label ++ " must be an array of strings"))
  | _ => .error (invalidRequest (label ++ " must be an array of strings"))

/-- One Agent of a Goal, or without an Agent the entire Goal. -/
structure Recipient where
  goalId : String
  agentId : Option String
deriving DecidableEq, Repr

def Recipient.toJson (recipient : Recipient) : Json :=
  .object (("goal_id", .string recipient.goalId) ::
    (recipient.agentId.map fun agent => ("agent_id", Json.string agent)).toList)

inductive LocalDeliveryScope where
  | allRegistered
  | selected
deriving DecidableEq, Repr

def LocalDeliveryScope.text : LocalDeliveryScope → String
  | .allRegistered => "all_registered"
  | .selected => "selected"

/-- Only absence means the entire Goal. -/
def recipientRow (label : String) (exact : Bool) (row : Json) : Checked Recipient := do
  let item ← requireJsonObject (some row) label
  let goalId ← requireNonEmptyString (item.lookup "goal_id") (label ++ " Goal")
  if exact = false ∧ item.lookup "agent_id" = none then .ok ⟨goalId, none⟩
  else do
    let agentId ← requireNonEmptyString (item.lookup "agent_id") (label ++ " Agent")
    .ok ⟨goalId, some agentId⟩

def recipients (value : Option Json) (label : String) (exact : Bool) : Checked (List Recipient) :=
  match value with
  | some (.array rows) => rows.mapM (recipientRow label exact)
  | _ => .error (invalidRequest (label ++ " must be an array"))

/-- `Object.hasOwn(source, key) ? source[key] : fallback`. -/
def ownOr (source : Fields) (key : String) (fallback : Json) : Option Json :=
  some ((source.lookup key).getD fallback)

def scopeOf (value : Option Json) : Checked LocalDeliveryScope :=
  match value with
  | some (.string "all_registered") => .ok .allRegistered
  | some (.string "selected") => .ok .selected
  | _ => .error (invalidRequest "local delivery scope must be all_registered or selected")

def localScope (source : Fields) : Checked LocalDeliveryScope :=
  scopeOf (ownOr source "local_delivery_scope" (.string "all_registered"))

structure Grants where
  targets : List Recipient
  blocked : List Recipient
  scope : LocalDeliveryScope
deriving DecidableEq, Repr

def grants (source : Fields) : Checked Grants := do
  let targets ← recipients (ownOr source "targets" (.array [])) "context delivery targets" false
  let blocked ← recipients (ownOr source "blocked_targets" (.array []))
    "blocked context recipients" false
  let scope ← localScope source
  .ok ⟨targets, blocked, scope⟩

/-! ## Resolving recipients -/

/-- `matches`: a row of the Goal, for every Agent or for this one. -/
def Recipient.covers (grant target : Recipient) : Bool :=
  grant.goalId = target.goalId && (grant.agentId = none || grant.agentId = target.agentId)

def Grants.granted (g : Grants) (target : Recipient) : Bool :=
  (g.scope = .allRegistered || g.targets.any (·.covers target)) &&
    !g.blocked.any (·.covers target)

/-- `String.prototype.localeCompare` of the host. -/
structure Collation where
  localeCompare : String → String → Ordering

def Collation.rowLe (collation : Collation) (a b : Recipient) : Bool :=
  match collation.localeCompare a.goalId b.goalId with
  | .lt => true
  | .gt => false
  | .eq => collation.localeCompare (a.agentId.getD "") (b.agentId.getD "") ≠ .gt

def requireSender (source params : Fields) : Checked Unit := do
  let sender ← requireNonEmptyString (params.lookup "sender_id") "verified source sender"
  let senders ← requireStringArray (source.lookup "sender_ids") "source senders"
  ensure (sender ∈ senders) "source sender is not authorized"

/-- The registered recipients that a verified sender of the source reaches. -/
def resolveSourceRecipients (collation : Collation) (params : Fields) :
    Checked (List Recipient) := do
  let source ← requireJsonObject (params.lookup "source") "source policy"
  requireSender source params
  let g ← grants source
  let available ← recipients (params.lookup "available") "registered recipients" true
  .ok ((available.filter g.granted).eraseDups.mergeSort collation.rowLe)

/-! ## Configuring a policy -/

def hasSenders (source : Fields) : Checked Unit := do
  let senders ← requireStringArray (source.lookup "sender_ids") "source senders"
  ensure (senders ≠ [] ∧ ∀ sender ∈ senders, trim sender ≠ "")
    "external channel has no valid sender grant"

structure ScopeResult where
  source : Fields
  localDeliveryScope : LocalDeliveryScope
  wouldChange : Bool
deriving DecidableEq

def configureSourceScope (params : Fields) : Checked ScopeResult := do
  let source ← requireJsonObject (params.lookup "source") "source policy"
  let _ ← grants source
  let scope ← scopeOf (params.lookup "local_delivery_scope")
  hasSenders source
  let next := setKey source "local_delivery_scope" (.string scope.text)
  .ok ⟨next, scope, decide (stringify (.object next) ≠ stringify (.object source))⟩

def targetAgent (value : Option Json) : Checked (Option String) :=
  match value with
  | none => .ok none
  | some .null => .ok none
  | some value => do
    let agentId ← requireNonEmptyString (some value) "delivery target Agent"
    .ok (some agentId)

/-- A selected channel grants only Goals it may read. -/
def withinReadScope (source : Fields) (scope : LocalDeliveryScope) (goalId : String) :
    Checked Unit :=
  if scope = .selected ∧ (source.lookup "evidence_goal_ids").isSome then do
    let readGoals ← requireStringArray (source.lookup "evidence_goal_ids") "source read Goals"
    ensure ((∀ id ∈ readGoals, isId id = true) ∧ goalId ∈ readGoals)
      "target Goal is outside the channel read scope"
  else .ok ()

/-- `granted_before`. -/
def Grants.grantedBefore (g : Grants) (target : Recipient) : Bool :=
  if target.agentId = none then
    (g.scope = .allRegistered || target ∈ g.targets) && target ∉ g.blocked
  else g.granted target

def Grants.restored (g : Grants) (target : Recipient) : Grants :=
  { g with
    targets := if g.scope = .selected ∧ g.targets.any (·.covers target) = false then
      g.targets ++ [target] else g.targets
    -- a Goal regrant preserves individual revocations
    blocked := g.blocked.filter (· ≠ target) }

def Grants.restore (g : Grants) (target : Recipient) : Checked Grants := do
  ensure (¬(target.agentId ≠ none ∧ ⟨target.goalId, none⟩ ∈ g.blocked))
    "restore the Goal delivery grant before restoring an individual Agent"
  .ok (g.restored target)

/-- A Goal loses every enrollment, and under `all_registered` it is blocked. -/
def Grants.revokeGoal (g : Grants) (target : Recipient) : Grants :=
  { g with
    targets := g.targets.filter (fun row => row.goalId ≠ target.goalId)
    blocked := if g.scope = .allRegistered ∧ target ∉ g.blocked then g.blocked ++ [target]
      else g.blocked }

/-- An Agent loses its own enrollment, and the revocation is recorded in either scope. -/
def Grants.revokeAgent (g : Grants) (target : Recipient) : Grants :=
  { g with
    targets := g.targets.filter (fun row => !target.covers row)
    blocked := if target ∉ g.blocked then g.blocked ++ [target] else g.blocked }

def Grants.updated (g : Grants) (target : Recipient) (grant : Bool) : Checked Grants :=
  if grant then g.restore target
  else if target.agentId = none then .ok (g.revokeGoal target)
  else .ok (g.revokeAgent target)

def rowsJson (rows : List Recipient) : Json := .array (rows.map Recipient.toJson)

/-- `changed`. -/
def Grants.differs (updated g : Grants) : Bool :=
  stringify (rowsJson updated.targets) ≠ stringify (rowsJson g.targets) ||
    stringify (rowsJson updated.blocked) ≠ stringify (rowsJson g.blocked)

/-- The policy keeps everything else it declares. -/
def writeGrants (source : Fields) (updated : Grants) : Fields :=
  let source := setKey source "targets" (rowsJson updated.targets)
  if updated.blocked = [] then eraseKey source "blocked_targets"
  else setKey source "blocked_targets" (rowsJson updated.blocked)

structure RecipientResult where
  source : Fields
  target : Recipient
  localDeliveryScope : LocalDeliveryScope
  wouldChange : Bool
  grantedBefore : Bool
  grantedAfter : Bool
  existingTargetCount : Nat
  resultingTargetCount : Nat
  includesFutureAgents : Bool
deriving DecidableEq

/-- What a change asks for, and what the host observed of the registry. -/
structure RecipientRequest where
  target : Recipient
  grant : Bool
  available : List Recipient
  activeGoals : List String

def recipientRequest (params : Fields) : Checked RecipientRequest := do
  let goalId ← requireNonEmptyString (params.lookup "goal_id") "delivery target Goal"
  let agentId ← targetAgent (params.lookup "agent_id")
  let grant ← requireBoolean (params.lookup "grant") "delivery grant"
  let available ← recipients (params.lookup "available") "registered recipients" true
  let activeGoals ← requireStringArray (params.lookup "active_goal_ids") "active Goals"
  .ok ⟨⟨goalId, agentId⟩, grant, available, activeGoals⟩

/-- Only a grant is held to the registry; a revocation needs none. -/
def admitGrant (source : Fields) (scope : LocalDeliveryScope) (request : RecipientRequest) :
    Checked Unit :=
  if request.grant then do
    hasSenders source
    ensure (request.target.goalId ∈ request.activeGoals ∧
        (request.target.agentId = none ∨
          request.available.any (fun row => request.target.covers row) = true))
      "delivery target must be a registered Agent or all Agents in an active Goal"
    withinReadScope source scope request.target.goalId
  else .ok ()

def planRecipient (source : Fields) (g : Grants) (request : RecipientRequest) :
    Checked RecipientResult := do
  admitGrant source g.scope request
  let updated ← g.updated request.target request.grant
  let changed := updated.differs g
  .ok ⟨if changed then writeGrants source updated else source, request.target, g.scope, changed,
    g.grantedBefore request.target, request.grant, g.targets.length, updated.targets.length,
    decide (request.target.agentId = none) && request.grant⟩

def configureSourceRecipient (params : Fields) : Checked RecipientResult := do
  let source ← requireJsonObject (params.lookup "source") "source policy"
  let g ← grants source
  let request ← recipientRequest params
  planRecipient source g request

end Loopx.Collaboration
