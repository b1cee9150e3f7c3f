/- GID: Loopx/Goals/AcceptanceDocument
   generality: I
   source: loopx/control_plane/goals/acceptance_contract.ts
   digest: The owner's acceptance document, its normal form and the results of its checks. -/

import Loopx.Goals.AcceptanceLifecycle
import Loopx.Lease.WriteScope

set_option autoImplicit false
set_option relaxedAutoImplicit false

namespace Loopx.Goals.Acceptance

open Loopx.Lib.KeyedList
open Loopx.Lib.Fallible (bind_eq_ok throwWhen)
open Loopx.Json (JsNumber Protocol authorityUnicodeCompare canonicalAuthorityBytes)
open Loopx.Authority (Sha256 canonicalAuthoritySha256 isBareSha256 isHexDigit trim)
open Loopx.Lease (utf16Length)

def acceptanceKeys (value : Fields) (required optional : List String) : Protocol Unit :=
  throwWhen (¬(required.all (fun key => (value.lookup key).isSome) ∧
      (keys value).all (fun key => required.contains key || optional.contains key)))
    "acceptance fields are missing or unsupported"

def acceptanceText (value : Option Json) (label : String) (limit : Nat) : Protocol String :=
  match value with
  | some (.string s) =>
    if trim s ≠ "" ∧ utf16Length s.toList ≤ limit ∧ '\x00' ∉ s.toList then .ok (trim s)
    else .error (label ++ " must be nonempty bounded text")
  | _ => .error (label ++ " must be nonempty bounded text")

/-- `/^[A-Za-z0-9][..]*$/`, the further characters given by their marks. -/
def isToken (marks : List Char) (s : String) : Bool :=
  match s.toList with
  | [] => false
  | c :: rest => c.isAlphanum && rest.all fun c => c.isAlphanum || marks.contains c

def safeToken (label : String) (marks : List Char) (error : String) (value : Option Json) :
    Protocol String := do
  let result ← acceptanceText value label 128
  throwWhen (¬(value = some (.string result) ∧ isToken marks result)) error
  .ok result

def id (value : Option Json) : Protocol String :=
  safeToken "acceptance identifier" ['_', '.', '-']
    "acceptance identifier must be a safe token" value

def criterionId (value : Option Json) : Protocol String :=
  safeToken "acceptance criterion identifier" ['_', '.', ':', '@', '-']
    "acceptance criterion identifier must be an opaque token" value

def list (value : Option Json) (label : String) (max min : Nat) : Protocol (List Json) :=
  match value with
  | some (.array items) =>
    if min ≤ items.length ∧ items.length ≤ max then .ok items
    else .error (label ++ " has invalid size")
  | _ => .error (label ++ " has invalid size")

def sortByUnicode {α : Type} (key : α → String) (l : List α) : List α :=
  l.insertionSort fun a b => authorityUnicodeCompare (key a) (key b) ≤ 0

def unique (values : List String) (label : String) : Protocol (List String) := do
  throwWhen (¬values.Nodup) (label ++ " contains duplicate identifiers")
  .ok (sortByUnicode (fun s => s) values)

/-! ## The document -/

structure ValidationFile where
  path : String
  sha256 : String
deriving DecidableEq

structure AcceptanceCriterion where
  id : String
  description : String
  validationArgv : List String
  validationTimeoutSeconds : Nat
  validationFiles : List ValidationFile
  oracle : Option Json
deriving DecidableEq

inductive AcceptanceScope where
  | allAdvancement
  | goal
  | selectedWork (todoIds : List String)
deriving DecidableEq

structure DeclaredBinding where
  todoId : String
  criterionIds : List String
deriving DecidableEq

structure AcceptanceDocument where
  outcomeId : Option String
  scope : Option AcceptanceScope
  objective : String
  nonGoals : List String
  criteria : List AcceptanceCriterion
  bindings : List DeclaredBinding
deriving DecidableEq

structure AcceptanceResult where
  criterionId : String
  passed : Bool
  exitCode : Option Nat
  oracleEvidence : Option Json
deriving DecidableEq

def strings (items : List String) : Json := .array (items.map Json.string)

def ValidationFile.toJson (file : ValidationFile) : Json :=
  .object [("path", .string file.path), ("sha256", .string file.sha256)]

/-- A field that is written only where it has a value. -/
def optionalField (key : String) (value : Option Json) : Fields :=
  (value.map fun v => (key, v)).toList

def AcceptanceCriterion.toJson (criterion : AcceptanceCriterion) : Json :=
  .object ([("id", .string criterion.id), ("description", .string criterion.description),
    ("validation_argv", strings criterion.validationArgv),
    ("validation_timeout_seconds", .number (JsNumber.ofNat criterion.validationTimeoutSeconds)),
    ("validation_files", .array (criterion.validationFiles.map ValidationFile.toJson))] ++
    optionalField "oracle" criterion.oracle)

def AcceptanceScope.toJson : AcceptanceScope → Json
  | .allAdvancement => .object [("kind", .string "all_advancement")]
  | .goal => .object [("kind", .string "goal")]
  | .selectedWork todoIds =>
    .object [("kind", .string "selected_work"), ("todo_ids", strings todoIds)]

def DeclaredBinding.toJson (binding : DeclaredBinding) : Json :=
  .object [("todo_id", .string binding.todoId), ("criterion_ids", strings binding.criterionIds)]

def AcceptanceDocument.toJson (document : AcceptanceDocument) : Json :=
  .object (optionalField "outcome_id" (document.outcomeId.map .string) ++
    optionalField "scope" (document.scope.map AcceptanceScope.toJson) ++
    [("objective", .string document.objective), ("non_goals", strings document.nonGoals),
      ("criteria", .array (document.criteria.map AcceptanceCriterion.toJson)),
      ("bindings", .array (document.bindings.map DeclaredBinding.toJson))])

def optionalNumber : Option Nat → Json
  | none => .null
  | some n => .number (JsNumber.ofNat n)

def AcceptanceResult.toJson (result : AcceptanceResult) : Json :=
  .object ([("criterion_id", .string result.criterionId), ("passed", .bool result.passed),
    ("exit_code", optionalNumber result.exitCode)] ++
    optionalField "oracle_evidence" result.oracleEvidence)

/-! ## Normal form -/

/-- The modules that the acceptance authority calls: the digest, the oracle provenance of
`acceptance_oracle.ts`, the Todo read model of `coordination_projection.ts`, the outcomes and the
objective of a Goal. Nothing here is assumed of what they answer. -/
structure AcceptanceHost where
  sha : Sha256
  normalizeAcceptanceOracle : Json → AcceptanceCriterion → Protocol Json
  normalizeOracleEvidence : Json → Protocol Json
  validateOracleResults : List AcceptanceCriterion → List AcceptanceResult → Protocol Unit
  /-- `acceptanceTodos`. -/
  acceptanceTodos : Fields → String → Protocol (List (String × Fields))
  goalAcceptanceTodoDigest : Fields → String
  acceptanceBindingMatches : Fields → String → Bool
  goalAcceptanceWorkDigest : Fields → String → Option AcceptanceScope → Protocol String
  /-- The retained requirements and the linked work of an outcome. -/
  goalOutcomeCheckBasis : Fields → String → Option Json → Protocol Fields
  bindGoalOutcomesStateOwner : Fields → String → WireExactGoalRef → Protocol (Option Json)
  /-- The tasks, outcomes and objective that the projection adds to the checks it has read. -/
  projectContract : Fields → String → Protocol Json

variable (host : AcceptanceHost)

def isPathSegment (segment : String) : Bool :=
  segment ≠ "" && segment ≠ "." && segment ≠ ".." &&
    segment.toList.all fun c => c.isAlphanum || c = '.' || c = '_' || c = '-'

def validationFile (value : Json) : Protocol ValidationFile := do
  let file ← authorityFields (some value) "validation file"
  acceptanceKeys file ["path", "sha256"] []
  let path ← acceptanceText (file.lookup "path") "validation file path" 1024
  throwWhen (¬(file.lookup "path" = some (.string path) ∧
      (path.splitOn "/").all isPathSegment))
    ("validation file path must be repository-relative with safe path segments; " ++
      "absolute paths, backslashes and dot segments are forbidden")
  match file.lookup "sha256" with
  | some (.string sha256) =>
    if sha256.toList.length = 64 ∧ sha256.toLower.toList.all isHexDigit then
      .ok ⟨path, sha256.toLower⟩
    else .error "validation file sha256 must contain exactly 64 hexadecimal characters"
  | _ => .error "validation file sha256 must contain exactly 64 hexadecimal characters"

def validationFiles (value : Option Json) : Protocol (List ValidationFile) := do
  let items ← list value "validation files" 16 0
  let files ← items.mapM validationFile
  let _ ← unique (files.map (·.path)) "validation file paths"
  .ok (sortByUnicode (·.path) files)

def normalizeAcceptanceScope (value : Option Json) : Protocol AcceptanceScope := do
  let scope ← authorityFields value "acceptance scope"
  match scope.lookup "kind" with
  | some (.string "goal") => do
    acceptanceKeys scope ["kind"] []
    .ok .goal
  | some (.string "all_advancement") => do
    acceptanceKeys scope ["kind"] []
    .ok .allAdvancement
  | some (.string "selected_work") => do
    acceptanceKeys scope ["kind", "todo_ids"] []
    let items ← list (scope.lookup "todo_ids") "acceptance scope Todos" 4096 1
    let todoIds ← items.mapM fun item => id (some item)
    let todoIds ← unique todoIds "acceptance scope Todos"
    .ok (.selectedWork todoIds)
  | _ => .error "unknown acceptance scope kind"

def acceptanceIncludes (scope : Option AcceptanceScope) (todoId : String) : Bool :=
  match scope with
  | some .goal => false
  | some (.selectedWork todoIds) => todoIds.contains todoId
  | _ => true

def validationArgument (value : Json) : Protocol String :=
  match value with
  | .string arg =>
    if arg ≠ "" ∧ utf16Length arg.toList ≤ 8192 ∧ '\x00' ∉ arg.toList then .ok arg
    else .error "validation argv contains an invalid argument"
  | _ => .error "validation argv contains an invalid argument"

def validationTimeout (value : Option Json) : Protocol Nat :=
  match value with
  | none => .ok 5
  | some .null => .ok 5
  | some (.number n) =>
    match n.safeInteger? with
    | some i =>
      if 1 ≤ i ∧ i ≤ 25 then .ok i.toNat else .error "validation timeout must be 1..25 seconds"
    | none => .error "validation timeout must be 1..25 seconds"
  | some _ => .error "validation timeout must be 1..25 seconds"

def normalizeCriterion (value : Json) : Protocol AcceptanceCriterion := do
  let item ← authorityFields (some value) "acceptance criterion"
  acceptanceKeys item ["id", "description", "validation_argv"]
    ["validation_timeout_seconds", "validation_files", "oracle"]
  let arguments ← list (item.lookup "validation_argv") "validation argv" 128 1
  let argv ← arguments.mapM validationArgument
  throwWhen (argv.head?.any fun arg => trim arg = "") "validation argv requires an executable"
  let timeout ← validationTimeout (item.lookup "validation_timeout_seconds")
  let id ← criterionId (item.lookup "id")
  let description ← acceptanceText (item.lookup "description") "criterion description" 4096
  let files ← validationFiles (some ((item.lookup "validation_files").getD (.array [])))
  let criterion : AcceptanceCriterion := ⟨id, description, argv, timeout, files, none⟩
  match item.lookup "oracle" with
  | none => .ok criterion
  | some oracle => do
    let oracle ← host.normalizeAcceptanceOracle oracle criterion
    .ok { criterion with oracle := some oracle }

def normalizeBinding (criterionIds : List String) (value : Json) : Protocol DeclaredBinding := do
  let item ← authorityFields (some value) "acceptance binding"
  acceptanceKeys item ["todo_id", "criterion_ids"] []
  let items ← list (item.lookup "criterion_ids") "binding criteria" 64 1
  let ids ← items.mapM fun item => criterionId (some item)
  let ids ← unique ids "binding criteria"
  throwWhen (¬ids.all criterionIds.contains) "binding references an unknown criterion"
  let todoId ← id (item.lookup "todo_id")
  .ok ⟨todoId, ids⟩

def outcomeId (value : Option Json) : Protocol (Option String) :=
  match value with
  | none => .ok none
  | some value => do
    let outcome ← acceptanceText (some value) "outcome id" 128
    .ok (some outcome)

def documentScope (value : Option Json) : Protocol (Option AcceptanceScope) :=
  match value with
  | none => .ok none
  | some value => do
    let scope ← normalizeAcceptanceScope (some value)
    .ok (some scope)

def normalizeGoalAcceptanceDocument (value : Option Json) : Protocol AcceptanceDocument := do
  let raw ← authorityFields value "acceptance document"
  acceptanceKeys raw ["objective", "non_goals", "criteria", "bindings"] ["scope", "outcome_id"]
  let scope ← documentScope (raw.lookup "scope")
  throwWhen (262144 < (canonicalAuthorityBytes (.object raw)).size)
    "acceptance document exceeds byte limit"
  let items ← list (raw.lookup "criteria") "acceptance criteria" 64 1
  let criteria ← items.mapM (normalizeCriterion host)
  let criteria := sortByUnicode (fun criterion : AcceptanceCriterion => criterion.id) criteria
  throwWhen (25 < (criteria.map (·.validationTimeoutSeconds)).sum)
    ("acceptance validation timeouts must total at most 25 seconds (default 5 seconds per " ++
      "criterion); lower the timeouts or run longer evaluations outside the completion wrapper")
  let criterionIds ← unique (criteria.map (·.id)) "criteria"
  let items ← list (raw.lookup "bindings") "acceptance bindings" 4096 0
  let bindings ← items.mapM (normalizeBinding criterionIds)
  let bindings := sortByUnicode (fun binding : DeclaredBinding => binding.todoId) bindings
  let _ ← unique (bindings.map (·.todoId)) "bindings"
  throwWhen (¬bindings.all fun binding => acceptanceIncludes scope binding.todoId)
    "acceptance binding is outside the declared scope"
  let outcome ← outcomeId (raw.lookup "outcome_id")
  let objective ← acceptanceText (raw.lookup "objective") "acceptance objective" 4096
  let items ← list (raw.lookup "non_goals") "non-goals" 64 0
  let nonGoals ← items.mapM fun item => acceptanceText (some item) "non-goal" 2048
  .ok ⟨outcome, scope, objective, nonGoals, criteria, bindings⟩

/-- One requirement check of the compact form, with the description it refers to. -/
def requirementCheck (requirements : List Json) (value : Json) : Protocol Json := do
  let check ← authorityFields (some value) "requirement check"
  acceptanceKeys check ["id", "validation_argv"]
    ["validation_timeout_seconds", "validation_files", "oracle"]
  match requirements.find? (fun requirement =>
      match requirement with
      | .object fields => fields.lookup "id" = check.lookup "id"
      | _ => false) with
  | some (.object requirement) =>
    .ok (.object (setKey (setKey check "id" ((requirement.lookup "id").getD .null))
      "description" ((requirement.lookup "description").getD .null)))
  | _ => .error "check references an unknown outcome requirement"

def items : Option Json → List Json
  | some (.array items) => items
  | _ => []

def resolveGoalAcceptanceDocument (head : Fields) (goalId : String) (value : Option Json) :
    Protocol AcceptanceDocument := do
  let raw ← authorityFields value "acceptance document"
  match raw.lookup "outcome_id" with
  | none => normalizeGoalAcceptanceDocument host (some (.object raw))
  | some outcome => do
    acceptanceKeys raw ["outcome_id", "criteria"] ["scope"]
    let scope ← documentScope (raw.lookup "scope")
    let goalOnly := decide (scope = some .goal)
    throwWhen (¬(scope = none ∨ goalOnly))
      "compact outcome checks support only explicit Goal scope"
    let basis ← host.goalOutcomeCheckBasis head goalId (some outcome)
    let todoIds := items (basis.lookup "todo_ids")
    throwWhen (¬(goalOnly ∨ todoIds ≠ [])) "link outcome work before preparing executable checks"
    let checks ← list (raw.lookup "criteria") "acceptance criteria" 64 1
    let criteria ← checks.mapM (requirementCheck (items (basis.lookup "requirements")))
    let ids := criteria.map fun criterion => match criterion with
      | .object fields => (fields.lookup "id").getD .null
      | _ => .null
    normalizeGoalAcceptanceDocument host (some (.object [
      ("outcome_id", (basis.lookup "outcome_id").getD .null),
      ("objective", (basis.lookup "objective").getD .null), ("non_goals", .array []),
      ("scope", if goalOnly then .object [("kind", .string "goal")]
        else .object [("kind", .string "selected_work"), ("todo_ids", .array todoIds)]),
      ("criteria", .array criteria),
      ("bindings", .array (if goalOnly then [] else todoIds.map fun todoId =>
        .object [("todo_id", todoId), ("criterion_ids", .array ids)]))]))

/-! ## The results of a verification -/

def exitCode (value : Option Json) : Protocol (Option Nat) :=
  match value with
  | some .null => .ok none
  | some (.number n) =>
    match n.safeInteger? with
    | some i => if 0 ≤ i ∧ i ≤ 255 then .ok (some i.toNat) else .error "invalid verification result"
    | none => .error "invalid verification result"
  | _ => .error "invalid verification result"

def normalizeResult (value : Json) : Protocol AcceptanceResult := do
  let item ← authorityFields (some value) "verification result"
  acceptanceKeys item ["criterion_id", "passed", "exit_code"] ["schema_version", "command_label",
    "status", "summary", "stdout_captured", "stderr_captured", "local_path_captured",
    "oracle_evidence"]
  throwWhen (["stdout_captured", "stderr_captured", "local_path_captured"].any fun key =>
      (item.lookup key).any fun captured => captured ≠ .bool false)
    "validation result must not capture private output or paths"
  match item.lookup "passed" with
  | some (.bool passed) => do
    let code ← exitCode (item.lookup "exit_code")
    throwWhen (passed ≠ decide (code = some 0)) "criterion pass/fail must agree with exit code zero"
    let id ← criterionId (item.lookup "criterion_id")
    match item.lookup "oracle_evidence" with
    | none => .ok ⟨id, passed, code, none⟩
    | some evidence => do
      let evidence ← host.normalizeOracleEvidence evidence
      .ok ⟨id, passed, code, some evidence⟩
  | _ => .error "invalid verification result"

def normalizeAcceptanceResults (value : Option Json) (expectedIds : Option (List String)) :
    Protocol (List AcceptanceResult) := do
  let items ← list value "verification results" 64 1
  let results ← items.mapM (normalizeResult host)
  let results := sortByUnicode (fun result : AcceptanceResult => result.criterionId) results
  let ids ← unique (results.map (·.criterionId)) "verification results"
  throwWhen (expectedIds.any fun expected => canonicalAuthoritySha256 host.sha (strings ids) ≠
      canonicalAuthoritySha256 host.sha (strings (sortByUnicode (fun s => s) expected)))
    "verification results must cover exactly the required criteria"
  .ok results

end Loopx.Goals.Acceptance
