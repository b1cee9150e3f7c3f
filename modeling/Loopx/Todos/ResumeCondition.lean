/- GID: Loopx/Todos/ResumeCondition
   generality: I
   source: loopx/control_plane/todos/resume_condition.ts
   digest: Waits for a merged pull request: their decoding, evaluation and retained evidence. -/

import Loopx.Todos.MonitorMetadata
import Loopx.Lease.WriteScope

set_option autoImplicit false
set_option relaxedAutoImplicit false

namespace Loopx.Todos

open Loopx.Lib.KeyedList
open Loopx.Json (JsNumber)
open Loopx.Authority (isJsSpace trim)
open Loopx.Lease (HostText)

/-- The host's text functions, and the clock text of a `resume_at` wait where it is a valid time. -/
structure ResumeHost extends HostText where
  resumeTimestamp : List Char → Option (List Char)

inductive TodoResumeKind where
  | todoDone
  | prMerged
  | capacityAvailable
  | monitorChanged
  | resumeAt
deriving DecidableEq, Repr

def TodoResumeKind.text : TodoResumeKind → List Char
  | .todoDone => "todo_done".toList
  | .prMerged => "pr_merged".toList
  | .capacityAvailable => "capacity_available".toList
  | .monitorChanged => "monitor_changed".toList
  | .resumeAt => "resume_at".toList

def TODO_RESUME_KINDS : List TodoResumeKind :=
  [.todoDone, .prMerged, .capacityAvailable, .monitorChanged, .resumeAt]

structure ResumeSpec where
  kind : TodoResumeKind
  target : List Char
  normalized : List Char
deriving DecidableEq, Repr

/-! ## Patterns

The texts are in lower case, so the flag `i` of the source's patterns adds nothing. -/

/-- The rest of a text behind its prefix. -/
def afterPrefix (front text : List Char) : Option (List Char) :=
  if front.isPrefixOf text then some (text.drop front.length) else none

/-- `[a-z\d…]` with the extra characters of a pattern. -/
def isLowerDigitOr (extra : List Char) (c : Char) : Bool := c.isLower || c.isDigit || c ∈ extra

def isTodoIdText (value : List Char) : Bool :=
  match afterPrefix "todo_".toList value with
  | some rest => rest.all (isLowerDigitOr ['_', '-']) && 3 ≤ rest.length && rest.length ≤ 64
  | none => false

def isCapabilityText (value : List Char) : Bool :=
  value.head?.any Char.isLower && value.all (isLowerDigitOr ['_', ':', '-']) &&
    value.length ≤ 64

/-- A name, and behind a colon what it waits for. -/
def isResumeText (value : List Char) : Bool :=
  let name := value.takeWhile (fun c => c ≠ ':')
  name.head?.any Char.isLower && name.all (isLowerDigitOr ['_', '-']) && name.length ≤ 32 &&
    match value.dropWhile (fun c => c ≠ ':') with
    | [] => true
    | _ :: target =>
      target.all (isLowerDigitOr ['_', '.', ':', '@', '#', '/', '-']) && 1 ≤ target.length &&
        target.length ≤ 181

def isRepositoryCharacter (c : Char) : Bool := isLowerDigitOr ['_', '.', '-'] c

/-- `owner/name` in the characters of a repository reference. -/
def isRepositoryText (value : List Char) : Bool :=
  let owner := value.takeWhile (fun c => c ≠ '/')
  let name := (value.dropWhile (fun c => c ≠ '/')).drop 1
  '/' ∈ value && owner ≠ [] && owner.all isRepositoryCharacter &&
    name ≠ [] && name.all isRepositoryCharacter

/-- The part of `PR_RESUME_PATTERN` behind the colon. -/
def isPrResumeTarget (target : List Char) : Bool :=
  let repo := target.takeWhile (fun c => c ≠ '#')
  let owner := repo.takeWhile (fun c => c ≠ '/')
  (repo = [] || isRepositoryText repo && owner.length ≤ 80 &&
      repo.length ≤ owner.length + 101) &&
    match target.dropWhile (fun c => c ≠ '#') with
    | _ :: first :: digits =>
      first.isDigit && first ≠ '0' && digits.all Char.isDigit && digits.length ≤ 8
    | _ => false

def isWordCharacter (c : Char) : Bool := c.isAlphanum || c == '_'

/-- Repository and digits of `GITHUB_PULL_URL_PATTERN`. -/
def githubPullUrl (candidate : List Char) : Option (List Char × List Char) := do
  let rest ← afterPrefix "https://github.com/".toList candidate
  let owner := rest.takeWhile (fun c => c ≠ '/')
  let rest ← afterPrefix ['/'] (rest.dropWhile (fun c => c ≠ '/'))
  let name := rest.takeWhile (fun c => c ≠ '/')
  let rest ← afterPrefix "/pull/".toList (rest.dropWhile (fun c => c ≠ '/'))
  let digits := rest.takeWhile Char.isDigit
  let rest := rest.dropWhile Char.isDigit
  if owner = [] ∨ name = [] ∨ digits = [] ∨ rest.head?.any isWordCharacter then none
  else some (owner ++ '/' :: name, digits)

/-- Repository, if any, and digits of `PR_REF_PATTERN`. -/
def prRefText (candidate : List Char) : Option (Option (List Char) × List Char) :=
  if '#' ∈ candidate then
    let repo := candidate.takeWhile (fun c => c ≠ '#')
    let digits := (candidate.dropWhile (fun c => c ≠ '#')).drop 1
    if digits = [] ∨ !digits.all Char.isDigit then none
    else if repo = [] then some (none, digits)
    else if isRepositoryText repo then some (some repo, digits)
    else none
  else
    match afterPrefix "pr".toList candidate with
    | none => none
    | some rest =>
      let digits := rest.dropWhile (fun c => c == '-' || c == '_' || isJsSpace c)
      if digits = [] ∨ !digits.all Char.isDigit then none else some (none, digits)

/-! ## Items -/

structure TodoItem where
  todoId : String
  role : Option String
  status : Option String
  taskClass : Option String
  archiveState : Option String
  sourceSection : Option String
  claimedBy : Option String
  taskRepository : Option String
  nextDueAt : Option String
  expiresAt : Option String
  resumeWhen : Option String
  resumeMonitorGeneration : Option Nat
  materialChangeGeneration : Option Nat
deriving DecidableEq, Repr

def requireNonEmptyString (value : Option Json) (label : String) : Plan String :=
  match value with
  | some (.string s) =>
    if trim s = "" then .error (label ++ " must be a non-empty string") else .ok s
  | _ => .error (label ++ " must be a non-empty string")

def requireInteger (value : Option Json) (label : String) : Plan Int :=
  match value with
  | some (.number n) =>
    match n.toInt? with
    | some i => .ok i
    | none => .error (label ++ " must be an integer")
  | _ => .error (label ++ " must be an integer")

/-- The number of a generation field, written as an integer or in digits. -/
def generationNumber (value : Option Json) (label : String) : Plan Int :=
  match value with
  | some (.string s) =>
    if s ≠ "" ∧ s.toList.all Char.isDigit then .ok (Nat.ofDigitChars 10 s.toList 0)
    else requireInteger value label
  | value => requireInteger value label

def nonNegativeInteger (value : Option Json) (label : String) : Plan (Option Nat) := do
  if nullish value ∨ value = some (.string "") then .ok none
  else
    let normalized ← generationNumber value label
    if normalized < 0 ∨ (JsNumber.maxSafeInteger : Int) < normalized then
      .error (label ++ " must be a non-negative integer")
    else .ok (some normalized.toNat)

def todoId (host : HostText) (value : Option Json) (label : String) : Plan String := do
  let raw ← requireNonEmptyString value label
  let normalized := host.toLowerCase (trim raw).toList
  if isTodoIdText normalized then .ok (String.ofList normalized)
  else .error (label ++ " must be a valid todo_id")

def optionalString (value : Option Json) (label : String) : Plan (Option String) := do
  let normalized ← optionalNonEmptyString value label
  .ok (normalized.map trim)

def todoItem (host : HostText) (value : Json) (label : String) : Plan TodoItem := do
  let raw ← requireJsonObject (some value) label
  let read := fun field => optionalString (raw.lookup field) (label ++ "." ++ field)
  let id ← todoId host (raw.lookup "todo_id") (label ++ ".todo_id")
  let role ← read "role"
  let status ← read "status"
  let taskClass ← read "task_class"
  let archiveState ← read "archive_state"
  let sourceSection ← read "source_section"
  let claimedBy ← read "claimed_by"
  let taskRepository ← read "task_repository"
  let nextDueAt ← read "next_due_at"
  let expiresAt ← read "expires_at"
  let resumeWhen ← read "resume_when"
  let resumeGeneration ← nonNegativeInteger (raw.lookup "resume_monitor_generation")
    (label ++ ".resume_monitor_generation")
  let materialGeneration ← nonNegativeInteger (raw.lookup "material_change_generation")
    (label ++ ".material_change_generation")
  .ok ⟨id, role, status, taskClass, archiveState, sourceSection, claimedBy, taskRepository,
    nextDueAt, expiresAt, resumeWhen, resumeGeneration, materialGeneration⟩

/-- A wait that is not a wake-up time. -/
def parseNamedResume (normalized : List Char) : Option ResumeSpec :=
  if !isResumeText normalized then none
  else
    let name := normalized.takeWhile (fun c => c ≠ ':')
    match normalized.dropWhile (fun c => c ≠ ':') with
    | [] => none
    | _ :: target =>
      match TODO_RESUME_KINDS.find? (fun kind => decide (kind.text = name)) with
      | none => none
      | some kind =>
        if (kind = .todoDone ∨ kind = .monitorChanged) ∧ !isTodoIdText target then none
        else if kind = .capacityAvailable ∧ !isCapabilityText target then none
        else if kind = .prMerged ∧ !isPrResumeTarget target then none
        else some ⟨kind, target, normalized⟩

def parseResumeWhen (host : ResumeHost) (value : Option String) : Option ResumeSpec :=
  match value with
  | none => none
  | some value =>
    let candidate := (trim value).toList
    let normalized := host.toLowerCase candidate
    -- only a wake-up time is read before the text is lowered
    if "resume_at:".toList.isPrefixOf normalized then
      (host.resumeTimestamp (candidate.drop "resume_at:".length)).map
        (fun iso => ⟨.resumeAt, iso, "resume_at:".toList ++ iso⟩)
    else parseNamedResume normalized

/-! ## References -/

/-- A pull request. Numbers beyond the safe integers never meet a wait, whose number has at most
nine digits. -/
structure PrRef where
  repo : Option (List Char)
  number : Nat
  normalized : List Char
deriving DecidableEq, Repr

/-- `normalizedString`, and the candidate text of the reference readers. -/
def normalizedString (host : HostText) (value : Option Json) : List Char :=
  match value with
  | some (.string s) => host.toLowerCase (trim s).toList
  | _ => []

def digitsValue (digits : List Char) : Nat := Nat.ofDigitChars 10 digits 0

/-- `${repo ?? ""}#${number}`. -/
def prKey (repo : Option (List Char)) (number : Nat) : List Char :=
  repo.getD [] ++ '#' :: Nat.toDigits 10 number

def readPrRef (candidate : List Char) : Option PrRef :=
  match githubPullUrl candidate with
  | some (repo, digits) => some ⟨some repo, digitsValue digits, repo ++ '#' :: digits⟩
  | none =>
    (prRefText candidate).map fun (repo, digits) =>
      ⟨repo, digitsValue digits, prKey repo (digitsValue digits)⟩

def normalizedPrRef (host : HostText) (value : Option Json) : Option PrRef :=
  readPrRef (normalizedString host value)

def sourcePrRefCandidates (host : HostText) (value : Option Json) : List (Option Json) :=
  match value with
  | some (.array items) => items.flatMap fun
    | .object sourceRef =>
      let kind := normalizedString host (sourceRef.lookup "kind")
      if kind = "pull_request".toList ∨ kind = "pr".toList then [sourceRef.lookup "ref"] else []
    | _ => []
  | _ => []

/-- One reference for each pull request, where it stood first and as it was written last. -/
def uniquePrRefs (host : HostText) (candidates : List (Option Json)) : List PrRef :=
  let refs := candidates.filterMap (normalizedPrRef host)
  (ofEntries (refs.map fun ref => (prKey ref.repo ref.number, ref))).map Prod.snd

def rolloutEventPrRefs (host : HostText) (event : Fields) : List PrRef :=
  let codeRefs := match event.lookup "code_refs" with
    | some (.object fields) => fields
    | _ => []
  uniquePrRefs host (codeRefs.lookup "pr_ref" :: event.lookup "pr_ref" ::
    sourcePrRefCandidates host (event.lookup "source_refs"))

/-- `repository.replace(/\/+$/, "")`. -/
def dropTrailingSlashes (value : List Char) : List Char :=
  (value.reverse.dropWhile (fun c => c == '/')).reverse

def githubRepository (host : HostText) (value : Option String) : Option (List Char) :=
  match afterPrefix "git:github.com/".toList (normalizedString host (value.map Json.string)) with
  | none => none
  | some rest =>
    let repository := dropTrailingSlashes rest
    if repository.count '/' = 1 then some repository else none

/-! ## Evaluation -/

def PR_MERGED_EVENT_KINDS : List (List Char) :=
  ["pr_merge".toList, "pr_merged".toList, "pull_request_merge".toList,
    "pull_request_merged".toList]

structure PrMergedEvent where
  event : Fields
  refs : List PrRef

def prMergedEvents (host : HostText) (rolloutEvents : List Fields) : List PrMergedEvent :=
  rolloutEvents.filterMap fun event =>
    if normalizedString host (event.lookup "event_kind") ∈ PR_MERGED_EVENT_KINDS then
      some ⟨event, rolloutEventPrRefs host event⟩
    else none

/-- Insert into a set that keeps its order of insertion. -/
def insertOnce (keys : List (List Char)) (key : List Char) : List (List Char) :=
  if key ∈ keys then keys else keys ++ [key]

/-- The first eight texts in the host's order. -/
def firstEight (host : HostText) (keys : List (List Char)) : List (List Char) :=
  (keys.mergeSort
    (fun a b => host.localeCompare (String.ofList a) (String.ofList b) != .gt)).take 8

/-- The diagnostic candidates of an unqualified number. -/
def candidatePrRefs (host : HostText) (events : List PrMergedEvent) (number : Nat) :
    List (List Char) :=
  let refs := events.flatMap fun event =>
    event.refs.filter fun ref => ref.number = number && ref.repo.isSome
  firstEight host ((refs.map PrRef.normalized).foldl insertOnce [])

inductive PrBinding where
  | bound (repository : List Char) (source : String)
  | ambiguous (reason : String) (candidates : List (List Char))
deriving DecidableEq, Repr

def PrBinding.repository : PrBinding → Option (List Char)
  | .bound repository _ => some repository
  | .ambiguous _ _ => none

def resolvePrRepositoryBinding (host : HostText) (targetRef : PrRef) (item : TodoItem)
    (events : List PrMergedEvent) : PrBinding :=
  match targetRef.repo with
  | some repo => .bound repo "qualified_resume_when"
  | none =>
    match githubRepository host item.taskRepository with
    | some repository => .bound repository "task_repository"
    | none =>
      .ambiguous
        (if item.taskRepository.isSome then "task_repository_not_github"
          else "task_repository_missing")
        (candidatePrRefs host events targetRef.number)

structure PrMergeMatch where
  eventId : Json
  eventKind : Json
  prRef : List Char
  eventAt : Json
deriving DecidableEq

def matchingPrMerge (targetRef : PrRef) (targetRepo : List Char) :
    List PrMergedEvent → Option PrMergeMatch
  | [] => none
  | ⟨event, refs⟩ :: events =>
    match refs.find? (fun ref => ref.number = targetRef.number && ref.repo = some targetRepo) with
    | none => matchingPrMerge targetRef targetRepo events
    | some matched =>
      some ⟨(event.lookup "event_id").getD .null, (event.lookup "event_kind").getD .null,
        matched.normalized, (event.lookup "recorded_at").getD .null⟩

/-- What the evaluation of a wait for a merge projects. -/
structure PrMergedCondition where
  prNumber : Option Nat
  invalidTarget : Bool
  binding : Option PrBinding
  merge : Option PrMergeMatch
deriving DecidableEq

def PrMergedCondition.satisfied (condition : PrMergedCondition) : Bool := condition.merge.isSome

def PrMergedCondition.matchedPrRef (condition : PrMergedCondition) : Option (List Char) :=
  condition.merge.map PrMergeMatch.prRef

def prMergedCondition (host : HostText) (spec : ResumeSpec) (item : TodoItem)
    (rolloutEvents : List Fields) : PrMergedCondition :=
  match normalizedPrRef host (some (.string (String.ofList spec.target))) with
  | none => ⟨none, true, none, none⟩
  | some targetRef =>
    let events := prMergedEvents host rolloutEvents
    let binding := resolvePrRepositoryBinding host targetRef item events
    ⟨some targetRef.number, false, some binding,
      binding.repository.bind (fun repo => matchingPrMerge targetRef repo events)⟩

/-! ## Retained evidence -/

/-- What the items wait for: references bound to a repository, and bare numbers. -/
structure MergeWaits where
  exact : List (List Char)
  unbound : List Nat

def addWait (host : ResumeHost) (waits : MergeWaits) (item : TodoItem) : MergeWaits :=
  match parseResumeWhen host item.resumeWhen with
  | none => waits
  | some spec =>
    if spec.kind ≠ .prMerged then waits
    else
      match normalizedPrRef host.toHostText (some (.string (String.ofList spec.target))) with
      | none => waits
      | some ref =>
        match ref.repo.or (githubRepository host.toHostText item.taskRepository) with
        | some repo => { waits with exact := prKey (some repo) ref.number :: waits.exact }
        | none => { waits with unbound := ref.number :: waits.unbound }

/-- A text field of an event, trimmed, where it says something. -/
def factText (event : Fields) (key : String) : Fields :=
  match event.lookup key with
  | some (.string s) => if trim s = "" then [] else [(key, .string (trim s))]
  | _ => []

def mergeFact (host : HostText) (event : Fields) (ref : PrRef) : Fields :=
  [("event_kind", .string (String.ofList (normalizedString host (event.lookup "event_kind")))),
    ("pr_ref", .string (String.ofList ref.normalized))] ++
    factText event "event_id" ++ factText event "recorded_at"

/-- `if (!facts.has(key)) facts.set(key, fact)`. -/
def retain (facts : List (List Char × Fields)) (key : List Char) (fact : Fields) :
    List (List Char × Fields) :=
  if key ∈ keys facts then facts else facts ++ [(key, fact)]

structure RetainedEvidence where
  facts : List (List Char × Fields)
  diagnostics : List (Nat × List (List Char × Fields))

def retainRef (host : HostText) (waits : MergeWaits) (retained : RetainedEvidence)
    (occurrence : Fields × PrRef) : RetainedEvidence :=
  let ref := occurrence.2
  let fact := mergeFact host occurrence.1 ref
  { facts :=
      if ref.normalized ∈ waits.exact then retain retained.facts ref.normalized fact
      else retained.facts
    diagnostics :=
      if ref.number ∈ waits.unbound ∧ ref.repo.isSome then
        setKey retained.diagnostics ref.number
          (retain ((retained.diagnostics.lookup ref.number).getD []) ref.normalized fact)
      else retained.diagnostics }

def retainDiagnostics (host : HostText) (facts : List (List Char × Fields))
    (diagnostic : Nat × List (List Char × Fields)) : List (List Char × Fields) :=
  (firstEight host (keys diagnostic.2)).foldl
    (fun facts ref => retain facts ref ((diagnostic.2.lookup ref).getD [])) facts

def decodeItems (host : HostText) (items : List Json) : Plan (List TodoItem) :=
  items.zipIdx.mapM fun (raw, index) => todoItem host raw ("items[" ++ index.repr ++ "]")

/-- The evidence that the waits of decoded items retain. -/
def retainedEvidence (host : ResumeHost) (items : List TodoItem) (events : List Fields) :
    List Fields :=
  let waits := items.foldl (addWait host) ⟨[], []⟩
  let occurrences := (prMergedEvents host.toHostText events).flatMap fun merged =>
    merged.refs.map fun ref => (merged.event, ref)
  let retained := occurrences.foldl (retainRef host.toHostText waits) ⟨[], []⟩
  (retained.diagnostics.foldl (retainDiagnostics host.toHostText) retained.facts).map Prod.snd

def compactTodoResumeMergeEvidence (host : ResumeHost) (items : List Json)
    (events : List Fields) : Plan (List Fields) := do
  let todos ← decodeItems host.toHostText items
  .ok (retainedEvidence host todos events)

end Loopx.Todos
