/- GID: Loopx/Todos/AgentId
   generality: I
   source: loopx/control_plane/coordination/todo_agents.ts, python_whitespace.ts
   digest: Normalized agent ids, and that normalizing one again leaves it as it is. -/

import Loopx.Todos.MonitorMetadata
import Loopx.Todos.ResumeEvidence

set_option autoImplicit false
set_option relaxedAutoImplicit false

namespace Loopx.Todos

open Loopx.Lib.AsciiCase (isUpper_iff isLower_iff)
open Loopx.Lib.Strip (stripEnds stripEnds_of_forall)
open Loopx.Json (Protocol)
open Loopx.Lease (HostText)

/-- `PYTHON_WHITESPACE_RUN` replaced by one blank; the flag tells that a run has been replaced. -/
def collapsePythonRuns : Bool → List Char → List Char
  | _, [] => []
  | replaced, c :: text =>
    if isPythonSpace c then
      if replaced then collapsePythonRuns true text else ' ' :: collapsePythonRuns true text
    else c :: collapsePythonRuns false text

def compactPythonWhitespace (text : List Char) : List Char :=
  collapsePythonRuns false (stripEnds isPythonSpace text)

/-- `[a-z0-9_.:@-]`. -/
def isAgentCharacter (c : Char) : Bool := isLowerDigitOr ['_', '.', ':', '@', '-'] c

/-- `/^[a-z][a-z0-9_.:@-]{0,79}$/u`. -/
def isAgentIdText (candidate : List Char) : Bool :=
  match candidate with
  | [] => false
  | c :: rest => c.isLower && rest.all isAgentCharacter && rest.length ≤ 79

/-- The text that is checked: one dash for every run of white space, in lower case. -/
def agentCandidate (host : HostText) (value : String) : List Char :=
  (host.toLowerCase (compactPythonWhitespace value.toList)).map fun c => if c = ' ' then '-' else c

def normalizeTodoAgent (host : HostText) (value : Option Json) (label : String) :
    Protocol String :=
  match value with
  | some (.string s) =>
    if isAgentIdText (agentCandidate host s) then .ok (String.ofList (agentCandidate host s))
    else .error (label ++ " must be a public-safe agent id")
  | _ => .error (label ++ " must be a public-safe agent id")

private theorem agentCharacter_plain {c : Char} (h : isAgentCharacter c = true) :
    c.toNat < 128 ∧ c.isUpper = false ∧ isPythonSpace c = false ∧ c ≠ ' ' := by
  have value : 97 ≤ c.toNat ∧ c.toNat ≤ 122 ∨ 48 ≤ c.toNat ∧ c.toNat ≤ 57 ∨
      c ∈ ['_', '.', ':', '@', '-'] := by
    simp only [isAgentCharacter, isLowerDigitOr, Bool.or_eq_true, decide_eq_true_eq] at h
    rcases h with (letter | digit) | extra
    · exact .inl (isLower_iff.mp letter)
    · exact .inr (.inl (Char.isDigit_iff_toNat.mp digit))
    · exact .inr (.inr extra)
  rcases value with letter | digit | extra
  · refine ⟨by omega, ?_, ?_, ?_⟩
    · rw [Bool.eq_false_iff, ne_eq, isUpper_iff]
      omega
    · simp only [isPythonSpace, Bool.or_eq_false_iff, Bool.and_eq_false_iff,
        decide_eq_false_iff_not]
      omega
    · rintro rfl
      revert letter
      decide
  · refine ⟨by omega, ?_, ?_, ?_⟩
    · rw [Bool.eq_false_iff, ne_eq, isUpper_iff]
      omega
    · simp only [isPythonSpace, Bool.or_eq_false_iff, Bool.and_eq_false_iff,
        decide_eq_false_iff_not]
      omega
    · rintro rfl
      revert digit
      decide
  · simp only [List.mem_cons, List.not_mem_nil, or_false] at extra
    rcases extra with rfl | rfl | rfl | rfl | rfl <;> decide

private theorem agentIdText_plain {candidate : List Char} (h : isAgentIdText candidate = true) :
    ∀ c ∈ candidate, isAgentCharacter c = true := by
  cases candidate with
  | nil => cases h
  | cons first rest =>
    simp only [isAgentIdText, Bool.and_eq_true] at h
    obtain ⟨⟨letter, class_rest⟩, _⟩ := h
    intro c hc
    rcases List.mem_cons.mp hc with rfl | hc
    · simp [isAgentCharacter, isLowerDigitOr, letter]
    · exact List.all_eq_true.mp class_rest c hc

private theorem collapsePythonRuns_of_forall {text : List Char}
    (h : ∀ c ∈ text, isPythonSpace c = false) (replaced : Bool) :
    collapsePythonRuns replaced text = text := by
  induction text generalizing replaced with
  | nil => rfl
  | cons c text ih =>
    rw [collapsePythonRuns, h c (by simp), if_neg Bool.false_ne_true,
      ih (fun d hd => h d (by simp [hd]))]

private theorem agentCandidate_ofList {host : HostText} (lower : LowerCase host)
    {candidate : List Char} (h : isAgentIdText candidate = true) :
    agentCandidate host (String.ofList candidate) = candidate := by
  have plain := fun c hc => agentCharacter_plain (agentIdText_plain h c hc)
  have spaces : ∀ c ∈ candidate, isPythonSpace c = false := fun c hc => (plain c hc).2.2.1
  rw [agentCandidate, String.toList_ofList, compactPythonWhitespace, stripEnds_of_forall spaces,
    collapsePythonRuns_of_forall spaces,
    lower.fixed candidate fun c hc => lower.ascii c (plain c hc).1 (plain c hc).2.1]
  refine (List.map_congr_left fun c hc => ?_).trans (List.map_id candidate)
  exact if_neg (plain c hc).2.2.2

/-- A normalized agent id is its own normal form. -/
theorem normalizeTodoAgent_idem {host : HostText} (lower : LowerCase host) {value : Option Json}
    {label agent : String} (h : normalizeTodoAgent host value label = .ok agent)
    (other : String) : normalizeTodoAgent host (some (.string agent)) other = .ok agent := by
  rcases value with _ | value
  · simp [normalizeTodoAgent] at h
  · cases value with
    | string s =>
      simp only [normalizeTodoAgent] at h
      split at h
      · rename_i accepted
        obtain rfl := Except.ok.inj h
        have same := agentCandidate_ofList lower accepted
        simp only [normalizeTodoAgent, same, accepted, if_true]
      · cases h
    | _ => simp [normalizeTodoAgent] at h

end Loopx.Todos
