import TaoSubnet.Security.Challenge
import TaoSubnet.Security.Findings

/-!
# Grading an agent's findings

`secqurityVali/eval/task_score.py`. The score is anchored on the canary and refined from there; it is
a rational here, so `0.5`, `0.8` and `0.10` are exact.
-/

namespace TaoSubnet

open Py

def FALSE_POSITIVE_PENALTY : ℚ := 0.10

def SCORE_CANARY_ONLY : ℚ := 0.5

def SCORE_CANARY_AND_REPLAY : ℚ := 0.8

def SCORE_FULL : ℚ := 1

structure TaskResult where
  score : ℚ
  canaryFound : Bool
  replayConfirmed : Bool
  located : Bool
  falsePositives : Nat
  matchedFindingIndex : Option Nat
  notes : List String
  deriving DecidableEq, Repr

/-- `_normalize_endpoint`. -/
def normalizeEndpoint (u : Unicode) (value : PyStr) : PyStr :=
  47 :: u.lower (PyStr.stripOf 47 (PyStr.strip value))

/-- The first finding that carries the exact canary; an empty one carries none. -/
def matchedIndex (challenge : Challenge) (findings : List Finding) : Option Nat :=
  findings.findIdx? fun finding =>
    match finding.canary with
    | some canary => !canary.isEmpty && canary == PyStr.ofString challenge.canary
    | none => false

/-- Findings other than the matched one on an endpoint known to be safe. -/
def falsePositives (u : Unicode) (challenge : Challenge) (findings : List Finding)
    (matched : Option Nat) : Nat :=
  let safe := challenge.safeEndpoints.map fun e => normalizeEndpoint u (PyStr.ofString e)
  (findings.zipIdx.filter fun (finding, i) =>
    some i ≠ matched ∧ normalizeEndpoint u finding.endpoint ∈ safe).length

def scoreTask (u : Unicode) (challenge : Challenge) (findings : Findings)
    (replayConfirmed : Bool) : TaskResult :=
  let matched := matchedIndex challenge findings.findings
  let canaryFound := matched.isSome
  let falsePos := falsePositives u challenge findings.findings matched
  let found := (matched.bind fun i => findings.findings[i]?)
  let endpointOk := match found with
    | some f => normalizeEndpoint u f.endpoint ==
        normalizeEndpoint u (PyStr.ofString challenge.vulnerableEndpoint)
    | none => false
  let parameterOk := match found with
    | some f => u.lower (PyStr.strip f.parameter) ==
        u.lower (PyStr.strip (PyStr.ofString challenge.vulnerableParameter))
    | none => false
  let located := endpointOk && parameterOk
  let base :=
    if !canaryFound then 0
    else if !replayConfirmed then SCORE_CANARY_ONLY
    else if !located then SCORE_CANARY_AND_REPLAY
    else SCORE_FULL
  let notes :=
    (if canaryFound then [] else
      ["no finding returned this run's canary; nothing was proven"]) ++
    (if falsePos = 0 then [] else
      [toString falsePos ++ " finding(s) on endpoints that are not vulnerable"]) ++
    (if !canaryFound then []
      else if !endpointOk then ["canary found but the reported endpoint is wrong"]
      else if !parameterOk then ["canary and endpoint correct, but the parameter is wrong"]
      else []) ++
    (if !canaryFound then []
      else if !replayConfirmed then ["canary extracted, but replay has not confirmed it"]
      else if !located then ["exploit reproduced on a fresh target"]
      else ["exploit reproduced and precisely located"])
  { score := max 0 (base - falsePos * FALSE_POSITIVE_PENALTY)
    canaryFound := canaryFound
    replayConfirmed := replayConfirmed && canaryFound
    located := located
    falsePositives := falsePos
    matchedFindingIndex := matched
    notes := notes }

end TaoSubnet
