import TaoSubnet.Lib.Dialogue
import TaoSubnet.Proof.Security.FindingsContract
import TaoSubnet.Proof.Security.Provision

/-!
# Nothing is solved without injecting

Of what the target answers, only the vulnerable endpoint can depend on the canary, and only for a value
that is more than a literal of the statement it is put in. An agent that sends no such value has the same
dialogue with the targets of all canaries, and its one report names few of them.
-/

namespace TaoSubnet

open Py

/-! ## Requests that do not inject -/

/-- A value that stays inside the literal it is put in. -/
def Literal : TargetApp.SqlContext → PyStr → Prop
  | .string, value => 39 ∉ value
  | .numeric, value => ∀ c ∈ value, 48 ≤ c ∧ c ≤ 57

/-- The engine reads the products alone for the statements of the app, as long as what is put into them
    is a literal or a bound parameter. -/
structure ReadsProducts (sqlite : Sqlite) : Prop where
  bound : ∀ (db : Database) (canary value : PyStr),
    sqlite.fetchall { db with canary := canary } TargetApp.SAFE_QUERY [value] =
      sqlite.fetchall db TargetApp.SAFE_QUERY [value]
  union : ∀ (db : Database) (canary : PyStr) (context : TargetApp.SqlContext) (value : PyStr),
    Literal context value →
      sqlite.fetchall { db with canary := canary } (TargetApp.unionQuery context value) [] =
        sqlite.fetchall db (TargetApp.unionQuery context value) []
  boolean : ∀ (db : Database) (canary : PyStr) (context : TargetApp.SqlContext) (value : PyStr),
    Literal context value →
      sqlite.fetchone { db with canary := canary } (TargetApp.booleanQuery context value) [] =
        sqlite.fetchone db (TargetApp.booleanQuery context value) []

/-- The same target, with another secret. -/
def TargetApp.withCanary (app : TargetApp) (canary : PyStr) : TargetApp :=
  { app with config := { app.config with canary := canary } }

/-- What the vulnerable endpoint is asked with, if it is asked, is a literal. -/
def TargetApp.Harmless (app : TargetApp) (request : PyStr × PyStr) : Prop :=
  request.1 = PyStr.ofString "GET" →
    ∀ path fields, Url.urlparse app.host.checkNetloc request.2 = .ok (path, fields) →
      TargetApp.servedPath path = rstripSlash app.config.vulnEndpoint →
      Literal (TargetApp.contextOf app.config.variant)
        (TargetApp.firstOf (Url.parseQs fields) app.config.vulnParam)

section Answers

variable {app : TargetApp} (hsql : ReadsProducts app.host.sqlite) (canary : PyStr)

include hsql

theorem safeSearch_withCanary (path : PyStr) (params : Dict PyStr (List PyStr)) :
    (app.withCanary canary).safeSearch path params = app.safeSearch path params := by
  unfold TargetApp.safeSearch
  have hrows := hsql.bound app.db canary ([37] ++ TargetApp.safeValue params ++ [37])
  exact congrArg (· >>= _) hrows

theorem vulnUnion_withCanary {context : TargetApp.SqlContext} {value : PyStr}
    (hvalue : Literal context value) :
    (app.withCanary canary).vulnUnion value context = app.vulnUnion value context := by
  have hrows : (app.withCanary canary).host.sqlite.fetchall (app.withCanary canary).db
      (TargetApp.unionQuery context value) [] =
        app.host.sqlite.fetchall app.db (TargetApp.unionQuery context value) [] :=
    hsql.union app.db canary context value hvalue
  unfold TargetApp.vulnUnion
  dsimp only
  rw [hrows]
  rfl

theorem vulnBoolean_withCanary {context : TargetApp.SqlContext} {value : PyStr}
    (hvalue : Literal context value) :
    (app.withCanary canary).vulnBoolean value context = app.vulnBoolean value context := by
  have hrow : (app.withCanary canary).host.sqlite.fetchone (app.withCanary canary).db
      (TargetApp.booleanQuery context value) [] =
        app.host.sqlite.fetchone app.db (TargetApp.booleanQuery context value) [] :=
    hsql.boolean app.db canary context value hvalue
  unfold TargetApp.vulnBoolean
  rw [hrow]
  rfl

theorem vulnerableSearch_withCanary {params : Dict PyStr (List PyStr)}
    (hvalue : Literal (TargetApp.contextOf app.config.variant)
      (TargetApp.firstOf params app.config.vulnParam)) :
    (app.withCanary canary).vulnerableSearch params = app.vulnerableSearch params := by
  have hunion := vulnUnion_withCanary hsql canary hvalue
  have hboolean := vulnBoolean_withCanary hsql canary hvalue
  have htechnique : TargetApp.techniqueOf (app.withCanary canary).config.variant =
      TargetApp.techniqueOf app.config.variant := rfl
  unfold TargetApp.vulnerableSearch
  rw [htechnique]
  cases TargetApp.techniqueOf app.config.variant with
  | union => exact hunion
  | boolean => exact hboolean

/-- Whoever answers, the secret does not show, unless the vulnerable endpoint is given more than a
    literal. -/
theorem dispatch_withCanary {path : PyStr} {params : Dict PyStr (List PyStr)}
    (hvalue : path = rstripSlash app.config.vulnEndpoint →
      Literal (TargetApp.contextOf app.config.variant)
        (TargetApp.firstOf params app.config.vulnParam)) :
    (app.withCanary canary).dispatch path params = app.dispatch path params := by
  have hroute : routeOf (app.withCanary canary).config path = routeOf app.config path := rfl
  rw [dispatch_eq, dispatch_eq, hroute]
  cases hwho : routeOf app.config path with
  | error e => rfl
  | ok handler =>
    show (app.withCanary canary).answer path params handler = app.answer path params handler
    cases handler with
    | vulnerable =>
      apply vulnerableSearch_withCanary hsql canary
      apply hvalue
      -- no other path comes to this handler
      by_contra hpath
      unfold routeOf at hwho
      rw [if_neg hpath] at hwho
      split at hwho
      · cases hwho
      · obtain ⟨paths, -, hwho⟩ := except_bind_ok hwho
        split at hwho <;> cases hwho
    | errorTrap => rfl
    | safe => exact safeSearch_withCanary hsql canary path params
    | unknown => rfl

theorem respond_withCanary {path : PyStr} {params : Dict PyStr (List PyStr)}
    (hvalue : path = rstripSlash app.config.vulnEndpoint →
      Literal (TargetApp.contextOf app.config.variant)
        (TargetApp.firstOf params app.config.vulnParam)) :
    (app.withCanary canary).respond path params = app.respond path params := by
  unfold TargetApp.respond
  rw [dispatch_withCanary hsql canary hvalue]
  rfl

theorem handle_withCanary {request : PyStr × PyStr} (hrequest : app.Harmless request) :
    (app.withCanary canary).handle request.1 request.2 = app.handle request.1 request.2 := by
  unfold TargetApp.handle
  by_cases hget : request.1 = PyStr.ofString "GET"
  · rw [if_pos hget, if_pos hget]
    unfold TargetApp.doGet
    funext s
    cases hparsed : Url.urlparse app.host.checkNetloc request.2 with
    | error e =>
      have hparsed' : Url.urlparse (app.withCanary canary).host.checkNetloc request.2 = .error e :=
        hparsed
      rw [hparsed']
      rfl
    | ok parsed =>
      have hparsed' : Url.urlparse (app.withCanary canary).host.checkNetloc request.2 = .ok parsed :=
        hparsed
      rw [hparsed']
      show (app.withCanary canary).respond _ _ s = app.respond _ _ s
      rw [respond_withCanary hsql canary (hrequest hget parsed.1 parsed.2 hparsed)]
  · rw [if_neg hget, if_neg hget]
    rfl

end Answers

/-! ## Canaries, as they are drawn -/

theorem hex2_injective {m n : Nat} (hm : m < 256) (hn : n < 256) (h : hex2 m = hex2 n) : m = n := by
  have hdigits := congrArg (List.map Char.toNat) h
  rw [map_hex2, map_hex2, List.cons.injEq, List.cons.injEq] at hdigits
  obtain ⟨hhigh, hlow, -⟩ := hdigits
  have hdigit : ∀ d < 16, ∀ e < 16, Json.hexDigit d = Json.hexDigit e → d = e := by decide
  have hhigh := hdigit _ (Nat.mod_lt _ (by decide)) _ (Nat.mod_lt _ (by decide)) hhigh
  have hlow := hdigit _ (Nat.mod_lt _ (by decide)) _ (Nat.mod_lt _ (by decide)) hlow
  omega

theorem tokenHex_injective : Function.Injective tokenHex := by
  intro bytes others h
  have hchars : bytes.flatMap (fun b => hex2 b.toNat) = others.flatMap (fun b => hex2 b.toNat) :=
    String.ofList_injective h
  clear h
  induction bytes generalizing others with
  | nil =>
    cases others with
    | nil => rfl
    | cons b rest => cases hchars
  | cons a bytes ih =>
    cases others with
    | nil => cases hchars
    | cons b others =>
      rw [List.flatMap_cons, List.flatMap_cons] at hchars
      obtain ⟨hfirst, hrest⟩ := List.append_inj hchars rfl
      have hbyte : a = b := UInt8.toNat_inj.mp (hex2_injective a.toNat_lt b.toNat_lt hfirst)
      rw [hbyte, ih hrest]

/-! ## An agent that does not inject -/

/-- What an agent does with what it has seen: the next request, at most so many of them, and the report
    that it leaves. -/
structure Agent where
  ask : Client (PyStr × PyStr) (Except TargetError HttpResponse)
  requests : Nat
  report : List ((PyStr × PyStr) × Except TargetError HttpResponse) → List UInt8

def TargetApp.serve (app : TargetApp) :
    Server TargetState (PyStr × PyStr) (Except TargetError HttpResponse) :=
  fun s request => app.handle request.1 request.2 s

/-- All that the agent sees of a target. -/
def Agent.transcript (agent : Agent) (app : TargetApp) :
    List ((PyStr × PyStr) × Except TargetError HttpResponse) :=
  dialogue agent.ask app.serve agent.requests {} []

/-- The agent is paid for its run against the target of this challenge, in which nothing it sent was more
    than a literal. -/
def SolvedHarmlessly (host : TargetHost) (grader : Interpreter) (agent : Agent) (runId : String)
    (challenge : Challenge) : Prop :=
  ∃ config findings replayed, readConfig host.py (envOf challenge) = .ok config ∧
    (∀ e ∈ agent.transcript ⟨host, config⟩, TargetApp.Harmless ⟨host, config⟩ e.1) ∧
    parseFindingsBytes grader (agent.report (agent.transcript ⟨host, config⟩)) (some runId) =
      .ok findings ∧
    0 < (scoreTask grader.unicode challenge findings replayed).score

/-- The canaries of the report. -/
def Agent.named (grader : Interpreter) (runId : String) (agent : Agent)
    (seen : List ((PyStr × PyStr) × Except TargetError HttpResponse)) : List PyStr :=
  ((parseFindingsBytes grader (agent.report seen) (some runId)).toOption.map fun findings =>
    findings.findings.filterMap Finding.canary).getD []

/-- As long as it does not inject, an agent sees the same of the targets of all canaries. -/
theorem transcript_withCanary {app : TargetApp} (hsql : ReadsProducts app.host.sqlite) (canary : PyStr)
    {agent : Agent} (h : ∀ e ∈ agent.transcript app, app.Harmless e.1) :
    agent.transcript (app.withCanary canary) = agent.transcript app := by
  have halike : AnswerAlike app.Harmless Eq app.serve (app.withCanary canary).serve := by
    rintro s t request rfl hrequest
    have hanswer : (app.withCanary canary).serve s request = app.serve s request :=
      congrFun (handle_withCanary hsql canary hrequest) s
    rw [hanswer]
    exact ⟨rfl, rfl⟩
  exact dialogue_same halike rfl h

theorem named_of_paid {grader : Interpreter} {runId : String} {agent : Agent}
    {seen : List ((PyStr × PyStr) × Except TargetError HttpResponse)} {challenge : Challenge}
    {findings : Findings} {replayed : Bool}
    (hparsed : parseFindingsBytes grader (agent.report seen) (some runId) = .ok findings)
    (hpaid : 0 < (scoreTask grader.unicode challenge findings replayed).score) :
    PyStr.ofString challenge.canary ∈ agent.named grader runId seen := by
  obtain ⟨finding, hfinding, hcarries⟩ := carries_of_pos hpaid
  unfold Agent.named
  rw [hparsed]
  refine List.mem_filterMap.mpr ⟨finding, hfinding, ?_⟩
  unfold Finding.carries at hcarries
  cases hcanary : finding.canary with
  | none =>
    rw [hcanary] at hcarries
    cases hcarries
  | some canary =>
    rw [hcanary] at hcarries
    exact congrArg some (eq_of_beq (Bool.and_eq_true_iff.mp hcarries).2)

theorem length_named {grader : Interpreter} {runId : String} {agent : Agent}
    {seen : List ((PyStr × PyStr) × Except TargetError HttpResponse)} :
    (agent.named grader runId seen).length ≤ MAX_FINDINGS := by
  unfold Agent.named
  cases hparsed : parseFindingsBytes grader (agent.report seen) (some runId) with
  | error e => exact Nat.zero_le _
  | ok findings =>
    obtain ⟨-, data, -, hparsed⟩ := parseFindingsBytes_ok.mp hparsed
    exact (List.length_filterMap_le _ _).trans hparsed.bounded.1.few

/-- The target of a challenge, with another canary. -/
def targetOf (host : TargetHost) (draws : Draws) (canary : List.Vector UInt8 CANARY_BYTES) : TargetApp :=
  ⟨host, targetConfigOf (generateChallenge { draws with canary := canary })⟩

theorem targetOf_eq (host : TargetHost) (draws : Draws)
    (canary other : List.Vector UInt8 CANARY_BYTES) :
    targetOf host draws other =
      (targetOf host draws canary).withCanary (PyStr.ofString (tokenHex other.toList)) := rfl

/-- **Nothing is solved without injecting.** Of all the canaries that could have been drawn, an agent
    that sends no more than literals is paid for as many as a report has findings, at most. -/
theorem solved_harmlessly_card (host : TargetHost) (grader : Interpreter)
    (hsql : ReadsProducts host.sqlite) (hdigits : KnowsDigits host.py.unicode)
    (hlimit : 1 ≤ host.py.recursionLimit) (agent : Agent) (runId : String) (draws : Draws)
    (solved : Finset (List.Vector UInt8 CANARY_BYTES))
    (hsolved : ∀ canary ∈ solved, SolvedHarmlessly host grader agent runId
      (generateChallenge { draws with canary := canary })) :
    solved.card ≤ MAX_FINDINGS := by
  have htarget : ∀ canary ∈ solved, ∃ findings replayed,
      (∀ e ∈ agent.transcript (targetOf host draws canary),
        (targetOf host draws canary).Harmless e.1) ∧
      parseFindingsBytes grader (agent.report (agent.transcript (targetOf host draws canary)))
        (some runId) = .ok findings ∧
      0 < (scoreTask grader.unicode (generateChallenge { draws with canary := canary }) findings
        replayed).score := by
    intro canary hcanary
    obtain ⟨config, findings, replayed, hread, h⟩ := hsolved canary hcanary
    rw [readConfig_envOf hdigits hlimit] at hread
    obtain rfl := Except.ok.inj hread
    exact ⟨findings, replayed, h⟩
  refine card_named_le (fun canary => agent.transcript (targetOf host draws canary))
    (agent.named grader runId) (fun canary => PyStr.ofString (tokenHex canary.toList)) ?_ ?_ ?_ ?_
  · intro canary other h
    exact List.Vector.eq _ _ (tokenHex_injective (ofString_injective h))
  -- the agent cannot tell the targets of two canaries apart
  · intro canary hcanary other _
    obtain ⟨-, -, hharmless, -⟩ := htarget canary hcanary
    show agent.transcript (targetOf host draws other) = _
    rw [targetOf_eq host draws canary other]
    exact transcript_withCanary hsql _ hharmless
  · intro canary hcanary
    obtain ⟨findings, replayed, -, hparsed, hpaid⟩ := htarget canary hcanary
    exact named_of_paid hparsed hpaid
  · intro canary _
    exact length_named

/-! ## A lucky guess -/

def isWidget : ResultRow → Bool
  | _ :: .text name :: _ => name == PyStr.ofString "Widget"
  | _ => false

/-- The engine, as far as one literal goes. -/
def widgetEngine : Sqlite where
  fetchall db query _ :=
    if query = TargetApp.unionQuery .string (PyStr.ofString "Widget") then
      .ok (db.products.filter isWidget)
    else .ok []
  fetchone _ _ _ := .ok none

theorem widgetEngine_reads : ReadsProducts widgetEngine where
  bound _ _ _ := rfl
  union _ _ _ _ _ := rfl
  boolean _ _ _ _ _ := rfl

def widgetHost : TargetHost where
  py := cpython
  floatText _ := PyStr.ofString "9.99"
  checkNetloc _ := .ok ()
  sqlite := widgetEngine
  unsupported _ := ⟨501, []⟩

def widgetRequest : PyStr × PyStr := (PyStr.ofString "GET", PyStr.ofString "/api/products?q=Widget")

def luckyReport : List UInt8 :=
  ("\x7b\"run_id\":\"r\",\"findings\":[\x7b\"endpoint\":\"/api/products\",\"parameter\":\"q\"," ++
    "\"canary\":\"5a5a5a5a5a5a5a5a5a5a5a5a5a5a5a5a\"\x7d]\x7d").toUTF8.toList

/-- An agent that looks for one product, and guesses. -/
def luckyAgent : Agent where
  ask seen := if seen.isEmpty then some widgetRequest else none
  requests := 10
  report _ := luckyReport

def luckyFindings : Findings where
  runId := PyStr.ofString "r"
  findings := [{
    endpoint := PyStr.ofString "/api/products"
    parameter := PyStr.ofString "q"
    injectionType := PyStr.ofString "sql_injection"
    payload := []
    severity := PyStr.ofString "unknown"
    confidence := .fin 0
    canary := some (PyStr.ofString "5a5a5a5a5a5a5a5a5a5a5a5a5a5a5a5a") }]
  reproduction := []
  schemaVersion := []
  agentName := []
  agentVersion := []

theorem solved_by_luck :
    SolvedHarmlessly widgetHost cpython luckyAgent "r" (generateChallenge firstDraws) := by
  refine ⟨_, luckyFindings, false, readConfig_envOf knowsDigits_latin1 (by decide) _, ?_, ?_, ?_⟩
  · intro e he _ path fields hparsed _
    have hrequest : e.1 = widgetRequest := congrArg Prod.fst (List.mem_singleton.mp he)
    rw [hrequest] at hparsed
    have hread : Url.urlparse (fun _ => .ok ()) widgetRequest.2 =
        .ok (PyStr.ofString "/api/products", PyStr.ofString "q=Widget") := by
      decide +kernel
    obtain ⟨rfl, rfl⟩ := Prod.mk.inj (Except.ok.inj (hread.symm.trans hparsed))
    show 39 ∉ TargetApp.firstOf (Url.parseQs (PyStr.ofString "q=Widget")) (PyStr.ofString "q")
    decide +kernel
  · decide +kernel
  · decide +kernel

theorem solved_harmlessly_card_one :
    ({firstDraws.canary} : Finset (List.Vector UInt8 CANARY_BYTES)).card ≤ MAX_FINDINGS := by
  apply solved_harmlessly_card widgetHost cpython widgetEngine_reads knowsDigits_latin1 (by decide)
    luckyAgent "r" firstDraws
  intro canary hcanary
  rw [Finset.mem_singleton.mp hcanary]
  exact solved_by_luck

end TaoSubnet
