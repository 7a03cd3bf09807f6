import TaoSubnet.Lib.Url
import TaoSubnet.Proof.Security.Reproduction

/-!
# Where the reproduction's requests go

A step's path is put behind the base URL as it was written. The authority of the base has no
delimiter at its end, so a path that does not begin with one goes on with the authority.
-/

namespace TaoSubnet

open Py Py.Url

/-- The host and the port of `http://HOST:PORT`. -/
structure TargetUrl (host port : PyStr) : Prop where
  host_ne : host ≠ []
  host_text : ∀ c ∈ host, isDelimiter c = false ∧ isSpaceCode c = false
  port_ne : port ≠ []
  port_digits : ∀ c ∈ port, 48 ≤ c ∧ c ≤ 57

def authority (host port : PyStr) : PyStr := host ++ 58 :: port

def targetUrl (host port : PyStr) : PyStr := httpScheme ++ authority host port

/-- An outside that keeps the requests it was sent. What it answers may depend on all of them. -/
def recorder (answers : List HttpRequest → HttpRequest → Except Exc HttpResponse) :
    Outside (List HttpRequest) where
  docker d _ := (.ok { returncode := 0 }, d)
  http d request := (answers d request, d ++ [request])

/-- The requests of `execute_reproduction`, in order. -/
def requestsMade (answers : List HttpRequest → HttpRequest → Except Exc HttpResponse)
    (baseUrl : PyStr) (steps : List ReproStep) (expectedCanary : PyStr) : List HttpRequest :=
  (executeReproduction (recorder answers) baseUrl steps expectedCanary { outside := [] }).2.outside

/-- What is put behind the base is, blanks at its end apart, nothing or begins with a delimiter. -/
def EndsAuthority (target : PyStr) : Prop := ∀ c ∈ (rstrip target).head?, isDelimiter c = true

/-- Every step that is come to ends the authority. A query that cannot be encoded ends the replay. -/
def StepsEndAuthority : List ReproStep → Prop
  | [] => True
  | step :: rest => ∀ query, urlencode step.query = .ok query →
      EndsAuthority (stepTarget step query) ∧ StepsEndAuthority rest

/-! ## The URL of a step -/

section
variable {host port : PyStr}

theorem TargetUrl.authority_ne (_ : TargetUrl host port) : authority host port ≠ [] :=
  List.append_ne_nil_of_right_ne_nil host (List.cons_ne_nil 58 port)

theorem TargetUrl.authority_text (h : TargetUrl host port) :
    ∀ c ∈ authority host port, isDelimiter c = false ∧ isSpaceCode c = false := by
  intro c hc
  rcases List.mem_append.mp hc with hhost | hrest
  · exact h.host_text c hhost
  · rcases List.mem_cons.mp hrest with rfl | hport
    · exact ⟨rfl, rfl⟩
    · have hdigit := h.port_digits c hport
      simp only [isDelimiter, isSpaceCode, Bool.or_eq_false_iff, Bool.and_eq_false_iff,
        beq_eq_false_iff_ne, decide_eq_false_iff_not]
      omega

theorem rstripSlash_targetUrl (h : TargetUrl host port) :
    rstripSlash (targetUrl host port) = targetUrl host port := by
  have hlast : (targetUrl host port).getLast? = some (port.getLast h.port_ne) := by
    unfold targetUrl authority
    rw [List.getLast?_append, List.getLast?_append, List.getLast?_cons,
      List.getLast?_eq_some_getLast h.port_ne]
    rfl
  have hdigit := h.port_digits _ (List.getLast_mem h.port_ne)
  unfold rstripSlash
  rw [← List.head?_reverse] at hlast
  cases hreverse : (targetUrl host port).reverse with
  | nil =>
    rw [hreverse] at hlast
    cases hlast
  | cons c rest =>
    rw [hreverse] at hlast
    have hc : c = port.getLast h.port_ne := Option.some.inj hlast
    have hkeep : ¬ (c == 47) = true := by
      rw [beq_iff_eq, hc]
      omega
    rw [List.dropWhile_cons, if_neg hkeep, ← hreverse, List.reverse_reverse]

theorem takeWhile_eq_nil_iff_head (s : PyStr) :
    s.takeWhile (fun c => !isDelimiter c) = [] ↔ ∀ c ∈ s.head?, isDelimiter c = true := by
  cases s with
  | nil => simp
  | cons c rest => simp [List.takeWhile_cons]

/-- The authority of the URL is the target's exactly when what follows it ends it. -/
theorem authorityOf_target (h : TargetUrl host port) (target : PyStr) :
    authorityOf (targetUrl host port ++ target) = some (authority host port) ↔
      EndsAuthority target := by
  unfold targetUrl EndsAuthority
  rw [authorityOf_httpScheme h.authority_ne h.authority_text, ← takeWhile_eq_nil_iff_head,
    Option.some.injEq]
  exact List.append_right_eq_self

end

/-! ## The requests of a run -/

variable (answers : List HttpRequest → HttpRequest → Except Exc HttpResponse)
  (baseUrl canary : PyStr) {query : PyStr} {step : ReproStep}

/-- The request of a step with its query encoded. -/
def stepRequest (baseUrl : PyStr) (step : ReproStep) (query : PyStr) : HttpRequest :=
  if step.method = PyStr.ofString "POST" then { url := baseUrl ++ step.path, data := some query }
  else { url := if query.isEmpty then baseUrl ++ step.path else baseUrl ++ step.path ++ [63] ++ query }

theorem stepRequest_url (step : ReproStep) (query : PyStr) :
    (stepRequest baseUrl step query).url = baseUrl ++ stepTarget step query := by
  unfold stepRequest stepTarget
  split_ifs
  · rfl
  · rfl
  · simp only [List.append_assoc]

/-- A step whose query is encoded makes one request. -/
theorem reproductionStep_encoded (hquery : urlencode step.query = .ok query)
    (w : World (List HttpRequest)) : ∃ found,
    reproductionStep (recorder answers) baseUrl canary step w =
      (.ok found, { w with outside := w.outside ++ [stepRequest baseUrl step query] }) ∧
    ((∀ sent request, ∃ e, answers sent request = .error e) → found = false) := by
  have hopen : urlopen (recorder answers) (stepRequest baseUrl step query) w =
      (answers w.outside (stepRequest baseUrl step query),
        { w with outside := w.outside ++ [stepRequest baseUrl step query] }) := rfl
  unfold reproductionStep
  rw [hquery, Prog.bind_ok (Prog.ofExcept_run _ _)]
  cases hanswer : answers w.outside (stepRequest baseUrl step query) with
  | error e =>
    rw [hanswer] at hopen
    exact ⟨false, Prog.tryExcept_error (Prog.bind_error hopen), fun _ => rfl⟩
  | ok response =>
    rw [hanswer] at hopen
    refine ⟨_, Prog.tryExcept_ok ((Prog.bind_ok hopen).trans rfl), ?_⟩
    intro hsilent
    obtain ⟨e, he⟩ := hsilent w.outside (stepRequest baseUrl step query)
    rw [hanswer] at he
    cases he

/-- A step whose query cannot be encoded ends the replay without a request. -/
theorem reproductionSteps_unencoded {e : Exc} (hquery : urlencode step.query = .error e)
    (rest : List ReproStep) (w : World (List HttpRequest)) :
    (reproductionSteps (recorder answers) baseUrl canary (step :: rest) w).2 = w := by
  have hstep : reproductionStep (recorder answers) baseUrl canary step w = (.error e, w) := by
    unfold reproductionStep
    rw [hquery]
    exact Prog.bind_error (Prog.ofExcept_run _ _)
  unfold reproductionSteps
  rw [Prog.bind_error hstep]

/-- With every step's target ending the authority, every request keeps to the base. -/
theorem requests_end_authority (steps : List ReproStep) :
    StepsEndAuthority steps → ∀ w : World (List HttpRequest),
      (∀ request ∈ w.outside, ∃ target, request.url = baseUrl ++ target ∧ EndsAuthority target) →
      ∀ request ∈ (reproductionSteps (recorder answers) baseUrl canary steps w).2.outside,
        ∃ target, request.url = baseUrl ++ target ∧ EndsAuthority target := by
  induction steps with
  | nil => exact fun _ _ hsent => hsent
  | cons step rest ih =>
    intro hsteps w hsent
    cases hquery : urlencode step.query with
    | error e =>
      rw [reproductionSteps_unencoded answers baseUrl canary hquery]
      exact hsent
    | ok query =>
      obtain ⟨htarget, hrest⟩ := hsteps query hquery
      obtain ⟨found, hstep, _⟩ := reproductionStep_encoded answers baseUrl canary hquery w
      have hsent' : ∀ request ∈ w.outside ++ [stepRequest baseUrl step query],
          ∃ target, request.url = baseUrl ++ target ∧ EndsAuthority target := by
        intro request hrequest
        rcases List.mem_append.mp hrequest with hold | hnew
        · exact hsent request hold
        · rw [List.mem_singleton.mp hnew]
          exact ⟨stepTarget step query, stepRequest_url baseUrl step query, htarget⟩
      unfold reproductionSteps
      rw [Prog.bind_ok hstep]
      cases found with
      | true => exact hsent'
      | false => exact ih hrest _ hsent'

/-- What was sent stays sent. -/
theorem sent_mono (steps : List ReproStep) : ∀ w : World (List HttpRequest),
    ∀ request ∈ w.outside,
      request ∈ (reproductionSteps (recorder answers) baseUrl canary steps w).2.outside := by
  induction steps with
  | nil => exact fun _ _ hsent => hsent
  | cons step rest ih =>
    intro w request hsent
    cases hquery : urlencode step.query with
    | error e =>
      rw [reproductionSteps_unencoded answers baseUrl canary hquery]
      exact hsent
    | ok query =>
      obtain ⟨found, hstep, _⟩ := reproductionStep_encoded answers baseUrl canary hquery w
      unfold reproductionSteps
      rw [Prog.bind_ok hstep]
      have hkept : request ∈ w.outside ++ [stepRequest baseUrl step query] :=
        List.mem_append_left _ hsent
      cases found with
      | true => exact hkept
      | false => exact ih _ request hkept

/-- Against a target that never answers every step is come to. -/
theorem stepsEndAuthority_of_requests (Good : PyStr → Prop)
    (hgood : ∀ target, Good (baseUrl ++ target) → EndsAuthority target)
    (hsilent : ∀ sent request, ∃ e, answers sent request = .error e) (steps : List ReproStep) :
    ∀ w : World (List HttpRequest),
      (∀ request ∈ (reproductionSteps (recorder answers) baseUrl canary steps w).2.outside,
        Good request.url) → StepsEndAuthority steps := by
  induction steps with
  | nil => exact fun _ _ => trivial
  | cons step rest ih =>
    intro w hall query hquery
    obtain ⟨found, hstep, hfound⟩ := reproductionStep_encoded answers baseUrl canary hquery w
    rw [hfound hsilent] at hstep
    unfold reproductionSteps at hall
    rw [Prog.bind_ok hstep] at hall
    refine ⟨?_, ih _ hall⟩
    have hsent := sent_mono answers baseUrl canary rest
      { w with outside := w.outside ++ [stepRequest baseUrl step query] } _
      (List.mem_append_right _ List.mem_cons_self)
    have hurl := hall _ hsent
    rw [stepRequest_url] at hurl
    exact hgood _ hurl

/-- Every request goes to the base's host and port, whatever is answered, exactly when every step
    that is come to puts nothing behind the base, or something that begins with `/`, `?` or `#`. -/
theorem requests_keep_authority_iff {host port : PyStr} (h : TargetUrl host port)
    (steps : List ReproStep) :
    (∀ answers canary, ∀ request ∈ requestsMade answers (targetUrl host port) steps canary,
      authorityOf request.url = some (authority host port)) ↔ StepsEndAuthority steps := by
  constructor
  · intro hall
    cases steps with
    | nil => trivial
    | cons step rest =>
      have hmade := hall (fun _ _ => .error ⟨.osError, "refused"⟩) [48]
      unfold requestsMade executeReproduction at hmade
      rw [if_neg (by simp), rstripSlash_targetUrl h] at hmade
      exact stepsEndAuthority_of_requests _ _ _
        (fun url => authorityOf url = some (authority host port)) (fun target => (authorityOf_target h target).mp)
        (fun _ _ => ⟨_, rfl⟩) (step :: rest) { outside := [] } hmade
  · intro hsteps answers canary request hrequest
    unfold requestsMade executeReproduction at hrequest
    split at hrequest
    · cases hrequest
    · rw [rstripSlash_targetUrl h] at hrequest
      obtain ⟨target, hurl, htarget⟩ := requests_end_authority answers (targetUrl host port) canary steps hsteps
        { outside := [] }
        (fun request hnone => absurd hnone List.not_mem_nil) request hrequest
      rw [hurl]
      exact (authorityOf_target h target).mpr htarget

/-! ## A target on the port 80 -/

theorem localTarget : TargetUrl (PyStr.ofString "127.0.0.1") (PyStr.ofString "80") where
  host_ne := by decide +kernel
  host_text := by decide +kernel
  port_ne := by decide +kernel
  port_digits := by decide +kernel

def refuses (_ : List HttpRequest) (_ : HttpRequest) : Except Exc HttpResponse :=
  .error ⟨.osError, "[Errno 111] Connection refused"⟩

/-- A step whose path begins with a slash. -/
theorem decoy_keeps_authority :
    (requestsMade refuses (targetUrl (PyStr.ofString "127.0.0.1") (PyStr.ofString "80")) [decoyStep]
      [48]).all (fun request => authorityOf request.url ==
        some (authority (PyStr.ofString "127.0.0.1") (PyStr.ofString "80"))) = true := by
  have hends : StepsEndAuthority [decoyStep] := by
    intro query hquery
    have hempty : query = [] := (Except.ok.inj hquery).symm
    rw [hempty]
    exact ⟨by unfold EndsAuthority; decide +kernel, trivial⟩
  have hkeeps := (requests_keep_authority_iff localTarget [decoyStep]).mpr hends
  rw [List.all_eq_true]
  intro request hrequest
  exact beq_iff_eq.mpr (hkeeps refuses [48] request hrequest)

/-- A report with a path that goes on with the port. -/
def portReport : List UInt8 :=
  "\x7b\"run_id\":\"r\",\"reproduction\":[\x7b\"finding_index\":0,\"path\":\"80/x\"\x7d]\x7d".toUTF8.toList

/-- The report is accepted, and the request goes to the port 8080. -/
theorem path_moves_port : ¬ ∀ (py : Interpreter) (raw : List UInt8) (runId : Option String)
    (findings : Findings) (host port : PyStr), TargetUrl host port →
      parseFindingsBytes py raw runId = .ok findings → ∀ answers canary,
        ∀ request ∈ requestsMade answers (targetUrl host port) findings.reproduction canary,
          authorityOf request.url = some (authority host port) := by
  intro h
  have hparse : parseFindingsBytes cpython portReport none = .ok
      { runId := PyStr.ofString "r", findings := [],
        reproduction := [⟨0, PyStr.ofString "GET", PyStr.ofString "80/x", []⟩],
        schemaVersion := [], agentName := [], agentVersion := [] } := by decide +kernel
  have hmoved := h cpython portReport none _ _ _ localTarget hparse refuses [48]
    { url := PyStr.ofString "http://127.0.0.1:8080/x" } (by decide +kernel)
  revert hmoved
  decide +kernel

end TaoSubnet
