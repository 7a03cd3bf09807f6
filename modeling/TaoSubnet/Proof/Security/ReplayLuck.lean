import TaoSubnet.Lib.Substring
import TaoSubnet.Proof.Security.OnlyByInjection
import TaoSubnet.Proof.Security.Served

/-!
# A replay without an injection

A recipe that sends no more than literals gets the same answers from the targets of all canaries. A replay
looks for its own canary in them, and they are only so long.
-/

namespace TaoSubnet

open Py

variable {δ : Type} {o : Outside δ}

/-! ## What a confirmed recipe got -/

theorem reproductionStep_response {base canary : PyStr} {step : ReproStep} {w w' : World δ}
    (h : reproductionStep o base canary step w = (.ok true, w')) :
    ∃ query d response, urlencode step.query = .ok query ∧
      (o.http d (stepRequest base step query)).1 = .ok response ∧
      isInfixPy canary (Json.utf8Replace (response.body.map UInt8.toNat)) = true := by
  unfold reproductionStep at h
  obtain ⟨query, w1, hquery, h⟩ := Prog.bind_eq_ok h
  have hencoded : urlencode step.query = .ok query := congrArg Prod.fst hquery
  rcases Prog.tryExcept_eq_ok h with hbody | ⟨e, w2, -, hhandler⟩
  · obtain ⟨response, w2, hopen, hfound⟩ := Prog.bind_eq_ok hbody
    exact ⟨query, w1.outside, response, hencoded, congrArg Prod.fst hopen,
      Except.ok.inj (congrArg Prod.fst hfound)⟩
  · cases congrArg Prod.fst hhandler

theorem reproductionSteps_response {base canary : PyStr} {steps : List ReproStep} {w w' : World δ}
    (h : reproductionSteps o base canary steps w = (.ok true, w')) :
    ∃ step ∈ steps, ∃ query d response, urlencode step.query = .ok query ∧
      (o.http d (stepRequest base step query)).1 = .ok response ∧
      isInfixPy canary (Json.utf8Replace (response.body.map UInt8.toNat)) = true := by
  induction steps generalizing w with
  | nil => cases congrArg Prod.fst h
  | cons step rest ih =>
    unfold reproductionSteps at h
    obtain ⟨found, w1, hstep, h⟩ := Prog.bind_eq_ok h
    cases found with
    | true => exact ⟨step, List.mem_cons_self, reproductionStep_response hstep⟩
    | false =>
      obtain ⟨later, hmem, hresponse⟩ := ih h
      exact ⟨later, List.mem_cons_of_mem step hmem, hresponse⟩

/-- What confirms a challenge that is not blind is a response with the canary in it. -/
theorem runReplay_response {py : Interpreter} {seed : ReplaySeed} {challenge : Challenge}
    {steps : List ReproStep} {w : World δ} (hunion : challenge.variant.startsWith "boolean" = false)
    (h : (runReplay o py seed challenge steps w).1 = .ok true) :
    ∃ step ∈ steps, ∃ query d response, urlencode step.query = .ok query ∧
      (o.http d (stepRequest (replayHost seed) step query)).1 = .ok response ∧
      isInfixPy (PyStr.ofString seed.canary)
        (Json.utf8Replace (response.body.map UInt8.toNat)) = true := by
  obtain ⟨-, w1, w2, hagainst⟩ := runReplay_true h
  unfold replayAgainst at hagainst
  obtain ⟨ready, w3, -, hagainst⟩ := Prog.bind_eq_ok hagainst
  cases ready with
  | false => cases congrArg Prod.fst hagainst
  | true =>
    have hexecute : executeReproduction o (replayHost seed) steps (PyStr.ofString seed.canary) w3 =
        (.ok true, w2) := by
      simpa [hunion, replayHost] using hagainst
    unfold executeReproduction at hexecute
    split at hexecute
    · cases congrArg Prod.fst hexecute
    · rw [rstripSlash_replayHost] at hexecute
      exact reproductionSteps_response hexecute

/-! ## The answers of the app -/

/-- An answer does not depend on how many there were before. -/
theorem handle_state (app : TargetApp) (method target : PyStr) (s t : TargetState) :
    (app.handle method target s).1 = (app.handle method target t).1 := by
  have hrespond (path : PyStr) (params : Dict PyStr (List PyStr)) :
      (app.respond path params s).1 = (app.respond path params t).1 := by
    unfold TargetApp.respond
    split_ifs
    · rfl
    · rfl
  unfold TargetApp.handle
  split_ifs
  · unfold TargetApp.doGet
    cases hparsed : Url.urlparse app.host.checkNetloc target with
    | error e => rfl
    | ok parsed => exact hrespond _ _
  · rfl

/-- What a replay reads of an answer. -/
def answerText : Except TargetError HttpResponse → PyStr
  | .ok response => Json.utf8Replace (response.body.map UInt8.toNat)
  | .error _ => []

/-- The text that the app answers a step with. -/
def stepAnswer (app : TargetApp) (seed : ReplaySeed) (step : ReproStep) : PyStr :=
  match urlencode step.query with
  | .error _ => []
  | .ok query =>
    match Url.selectorOf (stepRequest (replayHost seed) step query).url with
    | none => []
    | some target =>
      answerText (app.handle (methodOf (stepRequest (replayHost seed) step query)) target {}).1

/-- The step's request stays with the target, and sends no more than a literal. -/
def HarmlessStep (app : TargetApp) (seed : ReplaySeed) (step : ReproStep) : Prop :=
  ∀ query, urlencode step.query = .ok query →
    EndsAuthority (stepTarget step query) ∧
    ∀ target, Url.selectorOf (stepRequest (replayHost seed) step query).url = some target →
      app.Harmless (methodOf (stepRequest (replayHost seed) step query), target)

/-- The response to a harmless step is what any target of the same structure says. -/
theorem stepAnswer_of_response {app : TargetApp} (hsql : ReadsProducts app.host.sqlite) (canary : PyStr)
    {seed : ReplaySeed} {step : ReproStep} (hstep : HarmlessStep app seed step)
    (hserved : ServedBy o (app.withCanary canary) (replayAddress seed)) {query : PyStr}
    (hquery : urlencode step.query = .ok query) {d : δ} {response : HttpResponse}
    (hhttp : (o.http d (stepRequest (replayHost seed) step query)).1 = .ok response) :
    Json.utf8Replace (response.body.map UInt8.toNat) = stepAnswer app seed step := by
  obtain ⟨hends, hharmless⟩ := hstep query hquery
  have haddress : Url.authorityOf (stepRequest (replayHost seed) step query).url =
      some (replayAddress seed) := by
    rw [stepRequest_url, replayHost_eq]
    exact (authorityOf_target (targetUrl_replay seed) _).mpr hends
  obtain ⟨target, s, hselector, hhandled⟩ := hserved d _ response haddress hhttp
  rw [handle_withCanary hsql canary (hharmless target hselector), handle_state app _ target s {}]
    at hhandled
  unfold stepAnswer
  rw [hquery]
  dsimp only
  rw [hselector]
  dsimp only
  rw [hhandled]
  rfl

/-- The canaries that the answers to a recipe could confirm. -/
def confirmable (app : TargetApp) (seed : ReplaySeed) (steps : List ReproStep) : List PyStr :=
  steps.flatMap fun step => windows (2 * CANARY_BYTES) (stepAnswer app seed step)

theorem length_confirmable (app : TargetApp) (seed : ReplaySeed) (steps : List ReproStep) :
    (confirmable app seed steps).length =
      (steps.map fun step => (stepAnswer app seed step).length).sum := by
  unfold confirmable
  rw [List.length_flatMap]
  simp only [length_windows]

/-- The seed of a replay, with the canary that was drawn. -/
def ReplaySeed.drawing (seed : ReplaySeed) (canary : List.Vector UInt8 CANARY_BYTES) : ReplaySeed :=
  { seed with canary := tokenHex canary.toList }

/-- **A recipe without an injection is confirmed by luck alone**: of all the canaries that the fresh
    target could have been given, at most as many as there are characters in the answers that any target
    of its structure gives. -/
theorem confirmed_harmlessly_card (host : TargetHost) (draws : Draws) (seed : ReplaySeed)
    (hsql : ReadsProducts host.sqlite) (hdigits : KnowsDigits host.py.unicode)
    (hlimit : 1 ≤ host.py.recursionLimit)
    (hunion : (generateChallenge draws).variant.startsWith "boolean" = false)
    {config : TargetConfig}
    (hconfig : readConfig host.py (envOf (replayChallenge draws seed)) = .ok config)
    {steps : List ReproStep} (hsteps : ∀ step ∈ steps, HarmlessStep ⟨host, config⟩ seed step)
    (confirmed : Finset (List.Vector UInt8 CANARY_BYTES))
    (hconfirmed : ∀ canary ∈ confirmed, ∃ (δ : Type) (o : Outside δ) (py : Interpreter) (w : World δ)
      (fresh : TargetConfig),
      readConfig host.py (envOf (replayChallenge draws (seed.drawing canary))) = .ok fresh ∧
        ServedBy o ⟨host, fresh⟩ (replayAddress seed) ∧
        (runReplay o py (seed.drawing canary) (generateChallenge draws) steps w).1 = .ok true) :
    confirmed.card ≤ (steps.map fun step => (stepAnswer ⟨host, config⟩ seed step).length).sum := by
  rw [readConfig_envOf hdigits hlimit] at hconfig
  obtain rfl := Except.ok.inj hconfig
  rw [← length_confirmable]
  refine card_named_le (fun _ => ()) (fun _ => confirmable (replayTarget host draws seed) seed steps)
    (fun canary => PyStr.ofString (tokenHex canary.toList)) ?_ (fun _ _ _ _ => rfl) ?_
    (fun _ _ => le_refl _)
  · intro canary other h
    exact List.Vector.eq _ _ (tokenHex_injective (ofString_injective h))
  · intro canary hcanary
    obtain ⟨δ, o, py, w, fresh, hfresh, hserved, htrue⟩ := hconfirmed canary hcanary
    rw [readConfig_envOf hdigits hlimit] at hfresh
    obtain rfl := Except.ok.inj hfresh
    obtain ⟨step, hstep, query, d, response, hquery, hhttp, hfound⟩ := runReplay_response hunion htrue
    -- the answer is that of the target of `seed`, whatever the canary is
    have hanswer : Json.utf8Replace (response.body.map UInt8.toNat) =
        stepAnswer (replayTarget host draws seed) seed step :=
      stepAnswer_of_response hsql (PyStr.ofString (tokenHex canary.toList)) (hsteps step hstep) hserved
        hquery hhttp
    have hlength : (PyStr.ofString (tokenHex canary.toList)).length = 2 * CANARY_BYTES := by
      unfold PyStr.ofString
      rw [List.length_map, length_tokenHex, List.Vector.toList_length]
    have hinfix : PyStr.ofString (tokenHex canary.toList) <:+:
        stepAnswer (replayTarget host draws seed) seed step := by
      rw [← hanswer]
      exact occursIn_iff.mp hfound
    refine List.mem_flatMap.mpr ⟨step, hstep, ?_⟩
    rw [← hlength]
    exact mem_windows (List.ne_nil_of_length_pos (by rw [hlength]; decide)) hinfix

/-! ## A statement that is said back -/

/-- The engine refuses a statement with a null character in it; the app answers with the statement. -/
def nullEngine : Sqlite where
  fetchall db query _ :=
    if 0 ∈ query then .error (.sqlite (PyStr.ofString "the query contains a null character"))
    else .ok (db.products.filter isWidget)
  fetchone _ _ _ := .ok none

theorem nullEngine_reads : ReadsProducts nullEngine where
  bound _ _ _ := rfl
  union _ _ _ _ _ := rfl
  boolean _ _ _ _ _ := rfl

def nullHost : TargetHost := { widgetHost with sqlite := nullEngine }

/-- A guess that the app says back. -/
def guessStep : ReproStep where
  findingIndex := 0
  method := PyStr.ofString "GET"
  path := PyStr.ofString "/api/products"
  query := [(PyStr.ofString "q", 0 :: PyStr.ofString zeros)]

def nullTarget : TargetApp := replayTarget nullHost firstDraws zeroSeed

theorem guess_confirmed :
    (runReplay (workingNetwork nullTarget (replayAddress zeroSeed)) cpython zeroSeed
      (generateChallenge firstDraws) [guessStep] { outside := () }).1 = .ok true := by
  decide +kernel

def guessQuery : PyStr := PyStr.ofString "q=%00" ++ PyStr.ofString zeros

theorem guess_harmless : HarmlessStep nullTarget zeroSeed guessStep := by
  have hwritten : urlencode guessStep.query = .ok guessQuery := by decide +kernel
  have hasked : Url.selectorOf (stepRequest (replayHost zeroSeed) guessStep guessQuery).url =
      some (PyStr.ofString "/api/products?" ++ guessQuery) := by
    decide +kernel
  have hread : Url.urlparse nullHost.checkNetloc (PyStr.ofString "/api/products?" ++ guessQuery) =
      .ok (PyStr.ofString "/api/products", guessQuery) := by
    decide +kernel
  intro query hquery
  obtain rfl := Except.ok.inj (hwritten.symm.trans hquery)
  constructor
  · intro c hc
    have hhead : (Url.rstrip (stepTarget guessStep guessQuery)).head? = some 47 := by decide +kernel
    rw [hhead] at hc
    obtain rfl := Option.some_inj.mp hc
    rfl
  · intro target htarget _ path fields hparsed _
    obtain rfl := Option.some_inj.mp (hasked.symm.trans htarget)
    obtain ⟨-, rfl⟩ := Prod.mk.inj (Except.ok.inj (hread.symm.trans hparsed))
    show 39 ∉ TargetApp.firstOf (Url.parseQs guessQuery) (PyStr.ofString "q")
    decide +kernel

def zeroCanary : List.Vector UInt8 CANARY_BYTES := ⟨List.replicate 16 0, rfl⟩

theorem confirmed_harmlessly_card_one : ({zeroCanary} : Finset (List.Vector UInt8 CANARY_BYTES)).card ≤
    ([guessStep].map fun step => (stepAnswer nullTarget zeroSeed step).length).sum := by
  have hdigits : KnowsDigits nullHost.py.unicode := knowsDigits_latin1
  have hlimit : 1 ≤ nullHost.py.recursionLimit := by decide
  apply confirmed_harmlessly_card nullHost firstDraws zeroSeed nullEngine_reads hdigits hlimit
    (by decide +kernel) (readConfig_envOf hdigits hlimit _) (List.forall_mem_singleton.mpr guess_harmless)
  intro canary hcanary
  rw [Finset.mem_singleton.mp hcanary]
  have hseed : zeroSeed.drawing zeroCanary = zeroSeed := congrArg
    (fun canary => ({ zeroSeed with canary := canary } : ReplaySeed)) zeros_eq.symm
  rw [hseed]
  exact ⟨Unit, workingNetwork nullTarget (replayAddress zeroSeed), cpython, { outside := () }, _,
    readConfig_envOf hdigits hlimit _, workingNetwork_served nullTarget _, guess_confirmed⟩

end TaoSubnet
