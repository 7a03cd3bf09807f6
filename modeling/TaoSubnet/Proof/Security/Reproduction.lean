import TaoSubnet.Security.Replay
import TaoSubnet.Security.TaskScore

/-!
# Whose reproduction a replay confirms

A replay of a `union` challenge makes the reported requests. A replay of a `boolean` one makes requests
of its own to the endpoint in the answer key, and never looks at the reported ones: so it confirms any
report at all.
-/

namespace TaoSubnet

open Py

variable {δ : Type} {o : Outside δ} {py : Interpreter}

/-- Where the fresh target is. -/
def replayHost (seed : ReplaySeed) : PyStr :=
  PyStr.ofString ("http://127.0.0.1:" ++ toString seed.port)

/-- What the validator puts in front of every path. -/
def replayBase (seed : ReplaySeed) : PyStr := rstripSlash (replayHost seed)

/-- The body is an object with a true `found`. -/
def saysFound (py : Interpreter) (body : List UInt8) : Bool :=
  match Json.loads py.recursionLimit body with
  | .ok (.obj items) => ((Json.get? items "found").map Json.truthy).getD false
  | _ => false

/-- A response gives something of the secret away: its text, or a yes. -/
def Tells (py : Interpreter) (canary : String) (response : HttpResponse) : Prop :=
  isInfixPy (PyStr.ofString canary) (Json.utf8Replace (response.body.map UInt8.toNat)) = true ∨
    saysFound py response.body = true

/-- The target discloses the secret only through the vulnerable endpoint: `served` are the paths, with
    their queries, that lead there. -/
def DisclosesOnlyAt (o : Outside δ) (py : Interpreter) (served : PyStr → Prop) (seed : ReplaySeed) :
    Prop :=
  ∀ d request response, (o.http d request).1 = .ok response → Tells py seed.canary response →
    ∃ target, request.url = replayBase seed ++ target ∧ served target

/-- What a step asks for. -/
def stepTarget (step : ReproStep) (query : PyStr) : PyStr :=
  if step.method = PyStr.ofString "POST" then step.path
  else if query.isEmpty then step.path else step.path ++ [63] ++ query

/-- The step's request gets to the vulnerable endpoint. -/
def Exercises (served : PyStr → Prop) (step : ReproStep) : Prop :=
  ∃ query, urlencode step.query = .ok query ∧ served (stepTarget step query)

/-- Whatever target the steps are replayed against, as long as it discloses the secret only through the
    vulnerable endpoint: a confirmation means that one of them gets there. -/
def ByRecipe (served : PyStr → Prop) (challenge : Challenge) (steps : List ReproStep) : Prop :=
  ∀ (δ : Type) (o : Outside δ) (py : Interpreter) (seed : ReplaySeed) (w : World δ),
    DisclosesOnlyAt o py served seed → (runReplay o py seed challenge steps w).1 = .ok true →
      ∃ step ∈ steps, Exercises served step

/-! ## Replaying the steps -/

theorem reproductionStep_true {served : PyStr → Prop} {seed : ReplaySeed} {step : ReproStep}
    {w w' : World δ} (hdiscloses : DisclosesOnlyAt o py served seed)
    (h : reproductionStep o (replayBase seed) (PyStr.ofString seed.canary) step w = (.ok true, w')) :
    Exercises served step := by
  unfold reproductionStep at h
  obtain ⟨query, w1, hquery, h⟩ := Prog.bind_eq_ok h
  have hencoded : urlencode step.query = .ok query := congrArg Prod.fst hquery
  rcases Prog.tryExcept_eq_ok h with hbody | ⟨e, w2, -, hhandler⟩
  · obtain ⟨response, w2, hopen, hfound⟩ := Prog.bind_eq_ok hbody
    have hanswer := congrArg Prod.fst hopen
    have htells : isInfixPy (PyStr.ofString seed.canary)
        (Json.utf8Replace (response.body.map UInt8.toNat)) = true := by
      have hvalue := congrArg Prod.fst hfound
      exact Except.ok.inj hvalue
    obtain ⟨target, hurl, hserved⟩ := hdiscloses _ _ response hanswer (.inl htells)
    refine ⟨query, hencoded, ?_⟩
    have htarget : target = stepTarget step query := by
      unfold stepTarget
      split_ifs at hurl ⊢ with hpost hempty
      · exact (List.append_cancel_left hurl).symm
      · exact (List.append_cancel_left hurl).symm
      · rw [List.append_assoc, List.append_assoc] at hurl
        rw [List.append_assoc]
        exact (List.append_cancel_left hurl).symm
    rw [← htarget]
    exact hserved
  · cases congrArg Prod.fst hhandler

theorem reproductionSteps_true {served : PyStr → Prop} {seed : ReplaySeed} {steps : List ReproStep}
    {w w' : World δ} (hdiscloses : DisclosesOnlyAt o py served seed)
    (h : reproductionSteps o (replayBase seed) (PyStr.ofString seed.canary) steps w =
      (.ok true, w')) : ∃ step ∈ steps, Exercises served step := by
  induction steps generalizing w with
  | nil => cases congrArg Prod.fst h
  | cons step rest ih =>
    unfold reproductionSteps at h
    obtain ⟨found, w1, hstep, h⟩ := Prog.bind_eq_ok h
    cases found with
    | true => exact ⟨step, List.mem_cons_self, reproductionStep_true hdiscloses hstep⟩
    | false =>
      obtain ⟨later, hmem, hexercises⟩ := ih h
      exact ⟨later, List.mem_cons_of_mem step hmem, hexercises⟩

/-- What a confirmed replay has done. -/
theorem runReplay_true {seed : ReplaySeed} {challenge : Challenge} {steps : List ReproStep}
    {w : World δ} (h : (runReplay o py seed challenge steps w).1 = .ok true) :
    steps ≠ [] ∧ ∃ w1 w2, replayAgainst o py seed { challenge with canary := seed.canary } steps w1 =
      (.ok true, w2) := by
  unfold runReplay at h
  split at h
  · cases h
  · rename_i hsteps
    refine ⟨by simpa using hsteps, ?_⟩
    rcases hrun : Prog.tryFinally _ _ w with ⟨r, w'⟩
    rw [hrun] at h
    rw [show r = .ok true from h] at hrun
    obtain ⟨w3, hbody, -⟩ := Prog.tryFinally_eq_ok hrun
    rcases Prog.tryExcept_eq_ok hbody with hbody | ⟨e, w4, -, hhandler⟩
    · obtain ⟨started, w4, -, hagainst⟩ := Prog.bind_eq_ok hbody
      split at hagainst
      · cases congrArg Prod.fst hagainst
      · exact ⟨w4, w3, hagainst⟩
    · cases congrArg Prod.fst hhandler

/-- A challenge that is not blind is confirmed by the reported requests. -/
theorem byRecipe_of_not_boolean {served : PyStr → Prop} {challenge : Challenge}
    {steps : List ReproStep} (h : challenge.variant.startsWith "boolean" = false) :
    ByRecipe served challenge steps := by
  intro δ o py seed w hdiscloses htrue
  obtain ⟨-, w1, w2, hagainst⟩ := runReplay_true htrue
  unfold replayAgainst at hagainst
  obtain ⟨ready, w3, -, hagainst⟩ := Prog.bind_eq_ok hagainst
  cases ready with
  | false => cases congrArg Prod.fst hagainst
  | true =>
    have hexecute : executeReproduction o (replayHost seed) steps (PyStr.ofString seed.canary) w3 =
        (.ok true, w2) := by
      simpa [h, replayHost] using hagainst
    unfold executeReproduction at hexecute
    split at hexecute
    · cases congrArg Prod.fst hexecute
    · exact reproductionSteps_true hdiscloses hexecute

/-! ## Asking blind -/

/-- A `Char` is no surrogate. -/
theorem utf8Bytes_ofString (text : List Char) :
    ∃ bytes, (text.map Char.toNat).mapM utf8Bytes = some bytes := by
  induction text with
  | nil => exact ⟨[], rfl⟩
  | cons c text ih =>
    obtain ⟨bytes, hbytes⟩ := ih
    have hscalar : ∃ first, utf8Bytes c.toNat = some first := by
      have hvalid : c.toNat < 0xD800 ∨ 0xDFFF < c.toNat := by
        have := c.valid
        simp only [UInt32.isValidChar, Nat.isValidChar] at this
        show c.val.toNat < 0xD800 ∨ 0xDFFF < c.val.toNat
        omega
      unfold utf8Bytes
      split_ifs with h1 h2 h3 h4
      · exact ⟨_, rfl⟩
      · exact ⟨_, rfl⟩
      · omega
      · exact ⟨_, rfl⟩
      · exact ⟨_, rfl⟩
    obtain ⟨first, hfirst⟩ := hscalar
    refine ⟨first :: bytes, ?_⟩
    simp [hfirst, hbytes]

theorem quotePlus_ofString (s : String) : ∃ quoted, quotePlus (PyStr.ofString s) = .ok quoted := by
  obtain ⟨bytes, hbytes⟩ := utf8Bytes_ofString s.toList
  unfold quotePlus PyStr.ofString
  rw [hbytes]
  exact ⟨_, rfl⟩

theorem urlencode_ofString (key value : String) :
    ∃ query, urlencode [(PyStr.ofString key, PyStr.ofString value)] = .ok query := by
  obtain ⟨k, hk⟩ := quotePlus_ofString key
  obtain ⟨v, hv⟩ := quotePlus_ofString value
  unfold urlencode
  simp only [List.mapM_cons, List.mapM_nil, hk, hv]
  exact ⟨_, rfl⟩

/-- The URL of one question of `_boolean_extract`. -/
def questionUrl (baseUrl : PyStr) (endpoint param table column : String) (numeric : Bool) (i : Nat)
    (c : Char) : Except Exc PyStr := do
  let payloadPrefix := if numeric then "0 OR" else "zzz' OR"
  let subquery := "SELECT \"" ++ column ++ "\" FROM \"" ++ table ++ "\" LIMIT 1"
  let condition := "substr((" ++ subquery ++ ")," ++ toString i ++ ",1)='" ++ c.toString ++ "'"
  let payload := payloadPrefix ++ " (" ++ condition ++ ")-- -"
  let query ← urlencode [(PyStr.ofString param, PyStr.ofString payload)]
  return rstripSlash baseUrl ++ PyStr.ofString endpoint ++ [63] ++ query

theorem booleanExtract_eq (baseUrl : PyStr) (endpoint param table column : String) (numeric : Bool) :
    booleanExtract o py baseUrl endpoint param table column numeric = (do
      return String.ofList
        (← extractDigits o py (questionUrl baseUrl endpoint param table column numeric) 1 32)) :=
  rfl

/-- A question is put to the endpoint in the answer key. -/
theorem questionUrl_ok (baseUrl : PyStr) (endpoint param table column : String) (numeric : Bool)
    (i : Nat) (c : Char) : ∃ query, questionUrl baseUrl endpoint param table column numeric i c =
      .ok (rstripSlash baseUrl ++ PyStr.ofString endpoint ++ [63] ++ query) := by
  unfold questionUrl
  obtain ⟨query, hquery⟩ := urlencode_ofString param
    ((if numeric then "0 OR" else "zzz' OR") ++ " (" ++ ("substr((" ++
      ("SELECT \"" ++ column ++ "\" FROM \"" ++ table ++ "\" LIMIT 1") ++ ")," ++ toString i ++
      ",1)='" ++ c.toString ++ "'") ++ ")-- -")
  refine ⟨query, ?_⟩
  simp only [hquery]
  rfl

/-- `{"found":true}`. -/
def foundBody : List UInt8 := [123, 34, 102, 111, 117, 110, 100, 34, 58, 116, 114, 117, 101, 125]

/-- A target that is up, and answers some URLs with a yes and the others with nothing. -/
def oracle (yes : List PyStr) : Outside Unit where
  docker d _ := (.ok { returncode := 0 }, d)
  http d request := (.ok { status := 200, body := if request.url ∈ yes then foundBody else [] }, d)

variable {yes : List PyStr}

theorem saysFound_foundBody : saysFound cpython foundBody = true := by decide +kernel

theorem btest_yes {url : PyStr} (h : url ∈ yes) (n : Nat) (w : World Unit) :
    btest (oracle yes) cpython url (n + 1) w = (.ok true, w) := by
  have hopen : urlopen (oracle yes) { url := url } w =
      (.ok { status := 200, body := foundBody }, w) := by
    unfold urlopen oracle
    simp only [h, if_true]
  have hfound := saysFound_foundBody
  unfold saysFound at hfound
  unfold btest
  split at hfound
  · rename_i items hloads
    refine (Prog.bind_ok (Prog.tryExcept_ok (?_ : _ = (Except.ok (some true), w)))).trans rfl
    rw [Prog.bind_ok hopen, hloads, Prog.bind_ok (Prog.ofExcept_run _ _)]
    show (Except.ok (some (((Json.get? items "found").map Json.truthy).getD false)), w) = _
    rw [hfound]
  · cases hfound

/-- A position whose first question is answered with a yes has a zero. -/
theorem confirmedDigit_zero {urlOf : Char → Except Exc PyStr} {url : PyStr}
    (hurl : urlOf '0' = .ok url) (hyes : url ∈ yes) (w : World Unit) :
    confirmedDigit (oracle yes) cpython urlOf HEX w = (.ok (some '0'), w) := by
  have hdigits : HEX = '0' :: "123456789abcdef".toList := by decide +kernel
  rw [hdigits]
  unfold confirmedDigit
  rw [hurl, Prog.bind_ok (Prog.ofExcept_run _ _), Prog.bind_ok (btest_yes hyes 2 w)]
  rfl

theorem extractDigits_zeros {urlOf : Nat → Char → Except Exc PyStr} {i n : Nat}
    (h : ∀ j, i ≤ j → j < i + n → ∃ url, urlOf j '0' = .ok url ∧ url ∈ yes) (w : World Unit) :
    extractDigits (oracle yes) cpython urlOf i n w = (.ok (List.replicate n '0'), w) := by
  induction n generalizing i with
  | zero => rfl
  | succ n ih =>
    obtain ⟨url, hurl, hyes⟩ := h i (Nat.le_refl i) (by omega)
    have hrest := ih (i := i + 1) fun j hlow hhigh => h j (by omega) (by omega)
    unfold extractDigits
    rw [Prog.bind_ok (confirmedDigit_zero hurl hyes w)]
    show ((extractDigits (oracle yes) cpython urlOf (i + 1) n) >>= _) w = _
    rw [Prog.bind_ok hrest]
    rfl

/-- The secret of the replay: the token `00000000000000000000000000000000`. -/
def zeros : String := String.ofList (List.replicate 32 '0')

/-- The seed of a replay with that secret. -/
def zeroSeed : ReplaySeed := { canary := zeros, name := "secval-replay-0", port := 8001 }

/-- The questions about that secret whose answer is yes. -/
def trueQuestions (challenge : Challenge) : List PyStr :=
  (List.range 32).filterMap fun i =>
    (questionUrl (replayHost zeroSeed) challenge.vulnerableEndpoint challenge.vulnerableParameter
      challenge.secretTable challenge.secretColumn (challenge.variant.endsWith "numeric") (i + 1)
      '0').toOption

/-- The oracle that knows the answers discloses its secret at the vulnerable endpoint alone. -/
theorem oracle_discloses {served : PyStr → Prop} (challenge : Challenge)
    (hserved : ∀ query, served (PyStr.ofString challenge.vulnerableEndpoint ++ [63] ++ query)) :
    DisclosesOnlyAt (oracle (trueQuestions challenge)) cpython served zeroSeed := by
  intro d request response hanswer htells
  have hresponse : response =
      ⟨200, if request.url ∈ trueQuestions challenge then foundBody else []⟩ :=
    (Except.ok.inj hanswer).symm
  by_cases hmem : request.url ∈ trueQuestions challenge
  · obtain ⟨i, -, hquestion⟩ := List.mem_filterMap.mp hmem
    obtain ⟨query, hurl⟩ := questionUrl_ok (replayHost zeroSeed) challenge.vulnerableEndpoint
      challenge.vulnerableParameter challenge.secretTable challenge.secretColumn
      (challenge.variant.endsWith "numeric") (i + 1) '0'
    rw [hurl] at hquestion
    refine ⟨PyStr.ofString challenge.vulnerableEndpoint ++ [63] ++ query, ?_, hserved query⟩
    rw [← Option.some.inj hquestion]
    simp only [replayBase, List.append_assoc]
  · -- the other responses are empty
    rw [hresponse, if_neg hmem] at htells
    rcases htells with htext | hyes
    · exact absurd htext (by decide +kernel)
    · exact absurd hyes (by decide +kernel)

/-- A blind challenge is decided by what the validator extracts. -/
theorem replayAgainst_boolean {seed : ReplaySeed} {challenge : Challenge} {steps : List ReproStep}
    {w w1 w2 : World δ} {extracted : String} (h : challenge.variant.startsWith "boolean" = true)
    (hready : waitReady o (replayHost seed) 30 w = (.ok true, w1))
    (hextracted : booleanExtract o py (replayHost seed) challenge.vulnerableEndpoint
      challenge.vulnerableParameter challenge.secretTable challenge.secretColumn
      (challenge.variant.endsWith "numeric") w1 = (.ok extracted, w2)) :
    replayAgainst o py seed challenge steps w = (.ok (extracted == challenge.canary), w2) := by
  unfold replayAgainst
  refine (Prog.bind_ok hready).trans ?_
  show (if challenge.variant.startsWith "boolean" = true then _ else _ : Prog _ _ _) w1 = _
  rw [if_pos h]
  exact Prog.bind_ok hextracted

/-- Against it every report of a blind challenge is confirmed. -/
theorem oracle_confirms {challenge : Challenge} (h : challenge.variant.startsWith "boolean" = true)
    {steps : List ReproStep} (hsteps : steps ≠ []) (w : World Unit) :
    (runReplay (oracle (trueQuestions challenge)) cpython zeroSeed challenge steps w).1 =
      .ok true := by
  have hextracted : ∀ w, booleanExtract (oracle (trueQuestions challenge)) cpython
      (replayHost zeroSeed) challenge.vulnerableEndpoint challenge.vulnerableParameter
      challenge.secretTable challenge.secretColumn (challenge.variant.endsWith "numeric") w =
        (.ok zeros, w) := by
    intro w
    rw [booleanExtract_eq]
    apply Prog.bind_ok
    apply extractDigits_zeros
    intro j hlow hhigh
    obtain ⟨query, hurl⟩ := questionUrl_ok (replayHost zeroSeed) challenge.vulnerableEndpoint
      challenge.vulnerableParameter challenge.secretTable challenge.secretColumn
      (challenge.variant.endsWith "numeric") j '0'
    refine ⟨_, hurl, List.mem_filterMap.mpr ⟨j - 1, List.mem_range.mpr (by omega), ?_⟩⟩
    rw [Nat.sub_add_cancel hlow, hurl]
    rfl
  have hready : ∀ w, waitReady (oracle (trueQuestions challenge)) (replayHost zeroSeed) 30 w =
      (.ok true, w) := by
    intro w
    unfold waitReady
    refine (Prog.bind_ok (Prog.tryExcept_ok (?_ : _ = (Except.ok true, w)))).trans rfl
    rfl
  have hagainst : ∀ w, replayAgainst (oracle (trueQuestions challenge)) cpython zeroSeed
      { challenge with canary := zeroSeed.canary } steps w = (.ok true, w) := by
    intro w
    have hequal : replayAgainst (oracle (trueQuestions challenge)) cpython zeroSeed
        { challenge with canary := zeroSeed.canary } steps w = (.ok (zeros == zeros), w) :=
      replayAgainst_boolean h (hready w) (hextracted w)
    rw [hequal, beq_self_eq_true]
  have hdocker : ∀ args (w : World Unit), ∃ w1,
      docker (oracle (trueQuestions challenge)) args w = (.ok { returncode := 0 }, w1) :=
    fun args w => ⟨_, rfl⟩
  obtain ⟨w1, hrun⟩ := hdocker (replayTargetArgs zeroSeed { challenge with canary := zeroSeed.canary }) w
  obtain ⟨w2, hremove⟩ := hdocker (rmContainerArgs zeroSeed.name) w1
  have hnonempty : ¬ steps.isEmpty = true := by simpa using hsteps
  have hresult : runReplay (oracle (trueQuestions challenge)) cpython zeroSeed challenge steps w =
      (.ok true, w2) := by
    unfold runReplay
    rw [if_neg hnonempty]
    apply Prog.tryFinally_ok
    · apply Prog.tryExcept_ok
      refine (Prog.bind_ok hrun).trans ?_
      exact hagainst w1
    · exact (Prog.bind_ok hremove).trans rfl
  rw [hresult]

/-- A confirmation speaks for the reported steps exactly when the challenge is not blind, when one of
    the steps gets to the vulnerable endpoint, or when there are none. -/
theorem replay_by_recipe_iff (served : PyStr → Prop) (challenge : Challenge)
    (hserved : ∀ query, served (PyStr.ofString challenge.vulnerableEndpoint ++ [63] ++ query))
    (steps : List ReproStep) :
    ByRecipe served challenge steps ↔ challenge.variant.startsWith "boolean" = false ∨
      steps = [] ∨ ∃ step ∈ steps, Exercises served step := by
  constructor
  · intro h
    cases hvariant : challenge.variant.startsWith "boolean" with
    | false => exact .inl rfl
    | true =>
      right
      by_cases hsteps : steps = []
      · exact .inl hsteps
      · exact .inr (h Unit _ cpython zeroSeed { outside := () } (oracle_discloses challenge hserved)
          (oracle_confirms hvariant hsteps _))
  · rintro (hvariant | rfl | hexercises)
    · exact byRecipe_of_not_boolean hvariant
    · intro δ o py seed w _ htrue
      exact absurd rfl (runReplay_true htrue).1
    · intro δ o py seed w _ _
      exact hexercises

/-- The target's routing: the path up to the query, without slashes at its end. -/
def leadsTo (endpoint : String) (target : PyStr) : Prop :=
  rstripSlash (target.takeWhile (· ≠ 63)) = rstripSlash (PyStr.ofString endpoint)

def unionChallenge : Challenge where
  canary := "00112233445566778899aabbccddeeff"
  secretTable := "vault"
  secretColumn := "token"
  vulnerableEndpoint := "/items"
  vulnerableParameter := "q"

/-- A report that points at a decoy. -/
def decoyStep : ReproStep where
  findingIndex := 0
  method := PyStr.ofString "GET"
  path := PyStr.ofString "/decoy"
  query := []

theorem leadsTo_items (query : PyStr) :
    leadsTo "/items" (PyStr.ofString "/items" ++ [63] ++ query) := rfl

theorem union_by_recipe : ByRecipe (leadsTo "/items") unionChallenge [decoyStep] :=
  (replay_by_recipe_iff (leadsTo "/items") unionChallenge leadsTo_items [decoyStep]).mpr
    (.inl (by decide +kernel))

/-- A decoy is confirmed for the blind variant. -/
theorem blind_decoy_confirmed :
    ¬ ByRecipe (leadsTo "/items") { unionChallenge with variant := "boolean" } [decoyStep] := by
  intro h
  obtain ⟨step, hmem, query, hquery, hserved⟩ := h Unit _ cpython zeroSeed { outside := () }
    (oracle_discloses { unionChallenge with variant := "boolean" } leadsTo_items)
    (oracle_confirms (by decide +kernel) (List.cons_ne_nil _ _) _)
  rw [List.mem_singleton.mp hmem] at hquery hserved
  have hempty : query = [] := (Except.ok.inj hquery).symm
  rw [hempty] at hserved
  revert hserved
  unfold leadsTo
  decide +kernel

end TaoSubnet
