import TaoSubnet.LlmKey.Client

/-!
# One request and its retries

What a call of `_request_json` does, for every retry setting and every sequence of outcomes. It never
makes a request too many and never falls through its loop, and what it returns is the body of a
success. But the wait is computed with a power of two that has to become a float: from the 1025th
attempt on only a `Retry-After` header lets it try again.
-/

namespace TaoSubnet

open Py

variable {host : ClientHost}

/-- The outcome asks for another attempt: 429, a server error, or no answer. -/
def HttpxOutcome.isRetryable : HttpxOutcome → Bool
  | .response r => r.isTransient
  | .requestError _ => true
  | .raised _ => false

/-- The outcome says itself how long to wait: a header that is a number. -/
def HttpxOutcome.namesWait (host : ClientHost) : HttpxOutcome → Bool
  | .response r => (retryAfterSeconds host r.retryAfter).isSome
  | _ => false

/-- A success, and the body that is decoded from it. -/
def HttpxOutcome.Delivers (host : ClientHost) (outcome : HttpxOutcome) (value : Json) : Prop :=
  ∃ r, outcome = .response r ∧ r.isSuccess = true ∧ r.decode host = .ok value

/-- What a call promises. The outcomes are numbered from one, as the attempts are. -/
structure RequestContract (host : ClientHost) (maxRetries : Int) (outcomes : Nat → HttpxOutcome)
    (exchange : Exchange) : Prop where
  bounded : (exchange.requests.length : Int) ≤ max 1 maxRetries
  /-- Only outcomes that ask for it are followed by another request. -/
  retried : ∀ a, 1 ≤ a → a < exchange.requests.length → (outcomes a).isRetryable = true
  /-- It stops at the first other outcome, or where its attempts are used up. -/
  stops : (outcomes exchange.requests.length).isRetryable = true →
    (exchange.requests.length : Int) = max 1 maxRetries
  /-- It returns what a success delivers, and raises otherwise. -/
  returns : ∀ value, exchange.result = .ok value ↔
    (outcomes exchange.requests.length).Delivers host value
  /-- The `return {}` behind the loop is never reached. -/
  ends : exchange.ended.isSome = true

/-! ## The wait -/

/-- The wait can be computed: the attempt is among the first 1024, or the header names it. -/
def CanWait (host : ClientHost) (outcome : HttpxOutcome) (attempt : Nat) : Prop :=
  attempt ≤ 1024 ∨ outcome.namesWait host = true

theorem sleepForRetry_response (r : HttpxResponse) (attempt : Nat) :
    (∃ delay, sleepForRetry host r.retryAfter attempt = .ok delay) ↔
      CanWait host (.response r) attempt := by
  unfold CanWait HttpxOutcome.namesWait sleepForRetry
  dsimp only
  cases retryAfterSeconds host r.retryAfter with
  | none => simp [backoff_ok_iff]
  | some seconds => simp

theorem sleepForRetry_requestError (message : String) (attempt : Nat) :
    (∃ delay, sleepForRetry host none attempt = .ok delay) ↔
      CanWait host (.requestError message) attempt := by
  unfold CanWait HttpxOutcome.namesWait
  simp only [Bool.false_eq_true, or_false]
  exact backoff_ok_iff

theorem afterWait_again_iff (wait : Except Exc PyFloat) :
    afterWait wait = .again ↔ ∃ delay, wait = .ok delay := by
  cases wait with
  | ok delay => simp [afterWait]
  | error e => simp [afterWait]

/-- A wait that fails is raised. -/
theorem afterWait_stop {wait : Except Exc PyFloat} {result : Except RequestFailure Json}
    (h : afterWait wait = .stop result) : ∃ failure, result = .error failure := by
  cases wait with
  | ok delay => cases h
  | error e =>
    cases h
    exact ⟨_, rfl⟩

/-! ## One turn -/

/-- A turn goes on exactly when the outcome asks for it, attempts are left, and the wait before the
    next one can be computed. -/
theorem requestTurn_again_iff {maxRetries : Nat} {outcome : HttpxOutcome} {attempt : Nat} :
    requestTurn host maxRetries outcome attempt = .again ↔
      outcome.isRetryable = true ∧ attempt < maxRetries ∧ CanWait host outcome attempt := by
  cases outcome with
  | response r =>
    unfold requestTurn HttpxOutcome.isRetryable
    dsimp only
    rw [← sleepForRetry_response, ← and_assoc]
    split
    · rename_i htry
      rw [Bool.and_eq_true, decide_eq_true_eq] at htry
      rw [afterWait_again_iff]
      exact (and_iff_right htry).symm
    · rename_i htry
      rw [Bool.and_eq_true, decide_eq_true_eq] at htry
      exact iff_of_false (stop_ne_again _) fun h => htry h.1
  | requestError message =>
    unfold requestTurn HttpxOutcome.isRetryable
    dsimp only
    rw [← sleepForRetry_requestError message, ← not_le]
    split
    · rename_i hlast
      exact iff_of_false (stop_ne_again _) fun h => h.2.1 hlast
    · rename_i hleft
      rw [afterWait_again_iff]
      simp [hleft]
  | raised e => exact iff_of_false (stop_ne_again _) fun h => Bool.noConfusion h.1

/-- A response that is tried again is no success. -/
theorem not_isSuccess_of_transient {r : HttpxResponse} (h : r.isTransient = true) :
    r.isSuccess = false := by
  simp only [HttpxResponse.isTransient, HttpxResponse.isSuccess, Bool.or_eq_true, beq_iff_eq,
    Bool.and_eq_true, decide_eq_true_eq, Bool.and_eq_false_iff, decide_eq_false_iff_not] at h ⊢
  omega

theorem settle_ok_iff {r : HttpxResponse} {value : Json} :
    r.settle host = .ok value ↔ r.isSuccess = true ∧ r.decode host = .ok value := by
  unfold HttpxResponse.settle
  split
  · rename_i hsuccess
    cases r.decode host with
    | ok v => simp [hsuccess, Except.mapError]
    | error e => simp [Except.mapError]
  · rename_i hsuccess
    simp [hsuccess]

theorem delivers_response {r : HttpxResponse} {value : Json} :
    (HttpxOutcome.response r).Delivers host value ↔
      r.isSuccess = true ∧ r.decode host = .ok value := by
  constructor
  · intro h
    obtain ⟨_, hr, hdelivers⟩ := h
    cases hr
    exact hdelivers
  · intro h
    exact ⟨r, rfl, h⟩

/-- A turn that stops with a value has a success in hand, and the value is what that delivers. -/
theorem requestTurn_stop_ok_iff {maxRetries : Nat} {outcome : HttpxOutcome} {attempt : Nat}
    {result : Except RequestFailure Json} {value : Json}
    (h : requestTurn host maxRetries outcome attempt = .stop result) :
    result = .ok value ↔ outcome.Delivers host value := by
  cases outcome with
  | response r =>
    rw [delivers_response]
    unfold requestTurn at h
    dsimp only at h
    split at h
    · rename_i htry
      rw [Bool.and_eq_true] at htry
      obtain ⟨failure, rfl⟩ := afterWait_stop h
      rw [not_isSuccess_of_transient htry.1]
      simp
    · cases h
      exact settle_ok_iff
  | requestError message =>
    have hnone : ¬ (HttpxOutcome.requestError message).Delivers host value := by
      intro h
      obtain ⟨_, hr, -⟩ := h
      cases hr
    refine iff_of_false ?_ hnone
    unfold requestTurn at h
    dsimp only at h
    split at h
    · cases h
      simp
    · obtain ⟨failure, rfl⟩ := afterWait_stop h
      simp
  | raised e =>
    have hnone : ¬ (HttpxOutcome.raised e).Delivers host value := by
      intro h
      obtain ⟨_, hr, -⟩ := h
      cases hr
    refine iff_of_false ?_ hnone
    cases h
    simp

/-! ## The whole call -/

variable {client : LLMKeyClient} {method path : String} {body : List UInt8}
  {outcomes : Nat → HttpxOutcome}

/-- **The call, read off its last outcome**: the outcomes before it were retried, and it was not. -/
theorem requestJson_ends (host : ClientHost) (client : LLMKeyClient) (method path : String)
    (body : List UInt8) (outcomes : Nat → HttpxOutcome) :
    ∃ n result, 1 ≤ n ∧ n ≤ client.maxRetries ∧
      (∀ a, 1 ≤ a → a < n → (outcomes a).isRetryable = true ∧ CanWait host (outcomes a) a) ∧
      ¬ ((outcomes n).isRetryable = true ∧ n < client.maxRetries ∧ CanWait host (outcomes n) n) ∧
      (∀ value, result = .ok value ↔ (outcomes n).Delivers host value) ∧
      requestJson host client method path body outcomes =
        ⟨List.replicate n (client.request method path body), some result⟩ := by
  have hlast : requestTurn host client.maxRetries (outcomes (1 + (client.maxRetries - 1)))
      (1 + (client.maxRetries - 1)) ≠ .again := by
    rw [Ne, requestTurn_again_iff]
    have hpos := client.retries_pos
    omega
  obtain ⟨k, result, hk, hagain, hstop, hrun⟩ := attempts_of_last
    (fun attempt => requestTurn host client.maxRetries (outcomes attempt) attempt)
    client.retries_pos hlast
  refine ⟨k + 1, result, by omega, hk, ?_, ?_, ?_, ?_⟩
  · intro a hone ha
    have hturn := hagain (a - 1) (by omega)
    rw [show 1 + (a - 1) = a by omega, requestTurn_again_iff] at hturn
    exact ⟨hturn.1, hturn.2.2⟩
  · rw [← requestTurn_again_iff, Nat.add_comm k 1, hstop]
    exact stop_ne_again result
  · intro value
    rw [Nat.add_comm k 1]
    exact requestTurn_stop_ok_iff hstop
  · unfold requestJson
    rw [hrun]

theorem maxRetries_of_init {baseUrl token : String} {maxRetries : Int} {client : LLMKeyClient}
    (h : LLMKeyClient.init baseUrl token maxRetries = .ok client) :
    (client.maxRetries : Int) = max 1 maxRetries := by
  unfold LLMKeyClient.init at h
  split at h
  · cases h
  split at h
  · cases h
  cases h
  exact clampRetries_cast maxRetries

/-- Attempts late enough for the power to be too large, with outcomes that were all to be retried,
    name their wait themselves. -/
def LateWaitsNamed (host : ClientHost) (maxRetries : Int) (outcomes : Nat → HttpxOutcome) : Prop :=
  ∀ a : Nat, 1024 < a → (a : Int) < max 1 maxRetries →
    (∀ b, 1 ≤ b → b ≤ a → (outcomes b).isRetryable = true) → (outcomes a).namesWait host = true

/-- The contract cannot be met past an attempt whose wait raises. -/
theorem lateWaitsNamed_of_contract {maxRetries : Int}
    (h : RequestContract host maxRetries outcomes
      (requestJson host client method path body outcomes)) :
    LateWaitsNamed host maxRetries outcomes := by
  intro a hlate hleft hretryable
  obtain ⟨n, result, hone, -, hbefore, -, -, hrun⟩ :=
    requestJson_ends host client method path body outcomes
  have hstops := h.stops
  rw [hrun] at hstops
  simp only [List.length_replicate] at hstops
  rcases Nat.lt_or_ge a n with han | hna
  · -- the loop came past attempt `a`, so that it could wait there
    rcases (hbefore a (by omega) han).2 with hearly | hnamed
    · omega
    · exact hnamed
  · have hall := hstops (hretryable n hone hna)
    omega

/-- Whatever the outcomes: no request too many, none after an outcome that settles the call, and
    nothing returned but what a success delivers. -/
theorem requestJson_sound {maxRetries : Int} (hclient : (client.maxRetries : Int) = max 1 maxRetries) :
    let exchange := requestJson host client method path body outcomes
    (exchange.requests.length : Int) ≤ max 1 maxRetries ∧
      (∀ a, 1 ≤ a → a < exchange.requests.length → (outcomes a).isRetryable = true) ∧
      (∀ value, exchange.result = .ok value ↔
        (outcomes exchange.requests.length).Delivers host value) ∧
      exchange.ended.isSome = true := by
  obtain ⟨n, result, -, hle, hbefore, -, hreturns, hrun⟩ :=
    requestJson_ends host client method path body outcomes
  dsimp only
  rw [hrun]
  simp only [List.length_replicate]
  refine ⟨?_, fun a ha han => (hbefore a ha han).1, hreturns, rfl⟩
  rw [← hclient]
  omega

/-- An outcome to be retried ends the call only when the attempts are used up, if the late waits are
    named. -/
theorem requestJson_stops {maxRetries : Int} (hclient : (client.maxRetries : Int) = max 1 maxRetries)
    (hnamed : LateWaitsNamed host maxRetries outcomes) :
    let exchange := requestJson host client method path body outcomes
    (outcomes exchange.requests.length).isRetryable = true →
      (exchange.requests.length : Int) = max 1 maxRetries := by
  obtain ⟨n, result, hone, hle, hbefore, hlast, -, hrun⟩ :=
    requestJson_ends host client method path body outcomes
  dsimp only
  rw [hrun]
  simp only [List.length_replicate]
  intro hretryable
  by_contra hearly
  have hleft : n < client.maxRetries := by omega
  have hstuck : ¬ CanWait host (outcomes n) n := fun hwait => hlast ⟨hretryable, hleft, hwait⟩
  have hlate : 1024 < n := by
    by_contra hsmall
    exact hstuck (.inl (not_lt.mp hsmall))
  refine hstuck (.inr (hnamed n hlate (by omega) ?_))
  intro b hb hbn
  rcases Nat.lt_or_ge b n with hlt | hge
  · exact (hbefore b hb hlt).1
  · rwa [Nat.le_antisymm hbn hge]

/-- **A call keeps its promise** exactly where no wait past the 1024th attempt has to be computed. -/
theorem request_contract_iff {baseUrl token : String} {maxRetries : Int} {client : LLMKeyClient}
    (h : LLMKeyClient.init baseUrl token maxRetries = .ok client) (host : ClientHost)
    (method path : String) (body : List UInt8) (outcomes : Nat → HttpxOutcome) :
    RequestContract host maxRetries outcomes
        (requestJson host client method path body outcomes) ↔
      LateWaitsNamed host maxRetries outcomes := by
  have hclient := maxRetries_of_init h
  constructor
  · exact lateWaitsNamed_of_contract
  · intro hnamed
    obtain ⟨hbounded, hretried, hreturns, hends⟩ := requestJson_sound hclient
    exact ⟨hbounded, hretried, requestJson_stops hclient hnamed, hreturns, hends⟩

/-! ## An outage that is long enough -/

def plainHost : ClientHost where
  py := cpython

/-- Nothing answers the first 1025 requests; the next one would be answered. -/
def longOutage (a : Nat) : HttpxOutcome :=
  if a ≤ 1025 then .requestError "connection refused" else .response { statusCode := 200 }

/-- A client of the default setting. -/
theorem default_retries_contract : ∃ client,
    LLMKeyClient.init "http://backend" "token" LLM_KEY_MAX_RETRIES = .ok client ∧
      (RequestContract plainHost LLM_KEY_MAX_RETRIES longOutage
          (requestJson plainHost client "GET" "/llm-keys/roster" [] longOutage) ↔
        LateWaitsNamed plainHost LLM_KEY_MAX_RETRIES longOutage) := by
  have hinit : LLMKeyClient.init "http://backend" "token" LLM_KEY_MAX_RETRIES = .ok _ := rfl
  exact ⟨_, hinit, request_contract_iff hinit plainHost _ _ _ longOutage⟩

/-- With 1026 attempts the outage is over before they are used up, and the call has raised. -/
theorem long_outage_raises : ∃ client,
    LLMKeyClient.init "http://backend" "token" 1026 = .ok client ∧
      ¬ RequestContract plainHost 1026 longOutage
        (requestJson plainHost client "GET" "/llm-keys/roster" [] longOutage) := by
  refine ⟨_, rfl, ?_⟩
  intro h
  have hnamed := lateWaitsNamed_of_contract h 1025 (by decide) (by decide)
    (fun b _ hb => by simp [longOutage, hb, HttpxOutcome.isRetryable])
  cases hnamed

end TaoSubnet
