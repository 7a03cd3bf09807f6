import TaoSubnet.Proof.Security.FindingsErrors

/-!
# The contract of the findings parser

A document ends in a refusal or in findings that are bounded in every field. Two kinds of documents do
not: those that escape (`FindingsErrors`), and those that report nothing and still say how to
reproduce it, since a step is held against at least one finding. Both are told from the fields
that are read, in the order they are read.
-/

namespace TaoSubnet

open Py

/-! ## Fields that are taken -/

/-- What `_str` makes of a field it takes. -/
def textOf (value : Option Json) (default : String) : PyStr :=
  match value with
  | some (.str s) => s
  | _ => PyStr.ofString default

theorem require_return {α : Type} {cond : Bool} {m : String} {t s : α} :
    (do require cond m; return t : Parse α) = .ok s ↔ cond = true ∧ s = t := by
  cases cond with
  | false => exact ⟨fun h => (by cases h), fun h => (by cases h.1)⟩
  | true => exact ⟨fun h => ⟨rfl, (Except.ok.inj h).symm⟩, fun h => congrArg Except.ok h.2.symm⟩

theorem strField_ok_iff {value : Option Json} {name : String} {required : Bool} {default : String}
    {s : PyStr} : strField value name required default = .ok s ↔
      fitsText value required = true ∧ s = textOf value default := by
  unfold strField fitsText textOf
  split
  · exact require_return
  · exact require_return
  · exact require_return
  · simp

theorem length_strField {value : Option Json} {name : String} {required : Bool} {default : String}
    {s : PyStr} (h : strField value name required default = .ok s)
    (hdefault : (PyStr.ofString default).length ≤ MAX_STRING) : s.length ≤ MAX_STRING := by
  obtain ⟨hfits, rfl⟩ := strField_ok_iff.mp h
  unfold fitsText at hfits
  unfold textOf
  split
  · exact of_decide_eq_true hfits
  · exact hdefault

/-- A share. -/
def PyFloat.isShare (x : PyFloat) : Bool := PyFloat.le (.fin 0) x && PyFloat.le x (.fin 1)

/-- A confidence that `_float01` takes. -/
def confidenceFits : Option Json → Bool
  | none | some .null => true
  | some (.int n) => fitsDouble n && PyFloat.isShare (PyFloat.ofRat n)
  | some (.float x) => PyFloat.isShare x
  | some _ => false

/-- What `_float01` makes of one. -/
def confidenceOf : Option Json → PyFloat
  | some (.int n) => PyFloat.ofRat n
  | some (.float x) => x
  | _ => .fin 0

theorem float01_ok_iff {value : Option Json} {name : String} {x : PyFloat} :
    float01 value name = .ok x ↔ confidenceFits value = true ∧ x = confidenceOf value := by
  have hnull : (.ok (.fin 0) : Parse PyFloat) = .ok x ↔ true = true ∧ x = .fin 0 :=
    ⟨fun h => ⟨rfl, (Except.ok.inj h).symm⟩, fun h => congrArg Except.ok h.2.symm⟩
  unfold float01 confidenceFits confidenceOf
  split
  · exact hnull
  · exact hnull
  · rename_i n
    cases hn : fitsDouble n with
    | false => simp [hn]
    | true =>
      simp only [hn, if_true, Bool.true_and]
      exact require_return
  · exact require_return
  · simp

theorem isShare_float01 {value : Option Json} {name : String} {x : PyFloat}
    (h : float01 value name = .ok x) : PyFloat.isShare x = true := by
  obtain ⟨hfits, rfl⟩ := float01_ok_iff.mp h
  unfold confidenceFits at hfits
  unfold confidenceOf
  split at hfits
  · decide +kernel
  · decide +kernel
  · rw [Bool.and_eq_true] at hfits
    exact hfits.2
  · exact hfits
  · cases hfits

/-- The canary of a finding, or under its evidence. -/
def canarySource (fields : List (PyStr × Json)) : Option Json :=
  if present (Json.get? fields "canary") then Json.get? fields "canary"
  else match Json.get? fields "evidence" with
    | some (.obj evidence) => Json.get? evidence "canary"
    | _ => none

/-- A canary that is not there is read like an empty one. -/
theorem absent_canary {value : Option Json} (h : present value = false) :
    fitsText value false = true ∧ orNone (textOf value "") = none := by
  unfold present at h
  split at h
  · exact ⟨rfl, rfl⟩
  · exact ⟨rfl, rfl⟩
  · cases h

theorem extractCanary_ok_iff {fields : List (PyStr × Json)} {index : Nat} {canary : Option PyStr} :
    extractCanary fields index = .ok canary ↔ fitsText (canarySource fields) false = true ∧
      canary = orNone (textOf (canarySource fields) "") := by
  have hfield : ∀ (value : Option Json) (name : String),
      (do return orNone (← strField value name false) : Parse (Option PyStr)) = .ok canary ↔
        fitsText value false = true ∧ canary = orNone (textOf value "") := by
    intro value name
    constructor
    · intro h
      obtain ⟨s, hs, h⟩ := except_bind_ok h
      obtain ⟨hfits, rfl⟩ := strField_ok_iff.mp hs
      exact ⟨hfits, (Except.ok.inj h).symm⟩
    · intro ⟨hfits, hcanary⟩
      rw [strField_ok_iff.mpr ⟨hfits, rfl⟩, hcanary]
      rfl
  have hnone : ∀ value : Option Json, present value = false →
      ((.ok none : Parse (Option PyStr)) = .ok canary ↔
        fitsText value false = true ∧ canary = orNone (textOf value "")) := by
    intro value habsent
    obtain ⟨hfits, hempty⟩ := absent_canary habsent
    rw [hempty]
    exact ⟨fun h => ⟨hfits, (Except.ok.inj h).symm⟩, fun h => congrArg Except.ok h.2.symm⟩
  unfold extractCanary canarySource
  dsimp only
  split
  · exact hfield _ _
  · cases Json.get? fields "evidence" with
    | none => exact hnone none rfl
    | some value =>
      cases value with
      | obj evidence =>
        dsimp only
        split
        · exact hfield _ _
        · rename_i habsent
          exact hnone _ (Bool.eq_false_of_not_eq_true habsent)
      | _ => exact hnone none rfl

theorem length_extractCanary {fields : List (PyStr × Json)} {index : Nat} {canary : Option PyStr}
    (h : extractCanary fields index = .ok canary) : ∀ s, canary = some s → s.length ≤ MAX_STRING := by
  obtain ⟨hfits, rfl⟩ := extractCanary_ok_iff.mp h
  intro s hs
  unfold orNone at hs
  split at hs
  · cases hs
  · obtain rfl := Option.some.inj hs
    have htaken : strField (canarySource fields) "canary" false = .ok _ :=
      strField_ok_iff.mpr ⟨hfits, rfl⟩
    exact length_strField htaken (Nat.zero_le _)

/-! ## Findings -/

/-- The confidence can be read, and everything behind it. -/
def findingFits : Json → Bool
  | .obj fields => confidenceReached fields && confidenceFits (Json.get? fields "confidence") &&
    fitsText (canarySource fields) false && fitsText (Json.get? fields "response_excerpt") false
  | _ => false

/-- A finding whose fields are bounded. -/
structure Finding.Bounded (finding : Finding) : Prop where
  endpoint : finding.endpoint.length ≤ MAX_STRING
  parameter : finding.parameter.length ≤ MAX_STRING
  injectionType : finding.injectionType.length ≤ MAX_STRING
  payload : finding.payload.length ≤ MAX_STRING
  severity : finding.severity.length ≤ MAX_STRING
  confidence : PyFloat.isShare finding.confidence = true
  canary : ∀ s, finding.canary = some s → s.length ≤ MAX_STRING
  responseExcerpt : finding.responseExcerpt.length ≤ MAX_STRING

theorem parseFinding_ok (item : Json) (index : Nat) :
    (∃ finding, parseFinding item index = .ok finding) ↔ findingFits item = true := by
  unfold parseFinding findingFits confidenceReached
  cases item with
  | obj fields =>
    dsimp only
    simp only [Bool.and_eq_true]
    constructor
    · intro ⟨finding, h⟩
      obtain ⟨endpoint, hendpoint, h⟩ := except_bind_ok h
      obtain ⟨parameter, hparameter, h⟩ := except_bind_ok h
      obtain ⟨injectionType, hinjectionType, h⟩ := except_bind_ok h
      obtain ⟨payload, hpayload, h⟩ := except_bind_ok h
      obtain ⟨severity, hseverity, h⟩ := except_bind_ok h
      obtain ⟨confidence, hconfidence, h⟩ := except_bind_ok h
      obtain ⟨canary, hcanary, h⟩ := except_bind_ok h
      obtain ⟨excerpt, hexcerpt, h⟩ := except_bind_ok h
      exact ⟨⟨⟨⟨⟨⟨⟨(strField_ok_iff.mp hendpoint).1, (strField_ok_iff.mp hparameter).1⟩,
        (strField_ok_iff.mp hinjectionType).1⟩, (strField_ok_iff.mp hpayload).1⟩,
        (strField_ok_iff.mp hseverity).1⟩, (float01_ok_iff.mp hconfidence).1⟩,
        (extractCanary_ok_iff.mp hcanary).1⟩, (strField_ok_iff.mp hexcerpt).1⟩
    · intro ⟨⟨⟨⟨⟨⟨⟨hendpoint, hparameter⟩, hinjectionType⟩, hpayload⟩, hseverity⟩, hconfidence⟩,
        hcanary⟩, hexcerpt⟩
      rw [strField_ok_iff.mpr ⟨hendpoint, rfl⟩, strField_ok_iff.mpr ⟨hparameter, rfl⟩,
        strField_ok_iff.mpr ⟨hinjectionType, rfl⟩, strField_ok_iff.mpr ⟨hpayload, rfl⟩,
        strField_ok_iff.mpr ⟨hseverity, rfl⟩, float01_ok_iff.mpr ⟨hconfidence, rfl⟩,
        extractCanary_ok_iff.mpr ⟨hcanary, rfl⟩, strField_ok_iff.mpr ⟨hexcerpt, rfl⟩]
      exact ⟨_, rfl⟩
  | _ => simp

theorem parseFinding_bounded {item : Json} {index : Nat} {finding : Finding}
    (h : parseFinding item index = .ok finding) : finding.Bounded := by
  have hdefault : (PyStr.ofString "sql_injection").length ≤ MAX_STRING := by decide
  have hunknown : (PyStr.ofString "unknown").length ≤ MAX_STRING := by decide
  unfold parseFinding at h
  split at h
  · obtain ⟨endpoint, hendpoint, h⟩ := except_bind_ok h
    obtain ⟨parameter, hparameter, h⟩ := except_bind_ok h
    obtain ⟨injectionType, hinjectionType, h⟩ := except_bind_ok h
    obtain ⟨payload, hpayload, h⟩ := except_bind_ok h
    obtain ⟨severity, hseverity, h⟩ := except_bind_ok h
    obtain ⟨confidence, hconfidence, h⟩ := except_bind_ok h
    obtain ⟨canary, hcanary, h⟩ := except_bind_ok h
    obtain ⟨excerpt, hexcerpt, h⟩ := except_bind_ok h
    obtain rfl := Except.ok.inj h
    constructor
    · exact length_strField hendpoint (Nat.zero_le _)
    · exact length_strField hparameter (Nat.zero_le _)
    · exact length_strField hinjectionType hdefault
    · exact length_strField hpayload (Nat.zero_le _)
    · exact length_strField hseverity hunknown
    · exact isShare_float01 hconfidence
    · exact length_extractCanary hcanary
    · exact List.length_take_le _ _
  · cases h

/-! ## Reproduction steps -/

/-- The finding a step names, if what it gives is an integer or an id of digits. -/
def namedFinding (u : Unicode) (fields : List (PyStr × Json)) : Option Int :=
  match (Json.get? fields "finding_index").or (Json.get? fields "finding_id") with
  | some (.str s) =>
    if PyStr.isdigit u (PyStr.lstripOf 102 s) then
      (PyStr.toInt u (PyStr.lstripOf 102 s)).toOption.map (· - 1)
    else none
  | some (.int n) => some n
  | some (.bool b) => some (if b then 1 else 0)
  | _ => none

theorem findingIndexOf_ok_iff {u : Unicode} {fields : List (PyStr × Json)} {index : Nat} {n : Int} :
    findingIndexOf u fields index = .ok n ↔ namedFinding u fields = some n := by
  unfold findingIndexOf namedFinding
  dsimp only
  cases (Json.get? fields "finding_index").or (Json.get? fields "finding_id") with
  | none => simp
  | some value =>
    cases value with
    | str s =>
      dsimp only
      split
      · cases PyStr.toInt u (PyStr.lstripOf 102 s) with
        | error e => simp [Except.toOption]
        | ok m => simp [Except.toOption]
      · simp
    | _ => simp

def isMethod (s : PyStr) : Bool := s = PyStr.ofString "GET" || s = PyStr.ofString "POST"

/-- The parameters of a query; whatever is falsy has none. -/
def queryOf (fields : List (PyStr × Json)) : Option (List (PyStr × Json)) :=
  match Json.get? fields "query" with
  | some (.obj query) => some query
  | some v => if v.truthy then none else some []
  | none => some []

def parameterFits (parameter : PyStr × Json) : Bool :=
  parameter.1.length ≤ MAX_STRING && fitsText (some parameter.2) false

def queryFits (fields : List (PyStr × Json)) : Bool :=
  match queryOf fields with
  | none => false
  | some query => query.length ≤ 32 && query.all parameterFits

theorem cleanQuery_ok {name : String} {query : List (PyStr × Json)} :
    (∃ clean, cleanQuery name query = .ok clean) ↔ query.all parameterFits = true := by
  induction query with
  | nil => exact iff_of_true ⟨[], rfl⟩ rfl
  | cons parameter rest ih =>
    obtain ⟨k, v⟩ := parameter
    rw [List.all_cons, Bool.and_eq_true, ← ih]
    unfold parameterFits
    rw [Bool.and_eq_true]
    constructor
    · intro ⟨clean, h⟩
      obtain ⟨key, hkey, h⟩ := except_bind_ok h
      obtain ⟨value, hvalue, h⟩ := except_bind_ok h
      obtain ⟨others, hothers, h⟩ := except_bind_ok h
      exact ⟨⟨(strField_ok_iff.mp hkey).1, (strField_ok_iff.mp hvalue).1⟩, others, hothers⟩
    · intro ⟨⟨hkey, hvalue⟩, others, hothers⟩
      have hkey : fitsText (some (.str k)) true = true := hkey
      rw [cleanQuery, strField_ok_iff.mpr ⟨hkey, rfl⟩, strField_ok_iff.mpr ⟨hvalue, rfl⟩, hothers]
      exact ⟨_, rfl⟩

theorem length_cleanQuery {name : String} {query : List (PyStr × Json)}
    {clean : List (PyStr × PyStr)} (h : cleanQuery name query = .ok clean) :
    ∀ p ∈ clean, p.1.length ≤ MAX_STRING ∧ p.2.length ≤ MAX_STRING := by
  induction query generalizing clean with
  | nil =>
    obtain rfl := Except.ok.inj h
    intro p hp
    cases hp
  | cons parameter rest ih =>
    obtain ⟨k, v⟩ := parameter
    obtain ⟨key, hkey, h⟩ := except_bind_ok h
    obtain ⟨value, hvalue, h⟩ := except_bind_ok h
    obtain ⟨others, hothers, h⟩ := except_bind_ok h
    obtain rfl := Except.ok.inj h
    intro p hp
    rcases List.mem_cons.mp hp with rfl | hp
    · exact ⟨length_strField hkey (Nat.zero_le _), length_strField hvalue (Nat.zero_le _)⟩
    · exact ih hothers p hp

/-- A step that is taken where `nFindings` are reported. -/
def stepFits (u : Unicode) (nFindings : Nat) : Json → Bool
  | .obj fields =>
    (match namedFinding u fields with
      | some n => 0 ≤ n && n < max nFindings 1
      | none => false) &&
    fitsText (Json.get? fields "method") false &&
    isMethod (u.upper (textOf (Json.get? fields "method") "GET")) && queryFits fields &&
    fitsText (Json.get? fields "path") true
  | _ => false

structure ReproStep.Bounded (step : ReproStep) : Prop where
  method : isMethod step.method = true
  path : step.path.length ≤ MAX_STRING
  query : ∀ p ∈ step.query, p.1.length ≤ MAX_STRING ∧ p.2.length ≤ MAX_STRING

theorem length_isMethod {s : PyStr} (h : isMethod s = true) : s.length ≤ MAX_STRING := by
  unfold isMethod at h
  rw [Bool.or_eq_true, decide_eq_true_eq, decide_eq_true_eq] at h
  rcases h with rfl | rfl
  · decide
  · decide

/-- The parse of a step, with the query it reads named. -/
theorem parseRepro_obj (u : Unicode) (fields : List (PyStr × Json)) (index nFindings : Nat) :
    parseRepro u (.obj fields) index nFindings = (do
      let name := "reproduction " ++ toString index
      let findingIndex ← findingIndexOf u fields index
      require (0 ≤ findingIndex && findingIndex < max nFindings 1) (name ++ " points at no finding")
      let method := u.upper (← strField (Json.get? fields "method") (name ++ " method") false "GET")
      require (isMethod method) (name ++ " method must be GET or POST")
      match queryOf fields with
      | none => .error (.findingsError (name ++ " query must be an object"))
      | some query => do
        require (query.length ≤ 32) (name ++ " has too many query params")
        let clean ← cleanQuery name query
        let path ← strField (Json.get? fields "path") (name ++ " path")
        return ⟨findingIndex, method, path, clean⟩) := rfl

theorem parseRepro_ok {u : Unicode} {item : Json} {index nFindings : Nat} :
    (∃ step, parseRepro u item index nFindings = .ok step) ↔ stepFits u nFindings item = true := by
  unfold stepFits queryFits
  cases item with
  | obj fields =>
    rw [parseRepro_obj]
    dsimp only
    simp only [Bool.and_eq_true]
    constructor
    · intro ⟨step, h⟩
      obtain ⟨n, hn, h⟩ := except_bind_ok h
      obtain ⟨_, hrange, h⟩ := except_bind_ok h
      obtain ⟨method, hmethod, h⟩ := except_bind_ok h
      obtain ⟨_, hallowed, h⟩ := except_bind_ok h
      obtain ⟨hfits, rfl⟩ := strField_ok_iff.mp hmethod
      rw [findingIndexOf_ok_iff.mp hn]
      cases hquery : queryOf fields with
      | none =>
        rw [hquery] at h
        cases h
      | some query =>
        rw [hquery] at h
        obtain ⟨_, hmany, h⟩ := except_bind_ok h
        obtain ⟨clean, hclean, h⟩ := except_bind_ok h
        obtain ⟨path, hpath, h⟩ := except_bind_ok h
        dsimp only
        simp only [Bool.and_eq_true]
        exact ⟨⟨⟨⟨(Bool.and_eq_true _ _).mp (require_ok.mp hrange), hfits⟩, require_ok.mp hallowed⟩, require_ok.mp hmany,
          cleanQuery_ok.mp ⟨clean, hclean⟩⟩, (strField_ok_iff.mp hpath).1⟩
    · intro ⟨⟨⟨⟨hindex, hmethod⟩, hallowed⟩, hquery⟩, hpath⟩
      cases hn : namedFinding u fields with
      | none =>
        rw [hn] at hindex
        cases hindex
      | some n =>
        rw [hn] at hindex
        cases hq : queryOf fields with
        | none =>
          rw [hq] at hquery
          cases hquery
        | some query =>
          rw [hq] at hquery
          dsimp only at hquery hindex
          rw [Bool.and_eq_true] at hquery
          obtain ⟨clean, hclean⟩ : ∃ clean,
              cleanQuery ("reproduction " ++ toString index) query = .ok clean :=
            cleanQuery_ok.mpr hquery.2
          refine ⟨⟨n, u.upper (textOf (Json.get? fields "method") "GET"),
            textOf (Json.get? fields "path") "", clean⟩, ?_⟩
          refine ok_bind (findingIndexOf_ok_iff.mpr hn) ?_
          refine ok_bind (a := ()) (require_ok.mpr hindex) ?_
          refine ok_bind (strField_ok_iff.mpr ⟨hmethod, rfl⟩) ?_
          refine ok_bind (a := ()) (require_ok.mpr hallowed) ?_
          refine ok_bind (a := ()) (require_ok.mpr hquery.1) ?_
          refine ok_bind hclean ?_
          exact ok_bind (strField_ok_iff.mpr ⟨hpath, rfl⟩) rfl
  | _ => simp [parseRepro]

theorem parseRepro_bounded {u : Unicode} {item : Json} {index nFindings : Nat} {step : ReproStep}
    (h : parseRepro u item index nFindings = .ok step) :
    step.Bounded ∧ 0 ≤ step.findingIndex ∧ step.findingIndex < max nFindings 1 := by
  cases item with
  | obj fields =>
    rw [parseRepro_obj] at h
    obtain ⟨n, -, h⟩ := except_bind_ok h
    obtain ⟨_, hrange, h⟩ := except_bind_ok h
    obtain ⟨method, -, h⟩ := except_bind_ok h
    obtain ⟨_, hallowed, h⟩ := except_bind_ok h
    cases hquery : queryOf fields with
    | none =>
      rw [hquery] at h
      cases h
    | some query =>
      rw [hquery] at h
      obtain ⟨_, -, h⟩ := except_bind_ok h
      obtain ⟨clean, hclean, h⟩ := except_bind_ok h
      obtain ⟨path, hpath, h⟩ := except_bind_ok h
      obtain rfl := Except.ok.inj h
      have hindex := (Bool.and_eq_true _ _).mp (require_ok.mp hrange)
      refine ⟨⟨require_ok.mp hallowed, length_strField hpath (Nat.zero_le _),
        length_cleanQuery hclean⟩, of_decide_eq_true hindex.1, of_decide_eq_true hindex.2⟩
  | _ => cases h

/-! ## Lists of items -/

section Items

variable {α : Type} {parse : Json → Nat → Parse α}

theorem parseItems_ok {fits : Json → Bool} (h : ∀ item i, (∃ x, parse item i = .ok x) ↔
    fits item = true) (items : List Json) (i : Nat) :
    (∃ parsed, parseItems parse i items = .ok parsed) ↔ items.all fits = true := by
  induction items generalizing i with
  | nil => exact iff_of_true ⟨[], rfl⟩ rfl
  | cons item rest ih =>
    rw [List.all_cons, Bool.and_eq_true, ← h item i, ← ih (i + 1)]
    constructor
    · intro ⟨parsed, hparsed⟩
      obtain ⟨first, hfirst, hparsed⟩ := except_bind_ok hparsed
      obtain ⟨others, hothers, -⟩ := except_bind_ok hparsed
      exact ⟨⟨first, hfirst⟩, others, hothers⟩
    · intro ⟨⟨first, hfirst⟩, others, hothers⟩
      exact ⟨first :: others, ok_bind hfirst (ok_bind hothers rfl)⟩

theorem parseItems_forall {P : α → Prop} (h : ∀ {item i x}, parse item i = .ok x → P x)
    {items : List Json} {i : Nat} {parsed : List α} (hparsed : parseItems parse i items = .ok parsed) :
    parsed.length = items.length ∧ ∀ x ∈ parsed, P x := by
  induction items generalizing i parsed with
  | nil =>
    obtain rfl := Except.ok.inj hparsed
    refine ⟨rfl, ?_⟩
    intro x hx
    cases hx
  | cons item rest ih =>
    obtain ⟨first, hfirst, hparsed⟩ := except_bind_ok hparsed
    obtain ⟨others, hothers, hparsed⟩ := except_bind_ok hparsed
    obtain rfl := Except.ok.inj hparsed
    obtain ⟨hlength, hall⟩ := ih hothers
    refine ⟨congrArg Nat.succ hlength, ?_⟩
    intro x hx
    rcases List.mem_cons.mp hx with rfl | hx
    · exact h hfirst
    · exact hall x hx

end Items

theorem parseSteps_ok (u : Unicode) (nFindings : Nat) (steps : List Json) (i : Nat) :
    (∃ parsed, parseItems (fun item j => parseRepro u item j nFindings) i steps = .ok parsed) ↔
      steps.all (stepFits u nFindings) = true := by
  apply parseItems_ok
  intro item j
  exact parseRepro_ok

/-! ## The document -/

def agentOf (data : List (PyStr × Json)) : List (PyStr × Json) :=
  match Json.get? data "agent" with
  | some (.obj agent) => agent
  | _ => []

/-- Findings that are bounded in every field, for the run that was asked for. -/
structure Findings.Bounded (runId : String) (parsed : Findings) : Prop where
  run : parsed.runId = PyStr.ofString runId
  few : parsed.findings.length ≤ MAX_FINDINGS
  fewSteps : parsed.reproduction.length ≤ MAX_FINDINGS
  findings : ∀ finding ∈ parsed.findings, finding.Bounded
  steps : ∀ step ∈ parsed.reproduction, step.Bounded
  texts : ∀ s ∈ [parsed.runId, parsed.schemaVersion, parsed.agentName, parsed.agentVersion],
    s.length ≤ MAX_STRING

theorem listField_ok {value : Option Json} {m : String} {items : List Json} {u : Unit}
    (h : listField value m = .ok items) {m' : String}
    (hlength : require (items.length ≤ MAX_FINDINGS) m' = .ok u) : HasList value items :=
  hasList_iff.mpr ⟨h, of_decide_eq_true (require_ok.mp hlength)⟩

/-- What a parsed document was made of. -/
structure Parsed (u : Unicode) (runId : String) (data : List (PyStr × Json)) (parsed : Findings) :
    Prop where
  runId : Json.get? data "run_id" = some (.str (PyStr.ofString runId)) ∧
    (PyStr.ofString runId).length ≤ MAX_STRING ∧ parsed.runId = PyStr.ofString runId
  findings : ∃ items, HasList (Json.get? data "findings") items ∧
    parseItems parseFinding 0 items = .ok parsed.findings
  reproduction : ∃ steps, HasList (Json.get? data "reproduction") steps ∧
    parseItems (fun item i => parseRepro u item i parsed.findings.length) 0 steps =
      .ok parsed.reproduction
  schemaVersion : strField (Json.get? data "schema_version") "schema_version" false =
    .ok parsed.schemaVersion
  agentName : strField (Json.get? (agentOf data) "name") "agent.name" false = .ok parsed.agentName
  agentVersion : strField (Json.get? (agentOf data) "version") "agent.version" false =
    .ok parsed.agentVersion

theorem parseDocument_ok_iff {u : Unicode} {data : List (PyStr × Json)} {runId : String}
    {parsed : Findings} :
    parseDocument u (.obj data) (some runId) = .ok parsed ↔ Parsed u runId data parsed := by
  constructor
  · intro h
    obtain ⟨id, hid, h⟩ := except_bind_ok h
    obtain ⟨_, hrun, h⟩ := except_bind_ok h
    obtain ⟨items, hitems, h⟩ := except_bind_ok h
    obtain ⟨_, hfew, h⟩ := except_bind_ok h
    obtain ⟨findings, hfindings, h⟩ := except_bind_ok h
    obtain ⟨steps, hsteps, h⟩ := except_bind_ok h
    obtain ⟨_, hfewSteps, h⟩ := except_bind_ok h
    obtain ⟨reproduction, hreproduction, h⟩ := except_bind_ok h
    obtain ⟨schemaVersion, hschema, h⟩ := except_bind_ok h
    obtain ⟨agentName, hname, h⟩ := except_bind_ok h
    obtain ⟨agentVersion, hversion, h⟩ := except_bind_ok h
    obtain rfl := Except.ok.inj h
    obtain rfl := of_decide_eq_true (require_ok.mp hrun)
    obtain ⟨hfield, hlength⟩ := strField_ok_str.mp hid
    exact ⟨⟨hfield, hlength, rfl⟩, ⟨items, listField_ok hitems hfew, hfindings⟩,
      ⟨steps, listField_ok hsteps hfewSteps, hreproduction⟩, hschema, hname, hversion⟩
  · intro h
    obtain ⟨hfield, hlength, hrun⟩ := h.runId
    obtain ⟨items, hitems, hfindings⟩ := h.findings
    obtain ⟨steps, hsteps, hreproduction⟩ := h.reproduction
    obtain ⟨hitems, hfew⟩ := hasList_iff.mp hitems
    obtain ⟨hsteps, hfewSteps⟩ := hasList_iff.mp hsteps
    refine ok_bind (strField_ok_str.mpr ⟨hfield, hlength⟩) ?_
    refine ok_bind (a := ()) (require_ok.mpr (decide_eq_true rfl)) ?_
    refine ok_bind hitems ?_
    refine ok_bind (a := ()) (require_ok.mpr (decide_eq_true hfew)) ?_
    refine ok_bind hfindings ?_
    refine ok_bind hsteps ?_
    refine ok_bind (a := ()) (require_ok.mpr (decide_eq_true hfewSteps)) ?_
    refine ok_bind hreproduction ?_
    refine ok_bind h.schemaVersion ?_
    refine ok_bind h.agentName ?_
    refine ok_bind h.agentVersion ?_
    rw [← hrun]
    rfl

/-- Whatever is parsed is bounded; a step's index is held against one finding at least. -/
theorem Parsed.bounded {u : Unicode} {data : List (PyStr × Json)} {runId : String} {parsed : Findings}
    (h : Parsed u runId data parsed) : parsed.Bounded runId ∧ ∀ step ∈ parsed.reproduction,
      0 ≤ step.findingIndex ∧ step.findingIndex < max parsed.findings.length 1 := by
  obtain ⟨-, hlength, hrun⟩ := h.runId
  obtain ⟨items, hitems, hfindings⟩ := h.findings
  obtain ⟨steps, hsteps, hreproduction⟩ := h.reproduction
  obtain ⟨hcount, hbounded⟩ := parseItems_forall (fun h => parseFinding_bounded h) hfindings
  obtain ⟨hcount', hbounded'⟩ := parseItems_forall (fun h => parseRepro_bounded h) hreproduction
  refine ⟨⟨hrun, hcount.trans_le hitems.2, hcount'.trans_le hsteps.2, hbounded,
    fun step hstep => (hbounded' step hstep).1, ?_⟩, fun step hstep => (hbounded' step hstep).2⟩
  intro s hs
  simp only [List.mem_cons, List.not_mem_nil, or_false] at hs
  rcases hs with rfl | rfl | rfl | rfl
  · rw [hrun]
    exact hlength
  · exact length_strField h.schemaVersion (Nat.zero_le _)
  · exact length_strField h.agentName (Nat.zero_le _)
  · exact length_strField h.agentVersion (Nat.zero_le _)

/-! ## The two kinds of documents that break the contract -/

/-- The document is one of this run. -/
def NamesRun (runId : String) (data : List (PyStr × Json)) : Prop :=
  Json.get? data "run_id" = some (.str (PyStr.ofString runId)) ∧
    (PyStr.ofString runId).length ≤ MAX_STRING

/-- The first item that is not in order is `bad`. -/
def FirstDefect (fits bad : Json → Bool) (items : List Json) : Prop :=
  ∃ before item after, items = before ++ item :: after ∧ before.all fits = true ∧ bad item = true

/-- The first defect is a confidence that no float holds, or, past the findings, an id of digits that
    are no integer. -/
def FirstDefectEscapes (u : Unicode) (data : List (PyStr × Json)) : Prop :=
  ∃ items, HasList (Json.get? data "findings") items ∧
    (FirstDefect findingFits confidenceOverflows items ∨
      items.all findingFits = true ∧ ∃ steps, HasList (Json.get? data "reproduction") steps ∧
        FirstDefect (stepFits u items.length) (idUnreadable u) steps)

/-- No finding is reported, and there are steps that reproduce the first; all is in order otherwise. -/
def ReproducesNothing (u : Unicode) (data : List (PyStr × Json)) : Prop :=
  HasList (Json.get? data "findings") [] ∧
    (∃ steps, HasList (Json.get? data "reproduction") steps ∧ steps ≠ [] ∧
      steps.all (stepFits u 0) = true) ∧
    fitsText (Json.get? data "schema_version") false = true ∧
    fitsText (Json.get? (agentOf data) "name") false = true ∧
    fitsText (Json.get? (agentOf data) "version") false = true

theorem firstBad_iff {α : Type} {parse : Json → Nat → Parse α} {fits bad : Json → Bool}
    (h : ∀ item i, (∃ x, parse item i = .ok x) ↔ fits item = true) (items : List Json) :
    FirstBad parse bad items ↔ FirstDefect fits bad items := by
  unfold FirstBad FirstDefect
  simp only [parseItems_ok h]

theorem documentEscapes_iff {u : Unicode} {runId : String} {data : List (PyStr × Json)} :
    DocumentEscapes u runId data ↔ NamesRun runId data ∧ FirstDefectEscapes u data := by
  have hsteps : ∀ (n : Nat) (steps : List Json),
      FirstBad (fun item i => parseRepro u item i n) (idUnreadable u) steps ↔
        FirstDefect (stepFits u n) (idUnreadable u) steps := by
    intro n steps
    apply firstBad_iff
    intro item i
    exact parseRepro_ok
  unfold DocumentEscapes NamesRun FirstDefectEscapes
  rw [and_assoc]
  refine and_congr_right fun _ => and_congr_right fun _ => exists_congr fun items =>
    and_congr_right fun _ => or_congr ?_ ?_
  · exact firstBad_iff parseFinding_ok items
  · constructor
    · intro ⟨findings, hfindings, steps, hlist, hbad⟩
      have hcount := (parseItems_forall (fun h => parseFinding_bounded h) hfindings).1
      rw [hcount] at hbad
      exact ⟨(parseItems_ok parseFinding_ok items 0).mp ⟨findings, hfindings⟩, steps,
        hlist, (hsteps _ _).mp hbad⟩
    · intro ⟨hall, steps, hlist, hbad⟩
      obtain ⟨findings, hfindings⟩ := (parseItems_ok parseFinding_ok items 0).mpr hall
      have hcount := (parseItems_forall (fun h => parseFinding_bounded h) hfindings).1
      refine ⟨findings, hfindings, steps, hlist, ?_⟩
      rw [hcount]
      exact (hsteps _ _).mpr hbad

theorem reproducesNothing_iff {u : Unicode} {runId : String} {data : List (PyStr × Json)} :
    (∃ parsed, Parsed u runId data parsed ∧ parsed.findings = [] ∧ parsed.reproduction ≠ []) ↔
      NamesRun runId data ∧ ReproducesNothing u data := by
  constructor
  · intro ⟨parsed, h, hnone, hsome⟩
    obtain ⟨hfield, hlength, -⟩ := h.runId
    obtain ⟨items, hitems, hfindings⟩ := h.findings
    obtain ⟨steps, hlist, hreproduction⟩ := h.reproduction
    have hcount := (parseItems_forall (fun h => parseFinding_bounded h) hfindings).1
    have hcount' := (parseItems_forall (fun h => parseRepro_bounded h) hreproduction).1
    rw [hnone] at hcount hreproduction
    have hempty : items = [] := List.length_eq_zero_iff.mp hcount.symm
    refine ⟨⟨hfield, hlength⟩, hempty ▸ hitems, ⟨steps, hlist, ?_, ?_⟩,
      (strField_ok_iff.mp h.schemaVersion).1, (strField_ok_iff.mp h.agentName).1,
      (strField_ok_iff.mp h.agentVersion).1⟩
    · intro hnil
      rw [hnil] at hcount'
      exact hsome (List.length_eq_zero_iff.mp hcount')
    · exact (parseSteps_ok u 0 steps 0).mp ⟨_, hreproduction⟩
  · intro ⟨⟨hfield, hlength⟩, hitems, ⟨steps, hlist, hne, hall⟩, hschema, hname, hversion⟩
    obtain ⟨reproduction, hreproduction⟩ :=
      (parseSteps_ok u 0 steps 0).mpr hall
    have hcount := (parseItems_forall (fun h => parseRepro_bounded h) hreproduction).1
    refine ⟨⟨PyStr.ofString runId, [], reproduction, _, _, _⟩, ⟨⟨hfield, hlength, rfl⟩,
      ⟨[], hitems, rfl⟩, ⟨steps, hlist, hreproduction⟩, strField_ok_iff.mpr ⟨hschema, rfl⟩,
      strField_ok_iff.mpr ⟨hname, rfl⟩, strField_ok_iff.mpr ⟨hversion, rfl⟩⟩, rfl, ?_⟩
    intro hnil
    have hnil : reproduction = [] := hnil
    rw [hnil] at hcount
    exact hne (List.length_eq_zero_iff.mp hcount.symm)

/-! ## The contract -/

/-- Bounded findings, in which every step names a finding that is there. -/
structure Findings.WellFormed (runId : String) (parsed : Findings) : Prop where
  bounded : parsed.Bounded runId
  indices : ∀ step ∈ parsed.reproduction,
    0 ≤ step.findingIndex ∧ step.findingIndex < parsed.findings.length

/-- A refusal, or well-formed findings. -/
def MeetsContract (runId : String) (result : Parse Findings) : Prop :=
  (∃ m, result = .error (.findingsError m)) ∨ ∃ parsed, result = .ok parsed ∧ parsed.WellFormed runId

/-- What is parsed is well-formed unless it reproduces nothing. -/
theorem Parsed.wellFormed_iff {u : Unicode} {data : List (PyStr × Json)} {runId : String}
    {parsed : Findings} (h : Parsed u runId data parsed) :
    parsed.WellFormed runId ↔ ¬ (parsed.findings = [] ∧ parsed.reproduction ≠ []) := by
  obtain ⟨hbounded, hindices⟩ := h.bounded
  constructor
  · intro hwell ⟨hnone, hsome⟩
    obtain ⟨step, rest, hsteps⟩ := List.exists_cons_of_ne_nil hsome
    have hstep := hwell.indices step (hsteps ▸ List.mem_cons_self)
    rw [hnone] at hstep
    exact absurd (hstep.1.trans_lt hstep.2) (by decide)
  · intro hnot
    refine ⟨hbounded, ?_⟩
    intro step hstep
    have hindex := hindices step hstep
    have hpos : parsed.findings.length ≠ 0 := by
      intro hzero
      exact hnot ⟨List.length_eq_zero_iff.mp hzero, List.ne_nil_of_mem hstep⟩
    omega

/-- The document that the bytes hold. -/
def Decodes (py : Interpreter) (raw : List UInt8) (data : List (PyStr × Json)) : Prop :=
  Json.loads py.recursionLimit (if raw.isEmpty then "{}".toUTF8.toList else raw) = .ok (.obj data)

theorem parseFindingsBytes_ok {py : Interpreter} {runId : String} {raw : List UInt8}
    {parsed : Findings} : parseFindingsBytes py raw (some runId) = .ok parsed ↔
      raw.length ≤ MAX_FILE_BYTES ∧ ∃ data, Decodes py raw data ∧ Parsed py.unicode runId data parsed := by
  have hload : ∀ doc, loadFindings py raw = .ok doc ↔
      Json.loads py.recursionLimit (if raw.isEmpty then "{}".toUTF8.toList else raw) = .ok doc := by
    intro doc
    unfold loadFindings
    cases Json.loads py.recursionLimit (if raw.isEmpty then "{}".toUTF8.toList else raw) with
    | error e =>
      dsimp only
      split
      · simp
      · simp
    | ok d => simp
  constructor
  · intro h
    obtain ⟨_, hsize, h⟩ := except_bind_ok h
    obtain ⟨doc, hdoc, h⟩ := except_bind_ok h
    refine ⟨of_decide_eq_true (require_ok.mp hsize), ?_⟩
    cases doc with
    | obj data => exact ⟨data, (hload _).mp hdoc, parseDocument_ok_iff.mp h⟩
    | _ => cases h
  · intro ⟨hsize, data, hdata, hparsed⟩
    refine ok_bind (a := ()) (require_ok.mpr (decide_eq_true hsize)) ?_
    exact ok_bind ((hload _).mpr hdata) (parseDocument_ok_iff.mpr hparsed)

/-- **The parser meets its contract exactly on the files that neither escape nor reproduce nothing.** A
    file over the size is refused before it is read. -/
theorem meets_contract_iff {py : Interpreter} {runId : String} {raw : List UInt8} :
    MeetsContract runId (parseFindingsBytes py raw (some runId)) ↔
      (raw.length ≤ MAX_FILE_BYTES → ¬ DecoderGivesUp py raw ∧
        ∀ data, Decodes py raw data → NamesRun runId data →
          ¬ FirstDefectEscapes py.unicode data ∧ ¬ ReproducesNothing py.unicode data) := by
  have hescapes : raw.length ≤ MAX_FILE_BYTES →
      (Escapes (parseFindingsBytes py raw (some runId)) ↔ DecoderGivesUp py raw ∨
        ∃ data, Decodes py raw data ∧ NamesRun runId data ∧ FirstDefectEscapes py.unicode data) := by
    intro hsize
    rw [escapes_parseFindingsBytes hsize]
    unfold FindingsEscape Decodes
    simp only [documentEscapes_iff]
  constructor
  · intro hmeets hsize
    have hnot : ¬ Escapes (parseFindingsBytes py raw (some runId)) := by
      intro ⟨e, he⟩
      rcases hmeets with ⟨m, hm⟩ | ⟨parsed, hparsed, -⟩
      · rw [hm] at he
        cases he
      · rw [hparsed] at he
        cases he
    rw [hescapes hsize, not_or] at hnot
    refine ⟨hnot.1, ?_⟩
    intro data hdata hrun
    refine ⟨fun hdefect => hnot.2 ⟨data, hdata, hrun, hdefect⟩, ?_⟩
    intro hnothing
    obtain ⟨parsed, hparsed, hlone⟩ := reproducesNothing_iff.mpr ⟨hrun, hnothing⟩
    have hresult := parseFindingsBytes_ok.mpr ⟨hsize, data, hdata, hparsed⟩
    rcases hmeets with ⟨m, hm⟩ | ⟨parsed', hparsed', hwell⟩
    · rw [hresult] at hm
      cases hm
    · rw [hresult] at hparsed'
      obtain rfl := Except.ok.inj hparsed'
      exact hparsed.wellFormed_iff.mp hwell hlone
  · intro hfine
    cases hresult : parseFindingsBytes py raw (some runId) with
    | ok parsed =>
      obtain ⟨hsize, data, hdata, hparsed⟩ := parseFindingsBytes_ok.mp hresult
      refine .inr ⟨parsed, rfl, hparsed.wellFormed_iff.mpr ?_⟩
      intro hlone
      obtain ⟨hrun, hnothing⟩ := reproducesNothing_iff.mp ⟨parsed, hparsed, hlone⟩
      exact ((hfine hsize).2 data hdata hrun).2 hnothing
    | error failure =>
      cases failure with
      | findingsError m => exact .inl ⟨m, rfl⟩
      | raised e =>
        exfalso
        by_cases hsize : raw.length ≤ MAX_FILE_BYTES
        · rcases (hescapes hsize).mp ⟨e, hresult⟩ with hgives | ⟨data, hdata, hrun, hdefect⟩
          · exact (hfine hsize).1 hgives
          · exact ((hfine hsize).2 data hdata hrun).1 hdefect
        · -- A file over the size is refused.
          unfold parseFindingsBytes require at hresult
          rw [decide_eq_false hsize] at hresult
          cases hresult

/-- A step that points at the first finding of a run that reports none. -/
def loneStep : List UInt8 :=
  "\x7b\"run_id\":\"r\",\"reproduction\":[\x7b\"finding_index\":0,\"path\":\"/\"\x7d]\x7d".toUTF8.toList

theorem lone_step_is_parsed : parseFindingsBytes cpython loneStep (some "r") =
    .ok { runId := PyStr.ofString "r", findings := [],
          reproduction := [⟨0, PyStr.ofString "GET", PyStr.ofString "/", []⟩],
          schemaVersion := [], agentName := [], agentVersion := [] } := by
  decide +kernel

theorem lone_step_points_nowhere :
    ¬ ∀ (py : Interpreter) (runId : String) (raw : List UInt8),
      MeetsContract runId (parseFindingsBytes py raw (some runId)) := by
  intro hclaim
  rcases hclaim cpython "r" loneStep with ⟨m, hm⟩ | ⟨parsed, hparsed, hwell⟩
  · rw [lone_step_is_parsed] at hm
    cases hm
  · rw [lone_step_is_parsed] at hparsed
    obtain rfl := Except.ok.inj hparsed
    exact absurd (hwell.indices _ List.mem_cons_self) (by decide)

end TaoSubnet
