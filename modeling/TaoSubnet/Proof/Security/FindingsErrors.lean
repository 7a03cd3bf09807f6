import TaoSubnet.Security.Findings

/-!
# What escapes the findings parser

A refusal is a `FindingsError`. This module says which documents are neither parsed nor refused:
those the JSON decoder gives up on for depth or for a long integer, and those whose first defect is
an integer confidence that no double holds, or a finding id of digits that `int` does not take.
-/

namespace TaoSubnet

open Py

/-- The parse ends with an exception that is not a refusal. -/
def Escapes {α : Type} (x : Parse α) : Prop := ∃ e, x = .error (.raised e)

section

variable {α β : Type}

@[simp] theorem not_escapes_ok (a : α) : ¬ Escapes (.ok a : Parse α) := by
  rintro ⟨e, he⟩
  cases he

@[simp] theorem not_escapes_pure (a : α) : ¬ Escapes (pure a : Parse α) := not_escapes_ok a

@[simp] theorem not_escapes_refusal (m : String) :
    ¬ Escapes (.error (.findingsError m) : Parse α) := by
  rintro ⟨e, he⟩
  cases he

@[simp] theorem escapes_raised (e : Exc) : Escapes (.error (.raised e) : Parse α) := ⟨e, rfl⟩

theorem escapes_bind {x : Parse α} {f : α → Parse β} :
    Escapes (x >>= f) ↔ Escapes x ∨ ∃ a, x = .ok a ∧ Escapes (f a) := by
  constructor
  · rintro ⟨e, he⟩
    cases x with
    | error failure =>
      cases he
      exact .inl ⟨e, rfl⟩
    | ok a => exact .inr ⟨a, rfl, e, he⟩
  · rintro (⟨e, rfl⟩ | ⟨a, rfl, h⟩)
    · exact ⟨e, rfl⟩
    · exact h

@[simp] theorem escapes_map {x : Parse α} {f : α → β} : Escapes (f <$> x) ↔ Escapes x := by
  cases x with
  | error failure => exact ⟨fun ⟨e, he⟩ => ⟨e, by cases he; rfl⟩, fun ⟨e, he⟩ => ⟨e, by cases he; rfl⟩⟩
  | ok a => exact ⟨fun ⟨e, he⟩ => (by cases he), fun ⟨e, he⟩ => (by cases he)⟩

@[simp] theorem not_escapes_require (cond : Bool) (m : String) : ¬ Escapes (require cond m) := by
  unfold require
  split <;> simp

theorem require_ok {cond : Bool} {m : String} {a : Unit} :
    require cond m = .ok a ↔ cond = true := by
  unfold require
  split <;> simp_all

end

/-! ## Fields -/

/-- A field that `strField` takes. -/
def fitsText (value : Option Json) (required : Bool) : Bool :=
  match value with
  | none | some .null => !required
  | some (.str s) => s.length ≤ MAX_STRING
  | some _ => false

@[simp] theorem not_escapes_strField (value : Option Json) (name : String) (required : Bool)
    (default : String) : ¬ Escapes (strField value name required default) := by
  unfold strField
  split <;> simp

theorem strField_ok {value : Option Json} {name : String} {required : Bool} {default : String} :
    (∃ s, strField value name required default = .ok s) ↔ fitsText value required = true := by
  have hguard : ∀ {cond : Bool} {m : String} {t : PyStr},
      (∃ s, (do require cond m; return t : Parse PyStr) = .ok s) ↔ cond = true := by
    intro cond m t
    cases cond
    · exact ⟨fun ⟨s, hs⟩ => (by cases hs), fun h => (by cases h)⟩
    · exact ⟨fun _ => rfl, fun _ => ⟨t, rfl⟩⟩
  unfold strField fitsText
  split
  · exact hguard
  · exact hguard
  · exact hguard
  · simp

theorem escapes_float01 {value : Option Json} {name : String} :
    Escapes (float01 value name) ↔ ∃ n, value = some (.int n) ∧ fitsDouble n = false := by
  unfold float01
  split
  · simp
  · simp
  · rename_i n
    cases hn : fitsDouble n <;> simp [hn]
  · simp
  · rename_i hint _
    simp only [not_escapes_refusal, Option.some.injEq, false_iff]
    rintro ⟨n, rfl, -⟩
    exact hint n rfl

@[simp] theorem not_escapes_extractCanary (item : List (PyStr × Json)) (index : Nat) :
    ¬ Escapes (extractCanary item index) := by
  unfold extractCanary
  dsimp only
  split
  · simp
  · split
    · split <;> simp
    · simp

/-! ## Findings and reproduction steps -/

/-- The strings that are read before the confidence are in order. -/
def confidenceReached (fields : List (PyStr × Json)) : Bool :=
  fitsText (Json.get? fields "endpoint") true && fitsText (Json.get? fields "parameter") true &&
    fitsText (Json.get? fields "injection_type") false && fitsText (Json.get? fields "payload") false
    && fitsText (Json.get? fields "severity") false

/-- A finding whose confidence is an integer that no double holds. -/
def confidenceOverflows : Json → Bool
  | .obj fields => confidenceReached fields &&
    match Json.get? fields "confidence" with
    | some (.int n) => !fitsDouble n
    | _ => false
  | _ => false

/-- A reproduction step whose finding id is all digits to `isdigit`, and no integer to `int`. -/
def idUnreadable (u : Unicode) : Json → Bool
  | .obj fields =>
    match (Json.get? fields "finding_index").or (Json.get? fields "finding_id") with
    | some (.str s) =>
      PyStr.isdigit u (PyStr.lstripOf 102 s) && !(PyStr.toInt u (PyStr.lstripOf 102 s)).isOk
    | _ => false
  | _ => false

theorem escapes_parseFinding {item : Json} {index : Nat} :
    Escapes (parseFinding item index) ↔ confidenceOverflows item = true := by
  unfold parseFinding confidenceOverflows
  cases item with
  | obj fields =>
    -- Only the confidence can escape, and it is read after five strings.
    simp only [escapes_bind, not_escapes_strField, not_escapes_extractCanary, not_escapes_pure,
      and_false, exists_false, or_false, false_or, escapes_float01, exists_and_right, strField_ok]
    cases Json.get? fields "confidence" with
    | none => simp
    | some value => cases value <;> simp [confidenceReached, and_assoc]
  | _ => simp

theorem escapes_cleanQuery {name : String} (items : List (PyStr × Json)) :
    ¬ Escapes (cleanQuery name items) := by
  induction items with
  | nil => exact not_escapes_ok []
  | cons item rest ih => simp [cleanQuery, escapes_bind, ih]

theorem escapes_findingIndexOf {u : Unicode} {fields : List (PyStr × Json)} (index : Nat) :
    Escapes (findingIndexOf u fields index) ↔ idUnreadable u (.obj fields) = true := by
  unfold findingIndexOf idUnreadable
  dsimp only
  cases (Json.get? fields "finding_index").or (Json.get? fields "finding_id") with
  | none => simp
  | some value =>
    cases value with
    | str s =>
      cases hd : PyStr.isdigit u (PyStr.lstripOf 102 s) with
      | false => simp [hd]
      | true =>
        rcases ht : PyStr.toInt u (PyStr.lstripOf 102 s) with e | n <;>
          simp [hd, ht, Except.isOk, Except.toBool]
    | _ => simp

theorem escapes_parseRepro {u : Unicode} {item : Json} {index nFindings : Nat} :
    Escapes (parseRepro u item index nFindings) ↔ idUnreadable u item = true := by
  unfold parseRepro
  cases item with
  | obj fields =>
    rw [← escapes_findingIndexOf index]
    simp only [escapes_bind, not_escapes_require, not_escapes_strField, false_or]
    constructor
    · rintro (h | ⟨_, _, _, _, _, _, _, _, h⟩)
      · exact h
      · split at h
        · exact absurd h (not_escapes_refusal _)
        · simp [escapes_bind, escapes_cleanQuery] at h
    · exact .inl
  | _ => simp [idUnreadable]

/-! ## The document -/

/-- The items parse in order up to one that is `bad`. -/
def FirstBad {α : Type} (parse : Json → Nat → Parse α) (bad : Json → Bool) (items : List Json) :
    Prop :=
  ∃ before item after, items = before ++ item :: after ∧
    (∃ parsed, parseItems parse 0 before = .ok parsed) ∧ bad item = true

/-- The induction is on the items before the one that escapes; each of them was parsed. -/
theorem escapes_parseItems_from {α : Type} {parse : Json → Nat → Parse α} :
    ∀ (items : List Json) (i : Nat), Escapes (parseItems parse i items) ↔
      ∃ before item after, items = before ++ item :: after ∧
        (∃ parsed, parseItems parse i before = .ok parsed) ∧
        Escapes (parse item (i + before.length))
  | [], i => by simp [parseItems]
  | item :: rest, i => by
    have ih : Escapes (parseItems parse (i + 1) rest) ↔ _ := escapes_parseItems_from rest (i + 1)
    simp only [parseItems, escapes_bind, not_escapes_pure, and_false, exists_false, or_false]
    constructor
    · rintro (h | ⟨first, hfirst, h⟩)
      · exact ⟨[], item, rest, rfl, ⟨[], rfl⟩, h⟩
      · obtain ⟨before, bad, after, rfl, ⟨parsed, hparsed⟩, hbad⟩ := ih.mp h
        refine ⟨item :: before, bad, after, rfl, ⟨first :: parsed, ?_⟩, ?_⟩
        · simp [parseItems, hfirst, hparsed, bind, Except.bind, pure, Except.pure]
        · rw [List.length_cons, show i + (before.length + 1) = i + 1 + before.length by omega]
          exact hbad
    · rintro ⟨before, bad, after, hitems, ⟨parsed, hparsed⟩, hbad⟩
      cases before with
      | nil =>
        obtain ⟨rfl, rfl⟩ := List.cons.inj hitems
        exact .inl hbad
      | cons head tail =>
        obtain ⟨rfl, rfl⟩ := List.cons.inj hitems
        rcases hfirst : parse item i with e | first
        · simp [parseItems, hfirst, bind, Except.bind] at hparsed
        rcases htail : parseItems parse (i + 1) tail with e | rest
        · simp [parseItems, hfirst, htail, bind, Except.bind] at hparsed
        refine .inr ⟨first, rfl, ih.mpr ⟨tail, bad, after, rfl, ⟨rest, htail⟩, ?_⟩⟩
        rw [show i + 1 + tail.length = i + (tail.length + 1) by omega]
        exact hbad

theorem escapes_parseItems {α : Type} {parse : Json → Nat → Parse α} {bad : Json → Bool}
    (h : ∀ item i, Escapes (parse item i) ↔ bad item = true) (items : List Json) :
    Escapes (parseItems parse 0 items) ↔ FirstBad parse bad items := by
  rw [escapes_parseItems_from]
  simp only [h, FirstBad]

/-- A list the document may leave out, of at most `MAX_FINDINGS` items. -/
def HasList (value : Option Json) (items : List Json) : Prop :=
  (value = none ∧ items = [] ∨ value = some (.arr items)) ∧ items.length ≤ MAX_FINDINGS

/-- What makes a decoded document escape: the first defect of the findings is an overflowing
    confidence, or they are in order and the first defect of the reproduction is an unreadable id. -/
def DocumentEscapes (u : Unicode) (runId : String) (data : List (PyStr × Json)) : Prop :=
  Json.get? data "run_id" = some (.str (PyStr.ofString runId)) ∧
  (PyStr.ofString runId).length ≤ MAX_STRING ∧
  ∃ items, HasList (Json.get? data "findings") items ∧
    (FirstBad parseFinding confidenceOverflows items ∨
      ∃ findings, parseItems parseFinding 0 items = .ok findings ∧
        ∃ steps, HasList (Json.get? data "reproduction") steps ∧
          FirstBad (fun item i => parseRepro u item i findings.length) (idUnreadable u) steps)

/-- The decoder stops for the depth of the document, or for a long integer in it. -/
def DecoderGivesUp (py : Interpreter) (raw : List UInt8) : Prop :=
  ∃ e, Json.loads py.recursionLimit (if raw.isEmpty then "{}".toUTF8.toList else raw) = .error e ∧
    (e = Json.recursionError ∨ ∃ n, PyStr.maxIntDigits < n ∧ e = PyStr.intTooLong n)

/-- The findings are neither parsed nor refused. -/
def FindingsEscape (py : Interpreter) (runId : String) (raw : List UInt8) : Prop :=
  DecoderGivesUp py raw ∨
    ∃ data, Json.loads py.recursionLimit (if raw.isEmpty then "{}".toUTF8.toList else raw) =
        .ok (.obj data) ∧
      DocumentEscapes py.unicode runId data

theorem escapes_loadFindings {py : Interpreter} {raw : List UInt8} :
    Escapes (loadFindings py raw) ↔ DecoderGivesUp py raw := by
  unfold loadFindings DecoderGivesUp
  rcases hl : Json.loads py.recursionLimit (if raw.isEmpty then "{}".toUTF8.toList else raw) with e | doc
  · constructor
    · intro h
      dsimp only at h
      split at h
      · exact absurd h (not_escapes_refusal _)
      · rename_i hcls
        rw [not_or] at hcls
        rcases Json.loads_raises hl with hu | hr
        · exact absurd hu hcls.2
        · refine ⟨e, rfl, ?_⟩
          cases hr with
          | malformed m => exact absurd rfl hcls.1
          | depth => exact .inl rfl
          | digits hn => exact .inr ⟨_, hn, rfl⟩
    · rintro ⟨_, ⟨⟩, rfl | ⟨n, -, rfl⟩⟩
      · exact escapes_raised _
      · exact escapes_raised _
  · simp

@[simp] theorem not_escapes_listField (value : Option Json) (m : String) :
    ¬ Escapes (listField value m) := by
  unfold listField
  split <;> simp

theorem hasList_iff {value : Option Json} {m : String} {items : List Json} :
    HasList value items ↔ listField value m = .ok items ∧ items.length ≤ MAX_FINDINGS := by
  refine and_congr_left fun _ => ?_
  unfold listField
  split
  · simp [eq_comm]
  · simp [eq_comm]
  · rename_i value hne
    simp only [Option.some_ne_none, false_and, false_or, Option.some.injEq]
    exact ⟨fun h => absurd h (hne items), fun h => by cases h⟩

theorem strField_ok_str {value : Option Json} {name : String} {s : PyStr} :
    strField value name = .ok s ↔ value = some (.str s) ∧ s.length ≤ MAX_STRING := by
  unfold strField
  split
  · simp [require, bind, Except.bind]
  · simp [require, bind, Except.bind]
  · rename_i t
    by_cases ht : t.length ≤ MAX_STRING
    · simp only [require, ht, decide_true, if_true, Option.some.injEq, Json.str.injEq]
      constructor
      · rintro ⟨⟩
        exact ⟨rfl, ht⟩
      · rintro ⟨rfl, -⟩
        rfl
    · simp only [require, ht, decide_false, Bool.false_eq_true, if_false]
      constructor
      · rintro ⟨⟩
      · rintro ⟨h, hs⟩
        cases h
        exact absurd hs ht
  · rename_i value _ hstr
    constructor
    · rintro ⟨⟩
    · rintro ⟨h, -⟩
      exact absurd (Option.some.inj h) (hstr s)

theorem escapes_parseDocument {u : Unicode} {runId : String} {doc : Json} :
    Escapes (parseDocument u doc (some runId)) ↔
      ∃ data, doc = .obj data ∧ DocumentEscapes u runId data := by
  have hfindings (items : List Json) : Escapes (parseItems parseFinding 0 items) ↔
      FirstBad parseFinding confidenceOverflows items :=
    escapes_parseItems (@escapes_parseFinding) items
  have hsteps (n : Nat) (items : List Json) :
      Escapes (parseItems (fun item i => parseRepro u item i n) 0 items) ↔
        FirstBad (fun item i => parseRepro u item i n) (idUnreadable u) items := by
    refine escapes_parseItems (fun item i => ?_) items
    exact escapes_parseRepro
  cases doc with
  | obj data =>
    unfold parseDocument
    simp only [escapes_bind, not_escapes_strField, not_escapes_require, not_escapes_listField,
      not_escapes_pure, false_or, and_false, exists_false, or_false, require_ok, exists_const,
      decide_eq_true_eq, strField_ok_str, hfindings, hsteps]
    constructor
    · rintro ⟨_, ⟨hid, hlen⟩, rfl, items, hitems, hmax, h⟩
      refine ⟨data, rfl, hid, hlen, items, hasList_iff.mpr ⟨hitems, hmax⟩, ?_⟩
      rcases h with h | ⟨findings, hok, steps, hsteps, hmax', h⟩
      · exact .inl h
      · exact .inr ⟨findings, hok, steps, hasList_iff.mpr ⟨hsteps, hmax'⟩, h⟩
    · rintro ⟨_, ⟨⟩, hid, hlen, items, hlist, h⟩
      obtain ⟨hitems, hmax⟩ := hasList_iff.mp hlist
      refine ⟨_, ⟨hid, hlen⟩, rfl, items, hitems, hmax, ?_⟩
      rcases h with h | ⟨findings, hok, steps, hsteps, h⟩
      · exact .inl h
      · obtain ⟨hsteps, hmax'⟩ := hasList_iff.mp hsteps
        exact .inr ⟨findings, hok, steps, hsteps, hmax', h⟩
  | _ => simp [parseDocument]

/-- **A findings file of an allowed size escapes the parser exactly in the listed ways.** -/
theorem escapes_parseFindingsBytes {py : Interpreter} {runId : String} {raw : List UInt8}
    (hsize : raw.length ≤ MAX_FILE_BYTES) :
    Escapes (parseFindingsBytes py raw (some runId)) ↔ FindingsEscape py runId raw := by
  unfold parseFindingsBytes FindingsEscape
  have hload : ∀ doc, loadFindings py raw = .ok doc ↔
      Json.loads py.recursionLimit (if raw.isEmpty then "{}".toUTF8.toList else raw) = .ok doc := by
    intro doc
    unfold loadFindings
    rcases Json.loads py.recursionLimit (if raw.isEmpty then "{}".toUTF8.toList else raw) with e | d
    · dsimp only
      split <;> simp
    · simp
  simp only [escapes_bind, not_escapes_require, false_or, require_ok, decide_eq_true_eq, hsize,
    exists_const, true_and, escapes_loadFindings, hload, escapes_parseDocument]
  refine or_congr_right ⟨?_, ?_⟩
  · rintro ⟨_, hdoc, data, rfl, h⟩
    exact ⟨data, hdoc, h⟩
  · rintro ⟨data, hdoc, h⟩
    exact ⟨_, hdoc, data, rfl, h⟩

end TaoSubnet
