import TaoSubnet.Proof.Security.Provision
import TaoSubnet.Proof.Security.StraceLog
import TaoSubnet.Security.Job
import TaoSubnet.Security.RequestLog

/-!
# The count that is read from the log

Two threads that print at once may leave their texts on one line, which is then the report of neither. What
is lost that way is lost from the count, and nothing can be added to it.
-/

namespace TaoSubnet

open Py

/-! ## Lines of plain characters -/

theorem splitLinesChars_ended {line : List Char} (h : ∀ c ∈ line, isLineBreak c = false)
    (cur : List Char) : splitLinesChars cur false (line ++ ['\n']) = [cur.reverse ++ line] := by
  induction line generalizing cur with
  | nil => simp [splitLinesChars, isLineBreak]
  | cons c rest ih =>
    obtain ⟨hc, hrest⟩ := List.forall_mem_cons.mp h
    rw [List.cons_append, splitLinesChars, if_neg (by simp), if_neg (by simp [hc]), ih hrest]
    simp

theorem splitLinesChars_open {line : List Char} (h : ∀ c ∈ line, isLineBreak c = false)
    (cur : List Char) : splitLinesChars cur false line =
      if (cur.reverse ++ line).isEmpty then [] else [cur.reverse ++ line] := by
  induction line generalizing cur with
  | nil => simp [splitLinesChars]
  | cons c rest ih =>
    obtain ⟨hc, hrest⟩ := List.forall_mem_cons.mp h
    rw [splitLinesChars, if_neg (by simp), if_neg (by simp [hc]), ih hrest]
    simp

theorem stripChars_plain {line : List Char} (h : ∀ c ∈ line, isSpace c = false) :
    stripChars line = line := by
  have hhead : line.dropWhile isSpace = line := by
    cases line with
    | nil => rfl
    | cons c rest => rw [List.dropWhile_cons_of_neg (by simp [h c List.mem_cons_self])]
  unfold stripChars
  rw [hhead, rstripChars_eq, List.rdropWhile_eq_self_iff]
  intro hne
  rw [h _ (List.getLast_mem hne)]
  exact Bool.false_ne_true

/-! ## One line of the log -/

theorem intDigits_none {u : Unicode} {text : PyStr} {c : Nat} (hc : c ∈ text) (hne : c ≠ 95)
    (hnone : u.decimal c = none) : PyStr.intDigits u text = none := by
  induction text using PyStr.intDigits.induct u with
  | case1 => cases hc
  | case2 d =>
    obtain rfl := List.mem_singleton.mp hc
    rw [PyStr.intDigits, hnone]
    rfl
  | case3 d e rest hd =>
    rw [PyStr.intDigits, hd]
  | case4 d rest x hd ih =>
    have hd' : c ≠ d := by
      rintro rfl
      rw [hnone] at hd
      cases hd
    have hrest : c ∈ rest :=
      (List.mem_cons.mp ((List.mem_cons.mp hc).resolve_left hd')).resolve_left hne
    rw [PyStr.intDigits, hd]
    dsimp only
    rw [if_pos rfl, ih hrest]
    rfl
  | case5 d e rest x hd he ih =>
    have hd' : c ≠ d := by
      rintro rfl
      rw [hnone] at hd
      cases hd
    rw [PyStr.intDigits, hd]
    dsimp only
    rw [if_neg he, ih ((List.mem_cons.mp hc).resolve_left hd')]
    rfl

theorem knowsDigits_of_ascii {u : Unicode} (hu : KnowsAscii u) : KnowsDigits u := by
  intro d hd
  rw [hu.decimal (48 + d) (by omega)]
  revert d
  decide

open RequestLog

theorem label_plain : "REQUESTS:".toList.all (isSpace · == false) = true := by decide

theorem mem_reportText {n : Nat} {c : Char} (hc : c ∈ reportText n) :
    c ∈ "REQUESTS:".toList ∨ (48 ≤ c.toNat ∧ c.toNat ≤ 57) := by
  rcases List.mem_append.mp hc with hlabel | hdigit
  · exact .inl hlabel
  · exact .inr (natText_range (List.mem_map_of_mem hdigit))

/-- Nothing in a report ends a line or is blank. -/
theorem reportText_plain (ns : List Nat) :
    ∀ c ∈ ns.flatMap reportText, isSpace c = false ∧ isLineBreak c = false := by
  intro c hc
  obtain ⟨n, -, hc⟩ := List.mem_flatMap.mp hc
  have hspace : isSpace c = false := by
    rcases mem_reportText hc with hlabel | hdigit
    · exact eq_of_beq (List.all_eq_true.mp label_plain c hlabel)
    · exact isSpaceCode_of_range ⟨by omega, hdigit.2⟩
  refine ⟨hspace, ?_⟩
  by_contra hbreak
  rw [isSpace_of_isLineBreak (Bool.eq_true_of_not_eq_false hbreak)] at hspace
  cases hspace

/-- What a line with these texts reports. -/
def lineReport : List Nat → List Int
  | [n] => [(n : Int)]
  | _ => []

theorem map_reportText (n : Nat) :
    (reportText n).map Char.toNat = PyStr.ofString "REQUESTS:" ++ natText n := by
  unfold reportText
  rw [List.map_append]
  rfl

variable {py : Interpreter}

theorem reported_label (rest : List Char) (hrest : ∀ c ∈ rest, isSpace c = false) :
    reportedRequests py ("REQUESTS:".toList ++ rest) =
      (PyStr.toInt py.unicode (rest.map Char.toNat)).toOption := by
  have hplain : ∀ c ∈ "REQUESTS:".toList ++ rest, isSpace c = false :=
    List.forall_mem_append.mpr
      ⟨fun c hc => eq_of_beq (List.all_eq_true.mp label_plain c hc), hrest⟩
  unfold reportedRequests
  rw [stripChars_plain hplain, dropPrefix?_append]
  rfl

/-- A text that begins with no sign, and is not all digits, is no number. -/
theorem toInt_none {u : Unicode} {first : Nat} {rest : PyStr}
    (hspace : ∀ c ∈ first :: rest, isSpaceCode c = false) (hfirst : 48 ≤ first)
    (hnone : PyStr.intDigits u (first :: rest) = none) :
    PyStr.toInt u (first :: rest) = .error PyStr.invalidInt := by
  unfold PyStr.toInt
  rw [PyStr.strip_of_no_space hspace]
  split
  rename_i negative body hsplit
  split at hsplit
  · rename_i hplus
    have hsign := (List.cons.inj hplus).1
    omega
  · rename_i hminus
    have hsign := (List.cons.inj hminus).1
    omega
  · cases hsplit
    rw [hnone]

theorem reported_single (hu : KnowsAscii py.unicode) {n : Nat} (hshort : tooLong n = false) :
    reportedRequests py (reportText n) = some (n : Int) := by
  have hspace : ∀ c ∈ Nat.toDigits 10 n, isSpace c = false := by
    intro c hc
    have hrange := natText_range (List.mem_map_of_mem hc)
    exact isSpaceCode_of_range ⟨by omega, hrange.2⟩
  have hwritten : intText (n : Int) = .ok (natText n) := by
    unfold intText
    rw [hshort]
    rfl
  unfold reportText
  rw [reported_label _ hspace]
  show (PyStr.toInt py.unicode (natText n)).toOption = _
  rw [toInt_intText (knowsDigits_of_ascii hu) hwritten]
  rfl

theorem reported_glued (hu : KnowsAscii py.unicode) (n m : Nat) (rest : List Nat) :
    reportedRequests py ((n :: m :: rest).flatMap reportText) = none := by
  have hplain := reportText_plain (n :: m :: rest)
  rw [List.flatMap_cons] at hplain ⊢
  have hletter : 'R' ∈ (m :: rest).flatMap reportText := by
    rw [List.flatMap_cons]
    exact List.mem_append_left _ (List.mem_append_left _ (by decide))
  unfold reportText at hplain ⊢
  rw [List.append_assoc] at hplain ⊢
  obtain ⟨-, hplain⟩ := List.forall_mem_append.mp hplain
  rw [reported_label _ fun c hc => (hplain c hc).1]
  obtain ⟨d, digits, hdigits⟩ := List.exists_cons_of_ne_nil (Nat.toDigits_ne_nil (b := 10) (n := n))
  -- the second label puts a letter behind the digits of the first text
  have hnone : PyStr.intDigits py.unicode ((Nat.toDigits 10 n ++
      (m :: rest).flatMap reportText).map Char.toNat) = none :=
    intDigits_none (List.mem_map_of_mem (List.mem_append_right _ hletter)) (by decide)
      (hu.decimal 82 (by decide))
  have hspace : ∀ c ∈ (Nat.toDigits 10 n ++ (m :: rest).flatMap reportText).map Char.toNat,
      isSpaceCode c = false := by
    intro c hc
    obtain ⟨d, hd, rfl⟩ := List.mem_map.mp hc
    exact (hplain d hd).1
  have hfirst : 48 ≤ d.toNat :=
    (natText_range (List.mem_map_of_mem (hdigits ▸ List.mem_cons_self (a := d)))).1
  have hinvalid : PyStr.toInt py.unicode ((Nat.toDigits 10 n ++
      (m :: rest).flatMap reportText).map Char.toNat) = .error PyStr.invalidInt := by
    rw [hdigits] at hnone hspace ⊢
    exact toInt_none hspace hfirst hnone
  have hjoined : (List.flatMap reportText (m :: rest)) =
      List.flatMap (fun n => "REQUESTS:".toList ++ Nat.toDigits 10 n) (m :: rest) := rfl
  rw [← hjoined, hinvalid]
  rfl

/-- A line reports its number when it has one text, and it reports nothing otherwise. -/
theorem reported_line (hu : KnowsAscii py.unicode) {ns : List Nat}
    (hshort : ∀ n ∈ ns, tooLong n = false) :
    (reportedRequests py (ns.flatMap reportText)).toList = lineReport ns := by
  rcases ns with _ | ⟨n, _ | ⟨m, rest⟩⟩
  · have hnone : reportedRequests py [] = none := rfl
    rw [List.flatMap_nil, hnone]
    rfl
  · rw [List.flatMap_singleton, reported_single hu (hshort n List.mem_cons_self)]
    rfl
  · rw [reported_glued hu]
    rfl

/-! ## The whole log -/

/-- What is read of a text, line by line. -/
def reportsOf (py : Interpreter) (text : List Char) : List Int :=
  (splitLinesChars [] false text).filterMap (reportedRequests py)

theorem reportsOf_line {line : List Char} (h : ∀ c ∈ line, isLineBreak c = false) (rest : List Char) :
    reportsOf py (line ++ '\n' :: rest) =
      (reportedRequests py line).toList ++ reportsOf py rest := by
  have hfeed : '\n' ∉ line := by
    intro hmem
    have hbreak := h _ hmem
    exact absurd hbreak (by decide)
  unfold reportsOf
  rw [splitLinesChars_line hfeed, List.filterMap_append]
  unfold Py.pieces
  rw [splitLinesChars_ended h []]
  cases hreported : reportedRequests py line <;> simp [hreported]

theorem reportsOf_lines (hu : KnowsAscii py.unicode) {lines : List (List Nat)}
    (hshort : ∀ line ∈ lines, ∀ n ∈ line, tooLong n = false) (rest : List Char) :
    reportsOf py ((lines.flatMap fun line => line.flatMap reportText ++ ['\n']) ++ rest) =
      lines.flatMap lineReport ++ reportsOf py rest := by
  induction lines with
  | nil => rfl
  | cons line lines ih =>
    obtain ⟨hline, hlines⟩ := List.forall_mem_cons.mp hshort
    rw [List.flatMap_cons, List.append_assoc, List.append_assoc, List.singleton_append,
      reportsOf_line fun c hc => (reportText_plain _ c hc).2, ih hlines, reported_line hu hline,
      List.flatMap_cons, List.append_assoc]

theorem reportsOf_open (hu : KnowsAscii py.unicode) {line : List Nat}
    (hshort : ∀ n ∈ line, tooLong n = false) :
    reportsOf py (line.flatMap reportText) = lineReport line := by
  have hreported := reported_line hu hshort
  unfold reportsOf
  rw [splitLinesChars_open (fun c hc => (reportText_plain _ c hc).2) [], ← hreported]
  by_cases hempty : line.flatMap reportText = []
  · rw [hempty]
    rfl
  · rw [if_neg (by simpa using hempty)]
    cases hcase : reportedRequests py (line.flatMap reportText) <;> simp [hcase]

theorem foldl_max_spec (l : List Int) (a : Int) : a ≤ l.foldl max a ∧ (∀ x ∈ l, x ≤ l.foldl max a) ∧
    (l.foldl max a = a ∨ l.foldl max a ∈ l) := by
  induction l generalizing a with
  | nil => exact ⟨le_refl a, List.forall_mem_nil _, .inl rfl⟩
  | cons x l ih =>
    obtain ⟨hstart, hall, hone⟩ := ih (max a x)
    rw [List.foldl_cons]
    refine ⟨(le_max_left a x).trans hstart, ?_, ?_⟩
    · exact List.forall_mem_cons.mpr ⟨(le_max_right a x).trans hstart, hall⟩
    · rcases hone with hsame | hmem
      · rcases max_choice a x with ha | hx
        · exact .inl (hsame.trans ha)
        · refine .inr ?_
          rw [hsame, hx]
          exact List.mem_cons_self
      · exact .inr (List.mem_cons_of_mem x hmem)

/-! ## Threads -/

namespace RequestLog

variable {s s' : RequestLog} {n : Nat}

theorem step_count (h : s.step .count = some s') :
    s' = { s with count := s.count + 1, counted := s.counted ++ [s.count + 1] } :=
  (Option.some_inj.mp h).symm

theorem step_write (h : s.step (.write n) = some s') : n ∈ s.counted ∧ s' =
    { s with counted := s.counted.erase n, ending := s.ending ++ [n], line := s.line ++ [n] } := by
  have hstep : s.step (.write n) = if n ∈ s.counted then
    some { s with counted := s.counted.erase n, ending := s.ending ++ [n], line := s.line ++ [n] }
    else none := rfl
  rw [hstep] at h
  split at h
  · exact ⟨‹_›, (Option.some_inj.mp h).symm⟩
  · cases h

theorem step_endLine (h : s.step (.endLine n) = some s') : n ∈ s.ending ∧ s' =
    { s with ending := s.ending.erase n, lines := s.lines ++ [s.line], line := [] } := by
  have hstep : s.step (.endLine n) = if n ∈ s.ending then
    some { s with ending := s.ending.erase n, lines := s.lines ++ [s.line], line := [] }
    else none := rfl
  rw [hstep] at h
  split at h
  · exact ⟨‹_›, (Option.some_inj.mp h).symm⟩
  · cases h

/-- A step of threads that do not get in between is a step. -/
theorem step_of_alone {action : LogAction} (h : s.stepAlone action = some s') :
    s.step action = some s' ∧ (∀ n, action = .write n → s.ending = []) := by
  cases action with
  | count => exact ⟨h, fun n hn => by cases hn⟩
  | endLine n => exact ⟨h, fun n hn => by cases hn⟩
  | write n =>
    have hstep : s.stepAlone (.write n) = if s.ending = [] then s.step (.write n) else none := rfl
    rw [hstep] at h
    split at h
    · exact ⟨h, fun _ _ => ‹_›⟩
    · cases h

/-- The number is on the log, or is still to be written. -/
def Holds (s : RequestLog) (n : Nat) : Prop := n ∈ s.lines.flatten ∨ n ∈ s.line ∨ n ∈ s.counted

/-- The log holds the numbers that were taken, and a line that is not ended has a thread that will end
    it. -/
structure Sound (s : RequestLog) : Prop where
  taken : ∀ n, s.Holds n ↔ 1 ≤ n ∧ n ≤ s.count
  ended : s.ending = [] → s.line = []

theorem Sound.start : ({} : RequestLog).Sound where
  taken n := by
    have hnone : ¬ (1 ≤ n ∧ n ≤ 0) := by omega
    refine iff_of_false ?_ hnone
    rintro (hlines | hline | hcounted)
    · cases hlines
    · cases hline
    · cases hcounted
  ended _ := rfl

theorem Sound.step {action : LogAction} (hstep : s.step action = some s') (h : s.Sound) : s'.Sound := by
  cases action with
  | count =>
    obtain rfl := step_count hstep
    refine ⟨fun n => ?_, h.ended⟩
    have hholds : ({ s with count := s.count + 1, counted := s.counted ++ [s.count + 1] } :
        RequestLog).Holds n ↔ s.Holds n ∨ n = s.count + 1 := by
      simp only [Holds, List.mem_append, List.mem_singleton, or_assoc]
    rw [hholds, h.taken n]
    show _ ↔ 1 ≤ n ∧ n ≤ s.count + 1
    omega
  | write n =>
    obtain ⟨hmem, rfl⟩ := step_write hstep
    refine ⟨fun m => ?_, fun hnil => absurd hnil (List.append_ne_nil_of_right_ne_nil _ (List.cons_ne_nil _ _))⟩
    rw [← h.taken m]
    simp only [Holds, List.mem_append, List.mem_singleton]
    by_cases hm : m = n
    · subst hm
      exact iff_of_true (.inr (.inl (.inr rfl))) (.inr (.inr hmem))
    · simp only [hm, or_false, List.mem_erase_of_ne hm]
  | endLine n =>
    obtain ⟨-, rfl⟩ := step_endLine hstep
    refine ⟨fun m => ?_, fun _ => rfl⟩
    rw [← h.taken m]
    simp only [Holds, List.flatten_append, List.flatten_singleton, List.mem_append, List.not_mem_nil,
      false_or, or_assoc]

/-- No line has two texts on it. -/
structure Single (s : RequestLog) : Prop extends s.Sound where
  lines : ∀ line ∈ s.lines, line.length ≤ 1
  line : s.line.length ≤ 1

theorem Single.start : ({} : RequestLog).Single where
  toSound := Sound.start
  lines := List.forall_mem_nil _
  line := Nat.zero_le 1

theorem Single.step {action : LogAction} (hstep : s.stepAlone action = some s') (h : s.Single) :
    s'.Single := by
  obtain ⟨hstep, halone⟩ := step_of_alone hstep
  have hsound : s'.Sound := h.toSound.step hstep
  cases action with
  | count =>
    obtain rfl := step_count hstep
    exact ⟨hsound, h.lines, h.line⟩
  | write n =>
    obtain ⟨-, rfl⟩ := step_write hstep
    refine ⟨hsound, h.lines, ?_⟩
    -- no thread has a line to end, so the text comes to an empty one
    show (s.line ++ [n]).length ≤ 1
    rw [h.ended (halone n rfl)]
    exact le_refl 1
  | endLine n =>
    obtain ⟨-, rfl⟩ := step_endLine hstep
    exact ⟨hsound, List.forall_mem_append.mpr ⟨h.lines, List.forall_mem_singleton.mpr h.line⟩,
      Nat.zero_le 1⟩

end RequestLog

/-! ## What the job reads -/

/-- A line that begins with another letter reports nothing. -/
theorem reported_other {c : Char} (hspace : isSpace c = false) (hother : 'R' ≠ c)
    (rest : List Char) : reportedRequests py (c :: rest) = none := by
  have hstrip : stripChars (c :: rest) = (c :: rest).rdropWhile isSpace := by
    unfold stripChars
    rw [List.dropWhile_cons_of_neg (by simp [hspace]), rstripChars_eq]
  have hdrop : dropPrefix? "REQUESTS:".toList (stripChars (c :: rest)) = none := by
    rw [hstrip]
    cases hleft : (c :: rest).rdropWhile isSpace with
    | nil => rfl
    | cons d left =>
      obtain rfl : d = c := by
        have hprefix := List.rdropWhile_prefix isSpace (l := c :: rest)
        rw [hleft] at hprefix
        exact (List.cons_prefix_cons.mp hprefix).1
      exact dropPrefix?_eq_none hother
  unfold reportedRequests
  rw [hdrop]
  rfl

def servingTexts : List String :=
  ("sqli-target listening on 0.0.0.0:" ++ toString TARGET_PORT ++ " (vuln at ") :: "?" :: "=)" ::
    (CANDIDATE_ENDPOINTS ++ VULNERABLE_PARAMETERS)

theorem servingTexts_plain :
    servingTexts.all (fun text => text.toList.all (isLineBreak · == false)) = true := by
  decide

theorem servingLine_plain (draws : Draws) :
    ∀ c ∈ servingLine (generateChallenge draws), isLineBreak c = false := by
  have hplain : ∀ text ∈ servingTexts, ∀ c ∈ text.toList, isLineBreak c = false :=
    fun text htext c hc =>
      eq_of_beq (List.all_eq_true.mp (List.all_eq_true.mp servingTexts_plain text htext) c hc)
  obtain ⟨hopening, hconstants⟩ := List.forall_mem_cons.mp hplain
  obtain ⟨hquestion, hconstants⟩ := List.forall_mem_cons.mp hconstants
  obtain ⟨hclose, hdrawn⟩ := List.forall_mem_cons.mp hconstants
  obtain ⟨hendpoints, hparameters⟩ := List.forall_mem_append.mp hdrawn
  have hendpoint : ∀ c ∈ draws.vulnerable.toList, isLineBreak c = false :=
    hendpoints _ (mem_candidates draws List.mem_cons_self)
  have hparameter : ∀ c ∈ (VULNERABLE_PARAMETERS.get draws.parameter).toList, isLineBreak c = false :=
    hparameters _ (List.get_mem _ _)
  unfold servingLine
  simp only [String.toList_append, List.forall_mem_append] at hopening ⊢
  exact ⟨⟨⟨⟨hopening, hendpoint⟩, hquestion⟩, hparameter⟩, hclose⟩

theorem servingLine_head (challenge : Challenge) :
    ∃ rest, servingLine challenge = 's' :: rest := by
  have hhead : "sqli-target listening on 0.0.0.0:".toList =
      's' :: "qli-target listening on 0.0.0.0:".toList := by decide +kernel
  unfold servingLine
  simp only [String.toList_append, hhead, List.cons_append]
  exact ⟨_, rfl⟩

/-- The log is read as the numbers that are alone on their lines. -/
theorem reportsOf_log (hu : KnowsAscii py.unicode) (draws : Draws) {s : RequestLog}
    (hlines : ∀ line ∈ s.lines, ∀ n ∈ line, tooLong n = false)
    (hline : ∀ n ∈ s.line, tooLong n = false) {err : List Char} (herr : reportsOf py err = [])
    (hopen : s.line = [] ∨ err = []) :
    reportsOf py (servingLine (generateChallenge draws) ++ '\n' :: s.text ++ err) =
      (s.lines ++ [s.line]).flatMap lineReport := by
  have hserving : reportedRequests py (servingLine (generateChallenge draws)) = none := by
    obtain ⟨rest, hrest⟩ := servingLine_head (generateChallenge draws)
    rw [hrest]
    exact reported_other (by decide) (by decide) rest
  have htail : reportsOf py (s.line.flatMap reportText ++ err) = lineReport s.line := by
    rcases hopen with hnil | hnil
    · rw [hnil]
      exact herr
    · rw [hnil, List.append_nil, reportsOf_open hu hline]
  rw [List.append_assoc, List.cons_append, reportsOf_line (servingLine_plain draws), hserving,
    Option.toList_none, List.nil_append]
  unfold RequestLog.text
  rw [List.append_assoc, reportsOf_lines hu hlines, htail, List.flatMap_append,
    List.flatMap_singleton]

theorem mem_lineReport {line : List Nat} {x : Int} (h : x ∈ lineReport line) :
    ∃ n : Nat, x = n ∧ line = [n] := by
  rcases line with _ | ⟨n, _ | ⟨m, rest⟩⟩
  · cases h
  · exact ⟨n, List.mem_singleton.mp h, rfl⟩
  · cases h

theorem tooLong_le {n m : Nat} (hle : n ≤ m) (h : tooLong m = false) : tooLong n = false := by
  unfold tooLong at h ⊢
  simp only [Int.natAbs_natCast, decide_eq_false_iff_not, not_le] at h ⊢
  omega

/-- The greatest report of a log. -/
theorem greatest_report {lines : List (List Nat)} {count : Nat}
    (htaken : ∀ n ∈ lines.flatten, n ≤ count) :
    ∃ n : Nat, (lines.flatMap lineReport).foldl max 0 = n ∧ n ≤ count ∧
      (n = count ↔ count = 0 ∨ [count] ∈ lines) := by
  obtain ⟨hnonneg, hall, hone⟩ := foldl_max_spec (lines.flatMap lineReport) 0
  have hreported : ∀ x ∈ lines.flatMap lineReport, ∃ n : Nat, x = n ∧ [n] ∈ lines := by
    intro x hx
    obtain ⟨line, hline, hx⟩ := List.mem_flatMap.mp hx
    obtain ⟨n, rfl, rfl⟩ := mem_lineReport hx
    exact ⟨n, rfl, hline⟩
  have hmem : ∀ n : Nat, [n] ∈ lines → (n : Int) ≤ (lines.flatMap lineReport).foldl max 0 :=
    fun n hn => hall _ (List.mem_flatMap.mpr ⟨[n], hn, List.mem_singleton_self _⟩)
  rcases hone with hzero | hsome
  -- no line reports more than nothing
  · refine ⟨0, hzero, Nat.zero_le _, ?_⟩
    constructor
    · exact fun h => .inl h.symm
    · rintro (h | h)
      · exact h.symm
      · have hle := hmem count h
        rw [hzero] at hle
        omega
  · obtain ⟨n, hn, hline⟩ := hreported _ hsome
    have hcount : n ≤ count :=
      htaken n (List.mem_flatten.mpr ⟨[n], hline, List.mem_singleton_self n⟩)
    refine ⟨n, hn, hcount, ?_⟩
    constructor
    · rintro rfl
      exact .inr hline
    · rintro (h | h)
      · omega
      · have hle := hmem count h
        rw [hn] at hle
        omega

variable {δ : Type}

/-- The log that `docker logs` shows when the target has written what `s` says. -/
structure ShowsLog (py : Interpreter) (draws : Draws) (s : RequestLog) (res : CompletedProcess) :
    Prop where
  stdout : res.stdout.toList = servingLine (generateChallenge draws) ++ '\n' :: s.text
  /-- A traceback may be in it, which has no count. -/
  stderr : reportsOf py res.stderr.toList = []
  ended : s.line = [] ∨ res.stderr.toList = []

/-- The count that is read of the log. -/
theorem readRequestCount_reports {o : Outside δ} {w : World δ} {targetName : String}
    {res : CompletedProcess} (hlogs : (o.docker w.outside (logsArgs targetName)).1 = .ok res) :
    (readRequestCount o py targetName w).1 =
      .ok ((reportsOf py (res.stdout.toList ++ res.stderr.toList)).foldl max 0) := by
  have hrun : docker o (logsArgs targetName) w = (.ok res, (docker o (logsArgs targetName) w).2) :=
    Prod.ext hlogs rfl
  unfold readRequestCount
  rw [Prog.bind_ok hrun]
  unfold reportsOf
  rw [← String.toList_append]
  rfl

/-- Every number of an idle target whose threads printed one after the other is alone on a line. -/
theorem RequestLog.Single.reported {s : RequestLog} (h : s.Single) (hcounted : s.counted = [])
    (hending : s.ending = []) (hpos : s.count ≠ 0) : [s.count] ∈ s.lines := by
  have hholds : s.Holds s.count := (h.taken s.count).mpr (by omega)
  have hnot : s.count ∉ s.line ∧ s.count ∉ s.counted := by
    rw [h.ended hending, hcounted]
    exact ⟨List.not_mem_nil, List.not_mem_nil⟩
  obtain ⟨line, hline, hmem⟩ :=
    List.mem_flatten.mp (hholds.resolve_right (not_or.mpr hnot))
  have hshape : line = [s.count] := by
    have hlength := h.lines line hline
    rcases line with _ | ⟨n, _ | ⟨m, rest⟩⟩
    · cases hmem
    · rw [List.mem_singleton.mp hmem]
    · simp at hlength
  exact hshape ▸ hline

/-- **The count that is read is never more than the requests that were made**, whatever the order in
    which the threads of the target count and write. It is their number just when the last text is alone
    on its line, which it is, once the target is idle, if no thread wrote while another had not ended its
    line. -/
theorem readRequestCount_of_log (hu : KnowsAscii py.unicode) (draws : Draws) {s : RequestLog}
    (hreach : Machine.Reachable RequestLog.step {} s) (hshort : tooLong s.count = false)
    {o : Outside δ} {w : World δ} {targetName : String} {res : CompletedProcess}
    (hlogs : (o.docker w.outside (logsArgs targetName)).1 = .ok res)
    (hshows : ShowsLog py draws s res) :
    ∃ n : Nat, (readRequestCount o py targetName w).1 = .ok (n : Int) ∧ n ≤ s.count ∧
      (n = s.count ↔ s.count = 0 ∨ [s.count] ∈ s.lines ++ [s.line]) ∧
      (Machine.Reachable RequestLog.stepAlone {} s → s.counted = [] → s.ending = [] →
        n = s.count) := by
  have hsound : s.Sound := hreach.keeps Sound.start Sound.step
  have htaken : ∀ n ∈ (s.lines ++ [s.line]).flatten, n ≤ s.count := by
    intro n hn
    rw [List.flatten_append, List.flatten_singleton] at hn
    refine ((hsound.taken n).mp ?_).2
    rcases List.mem_append.mp hn with hlines | hline
    · exact .inl hlines
    · exact .inr (.inl hline)
  have hshortened : ∀ line ∈ s.lines ++ [s.line], ∀ n ∈ line, tooLong n = false :=
    fun line hline n hn => tooLong_le (htaken n (List.mem_flatten.mpr ⟨line, hline, hn⟩)) hshort
  obtain ⟨hlines, hline⟩ := List.forall_mem_append.mp hshortened
  obtain ⟨n, hgreatest, hle, hexact⟩ := greatest_report htaken
  refine ⟨n, ?_, hle, hexact, fun halone hcounted hending => ?_⟩
  · rw [readRequestCount_reports hlogs, hshows.stdout,
      reportsOf_log hu draws hlines (List.forall_mem_singleton.mp hline) hshows.stderr hshows.ended,
      hgreatest]
  · by_cases hzero : s.count = 0
    · exact hexact.mpr (.inl hzero)
    · have hsingle : s.Single := halone.keeps Single.start Single.step
      exact hexact.mpr (.inr (List.mem_append_left _ (hsingle.reported hcounted hending hzero)))

/-- Three requests, of which the last two are printed on one line. -/
def gluedLog : RequestLog where
  count := 3
  lines := [[1], [2, 3], []]

theorem gluedLog_reachable : Machine.Reachable RequestLog.step {} gluedLog := by
  have hstart : Machine.Reachable RequestLog.step {} {} := .start
  have h₁ := hstart.next (a := .count) rfl
  have h₂ := h₁.next (a := .write 1) rfl
  have h₃ := h₂.next (a := .endLine 1) rfl
  have h₄ := h₃.next (a := .count) rfl
  have h₅ := h₄.next (a := .count) rfl
  have h₆ := h₅.next (a := .write 2) rfl
  have h₇ := h₆.next (a := .write 3) rfl
  have h₈ := h₇.next (a := .endLine 2) rfl
  exact h₈.next (a := .endLine 3) rfl

/-- What `docker logs` writes. -/
def loggedBy (draws : Draws) (s : RequestLog) : CompletedProcess where
  returncode := 0
  stdout := String.ofList (servingLine (generateChallenge draws) ++ '\n' :: s.text)

def loggingDocker (draws : Draws) (s : RequestLog) : Outside Unit where
  docker _ _ := (.ok (loggedBy draws s), ())
  http _ _ := (.error ⟨.osError, ""⟩, ())

theorem readRequestCount_of_log_glued :
    ∃ n : Nat, (readRequestCount (loggingDocker firstDraws gluedLog) cpython "secval-tgt-1"
      ⟨(), [], {}⟩).1 = .ok (n : Int) ∧ n < 3 := by
  have hshows : ShowsLog cpython firstDraws gluedLog (loggedBy firstDraws gluedLog) :=
    ⟨String.toList_ofList, rfl, .inr rfl⟩
  have hlogs : ((loggingDocker firstDraws gluedLog).docker () (logsArgs "secval-tgt-1")).1 =
      .ok (loggedBy firstDraws gluedLog) := rfl
  obtain ⟨n, hread, hle, hexact, -⟩ := readRequestCount_of_log (w := ⟨(), [], {}⟩) knowsAscii_latin1
    firstDraws gluedLog_reachable (by decide +kernel) hlogs hshows
  refine ⟨n, hread, Nat.lt_of_le_of_ne hle fun hn => ?_⟩
  rcases hexact.mp hn with hzero | hmem
  · exact absurd hzero (by decide)
  · exact absurd hmem (by decide)

end TaoSubnet
