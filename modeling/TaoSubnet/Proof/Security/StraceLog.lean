import TaoSubnet.Security.Behavior

/-!
# The strace log, written and read back

gVisor writes one event to a line; `parse_strace_log` splits the log at every line break Python knows
and reads fields that are separated by whitespace. Both disagree with the writer where the agent
chooses the text: its own process name, and the names in the arguments.
`parse_renderLog_iff` says which events survive the way there and back.
-/

namespace TaoSubnet

open Py

/-! ## The writer -/

/-- The characters of a log stamp such as `I0928 10:21:46.446700       1 `. -/
def isStampChar (c : Char) : Bool :=
  c.isUpper || c.isDigit || c == ' ' || c == ':' || c == '.'

/-- What stands before an event: the stamp, the line of `strace.go`, and two thread ids. -/
structure LogHeader where
  stamp : List Char
  line : Nat
  tid : Nat
  pid : Nat
  stamp_plain : ∀ c ∈ stamp, isStampChar c = true

/-- `% 4d`. -/
def padded (n : Nat) : List Char :=
  List.replicate (4 - (Nat.toDigits 10 n).length) ' ' ++ Nat.toDigits 10 n

/-- `strace.go:N] [   T:   P] `. -/
def LogHeader.tag (header : LogHeader) : List Char :=
  "strace.go:".toList ++ (Nat.toDigits 10 header.line ++ (']' :: ' ' :: '[' ::
    (padded header.tid ++ ':' :: padded header.pid ++ [']', ' '])))

/-- The characters of a system call's name. -/
def isSyscallChar (c : Char) : Bool := c.isLower || c.isDigit || c == '_'

/-- An event that gVisor writes to one line: the process name and the arguments are any text. -/
structure LoggedEvent where
  header : LogHeader
  event : SyscallEvent
  comm_line : '\n' ∉ event.comm.toList
  args_line : '\n' ∉ event.args.toList
  phase_known : event.phase = 'E' ∨ event.phase = 'X'
  syscall_named : event.syscall.toList ≠ []
  syscall_plain : ∀ c ∈ event.syscall.toList, isSyscallChar c = true

/-- What follows the header. -/
def bodyOf (event : SyscallEvent) (args : List Char) : List Char :=
  event.comm.toList ++ ' ' :: event.phase :: ' ' :: (event.syscall.toList ++ '(' :: args)

def LoggedEvent.line (e : LoggedEvent) : List Char :=
  e.header.stamp ++ (e.header.tag ++ bodyOf e.event e.event.args.toList)

def renderLog (events : List LoggedEvent) : String :=
  String.ofList (events.flatMap fun e => e.line ++ ['\n'])

/-- An event with other arguments, right-stripped. -/
def SyscallEvent.withArgs (event : SyscallEvent) (args : List Char) : SyscallEvent :=
  { event with args := String.ofList (rstripChars args) }

/-- The event as it is meant to be read. -/
def LoggedEvent.read (e : LoggedEvent) : SyscallEvent := e.event.withArgs e.event.args.toList

/-! ## Reading one line -/

/-- The character database knows the ASCII digits and letters. -/
structure KnowsAscii (u : Unicode) : Prop where
  decimal : ∀ n < 128, u.decimal n = Unicode.latin1.decimal n
  isWord : ∀ n < 128, u.isWord n = Unicode.latin1.isWord n

/-- `_STRACE_RE.search(line)`. -/
def searchStrace (u : Unicode) (line : List Char) : Option SyscallEvent :=
  line.tails.findSome? (matchStrace u)

variable {u : Unicode}

theorem matchStrace_nil : matchStrace u [] = none := rfl

theorem matchStrace_other {c : Char} {rest : List Char} (h : c ≠ 's') :
    matchStrace u (c :: rest) = none := by
  have hlabel : dropPrefix? "strace.go:".toList (c :: rest) = none :=
    dropPrefix?_eq_none (Ne.symm h)
  rw [matchStrace, hlabel]
  rfl

theorem searchStrace_hit {line : List Char} {event : SyscallEvent}
    (h : matchStrace u line = some event) : searchStrace u line = some event := by
  unfold searchStrace
  cases line with
  | nil => cases h
  | cons c rest => rw [List.tails, List.findSome?_cons, h]

/-- Text without an `s` is passed over. -/
theorem searchStrace_append {before : List Char} (h : ∀ c ∈ before, c ≠ 's') (rest : List Char) :
    searchStrace u (before ++ rest) = searchStrace u rest := by
  induction before with
  | nil => rfl
  | cons c before ih =>
    have hc : matchStrace u (c :: (before ++ rest)) = none :=
      matchStrace_other (h c List.mem_cons_self)
    rw [← ih fun d hd => h d (List.mem_cons_of_mem c hd)]
    unfold searchStrace
    rw [List.cons_append, List.tails, List.findSome?_cons, hc]

theorem searchStrace_blank {line : List Char} (h : ∀ c ∈ line, isSpace c = true) :
    searchStrace u line = none := by
  have hother : ∀ c ∈ line, c ≠ 's' := by
    intro c hc hs
    rw [hs] at hc
    exact absurd (h 's' hc) (by decide)
  have hskip := searchStrace_append (u := u) hother []
  rw [List.append_nil] at hskip
  rw [hskip]
  rfl

/-- What a parsed process name looks like. -/
theorem matchStrace_comm {line : List Char} {event : SyscallEvent}
    (h : matchStrace u line = some event) :
    event.comm.toList ≠ [] ∧ ∀ c ∈ event.comm.toList, isSpace c = false := by
  simp only [matchStrace, Option.bind_eq_bind, Option.bind_eq_some_iff] at h
  obtain ⟨_, -, _, -, _, -, _, -, _, -, _, -, _, -, ⟨comm, _⟩, hcomm, _, -, h⟩ := h
  obtain ⟨hne, hword, -⟩ := span1_some hcomm
  have hname : event.comm = String.ofList comm := by
    split at h
    · simp only [Option.bind_some, Option.bind_eq_some_iff] at h
      obtain ⟨_, -, _, -, _, -, h⟩ := h
      cases h
      rfl
    · simp only [Option.bind_some, Option.bind_eq_some_iff] at h
      obtain ⟨_, -, _, -, _, -, h⟩ := h
      cases h
      rfl
    · cases h
  rw [hname, String.toList_ofList]
  exact ⟨hne, fun c hc => by simpa using hword c hc⟩

theorem mem_padded {n : Nat} {c : Char} (h : c ∈ padded n) : c = ' ' ∨ c.isDigit = true := by
  rcases List.mem_append.mp h with hblank | hdigit
  · exact .inl (List.eq_of_mem_replicate hblank)
  · exact .inr (Nat.isDigit_of_mem_toDigits (by decide) (by decide) hdigit)

theorem toNat_of_isDigit {c : Char} (h : c.isDigit = true) : 48 ≤ c.toNat ∧ c.toNat ≤ 57 := by
  simp only [Char.isDigit, Bool.and_eq_true, decide_eq_true_eq] at h
  exact h

theorem toNat_of_isLower {c : Char} (h : c.isLower = true) : 97 ≤ c.toNat ∧ c.toNat ≤ 122 := by
  have hrange : (decide (c.val ≥ 97) && decide (c.val ≤ 122)) = true := h
  simp only [Bool.and_eq_true, decide_eq_true_eq] at hrange
  exact hrange

theorem decimal_of_isDigit (hu : KnowsAscii u) {c : Char} (h : c.isDigit = true) :
    (u.decimal c.toNat).isSome = true := by
  obtain ⟨hlow, hhigh⟩ := toNat_of_isDigit h
  rw [hu.decimal _ (by omega)]
  simp [Unicode.latin1, hlow, hhigh]

theorem isWord_of_isSyscallChar (hu : KnowsAscii u) {c : Char} (h : isSyscallChar c = true) :
    u.isWord c.toNat = true := by
  simp only [isSyscallChar, Bool.or_eq_true, beq_iff_eq] at h
  rcases h with (hlower | hdigit) | hunderscore
  · obtain ⟨hlow, hhigh⟩ := toNat_of_isLower hlower
    rw [hu.isWord _ (by omega)]
    simp [Unicode.latin1, hlow, hhigh]
  · obtain ⟨hlow, hhigh⟩ := toNat_of_isDigit hdigit
    rw [hu.isWord _ (by omega)]
    simp [Unicode.latin1, hlow, hhigh]
  · rw [hunderscore, hu.isWord _ (by decide)]
    rfl

theorem not_space_of_isSyscallChar {c : Char} (h : isSyscallChar c = true) :
    isSpace c = false := by
  simp only [isSyscallChar, Bool.or_eq_true, beq_iff_eq] at h
  rcases h with (hlower | hdigit) | hunderscore
  · have := toNat_of_isLower hlower
    simp only [isSpace, isSpaceCode, Bool.or_eq_false_iff, Bool.and_eq_false_iff,
      decide_eq_false_iff_not, beq_eq_false_iff_ne]
    omega
  · have := toNat_of_isDigit hdigit
    simp only [isSpace, isSpaceCode, Bool.or_eq_false_iff, Bool.and_eq_false_iff,
      decide_eq_false_iff_not, beq_eq_false_iff_ne]
    omega
  · rw [hunderscore]
    rfl

theorem not_break_of_not_space {c : Char} (h : isSpace c = false) : isLineBreak c = false := by
  by_contra hbreak
  rw [isSpace_of_isLineBreak (by simpa using hbreak)] at h
  cases h

/-- The header is passed and the event behind it read, when the process name is one word; the
    arguments are whatever is left. -/
theorem matchStrace_tag (hu : KnowsAscii u) (e : LoggedEvent) (args : List Char)
    (hne : e.event.comm.toList ≠ []) (hword : ∀ c ∈ e.event.comm.toList, isSpace c = false) :
    matchStrace u (e.header.tag ++ bodyOf e.event args) = some (e.event.withArgs args) := by
  have hline : ∀ rest, span1 (fun c => (u.decimal c.toNat).isSome)
      (Nat.toDigits 10 e.header.line ++ ']' :: rest) =
        some (Nat.toDigits 10 e.header.line, ']' :: rest) := by
    intro rest
    apply span1_append
    · exact Nat.toDigits_ne_nil
    · intro c hc
      exact decimal_of_isDigit hu (Nat.isDigit_of_mem_toDigits (by decide) (by decide) hc)
    · intro c hc
      cases hc
      rw [hu.decimal _ (by decide)]
      rfl
  have hids : ∀ rest, ((padded e.header.tid ++ ':' :: padded e.header.pid) ++
      ']' :: rest).dropWhile (· ≠ ']') = ']' :: rest := by
    intro rest
    rw [List.dropWhile_append_of_pos]
    · simp
    · intro c hc
      have hplain : c = ' ' ∨ c = ':' ∨ c.isDigit = true := by
        rcases List.mem_append.mp hc with htid | hcolon
        · exact (mem_padded htid).imp_right .inr
        · rcases List.mem_cons.mp hcolon with hcolon | hpid
          · exact .inr (.inl hcolon)
          · exact (mem_padded hpid).imp_right .inr
      rcases hplain with rfl | rfl | hdigit
      · decide
      · decide
      · have := toNat_of_isDigit hdigit
        simp only [ne_eq, decide_not, Bool.not_eq_eq_eq_not, Bool.not_true, decide_eq_false_iff_not]
        rintro rfl
        exact absurd this (by decide)
  have hgap : ∀ rest : List Char, (∀ c, rest.head? = some c → isSpace c = false) →
      span1 isSpace (' ' :: rest) = some ([' '], rest) := fun rest hrest =>
    span1_append (List.cons_ne_nil ' ' []) (by simp [isSpace, isSpaceCode]) hrest
  have hhead : ∀ rest c, (e.event.comm.toList ++ rest).head? = some c → isSpace c = false := by
    intro rest c hc
    rw [List.head?_append_of_ne_nil _ hne] at hc
    exact hword c (List.mem_of_head? hc)
  have hcomm : ∀ rest, span1 (fun c => !isSpace c) (e.event.comm.toList ++ ' ' :: rest) =
      some (e.event.comm.toList, ' ' :: rest) := by
    intro rest
    apply span1_append hne
    · intro c hc
      simp [hword c hc]
    · intro c hc
      cases hc
      rfl
  have hsyscall : ∀ rest, span1 (fun c => u.isWord c.toNat) (e.event.syscall.toList ++ '(' :: rest) =
      some (e.event.syscall.toList, '(' :: rest) := by
    intro rest
    apply span1_append e.syscall_named
    · intro c hc
      exact isWord_of_isSyscallChar hu (e.syscall_plain c hc)
    · intro c hc
      cases hc
      rw [hu.isWord _ (by decide)]
      rfl
  have hphase : ∀ rest c, (e.event.phase :: rest).head? = some c → isSpace c = false := by
    intro rest c hc
    cases hc
    rcases e.phase_known with h | h
    · rw [h]
      rfl
    · rw [h]
      rfl
  have hname : ∀ rest c, (e.event.syscall.toList ++ rest).head? = some c → isSpace c = false := by
    intro rest c hc
    rw [List.head?_append_of_ne_nil _ e.syscall_named] at hc
    exact not_space_of_isSyscallChar (e.syscall_plain c (List.mem_of_head? hc))
  have hbracket : ∀ rest c, ('[' :: rest).head? = some c → isSpace c = false := by
    intro rest c hc
    cases hc
    rfl
  have hshape : e.header.tag ++ bodyOf e.event args =
      "strace.go:".toList ++ (Nat.toDigits 10 e.header.line ++ ']' :: ' ' :: '[' ::
        ((padded e.header.tid ++ ':' :: padded e.header.pid) ++ ']' :: ' ' ::
          (e.event.comm.toList ++ ' ' :: e.event.phase :: ' ' ::
            (e.event.syscall.toList ++ '(' :: args)))) := by
    unfold LogHeader.tag bodyOf
    generalize "strace.go:".toList = label
    simp only [List.append_assoc, List.cons_append, List.nil_append]
  rw [hshape, matchStrace]
  simp only [dropPrefix?_append, hline, expect_cons, hgap _ (hbracket _), hids, hgap _ (hhead _),
    hcomm, hgap _ (hphase _), Option.bind_eq_bind, Option.bind_some]
  rcases e.phase_known with h | h
  · simp [h, hgap _ (hname _), hsyscall, expect_cons, SyscallEvent.withArgs, String.ofList_toList]
  · simp [h, hgap _ (hname _), hsyscall, expect_cons, SyscallEvent.withArgs, String.ofList_toList]

/-! ## Reading the log -/

theorem not_break_of_isStampChar {c : Char} (h : isStampChar c = true) : isLineBreak c = false := by
  simp only [isStampChar, Bool.or_eq_true, beq_iff_eq] at h
  rcases h with (((hupper | hdigit) | hspace) | hcolon) | hdot
  · have hrange : 65 ≤ c.toNat ∧ c.toNat ≤ 90 := of_decide_eq_true hupper
    obtain ⟨hlow, hhigh⟩ := hrange
    simp only [isLineBreak, Bool.or_eq_false_iff, Bool.and_eq_false_iff, decide_eq_false_iff_not,
      beq_eq_false_iff_ne]
    omega
  · have := toNat_of_isDigit hdigit
    simp only [isLineBreak, Bool.or_eq_false_iff, Bool.and_eq_false_iff, decide_eq_false_iff_not,
      beq_eq_false_iff_ne]
    omega
  · rw [hspace]
    rfl
  · rw [hcolon]
    rfl
  · rw [hdot]
    rfl

/-- Everything before the arguments. -/
def LoggedEvent.before (e : LoggedEvent) : List Char :=
  e.header.stamp ++ (e.header.tag ++ bodyOf e.event [])

theorem bodyOf_append (event : SyscallEvent) (args : List Char) :
    bodyOf event args = bodyOf event [] ++ args := by
  simp [bodyOf]

theorem line_append (e : LoggedEvent) : e.line = e.before ++ e.event.args.toList := by
  unfold LoggedEvent.line LoggedEvent.before
  rw [bodyOf_append e.event e.event.args.toList]
  simp only [List.append_assoc]

/-- A condition on characters, run over a text and not over all there are. -/
theorem all_chars {p : Char → Prop} [DecidablePred p] {s : List Char}
    (h : s.all (fun c => decide (p c)) = true) : ∀ c ∈ s, p c := by
  intro c hc
  exact of_decide_eq_true (List.all_eq_true.mp h c hc)

theorem tag_chars (header : LogHeader) :
    ∀ c ∈ header.tag, c ∈ "strace.go:] []".toList ∨ c.isDigit = true := by
  intro c hc
  have hpadded : ∀ n, c ∈ padded n → c ∈ "strace.go:] []".toList ∨ c.isDigit = true := by
    intro n hn
    rcases mem_padded hn with rfl | hdigit
    · exact .inl (by decide)
    · exact .inr hdigit
  unfold LogHeader.tag at hc
  rcases List.mem_append.mp hc with hlabel | hc
  · have hsub : ∀ d ∈ "strace.go:".toList, d ∈ "strace.go:] []".toList := by
      apply all_chars
      decide
    exact .inl (hsub c hlabel)
  rcases List.mem_append.mp hc with hline | hc
  · exact .inr (Nat.isDigit_of_mem_toDigits (by decide) (by decide) hline)
  simp only [List.mem_cons, List.mem_append, List.not_mem_nil, or_false] at hc
  rcases hc with rfl | rfl | rfl | (htid | rfl | hpid) | rfl | rfl
  · exact .inl (by decide)
  · exact .inl (by decide)
  · exact .inl (by decide)
  · exact hpadded _ htid
  · exact .inl (by decide)
  · exact hpadded _ hpid
  · exact .inl (by decide)
  · exact .inl (by decide)

theorem tag_not_break (header : LogHeader) : ∀ c ∈ header.tag, isLineBreak c = false := by
  intro c hc
  have hlabel : ∀ d ∈ "strace.go:] []".toList, isLineBreak d = false := by
    apply all_chars
    decide
  rcases tag_chars header c hc with hplain | hdigit
  · exact hlabel c hplain
  · exact not_break_of_isStampChar (by simp [isStampChar, hdigit])

/-- Before the arguments a break can only be in the process name. -/
theorem before_not_break (e : LoggedEvent) :
    ∀ c ∈ e.before, c ∈ e.event.comm.toList ∨ isLineBreak c = false := by
  intro c hc
  unfold LoggedEvent.before bodyOf at hc
  rcases List.mem_append.mp hc with hstamp | hc
  · exact .inr (not_break_of_isStampChar (e.header.stamp_plain c hstamp))
  rcases List.mem_append.mp hc with htag | hc
  · exact .inr (tag_not_break e.header c htag)
  rcases List.mem_append.mp hc with hcomm | hc
  · exact .inl hcomm
  right
  simp only [List.mem_cons, List.mem_append, List.not_mem_nil, or_false] at hc
  rcases hc with rfl | rfl | rfl | hsyscall | rfl
  · rfl
  · rcases e.phase_known with h | h
    · rw [h]
      rfl
    · rw [h]
      rfl
  · rfl
  · exact not_break_of_not_space (not_space_of_isSyscallChar (e.syscall_plain c hsyscall))
  · rfl

/-- The writer's line is one line. -/
theorem newline_not_mem_line (e : LoggedEvent) : '\n' ∉ e.line := by
  intro hmem
  rw [line_append] at hmem
  rcases List.mem_append.mp hmem with hbefore | hargs
  · rcases before_not_break e '\n' hbefore with hcomm | hbreak
    · exact e.comm_line hcomm
    · cases hbreak
  · exact e.args_line hargs

/-- What the parser makes of one of the writer's lines. -/
def LoggedEvent.parsed (u : Unicode) (e : LoggedEvent) : List SyscallEvent :=
  (pieces e.line).filterMap (searchStrace u)

/-- The lines are parsed one by one. -/
theorem parse_renderLog (u : Unicode) (events : List LoggedEvent) :
    parseStraceLog u (renderLog events) = events.flatMap (LoggedEvent.parsed u) := by
  unfold parseStraceLog renderLog
  rw [String.toList_ofList]
  induction events with
  | nil => rfl
  | cons e events ih =>
    simp only [List.flatMap_cons, List.append_assoc, List.cons_append, List.nil_append]
    rw [splitLinesChars_line (newline_not_mem_line e), List.filterMap_append]
    exact congrArg (e.parsed u ++ ·) ih

/-- An event whose process name is one word is read first from its line, its arguments up to the
    first break; what else the line yields lies behind that break. -/
theorem parsed_of_word (hu : KnowsAscii u) (e : LoggedEvent) (hne : e.event.comm.toList ≠ [])
    (hword : ∀ c ∈ e.event.comm.toList, isSpace c = false) : ∃ more,
    e.parsed u =
      e.event.withArgs (e.event.args.toList.takeWhile fun c => !isLineBreak c) :: more ∧
    ((∀ c ∈ rstripChars e.event.args.toList, isLineBreak c = false) → more = []) := by
  have hbefore : ∀ c ∈ e.before, (!isLineBreak c) = true := by
    intro c hc
    rcases before_not_break e c hc with hcomm | hbreak
    · simp [not_break_of_not_space (hword c hcomm)]
    · simp [hbreak]
  obtain ⟨others, hpieces, hothers⟩ := pieces_first e.line
  rw [line_append, List.takeWhile_append_of_pos hbefore] at hpieces
  rw [line_append, List.dropWhile_append_of_pos hbefore] at hothers
  refine ⟨others.filterMap (searchStrace u), ?_, ?_⟩
  · have hstamp : ∀ c ∈ e.header.stamp, c ≠ 's' := by
      intro c hc hs
      have := e.header.stamp_plain c hc
      rw [hs] at this
      exact absurd this (by decide)
    have hfirst : searchStrace u (e.before ++ e.event.args.toList.takeWhile fun c => !isLineBreak c) =
        some (e.event.withArgs (e.event.args.toList.takeWhile fun c => !isLineBreak c)) := by
      unfold LoggedEvent.before
      rw [List.append_assoc, List.append_assoc, searchStrace_append hstamp, ← bodyOf_append]
      exact searchStrace_hit (matchStrace_tag hu e _ hne hword)
    unfold LoggedEvent.parsed
    rw [line_append, hpieces, List.filterMap_cons, hfirst]
  · intro hplain
    apply List.filterMap_eq_nil_iff.mpr
    intro piece hpiece
    apply searchStrace_blank
    intro c hc
    exact blank_after_first_piece hplain c (hothers piece hpiece c hc)

/-- A parsed process name is one word. -/
theorem comm_of_parsed {e : LoggedEvent} {event : SyscallEvent} (h : event ∈ e.parsed u) :
    event.comm.toList ≠ [] ∧ ∀ c ∈ event.comm.toList, isSpace c = false := by
  obtain ⟨piece, -, hfound⟩ := List.mem_filterMap.mp h
  obtain ⟨rest, -, hmatch⟩ := List.exists_of_findSome?_eq_some hfound
  exact matchStrace_comm hmatch

theorem length_le_flatMap {α β : Type} {parts : α → List β} {l : List α}
    (hne : ∀ a ∈ l, parts a ≠ []) : l.length ≤ (l.flatMap parts).length := by
  induction l with
  | nil => simp
  | cons a l ih =>
    have hfirst : 0 < (parts a).length := List.length_pos_iff.mpr (hne a List.mem_cons_self)
    have hrest := ih fun b hb => hne b (List.mem_cons_of_mem a hb)
    rw [List.flatMap_cons, List.length_append, List.length_cons]
    omega

/-- Where every part yields something and the whole yields one result a part, each part yields
    its own. -/
theorem flatMap_eq_map {α β : Type} {parts : α → List β} {whole : α → β} {l : List α}
    (hne : ∀ a ∈ l, parts a ≠ []) (h : l.flatMap parts = l.map whole) :
    ∀ a ∈ l, parts a = [whole a] := by
  induction l with
  | nil =>
    intro a ha
    cases ha
  | cons a l ih =>
    have hrest : ∀ b ∈ l, parts b ≠ [] := fun b hb => hne b (List.mem_cons_of_mem a hb)
    have hmany := length_le_flatMap hrest
    rw [List.flatMap_cons, List.map_cons] at h
    cases hparts : parts a with
    | nil => exact absurd hparts (hne a List.mem_cons_self)
    | cons found more =>
      rw [hparts, List.cons_append] at h
      injection h with hfound hmore
      have hnone : more = [] := by
        have hlength := congrArg List.length hmore
        rw [List.length_append, List.length_map] at hlength
        exact List.length_eq_zero_iff.mp (by omega)
      rw [hnone, List.nil_append] at hmore
      intro b hb
      rcases List.mem_cons.mp hb with rfl | hb
      · rw [hparts, hfound, hnone]
      · exact ih hrest hmore b hb

/-- The log of some events is read back as these events exactly when every process name is one
    word and no arguments have a line break, trailing whitespace aside. -/
theorem parse_renderLog_iff (hu : KnowsAscii u) (events : List LoggedEvent) :
    parseStraceLog u (renderLog events) = events.map LoggedEvent.read ↔
      ∀ e ∈ events, e.event.comm.toList ≠ [] ∧ (∀ c ∈ e.event.comm.toList, isSpace c = false) ∧
        ∀ c ∈ rstripChars e.event.args.toList, isLineBreak c = false := by
  rw [parse_renderLog]
  constructor
  · intro h
    -- every event is among the parsed ones, so its name is a word and its line yields something
    have hword : ∀ e ∈ events, e.event.comm.toList ≠ [] ∧
        ∀ c ∈ e.event.comm.toList, isSpace c = false := by
      intro e he
      have hread : e.read ∈ events.flatMap (LoggedEvent.parsed u) := by
        rw [h]
        exact List.mem_map_of_mem he
      obtain ⟨_, -, hparsed⟩ := List.mem_flatMap.mp hread
      have hcomm := comm_of_parsed hparsed
      exact hcomm
    have hown := flatMap_eq_map (fun e he => by
      obtain ⟨more, hparsed, -⟩ := parsed_of_word hu e (hword e he).1 (hword e he).2
      rw [hparsed]
      exact List.cons_ne_nil _ _) h
    intro e he
    obtain ⟨more, hparsed, -⟩ := parsed_of_word hu e (hword e he).1 (hword e he).2
    have hread := hown e he
    rw [hparsed] at hread
    injection hread with hread
    have hargs : String.ofList (rstripChars (e.event.args.toList.takeWhile fun c => !isLineBreak c)) =
        String.ofList (rstripChars e.event.args.toList) := congrArg SyscallEvent.args hread
    have hchars := congrArg String.toList hargs
    rw [String.toList_ofList, String.toList_ofList] at hchars
    exact ⟨(hword e he).1, (hword e he).2, rstripChars_first_piece.mp hchars⟩
  · intro h
    induction events with
    | nil => rfl
    | cons e events ih =>
      obtain ⟨hne, hword, hplain⟩ := h e List.mem_cons_self
      obtain ⟨more, hparsed, hmore⟩ := parsed_of_word hu e hne hword
      have hread : e.event.withArgs (e.event.args.toList.takeWhile fun c => !isLineBreak c) =
          e.read := by
        unfold LoggedEvent.read SyscallEvent.withArgs
        rw [rstripChars_first_piece.mpr hplain]
      rw [List.flatMap_cons, List.map_cons, hparsed, hmore hplain, hread,
        ih fun d hd => h d (List.mem_cons_of_mem e hd)]
      rfl

theorem knowsAscii_latin1 : KnowsAscii Unicode.latin1 := ⟨fun _ _ => rfl, fun _ _ => rfl⟩

/-- `sh` opens the shadow file. -/
def plainEvent : LoggedEvent where
  header := {
    stamp := "I0928 10:21:46.446700       1 ".toList
    line := 572
    tid := 1
    pid := 1
    stamp_plain := all_chars (by decide) }
  event := { comm := "sh", phase := 'E', syscall := "open", args := "0x7f /etc/shadow, 0x0" }
  comm_line := by decide
  args_line := by decide
  phase_known := .inl rfl
  syscall_named := by decide
  syscall_plain := all_chars (by decide)

theorem plain_event_read_back :
    parseStraceLog Unicode.latin1 (renderLog [plainEvent]) = [plainEvent].map LoggedEvent.read := by
  apply (parse_renderLog_iff knowsAscii_latin1 [plainEvent]).mpr
  intro e he
  rw [List.mem_singleton.mp he]
  refine ⟨by decide, all_chars (by decide), ?_⟩
  apply all_chars
  decide +kernel

/-- The same event by a process that calls itself `a b`. -/
def twoWords : LoggedEvent :=
  { plainEvent with
    event := { plainEvent.event with comm := "a b" }
    comm_line := by decide }

/-- What the process with two words for a name opens is not in the report. -/
theorem two_words_hidden :
    ¬ (∀ events : List LoggedEvent, parseStraceLog Unicode.latin1 (renderLog events) =
      events.map LoggedEvent.read) ∧
    (analyze Unicode.latin1 (renderLog [plainEvent])).violations.length = 1 ∧
    (analyze Unicode.latin1 (renderLog [twoWords])).violations = [] := by
  refine ⟨?_, by decide +kernel, by decide +kernel⟩
  intro h
  have hread := h [twoWords]
  revert hread
  decide +kernel

end TaoSubnet
