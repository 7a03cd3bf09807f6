import TaoSubnet.LlmKey.Discord

/-!
# What the channel may read

No word that must not appear can form where the program's own text meets what others wrote, nor at
the cut. So a forbidden word in a posted message is one that somebody else wrote, and it is in the
message because nothing looks for it.
-/

namespace TaoSubnet.Discord

open Py

/-- The forbidden words, as texts. -/
def forbiddenTexts : List PyStr := FORBIDDEN_SUBSTRINGS.map PyStr.ofString

/-- It holds no forbidden word. -/
def Discreet (text : PyStr) : Prop := ∀ word ∈ forbiddenTexts, ¬ word <:+: text

instance (text : PyStr) : Decidable (Discreet text) :=
  decidable_of_iff (forbiddenTexts.all fun word => !occursIn word text) <| by
    simp only [List.all_eq_true, Bool.not_eq_true', ← Bool.not_eq_true, occursIn_iff]
    rfl

/-- What may be posted. -/
structure Publishable (content : PyStr) : Prop where
  discreet : Discreet content
  short : content.length ≤ contentLimit

theorem wordy_of_forbidden : ∀ word ∈ forbiddenTexts, Wordy word := by
  intro word hword
  obtain ⟨s, hs, rfl⟩ := List.mem_map.mp hword
  unfold FORBIDDEN_SUBSTRINGS at hs
  simp only [List.mem_cons, List.not_mem_nil, or_false] at hs
  -- each of them has a `k`
  refine ⟨107, ?_, by decide, by decide⟩
  rcases hs with rfl | rfl | rfl | rfl
  all_goals decide

/-! ## The lines keep their texts apart -/

theorem fenced_reasonPart (reason : Option PyStr) :
    fenced forbiddenTexts (reasonPart reason) = true := by
  unfold reasonPart
  cases truthy reason with
  | none => rfl
  | some text => rfl

theorem opensAll_reasonPart (reason : Option PyStr) :
    opensAll forbiddenTexts (reasonPart reason) = true := by
  unfold reasonPart
  cases truthy reason with
  | none => rfl
  | some text => rfl

theorem fenced_uidPart (uid : Option Int) : fenced forbiddenTexts (uidPart uid) = true := by
  cases uid with
  | none => rfl
  | some n => rfl

theorem opensAll_uidPart (uid : Option Int) : opensAll forbiddenTexts (uidPart uid) = true := by
  cases uid with
  | none => rfl
  | some n => rfl

theorem fenced_networkTag (netuid : Option Int) (network : Option PyStr) :
    fenced forbiddenTexts (networkTag netuid network) = true := by
  unfold networkTag
  cases truthy network with
  | none =>
    cases netuid with
    | none => rfl
    | some n => rfl
  | some name =>
    cases netuid with
    | none => rfl
    | some n => rfl

theorem fenced_slotLine (row : SlotResult) : fenced forbiddenTexts row.line = true := by
  obtain ⟨slot, provider, model, accepted, reason⟩ := row
  unfold SlotResult.line
  split
  · cases slot <;> cases provider <;> cases model <;> rfl
  · refine fenced_append ?_ (fenced_reasonPart reason) (opensAll_reasonPart reason)
    cases slot <;> cases provider <;> cases model <;> rfl

theorem fenced_failureLine (failure : RelayFailure) :
    fenced forbiddenTexts failure.line = true := by
  have hhotkey : fenced forbiddenTexts
      ([.own "`"] ++ shortHotkey failure.hotkey ++ [.own "`"]) = true := by
    unfold shortHotkey
    split
    · rfl
    · rfl
  unfold RelayFailure.line
  exact fenced_append (fenced_append hhotkey (fenced_uidPart _) (opensAll_uidPart _))
    (fenced_reasonPart _) (opensAll_reasonPart _)

theorem fenced_submissionHead (hotkey : PyStr) (uid netuid : Option Int) (network : Option PyStr)
    (accepted count : Nat) : fenced forbiddenTexts
      (networkTag netuid network ++ [.own "**LLM key submission** ", .own "`"] ++
        shortHotkey hotkey ++ [.own "`"] ++ uidPart uid ++
        [.own " - ", .int accepted, .own "/", .int count, .own " accepted"]) = true := by
  have hhotkey : fenced forbiddenTexts
      ([.own "**LLM key submission** ", .own "`"] ++ shortHotkey hotkey ++ [.own "`"]) = true := by
    unfold shortHotkey
    split
    · rfl
    · rfl
  have htagged := fenced_append (fenced_networkTag netuid network) hhotkey rfl
  rw [← List.append_assoc, ← List.append_assoc] at htagged
  exact fenced_append (fenced_append htagged (fenced_uidPart uid) (opensAll_uidPart uid)) rfl rfl

theorem fenced_moreLine (count : Nat) : fenced forbiddenTexts (moreLine count) = true := rfl

/-- A line that counts what is not shown, or none. -/
theorem fenced_mem_more {p : Prop} [Decidable p] {count : Nat} {line : List Segment}
    (h : line ∈ if p then [moreLine count] else []) : fenced forbiddenTexts line = true := by
  split at h
  · obtain rfl := List.mem_singleton.mp h
    exact fenced_moreLine count
  · cases h

theorem fenced_submissionLines {hotkey : PyStr} {uid netuid : Option Int} {results : List SlotResult}
    {network : Option PyStr} {lines : List (List Segment)}
    (h : submissionLines hotkey uid results netuid network = some lines) :
    ∀ line ∈ lines, fenced forbiddenTexts line = true := by
  intro line hline
  unfold submissionLines at h
  dsimp only at h
  split at h
  · cases h
  · obtain rfl := Option.some.inj h
    rcases List.mem_cons.mp hline with rfl | hline
    · exact fenced_submissionHead ..
    · rcases List.mem_append.mp hline with hrow | hmore
      · obtain ⟨row, -, rfl⟩ := List.mem_map.mp hrow
        exact fenced_slotLine row
      · exact fenced_mem_more hmore

theorem fenced_summaryLines (asked answered contributed : Int) (failures : List RelayFailure)
    (netuid : Option Int) (network : Option PyStr) :
    ∀ line ∈ summaryLines asked answered contributed failures netuid network,
      fenced forbiddenTexts line = true := by
  intro line hline
  unfold summaryLines at hline
  rcases List.mem_cons.mp hline with rfl | hline
  · exact fenced_append (fenced_networkTag netuid network) rfl rfl
  · split at hline
    · cases hline
    · rcases List.mem_cons.mp hline with rfl | hline
      · rfl
      · rcases List.mem_append.mp hline with hrow | hmore
        · obtain ⟨failure, -, rfl⟩ := List.mem_map.mp hrow
          exact fenced_failureLine failure
        · exact fenced_mem_more hmore

/-- No word forms at a joint of an announcement. -/
theorem fenced_parts {a : Announcement} {parts : List Segment} (h : a.parts = some parts) :
    fenced forbiddenTexts parts = true := by
  cases a with
  | submission hotkey uid results netuid network =>
    obtain ⟨lines, hlines, rfl⟩ := Option.map_eq_some_iff.mp h
    exact fenced_joinLines rfl rfl (fenced_submissionLines hlines)
  | roundSummary asked answered contributed failures netuid network =>
    obtain rfl := Option.some.inj h
    exact fenced_joinLines rfl rfl
      (fenced_summaryLines asked answered contributed failures netuid network)

/-! ## What a posted message shows of others -/

/-- The texts of others in an announcement, each as far as the message reaches. -/
def Announcement.shownTexts (a : Announcement) : List PyStr :=
  match a.parts with
  | none => []
  | some parts => keptTexts MAX_CONTENT_CHARS parts

/-- A number in it has too many digits to be written. -/
def Announcement.unwritable (a : Announcement) : Bool :=
  a.parts.any fun parts => parts.any Segment.unwritable

theorem posted_eq_some {setting : Option PyStr} {a : Announcement} {content : PyStr} :
    a.posted setting = some content ↔ webhookUrl setting ≠ [] ∧ ∃ parts full, a.parts = some parts ∧
      fstring parts = .ok full ∧ content = full.take MAX_CONTENT_CHARS := by
  unfold Announcement.posted Announcement.format
  by_cases hurl : webhookUrl setting = []
  · simp [hurl]
  · rw [if_neg (by simpa using hurl)]
    cases hparts : a.parts with
    | none => simp
    | some parts =>
      cases hfull : fstring parts with
      | error e => simp [hfull, Except.map]
      | ok full => simp [hurl, hfull, Except.map, eq_comm]

theorem fstring_ok_iff {parts : List Segment} :
    (∃ full, fstring parts = .ok full) ↔ parts.any Segment.unwritable = false := by
  unfold fstring
  cases parts.any Segment.unwritable with
  | true => simp
  | false => simp

/-- What is posted is discreet when every text it shows is. -/
theorem discreet_take_iff {a : Announcement} {parts : List Segment} {full : PyStr}
    (hparts : a.parts = some parts) (hfull : fstring parts = .ok full) :
    Discreet (full.take MAX_CONTENT_CHARS) ↔ ∀ text ∈ a.shownTexts, Discreet text := by
  have hshown : a.shownTexts = keptTexts MAX_CONTENT_CHARS parts := by
    unfold Announcement.shownTexts
    rw [hparts]
  have hword (word : PyStr) (hmem : word ∈ forbiddenTexts) :=
    infix_take_fstring hmem (wordy_of_forbidden word hmem) (fenced_parts hparts) hfull
      MAX_CONTENT_CHARS
  rw [hshown]
  constructor
  · intro h text htext word hmem hin
    exact h word hmem ((hword word hmem).mpr ⟨text, htext, hin⟩)
  · intro h word hmem hin
    obtain ⟨text, htext, hin⟩ := (hword word hmem).mp hin
    exact h text htext word hmem hin

/-- **What the channel reads is publishable** exactly when nothing is posted, or every text that others
    wrote and the message shows is free of the forbidden words. -/
theorem announcement_contract_iff (setting : Option PyStr) (a : Announcement) :
    (∀ content, a.posted setting = some content → Publishable content) ↔
      (webhookUrl setting = [] ∨ a.unwritable = true ∨ ∀ text ∈ a.shownTexts, Discreet text) := by
  constructor
  · intro h
    by_cases hurl : webhookUrl setting = []
    · exact .inl hurl
    · cases hparts : a.parts with
      | none =>
        refine .inr (.inr ?_)
        unfold Announcement.shownTexts
        rw [hparts]
        simp
      | some parts =>
        cases hwritable : a.unwritable with
        | true => exact .inr (.inl rfl)
        | false =>
          unfold Announcement.unwritable at hwritable
          rw [hparts] at hwritable
          obtain ⟨full, hfull⟩ := fstring_ok_iff.mpr hwritable
          have hposted := posted_eq_some.mpr ⟨hurl, parts, full, hparts, hfull, rfl⟩
          exact .inr (.inr ((discreet_take_iff hparts hfull).mp (h _ hposted).discreet))
  · intro h content hcontent
    obtain ⟨hurl, parts, full, hparts, hfull, rfl⟩ := posted_eq_some.mp hcontent
    refine ⟨?_, ?_⟩
    · rcases h with hnone | hlong | hshown
      · exact absurd hnone hurl
      · have hwritable := fstring_ok_iff.mp ⟨full, hfull⟩
        unfold Announcement.unwritable at hlong
        rw [hparts, Option.any_some, hwritable] at hlong
        cases hlong
      · exact (discreet_take_iff hparts hfull).mpr hshown
    · exact (List.length_take_le _ _).trans (by decide)

/-- A rejection whose reason quotes the beginning of the key. -/
def quotedKey : Announcement :=
  .submission (PyStr.ofString "5ChiMxeinVECib3nWkCA8rN1vtmSC55arHJ5PUxQmu38fVmz") (some 12)
    [{ slot := some 1, provider := some (PyStr.ofString "openai"),
       model := some (PyStr.ofString "gpt-4o"), accepted := some false,
       reason := some (PyStr.ofString "Incorrect API key provided: sk-live") }] none none

theorem quoted_key_is_posted : ∃ content,
    quotedKey.posted (some (PyStr.ofString "https://discord.test/webhook/abc")) = some content ∧
      ¬ Publishable content := by
  refine ⟨PyStr.ofString ("**LLM key submission** `5ChiMxei...fVmz` | UID 12 - 0/1 accepted\n" ++
    ":x: slot 1 `openai/gpt-4o` - Incorrect API key provided: sk-live"), by decide +kernel, ?_⟩
  intro h
  exact h.discreet (PyStr.ofString "sk-") (by decide) (occursIn_iff.mp (by decide +kernel))

end TaoSubnet.Discord
