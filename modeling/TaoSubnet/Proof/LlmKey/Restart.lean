import TaoSubnet.Lib.JsonFile
import TaoSubnet.Proof.LlmKey.Rescoring
import TaoSubnet.Proof.LlmKey.StateFile

/-!
# A restart

What `save_masxai_state` writes, `load_masxai_state` of a fresh validator gives back, but for the
scores that nothing backs. `_score_last_epoch` builds its vector anew from what is restored, so a
restart before it is not seen in what it comes to.
-/

namespace TaoSubnet

open Py

/-! ## What can be read back -/

section Saved

variable (r : Loader)

/-- A float that is printed so that it is read as itself. -/
def Reprints (x : PyFloat) : Prop :=
  Json.Reads r.py.recursionLimit 0 (floatText r.py x) (.float x)

/-- A dict of dicts that is read back as it was written. -/
def LegibleDicts (d : Dict PyStr Items) : Prop :=
  ∀ p ∈ d.entries, Json.Unsplit p.1 ∧ Json.Legible r.py.recursionLimit (floatText r.py) (.obj p.2)

/-- What the memory of a validator holds is read back as it was written, and its windows have the shape
    of today. -/
structure Restorable (m : MasxaiState) : Prop where
  participation : ∀ p ∈ m.participationScores.entries, Reprints r p.2
  status : LegibleDicts r m.llmKeyHotkeyStatus
  collecting : LegibleDicts r m.llmKeyPendingCalls
  paid : LegibleDicts r m.llmKeyLastEpochCalls
  collectingShape : ∀ p ∈ m.llmKeyPendingCalls.entries, (Json.get? p.2 "keys").isSome = true
  paidShape : ∀ p ∈ m.llmKeyLastEpochCalls.entries, (Json.get? p.2 "keys").isSome = true
  askAt : Reprints r m.lastLlmKeyAskAt
  pollAt : Reprints r m.lastLlmKeyReportPollAt
  cursor : Json.Unsplit m.lastLlmKeyReportCursor
  scores : ∀ x ∈ m.scores, Reprints r x
  shallow : ∀ doc, stateDocument m = .ok doc → (Json.obj doc).depth ≤ r.py.recursionLimit

end Saved

/-! ## The document -/

section Document

variable {r : Loader} {m : MasxaiState}

theorem legible_dictItems {d : Dict PyStr Items} (h : LegibleDicts r d) :
    Json.Legible r.py.recursionLimit (floatText r.py) (.obj (dictItems d)) := by
  rw [Json.Legible, Json.legibleFields_iff]
  refine ⟨?_, ?_⟩
  · unfold dictItems
    rw [List.map_map]
    exact d.nodupKeys
  · intro p hp
    obtain ⟨q, hq, rfl⟩ := List.mem_map.mp hp
    exact h q hq

/-- The uids as keys. -/
theorem participationItems_eq {scores : Dict Int PyFloat} {items : Items}
    (h : participationItems scores = .ok items) :
    items = scores.entries.map fun p => (intDigitsText p.1, Json.float p.2) := by
  unfold participationItems at h
  generalize scores.entries = entries at h ⊢
  induction entries generalizing items with
  | nil => exact (Except.ok.inj h).symm
  | cons p rest ih =>
    rw [List.mapM_cons] at h
    obtain ⟨first, hfirst, h⟩ := except_bind_ok h
    obtain ⟨text, htext, hfirst⟩ := except_bind_ok hfirst
    obtain ⟨others, hothers, h⟩ := except_bind_ok h
    obtain rfl := Except.ok.inj hfirst
    obtain rfl := Except.ok.inj h
    rw [ih hothers, List.map_cons]
    unfold intText at htext
    split at htext
    · cases htext
    · rw [Except.ok.inj htext]

theorem unsplit_intDigitsText (n : Int) : Json.Unsplit (intDigitsText n) := by
  refine Json.unsplit_ascii ?_
  unfold intDigitsText
  split
  · intro c hc
    rcases List.mem_cons.mp hc with rfl | hc
    · decide
    · exact Json.natText_ascii _ c hc
  · exact Json.natText_ascii _

theorem legible_participation {scores : Dict Int PyFloat} (h : ∀ p ∈ scores.entries, Reprints r p.2) :
    Json.Legible r.py.recursionLimit (floatText r.py)
      (.obj (scores.entries.map fun p => (intDigitsText p.1, Json.float p.2))) := by
  rw [Json.Legible, Json.legibleFields_iff]
  refine ⟨?_, ?_⟩
  · rw [List.map_map]
    have hkeys : scores.entries.map (Prod.fst ∘ fun p : Int × PyFloat =>
        (intDigitsText p.1, Json.float p.2)) = (scores.entries.map Prod.fst).map intDigitsText := by
      rw [List.map_map]
      rfl
    rw [hkeys]
    exact scores.nodupKeys.map intDigitsText_injective
  · intro p hp
    obtain ⟨q, hq, rfl⟩ := List.mem_map.mp hp
    refine ⟨unsplit_intDigitsText q.1, ?_⟩
    rw [Json.Legible]
    exact h q hq

def STATE_KEYS : List String :=
  ["participation_scores", "llm_key_hotkey_status", "llm_key_pending_calls", "last_llm_key_ask_at",
    "last_llm_key_report_poll_at", "last_llm_key_report_cursor", "llm_key_last_epoch_calls",
    "llm_key_epoch_start_block", "scores"]

theorem nodup_stateKeys : (STATE_KEYS.map PyStr.ofString).Nodup :=
  List.Nodup.map ofString_injective (by decide)

/-- The document of a state that can be restored. -/
theorem legible_document {doc : Items} (h : Restorable r m) (hdoc : stateDocument m = .ok doc) :
    Json.Legible r.py.recursionLimit (floatText r.py) (.obj doc) := by
  unfold stateDocument at hdoc
  obtain ⟨participation, hparticipation, hdoc⟩ := except_bind_ok hdoc
  obtain rfl := Except.ok.inj hdoc
  obtain rfl := participationItems_eq hparticipation
  rw [Json.Legible, Json.legibleFields_iff]
  refine ⟨nodup_stateKeys, ?_⟩
  have hkey (key : String) (hascii : ∀ c ∈ PyStr.ofString key, c < 128) :
      Json.Unsplit (PyStr.ofString key) := Json.unsplit_ascii hascii
  intro p hp
  simp only [item, List.mem_cons, List.not_mem_nil, or_false] at hp
  rcases hp with rfl | rfl | rfl | rfl | rfl | rfl | rfl | rfl | rfl
  · exact ⟨hkey _ (by decide), legible_participation h.participation⟩
  · exact ⟨hkey _ (by decide), legible_dictItems h.status⟩
  · exact ⟨hkey _ (by decide), legible_dictItems h.collecting⟩
  · exact ⟨hkey _ (by decide), by rw [Json.Legible]; exact h.askAt⟩
  · exact ⟨hkey _ (by decide), by rw [Json.Legible]; exact h.pollAt⟩
  · exact ⟨hkey _ (by decide), by rw [Json.Legible]; exact h.cursor⟩
  · exact ⟨hkey _ (by decide), legible_dictItems h.paid⟩
  · refine ⟨hkey _ (by decide), ?_⟩
    cases m.llmKeyEpochStartBlock with
    | none => exact trivial
    | some start => exact trivial
  · refine ⟨hkey _ (by decide), ?_⟩
    rw [Json.Legible, Json.legibleItems_iff]
    intro v hv
    obtain ⟨x, hx, rfl⟩ := List.mem_map.mp hv
    rw [Json.Legible]
    exact h.scores x hx

end Document

/-! ## Reading it -/

section Fields

variable {r : Loader} {m fresh : MasxaiState} {participation : Items}

theorem dictsOf_dictItems (d : Dict PyStr Items) : dictsOf (dictItems d) = d.entries := by
  unfold dictsOf dictItems
  rw [List.filterMap_map]
  exact List.filterMap_some

theorem readParticipation_saved {u : Unicode} (hu : KnowsDigits u) {scores : Dict Int PyFloat}
    {items : Items} (h : participationItems scores = .ok items) :
    items.foldlM (fun (scores : Dict Int PyFloat) p => do
      return scores.insert (← PyStr.toInt u p.1) (← Json.toFloat u p.2)) ∅ = .ok scores := by
  have hrun (entries : List (Int × PyFloat)) (items : Items) (read : Dict Int PyFloat)
      (h : entries.mapM (fun p => do return (← intText p.1, Json.float p.2)) = .ok items) :
      items.foldlM (fun (scores : Dict Int PyFloat) p => do
        return scores.insert (← PyStr.toInt u p.1) (← Json.toFloat u p.2)) read =
          .ok (entries.foldl (fun scores p => scores.insert p.1 p.2) read) := by
    induction entries generalizing items read with
    | nil =>
      obtain rfl := Except.ok.inj h
      rfl
    | cons p rest ih =>
      rw [List.mapM_cons] at h
      obtain ⟨first, hfirst, h⟩ := except_bind_ok h
      obtain ⟨text, htext, hfirst⟩ := except_bind_ok hfirst
      obtain ⟨others, hothers, h⟩ := except_bind_ok h
      obtain rfl := Except.ok.inj hfirst
      obtain rfl := Except.ok.inj h
      rw [List.foldlM_cons]
      exact ok_bind (ok_bind (toInt_intText hu htext) rfl) (ih _ _ hothers)
  rw [hrun _ _ _ h]
  exact congrArg Except.ok (Dict.ofList_entries scores)

theorem migrate_current {entry : Items} (h : (Json.get? entry "keys").isSome = true) :
    migratePendingEntry entry = entry := by
  unfold migratePendingEntry
  dsimp only
  rw [if_pos h]

/-- Migrating twice is migrating once. -/
theorem migrate_shape (entry : Items) :
    (Json.get? (migratePendingEntry entry) "keys").isSome = true := by
  unfold migratePendingEntry
  dsimp only
  split_ifs with h hcount
  · exact h
  · rfl
  · rfl

theorem migrate_idempotent (entry : Items) :
    migratePendingEntry (migratePendingEntry entry) = migratePendingEntry entry :=
  migrate_current (migrate_shape entry)

theorem getItems_of {s : Items} {key : String} {items : Items}
    (h : Json.get? s key = some (.obj items)) : getItems s key = .ok items := by
  unfold getItems
  rw [h]
  rfl

theorem readWindows_saved {s : Items} {key : String} {d : Dict PyStr Items}
    (h : Json.get? s key = some (.obj (dictItems d)))
    (hshape : ∀ p ∈ d.entries, (Json.get? p.2 "keys").isSome = true) :
    readWindows s key = .ok d := by
  have hmigrate : d.entries.map (fun p => (p.1, migratePendingEntry p.2)) = d.entries := by
    refine List.map_congr_left (fun p hp => ?_) |>.trans (List.map_id d.entries)
    rw [migrate_current (hshape p hp)]
    rfl
  unfold readWindows
  refine ok_bind (getItems_of h) ?_
  dsimp only
  rw [dictsOf_dictItems, hmigrate]
  exact congrArg Except.ok (Dict.ofList_entries d)

theorem readStatus_saved {s : Items} {d : Dict PyStr Items}
    (h : Json.get? s "llm_key_hotkey_status" = some (.obj (dictItems d))) : readStatus s = .ok d := by
  unfold readStatus
  refine ok_bind (getItems_of h) ?_
  rw [dictsOf_dictItems]
  exact congrArg Except.ok (Dict.ofList_entries d)

theorem readEpochStart_saved {u : Unicode} {s : Items} {start : Option Int}
    (h : Json.get? s "llm_key_epoch_start_block" = some ((start.map Json.int).getD .null)) :
    readEpochStart u s = .ok start := by
  unfold readEpochStart
  rw [h]
  cases start with
  | none => rfl
  | some start => rfl

/-- The old vector, overwritten from its start for as long as the restored one goes. -/
def overlaid (old scores : List PyFloat) : List PyFloat :=
  scores.take old.length ++ old.drop scores.length

/-- What numpy makes of the list of a vector: that vector, which is copied where it overlaps with one of
    another length. -/
structure TakesBack (numpy : Numpy) (scores : List PyFloat) : Prop where
  array32 : numpy.array32 (.arr (scores.map .float)) = .ok ⟨[scores.length], scores⟩
  overlap : ∀ old, numpy.overlap old ⟨[scores.length], scores⟩ = .ok (overlaid old scores)

theorem readScores_saved {numpy : Numpy} {s : Items} {scores : List PyFloat} (old : List PyFloat)
    (h : Json.get? s "scores" = some (.arr (scores.map .float))) (hnumpy : TakesBack numpy scores) :
    readScores numpy s old = .ok (overlaid old scores) := by
  unfold readScores
  rw [h]
  dsimp only
  refine ok_bind hnumpy.array32 ?_
  -- a vector of the length of the old one is taken as it is
  by_cases hlength : scores.length = old.length
  · have hwhole : overlaid old scores = scores := by
      unfold overlaid
      rw [← hlength, List.take_length, hlength, List.drop_length, List.append_nil]
    rw [hlength, if_pos rfl, hwhole]
    rfl
  · rw [if_neg (fun h => hlength (List.cons.inj h).1), hnumpy.overlap]

/-- What the document of a state has under each key. -/
structure SavedAs (m : MasxaiState) (doc : Items) : Prop where
  participation : ∃ items, participationItems m.participationScores = .ok items ∧
    Json.get? doc "participation_scores" = some (.obj items)
  status : Json.get? doc "llm_key_hotkey_status" = some (.obj (dictItems m.llmKeyHotkeyStatus))
  collecting : Json.get? doc "llm_key_pending_calls" = some (.obj (dictItems m.llmKeyPendingCalls))
  askAt : Json.get? doc "last_llm_key_ask_at" = some (.float m.lastLlmKeyAskAt)
  pollAt : Json.get? doc "last_llm_key_report_poll_at" = some (.float m.lastLlmKeyReportPollAt)
  cursor : Json.get? doc "last_llm_key_report_cursor" = some (.str m.lastLlmKeyReportCursor)
  paid : Json.get? doc "llm_key_last_epoch_calls" = some (.obj (dictItems m.llmKeyLastEpochCalls))
  epochStart : Json.get? doc "llm_key_epoch_start_block" =
    some ((m.llmKeyEpochStartBlock.map Json.int).getD .null)
  scores : Json.get? doc "scores" = some (.arr (m.scores.map .float))

theorem savedAs_document {doc : Items} (h : stateDocument m = .ok doc) : SavedAs m doc := by
  unfold stateDocument at h
  obtain ⟨participation, hparticipation, h⟩ := except_bind_ok h
  obtain rfl := Except.ok.inj h
  exact ⟨⟨participation, hparticipation, rfl⟩, rfl, rfl, rfl, rfl, rfl, rfl, rfl, rfl⟩

/-- The fields of a document that was saved, one after the other. -/
theorem installFields_saved {doc : Items} {kept : List PyFloat} (hu : KnowsDigits r.py.unicode)
    (h : Restorable r m) (hdoc : SavedAs m doc) (hnumpy : TakesBack r.numpy m.scores)
    (hkept : dropUnbackedScores r.py.unicode r.hotkeys m.llmKeyHotkeyStatus
      (overlaid fresh.scores m.scores) = .ok kept) :
    installFields r doc fresh = (.ok (), { m with scores := kept }) := by
  obtain ⟨participation, hitems, hget⟩ := hdoc.participation
  have hparticipation : readParticipation r.py.unicode doc = .ok m.participationScores := by
    unfold readParticipation
    exact ok_bind (getItems_of hget) (readParticipation_saved hu hitems)
  have haskAt : getFloat r.py.unicode doc "last_llm_key_ask_at" = .ok m.lastLlmKeyAskAt := by
    unfold getFloat
    rw [hdoc.askAt]
    rfl
  have hpollAt : getFloat r.py.unicode doc "last_llm_key_report_poll_at" =
      .ok m.lastLlmKeyReportPollAt := by
    unfold getFloat
    rw [hdoc.pollAt]
    rfl
  have hcursor : (.ok (readCursor r.py doc) : Except Exc PyStr) = .ok m.lastLlmKeyReportCursor := by
    unfold readCursor
    rw [hdoc.cursor]
    rfl
  unfold installFields
  rw [Prog.bind_ok (assign_ok hparticipation), Prog.bind_ok (assign_ok (readStatus_saved hdoc.status)),
    Prog.bind_ok (assign_ok (readWindows_saved hdoc.collecting h.collectingShape)),
    Prog.bind_ok (assign_ok haskAt), Prog.bind_ok (assign_ok hpollAt),
    Prog.bind_ok (assign_ok hcursor),
    Prog.bind_ok (assign_ok (readWindows_saved hdoc.paid h.paidShape)),
    Prog.bind_ok (assign_ok (readEpochStart_saved hdoc.epochStart)),
    Prog.bind_ok (assign_ok (readScores_saved fresh.scores hdoc.scores hnumpy)), assign_ok hkept]

end Fields

/-- The file that was saved, as it is read. -/
theorem readDocument_saved {r : Loader} {m : MasxaiState} {text : PyStr}
    (hascii : ∀ x, ∀ c ∈ floatText r.py x, c < 128) (h : Restorable r m)
    (hsave : saveMasxaiState r.py m = .ok text) :
    ∃ doc, readDocument r (.ok (asciiBytes text)) = .ok doc ∧ SavedAs m doc := by
  unfold saveMasxaiState at hsave
  obtain ⟨doc, hdoc, htext⟩ := except_bind_ok hsave
  obtain ⟨hread, hloads⟩ := Json.load_dumped (legible_document h hdoc) (h.shallow doc hdoc) hascii htext
  refine ⟨doc, ?_, savedAs_document hdoc⟩
  unfold readDocument
  exact ok_bind rfl (ok_bind hread (ok_bind hloads rfl))

/-- **What was saved is loaded**: every field as it was, and of the scores those that have a place and
    that something backs. -/
theorem load_saved {r : Loader} {m fresh : MasxaiState} {text : PyStr} {kept : List PyFloat}
    (hu : KnowsDigits r.py.unicode) (hascii : ∀ x, ∀ c ∈ floatText r.py x, c < 128)
    (h : Restorable r m) (hsave : saveMasxaiState r.py m = .ok text)
    (hnumpy : TakesBack r.numpy m.scores)
    (hkept : dropUnbackedScores r.py.unicode r.hotkeys m.llmKeyHotkeyStatus
      (overlaid fresh.scores m.scores) = .ok kept) :
    loadMasxaiState r (.present (.ok (asciiBytes text))) fresh =
      (.loaded, { m with scores := kept }) := by
  obtain ⟨doc, hdocument, hdoc⟩ := readDocument_saved hascii h hsave
  exact load_of_ok hdocument (installFields_saved hu h hdoc hnumpy hkept)

/-! ### One miner that reports, and one that never did -/

/-- CPython, as far as it prints the floats of the state below. -/
def printingPython : Interpreter :=
  { cpython with
    strOf := fun value => match value with
      | .float (.fin q) => PyStr.ofString (if q = 1 then "1.0" else "0.0")
      | _ => [] }

def storedLoader : Loader where
  py := printingPython
  numpy :=
    { array32 := fun value => match value with
        | .arr items => .ok ⟨[items.length], items.map fun
          | .float x => x
          | _ => .nan⟩
        | _ => .error ⟨.typeError, "float() argument must be a string or a real number"⟩
      overlap := fun old arr => .ok (overlaid old arr.values) }
  hotkeys := [PyStr.ofString "hk", PyStr.ofString "late"]

/-- Twenty calls of a key in the paid window. -/
def storedWindow : Items :=
  [item "keys" (.obj [item "7" (.obj [item "success_count" (.int 20), item "failure_count" (.int 0),
      item "latency_ms_weighted_sum" (.float (.fin 0)), item "latency_weighted_count" (.int 0),
      item "quality_weighted_sum" (.float (.fin 0)), item "quality_weighted_count" (.int 0),
      item "tier" (.float (.fin 1))])]),
    item "first_seen_at" (.float (.fin 1)), item "last_seen_at" (.float (.fin 1))]

def storedState : MasxaiState where
  llmKeyHotkeyStatus := Dict.ofList [(PyStr.ofString "hk",
    [item "uid" (.int 0), item "last_report_at" (.float (.fin 1))])]
  llmKeyLastEpochCalls := Dict.ofList [(PyStr.ofString "hk", storedWindow)]
  llmKeyEpochStartBlock := some 1000
  scores := [.fin 1, .fin 1]

theorem floatText_printing (x : PyFloat) : ∀ c ∈ floatText printingPython x, c < 128 := by
  cases x with
  | fin q =>
    show ∀ c ∈ PyStr.ofString (if q = 1 then "1.0" else "0.0"), c < 128
    split
    · decide
    · decide
  | inf => decide
  | ninf => decide
  | nan => decide

theorem knowsDigits_stored : KnowsDigits storedLoader.py.unicode := by
  unfold KnowsDigits
  decide

theorem reprints_one : Reprints storedLoader (.fin 1) := by
  have htext : floatText storedLoader.py (.fin 1) = [49, 46, 48] := by decide +kernel
  have hvalue : Json.floatValue { phase := .fraction, whole := [1], fraction := [0] } =
      .float (.fin 1) := congrArg Json.float (by decide +kernel)
  unfold Reprints
  rw [htext]
  exact ⟨⟨49, [46, 48], rfl, rfl, by decide⟩, fun _ _ => ⟨_, rfl, .number (congrArg _ hvalue)⟩⟩

theorem reprints_zero : Reprints storedLoader (.fin 0) := by
  have htext : floatText storedLoader.py (.fin 0) = [48, 46, 48] := by decide +kernel
  have hvalue : Json.floatValue { phase := .fraction, whole := [0], fraction := [0] } =
      .float (.fin 0) := congrArg Json.float (by decide +kernel)
  unfold Reprints
  rw [htext]
  exact ⟨⟨48, [46, 48], rfl, rfl, by decide⟩, fun _ _ => ⟨_, rfl, .number (congrArg _ hvalue)⟩⟩

theorem legible_storedWindow :
    Json.Legible storedLoader.py.recursionLimit (floatText storedLoader.py) (.obj storedWindow) := by
  have hkey (key : String) (hascii : ∀ c ∈ PyStr.ofString key, c < 128) :
      Json.Unsplit (PyStr.ofString key) := Json.unsplit_ascii hascii
  have hzero := reprints_zero
  have hone := reprints_one
  simp only [storedWindow, item, Json.Legible, Json.LegibleFields, and_true, true_and, and_assoc]
  exact ⟨by decide, hkey "keys" (by decide), by decide, hkey "7" (by decide), by decide,
    hkey "success_count" (by decide), hkey "failure_count" (by decide),
    hkey "latency_ms_weighted_sum" (by decide), hzero, hkey "latency_weighted_count" (by decide),
    hkey "quality_weighted_sum" (by decide), hzero, hkey "quality_weighted_count" (by decide),
    hkey "tier" (by decide), hone, hkey "first_seen_at" (by decide), hone,
    hkey "last_seen_at" (by decide), hone⟩

theorem restorable_stored : Restorable storedLoader storedState := by
  have hkey (key : String) (hascii : ∀ c ∈ PyStr.ofString key, c < 128) :
      Json.Unsplit (PyStr.ofString key) := Json.unsplit_ascii hascii
  constructor
  · exact List.forall_mem_nil _
  · refine List.forall_mem_singleton.mpr ⟨hkey "hk" (by decide), ?_⟩
    simp only [item, Json.Legible, Json.LegibleFields, and_true, true_and]
    exact ⟨by decide, hkey "uid" (by decide), hkey "last_report_at" (by decide), reprints_one⟩
  · exact List.forall_mem_nil _
  · exact List.forall_mem_singleton.mpr ⟨hkey "hk" (by decide), legible_storedWindow⟩
  · exact List.forall_mem_nil _
  · exact List.forall_mem_singleton.mpr rfl
  · exact reprints_zero
  · exact reprints_zero
  · exact Json.unsplit_ascii (List.forall_mem_nil _)
  · intro x hx
    obtain rfl : x = .fin 1 := by
      rcases List.mem_cons.mp hx with hx | hx
      · exact hx
      · exact List.mem_singleton.mp hx
    exact reprints_one
  · intro doc hdoc
    obtain rfl := Except.ok.inj hdoc
    decide

theorem takesBack_stored (scores : List PyFloat) : TakesBack storedLoader.numpy scores where
  array32 := by
    show Except.ok (⟨[(scores.map Json.float).length], _⟩ : NdArray) = _
    rw [List.length_map, List.map_map]
    exact congrArg (fun values => Except.ok (⟨[scores.length], values⟩ : NdArray)) (List.map_id scores)
  overlap _ := rfl

/-- The miner that reports keeps its score, and the place without a report loses it. -/
theorem load_saved_two_places : ∃ text, saveMasxaiState storedLoader.py storedState = .ok text ∧
    loadMasxaiState storedLoader (.present (.ok (asciiBytes text))) { scores := [.fin 0, .fin 0] } =
      (.loaded, { storedState with scores := [.fin 1, .fin 0] }) := by
  cases hsave : saveMasxaiState storedLoader.py storedState with
  | error e =>
    have hok : (saveMasxaiState storedLoader.py storedState).isOk = true := by decide +kernel
    rw [hsave] at hok
    cases hok
  | ok text =>
    exact ⟨text, rfl, load_saved knowsDigits_stored floatText_printing restorable_stored hsave
      (takesBack_stored _) rfl⟩

/-! ## The memory of a validator -/

/-- What may be absent or null stands for an option. -/
def Stands {α : Type} (encode : α → Json) (value : Option Json) (a : Option α) : Prop :=
  value.getD .null = (a.map encode).getD .null

theorem Stands.absent {α : Type} {encode : α → Json} {value : Option Json}
    (h : Stands encode value none) : value = none ∨ value = some .null := by
  cases value with
  | none => exact .inl rfl
  | some value => exact .inr (congrArg some h)

theorem Stands.present {α : Type} {encode : α → Json} {value : Option Json} {a : α}
    (h : Stands encode value (some a)) (hne : encode a ≠ .null) : value = some (encode a) := by
  cases value with
  | none => exact absurd h.symm hne
  | some value => exact congrArg some h

def heldText (s : String) : Json := .str (PyStr.ofString s)

def heldTime (t : ℚ) : Json := .float (.fin t)

/-- The state of a key. Its `alive` is there or not, but never null. -/
structure HoldsKey (value : Json) (state : KeyState) : Prop where
  dict : ∃ items, value = .obj items ∧ Json.get? items "alive" = state.alive.map .bool ∧
    Stands heldText (Json.get? items "killed_reason") state.killedReason ∧
    Stands .int (Json.get? items "slot") state.slot ∧
    Stands heldText (Json.get? items "provider") state.provider ∧
    Stands heldText (Json.get? items "model") state.model ∧
    Stands .bool (Json.get? items "accepted") state.accepted ∧
    Stands heldText (Json.get? items "status") state.status ∧
    Stands heldText (Json.get? items "reason") state.reason

/-- A dict by name, whose values are related one by one. -/
def HoldsBy {α β : Type} (R : α → β → Prop) (entries : List (PyStr × α)) (d : Dict String β) : Prop :=
  List.Forall₂ (fun p q => p.1 = PyStr.ofString q.1 ∧ R p.2 q.2) entries d.entries

structure HoldsStatus (items : Items) (record : HotkeyStatus) : Prop where
  uid : Stands (fun n : Nat => .int n) (Json.get? items "uid") record.uid
  lastReportAt : Stands heldTime (Json.get? items "last_report_at") record.lastReportAt
  keyActive : Stands .bool (Json.get? items "key_active") record.keyActive
  accepted : Stands .bool (Json.get? items "accepted") record.accepted
  status : Stands heldText (Json.get? items "status") record.status
  reason : Stands heldText (Json.get? items "reason") record.reason
  submittedAt : Stands heldTime (Json.get? items "submitted_at") record.submittedAt
  provider : Stands heldText (Json.get? items "provider") record.provider
  model : Stands heldText (Json.get? items "model") record.model
  missingSince : Stands heldTime (Json.get? items "missing_since") record.missingSince
  keys : Option.Rel (fun value keys => ∃ states, value = .obj states ∧ HoldsBy HoldsKey states keys)
    (Json.get? items "keys") record.keys

/-- The sub-accumulator of a key. -/
structure HoldsSub (value : Json) (sub : SubWindow) : Prop where
  dict : ∃ items, value = .obj items ∧
    Json.get? items "success_count" = some (.int sub.successCount) ∧
    Json.get? items "failure_count" = some (.int sub.failureCount) ∧
    Json.get? items "latency_ms_weighted_sum" = some (.float (.fin sub.latencyMsWeightedSum)) ∧
    Json.get? items "latency_weighted_count" = some (.int sub.latencyWeightedCount) ∧
    Json.get? items "quality_weighted_sum" = some (.float (.fin sub.qualityWeightedSum)) ∧
    Json.get? items "quality_weighted_count" = some (.int sub.qualityWeightedCount) ∧
    Stands heldTime (Json.get? items "tier") sub.tier

structure HoldsWindow (items : Items) (window : Window) : Prop where
  keys : ∃ subs, Json.get? items "keys" = some (.obj subs) ∧ HoldsBy HoldsSub subs window.keys
  firstSeenAt : Json.get? items "first_seen_at" = some (heldTime window.firstSeenAt)
  lastSeenAt : Json.get? items "last_seen_at" = some (heldTime window.lastSeenAt)

/-- The memory holds what the validator is: the dicts in any order, with whatever else is in them. -/
structure Holds (m : MasxaiState) (v : Validator) : Prop where
  status : HoldsBy HoldsStatus m.llmKeyHotkeyStatus.entries v.llmKeyHotkeyStatus
  collecting : HoldsBy HoldsWindow m.llmKeyPendingCalls.entries v.llmKeyPendingCalls
  paid : HoldsBy HoldsWindow m.llmKeyLastEpochCalls.entries v.llmKeyLastEpochCalls
  epochStart : m.llmKeyEpochStartBlock = v.llmKeyEpochStartBlock
  pollAt : m.lastLlmKeyReportPollAt = .fin v.lastLlmKeyReportPollAt
  cursor : m.lastLlmKeyReportCursor = PyStr.ofString v.lastLlmKeyReportCursor
  scores : m.scores = v.scores.map .fin

section Evidence

/-- A window that holds what a window is has the shape of today. -/
theorem shape_of_holds {entries : List (PyStr × Items)} {windows : List (String × Window)}
    (h : List.Forall₂ (fun p q => p.1 = PyStr.ofString q.1 ∧ HoldsWindow p.2 q.2) entries windows) :
    ∀ p ∈ entries, (Json.get? p.2 "keys").isSome = true := by
  induction h with
  | nil => exact List.forall_mem_nil _
  | cons hfirst _ ih =>
    refine List.forall_mem_cons.mpr ⟨?_, ih⟩
    obtain ⟨subs, hsubs, -⟩ := hfirst.2.keys
    rw [hsubs]
    rfl

theorem anyAlive_holds {states : List (PyStr × Json)} {keys : List (String × KeyState)}
    (h : List.Forall₂ (fun p q => p.1 = PyStr.ofString q.1 ∧ HoldsKey p.2 q.2) states keys) :
    anyAlive states = .ok (keys.any fun p => p.2.alive.getD true) := by
  induction h with
  | nil => rfl
  | @cons p q states keys hfirst _ ih =>
    obtain ⟨key, value⟩ := p
    obtain ⟨items, rfl, halive, -⟩ := hfirst.2.dict
    have htruthy : (getOr items "alive" (.bool true)).truthy = q.2.alive.getD true := by
      unfold getOr
      rw [halive]
      cases q.2.alive <;> rfl
    rw [List.any_cons, ← htruthy]
    show (if (getOr items "alive" (.bool true)).truthy then .ok true else anyAlive states) = _
    cases (getOr items "alive" (.bool true)).truthy with
    | true => rfl
    | false => exact ih

/-- The keys of a record, all of which are dead or not. -/
theorem keysEvidence_holds {items : Items} {record : HotkeyStatus} (h : HoldsStatus items record) :
    (if (getOr items "keys" .null).truthy then do
        anyAlive (← itemsOf "values" (getOr items "keys" .null)) else .ok true) =
      (.ok ((record.keys.map fun keys =>
        keys.isEmpty || keys.values.any fun state => state.alive.getD true).getD true) :
        Except Exc Bool) := by
  have hkeys := h.keys
  unfold getOr
  generalize Json.get? items "keys" = value at hkeys ⊢
  generalize record.keys = keys at hkeys ⊢
  cases hkeys with
  | none => rfl
  | @some value keys hvalue =>
    obtain ⟨states, rfl, hstates⟩ := hvalue
    have halive := anyAlive_holds hstates
    unfold HoldsBy at hstates
    rw [Option.map_some, Option.getD_some, Option.getD_some, Dict.isEmpty, Dict.values, List.any_map]
    cases hentries : keys.entries with
    | nil =>
      rw [hentries] at hstates
      cases hstates
      rfl
    | cons q rest =>
      rw [hentries] at hstates halive
      cases hstates with
      | cons hfirst hrest => exact halive

variable {entries : Dict PyStr Items} {v : Validator}

/-- Whether something backs a uid is the same in the memory as in what it holds. -/
theorem loadedEvidence_holds (u : Unicode) (h : HoldsBy HoldsStatus entries.entries v.llmKeyHotkeyStatus)
    (uid : Nat) : loadedEvidence u (v.metagraphHotkeys.map PyStr.ofString) entries uid =
      .ok (hasLlmKeyEvidence v uid) := by
  unfold loadedEvidence hasLlmKeyEvidence
  rw [List.getElem?_map]
  cases v.metagraphHotkeys[uid]? with
  | none => rfl
  | some hotkey =>
    have hfound : Option.Rel HoldsStatus (entries.get? (PyStr.ofString hotkey))
        (v.llmKeyHotkeyStatus.get? hotkey) := Dict.rel_lookup ofString_injective h hotkey
    rw [Option.map_some]
    dsimp only
    generalize entries.get? (PyStr.ofString hotkey) = found at hfound ⊢
    generalize v.llmKeyHotkeyStatus.get? hotkey = held at hfound ⊢
    cases hfound with
    | none => rfl
    | @some items record hitems =>
      have hkeys := keysEvidence_holds hitems
      have huid := hitems.uid
      have hreport := hitems.lastReportAt
      dsimp only
      cases hrecord : record.uid with
      | none =>
        rw [hrecord] at huid
        cases items with
        | nil => rfl
        | cons p rest =>
          dsimp only
          rcases huid.absent with hget | hget <;> rw [hget] <;> rfl
      | some n =>
        rw [hrecord] at huid
        have hget := huid.present (fun h => nomatch h)
        cases items with
        | nil => cases hget
        | cons p rest =>
          dsimp only
          rw [hget]
          show (if (n : Int) ≠ uid then _ else _) = _
          by_cases hsame : n = uid
          · rw [if_neg (not_not.mpr (congrArg _ hsame)), decide_eq_true (congrArg some hsame),
              Bool.true_and]
            cases hat : record.lastReportAt with
            | none =>
              rw [hat] at hreport
              rcases hreport.absent with hget | hget <;> rw [hget] <;> rfl
            | some t =>
              rw [hat] at hreport
              rw [hreport.present (fun h => nomatch h)]
              refine hkeys.trans ?_
              cases record.keys <;> rfl
          · rw [if_pos (fun heq => hsame (Int.ofNat_inj.mp heq)),
              decide_eq_false (fun heq => hsame (Option.some.inj heq))]
            rfl

/-- The scores that are kept are those that would have been submitted. -/
theorem dropUnbackedScores_holds (u : Unicode)
    (h : HoldsBy HoldsStatus entries.entries v.llmKeyHotkeyStatus) :
    dropUnbackedScores u (v.metagraphHotkeys.map PyStr.ofString) entries (v.scores.map .fin) =
      .ok ((blendedWeightArray v).map .fin) := by
  let kept (p : ℚ × Nat) : ℚ := if 0 < p.1 ∧ hasLlmKeyEvidence v p.2 = false then 0 else p.1
  have hblended : blendedWeightArray v = v.scores.zipIdx.map kept := List.mapIdx_eq_zipIdx_map
  unfold dropUnbackedScores
  rw [hblended, List.zipIdx_map, List.mapM_map, List.map_map]
  refine mapM_ok ?_
  intro p _
  have hevidence := loadedEvidence_holds u h p.2
  show (if PyFloat.lt (.fin 0) (.fin p.1) then _ else _) = Except.ok (PyFloat.fin (kept p))
  by_cases hpositive : 0 < p.1
  · rw [if_pos (by simpa [PyFloat.lt] using hpositive)]
    cases hbacked : hasLlmKeyEvidence v p.2 with
    | true =>
      have hkept : kept p = p.1 := if_neg fun h => by simp [hbacked] at h
      rw [hbacked] at hevidence
      rw [hkept]
      exact ok_bind hevidence rfl
    | false =>
      have hkept : kept p = 0 := if_pos ⟨hpositive, hbacked⟩
      rw [hbacked] at hevidence
      rw [hkept]
      exact ok_bind hevidence rfl
  · have hkept : kept p = p.1 := if_neg fun h => hpositive h.1
    rw [if_neg (by simpa [PyFloat.lt] using hpositive), hkept]
    rfl

end Evidence

/-! ## The validator that was started again -/

/-- The vector of a validator, cut and padded to a metagraph of so many. -/
def fitted (n : Nat) (scores : List ℚ) : List ℚ :=
  scores.take n ++ List.replicate (n - scores.length) 0

/-- The validator on the metagraph of its start, with the scores that are backed there. -/
def restarted (v : Validator) (hotkeys : List String) : Validator :=
  let started :=
    { v with hotkeys := hotkeys, metagraphHotkeys := hotkeys, scores := fitted hotkeys.length v.scores }
  { started with scores := blendedWeightArray started }

theorem length_fitted (n : Nat) (scores : List ℚ) : (fitted n scores).length = n := by
  unfold fitted
  rw [List.length_append, List.length_take, List.length_replicate]
  omega

theorem overlaid_fitted (n : Nat) (scores : List ℚ) :
    overlaid (List.replicate n (.fin 0)) (scores.map .fin) = (fitted n scores).map .fin := by
  unfold overlaid fitted
  rw [List.length_replicate, List.length_map, List.drop_replicate, List.map_append, List.map_take,
    List.map_replicate]

/-- It differs from the validator that went on, and met the metagraph there, in its scores alone. -/
theorem restarted_sameButScores (v : Validator) (hotkeys : List String) :
    SameButScores (resyncMetagraph v hotkeys true) (restarted v hotkeys) := by
  refine ⟨(restarted v hotkeys).scores, ?_, rfl⟩
  have hrestarted : (restarted v hotkeys).scores.length = hotkeys.length := by
    unfold restarted blendedWeightArray
    rw [List.length_mapIdx]
    exact length_fitted hotkeys.length v.scores
  have hresynced : (resyncMetagraph v hotkeys true).scores.length = hotkeys.length := by
    unfold resyncMetagraph
    simp
    omega
  rw [hrestarted, hresynced]

/-- The scores apart, what is held is held by the validator that is started again. -/
theorem holds_restarted {m : MasxaiState} {v : Validator} (h : Holds m v) (hotkeys : List String) :
    Holds { m with scores := (restarted v hotkeys).scores.map .fin } (restarted v hotkeys) where
  status := h.status
  collecting := h.collecting
  paid := h.paid
  epochStart := h.epochStart
  pollAt := h.pollAt
  cursor := h.cursor
  scores := rfl

/-- **A restart is not seen.** The validator that is saved, stopped and started on another metagraph
    holds what it held, and whatever is done from then on, it submits the weights that it would have
    submitted had it gone on and met that metagraph. -/
theorem restart_not_seen (cfg : LlmKeyConfig) {r : Loader} {m fresh : MasxaiState} {v : Validator}
    {text : PyStr} {hotkeys : List String} (hu : KnowsDigits r.py.unicode)
    (hascii : ∀ x, ∀ c ∈ floatText r.py x, c < 128) (h : Restorable r m)
    (hsave : saveMasxaiState r.py m = .ok text) (hnumpy : TakesBack r.numpy m.scores)
    (hhotkeys : r.hotkeys = hotkeys.map PyStr.ofString)
    (hfresh : fresh.scores = List.replicate hotkeys.length (.fin 0)) (hv : Holds m v) :
    ∃ m', loadMasxaiState r (.present (.ok (asciiBytes text))) fresh = (.loaded, m') ∧
      Holds m' (restarted v hotkeys) ∧ ∀ ops chain,
        (setWeights cfg chain (runOps cfg (restarted v hotkeys) ops)).1 =
          (setWeights cfg chain (runOps cfg (resyncMetagraph v hotkeys true) ops)).1 := by
  obtain ⟨doc, hdocument, hdoc⟩ := readDocument_saved hascii h hsave
  let started : Validator :=
    { v with hotkeys := hotkeys, metagraphHotkeys := hotkeys, scores := fitted hotkeys.length v.scores }
  have hstatus : HoldsBy HoldsStatus m.llmKeyHotkeyStatus.entries started.llmKeyHotkeyStatus :=
    hv.status
  have hkept : dropUnbackedScores r.py.unicode r.hotkeys m.llmKeyHotkeyStatus
      (overlaid fresh.scores m.scores) = .ok ((restarted v hotkeys).scores.map .fin) := by
    rw [hhotkeys, hfresh, hv.scores, overlaid_fitted]
    exact dropUnbackedScores_holds r.py.unicode hstatus
  refine ⟨_, load_of_ok hdocument (installFields_saved hu h hdoc hnumpy hkept),
    holds_restarted hv hotkeys, fun ops chain => ?_⟩
  have hrun := sameButScores_run cfg ops (restarted_sameButScores v hotkeys)
  exact (setWeights_sameButScores cfg chain hrun).1

/-- The validator whose memory is `storedState`: its second miner has left since. -/
def storedValidator : Validator where
  hotkeys := ["hk", "gone"]
  metagraphHotkeys := ["hk", "gone"]
  llmKeyHotkeyStatus := Dict.ofList [("hk", { uid := some 0, lastReportAt := some 1 })]
  llmKeyLastEpochCalls := Dict.ofList
    [("hk", ⟨Dict.ofList [("7", { successCount := 20, tier := some 1 })], 1, 1⟩)]
  llmKeyEpochStartBlock := some 1000
  scores := [1, 1]

theorem holds_stored : Holds storedState storedValidator where
  status := .cons ⟨rfl, rfl, rfl, rfl, rfl, rfl, rfl, rfl, rfl, rfl, rfl, .none⟩ .nil
  collecting := .nil
  paid := .cons ⟨rfl, ⟨_, rfl, .cons ⟨rfl, _, rfl, rfl, rfl, rfl, rfl, rfl, rfl, rfl⟩ .nil⟩, rfl, rfl⟩
    .nil
  epochStart := rfl
  pollAt := rfl
  cursor := rfl
  scores := rfl

theorem restart_not_seen_late_miner :
    ∃ text, saveMasxaiState storedLoader.py storedState = .ok text ∧
      ∃ m', loadMasxaiState storedLoader (.present (.ok (asciiBytes text)))
          { scores := [.fin 0, .fin 0] } = (.loaded, m') ∧
        Holds m' (restarted storedValidator ["hk", "late"]) ∧ ∀ ops chain,
          (setWeights {} chain (runOps {} (restarted storedValidator ["hk", "late"]) ops)).1 =
            (setWeights {} chain
              (runOps {} (resyncMetagraph storedValidator ["hk", "late"] true) ops)).1 := by
  cases hsave : saveMasxaiState storedLoader.py storedState with
  | error e =>
    have hok : (saveMasxaiState storedLoader.py storedState).isOk = true := by decide +kernel
    rw [hsave] at hok
    cases hok
  | ok text =>
    exact ⟨text, rfl, restart_not_seen {} knowsDigits_stored floatText_printing restorable_stored hsave
      (takesBack_stored _) rfl rfl holds_stored⟩

end TaoSubnet
