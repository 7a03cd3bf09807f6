import TaoSubnet.Security.SubmissionsTable

/-!
# What the table gives back

Each column has its own way through a row: bound, kept by the column's affinity, read, decoded. The row
gives back the dict of its verdict exactly when every column does, and where it does, a replay of the
row is a replay of the verdict.
-/

namespace TaoSubnet

open Py

/-! ## A value for each column -/

theorem mem_COLUMNS (c : Column) : c ∈ COLUMNS := by
  cases c <;> decide

/-- A dict made column by column. -/
theorem mapM_columns_iff {β ε : Type} {f : Column → Except ε β} {r : List (Column × β)} :
    (COLUMNS.mapM fun c => do return (c, ← f c)) = .ok r ↔
      ∃ b : Column → β, (∀ c, f c = .ok (b c)) ∧ r = COLUMNS.map fun c => (c, b c) := by
  constructor
  · intro h
    have hall (c : Column) : ∃ b, f c = .ok b := by
      obtain ⟨p, hp⟩ := mapM_mem h c (mem_COLUMNS c)
      obtain ⟨b, hb, -⟩ := except_bind_ok hp
      exact ⟨b, hb⟩
    choose b hb using hall
    refine ⟨b, hb, ?_⟩
    have hmap : (COLUMNS.mapM fun c => do return (c, ← f c)) =
        (.ok (COLUMNS.map fun c => (c, b c)) : Except ε (List (Column × β))) :=
      mapM_ok fun c _ => by rw [hb c]; rfl
    exact Except.ok.inj (h.symm.trans hmap)
  · intro h
    obtain ⟨b, hb, rfl⟩ := h
    exact mapM_ok fun c _ => by rw [hb c]; rfl

/-- The same over a dict that is there. -/
theorem mapM_dict_iff {α β ε : Type} {a : Column → α} {f : Column → α → Except ε β}
    {r : List (Column × β)} :
    ((COLUMNS.map fun c => (c, a c)).mapM fun p => do return (p.1, ← f p.1 p.2)) = .ok r ↔
      ∃ b : Column → β, (∀ c, f c (a c) = .ok (b c)) ∧ r = COLUMNS.map fun c => (c, b c) := by
  rw [List.mapM_map]
  exact mapM_columns_iff

/-! ## The steps of a row -/

theorem mapError_ok_iff {α ε ε' : Type} {x : Except ε α} {f : ε → ε'} {a : α} :
    x.mapError f = .ok a ↔ x = .ok a := by
  cases x with
  | error e => simp [Except.mapError]
  | ok b => simp [Except.mapError]

section Steps

variable {h : SqlHost} {table table' : SubmissionsTable} {v : Verdict} {id : Nat}

/-- What a cell holds of a value that was bound. -/
def kept (h : SqlHost) (bound : Column → SqlValue) (c : Column) : SqlValue :=
  (bound c).store h.realText c.affinity

theorem allows_all_iff {cell : Column → SqlValue} :
    ((COLUMNS.map fun c => (c, cell c)).all fun p => p.1.allows p.2) = true ↔
      ∀ c : Column, c.allows (cell c) = true := by
  rw [List.all_map, List.all_eq_true]
  exact ⟨fun hall c => hall c (mem_COLUMNS c), fun hall c _ => hall c⟩

theorem insertRow_iff {value : Column → Json} {cells : List (Column × SqlValue)} :
    insertRow h (COLUMNS.map fun c => (c, value c)) = .ok cells ↔ ∃ bound : Column → SqlValue,
      (∀ c, bindValue (value c) = .ok (bound c)) ∧ (∀ c : Column, c.allows (kept h bound c) = true) ∧
        cells = COLUMNS.map fun c => (c, kept h bound c) := by
  have hcells (bound : Column → SqlValue) :
      ((COLUMNS.map fun c => (c, bound c)).map fun p => (p.1, p.2.store h.realText p.1.affinity)) =
        COLUMNS.map fun c => (c, kept h bound c) := List.map_map
  constructor
  · intro hinsert
    unfold insertRow at hinsert
    obtain ⟨row, hrow, hinsert⟩ := except_bind_ok hinsert
    obtain ⟨bound, hbound, rfl⟩ := (mapM_dict_iff (f := fun _ => bindValue)).mp hrow
    dsimp only at hinsert
    rw [hcells] at hinsert
    split at hinsert
    · rename_i hallowed
      exact ⟨bound, hbound, allows_all_iff.mp hallowed, (Except.ok.inj hinsert).symm⟩
    · cases hinsert
  · intro hbound
    obtain ⟨bound, hbound, hallowed, rfl⟩ := hbound
    unfold insertRow
    refine ok_bind ((mapM_dict_iff (f := fun _ => bindValue)).mpr ⟨bound, hbound, rfl⟩) ?_
    dsimp only
    rw [hcells, if_pos (allows_all_iff.mpr hallowed)]
    rfl

/-- **What was recorded**: every value of the verdict was bound, every cell is allowed, and the new row
    comes last. -/
theorem recordVerdict_iff : table.recordVerdict h v = .ok (id, table') ↔
    ∃ (value : Column → Json) (bound : Column → SqlValue),
      (∀ c, rowValue h v.toDict c = .ok (value c)) ∧ (∀ c, bindValue (value c) = .ok (bound c)) ∧
        (∀ c : Column, c.allows (kept h bound c) = true) ∧ id = table.rows.length + 1 ∧
          table' = table.append (COLUMNS.map fun c => (c, kept h bound c)) := by
  unfold SubmissionsTable.recordVerdict
  constructor
  · intro hrecord
    obtain ⟨row, hrow, hrecord⟩ := except_bind_ok hrecord
    obtain ⟨cells, hcells, hrecord⟩ := except_bind_ok hrecord
    obtain ⟨rfl, rfl⟩ := Prod.mk.inj (Except.ok.inj hrecord)
    obtain ⟨value, hvalue, rfl⟩ := mapM_columns_iff.mp (mapError_ok_iff.mp hrow)
    obtain ⟨bound, hbound, hallowed, rfl⟩ := insertRow_iff.mp (mapError_ok_iff.mp hcells)
    exact ⟨value, bound, hvalue, hbound, hallowed, rfl, rfl⟩
  · intro hparts
    obtain ⟨value, bound, hvalue, hbound, hallowed, rfl, rfl⟩ := hparts
    have hrow : verdictToRow h v = .ok (COLUMNS.map fun c => (c, value c)) :=
      mapM_columns_iff.mpr ⟨value, hvalue, rfl⟩
    have hcells := insertRow_iff.mpr ⟨bound, hbound, hallowed, rfl⟩
    exact ok_bind (mapError_ok_iff.mpr hrow) (ok_bind (mapError_ok_iff.mpr hcells) rfl)

/-- The row that was appended is found by its id. -/
theorem find_append (cells : List (Column × SqlValue)) :
    (table.append cells).rows.find? (fun row => row.id == table.rows.length + 1) =
      some ⟨table.rows.length + 1, cells⟩ := by
  have hold : table.rows.find? (fun row => row.id == table.rows.length + 1) = none := by
    rw [List.find?_eq_none]
    intro row hrow hid
    have hmem : row.id ∈ List.range' 1 table.rows.length := by
      rw [← table.numbered]
      exact List.mem_map_of_mem hrow
    rw [List.mem_range'_1] at hmem
    rw [beq_iff_eq] at hid
    omega
  show (table.rows ++ [_]).find? _ = _
  rw [List.find?_append, hold]
  simp

theorem rowToDict_iff {cell : Column → SqlValue} {row : SubmissionDict} :
    rowToDict h ⟨id, COLUMNS.map fun c => (c, cell c)⟩ = .ok row ↔
      ∃ read : Column → Json, (∀ c, columnValue h c (cell c).toPy = .ok (read c)) ∧
        row = ⟨id, COLUMNS.map fun c => (c, read c)⟩ := by
  unfold rowToDict
  constructor
  · intro hrow
    obtain ⟨items, hitems, hrow⟩ := except_bind_ok hrow
    obtain ⟨read, hread, rfl⟩ :=
      (mapM_dict_iff (f := fun c (x : SqlValue) => columnValue h c x.toPy)).mp hitems
    exact ⟨read, hread, (Except.ok.inj hrow).symm⟩
  · intro hread
    obtain ⟨read, hread, rfl⟩ := hread
    exact ok_bind ((mapM_dict_iff (f := fun c (x : SqlValue) => columnValue h c x.toPy)).mpr
      ⟨read, hread, rfl⟩) rfl

/-- **What is read back** of a row that was appended. -/
theorem findSubmission_append {cell : Column → SqlValue} {row : SubmissionDict} :
    (table.append (COLUMNS.map fun c => (c, cell c))).findSubmission h (table.rows.length + 1) =
        .ok (some row) ↔
      ∃ read : Column → Json, (∀ c, columnValue h c (cell c).toPy = .ok (read c)) ∧
        row = ⟨table.rows.length + 1, COLUMNS.map fun c => (c, read c)⟩ := by
  unfold SubmissionsTable.findSubmission
  rw [find_append, ← rowToDict_iff]
  dsimp only
  cases rowToDict h ⟨table.rows.length + 1, COLUMNS.map fun c => (c, cell c)⟩ with
  | error e => simp [Except.map]
  | ok read => simp [Except.map]

theorem get_columns (read : Column → Json) (c : Column) :
    SubmissionDict.get ⟨id, COLUMNS.map fun c => (c, read c)⟩ c = read c := by
  unfold SubmissionDict.get
  rw [List.lookup_graph read (mem_COLUMNS c)]
  rfl

end Steps

/-! ## Each column's way -/

/-- The texts of a value that a cell of text can keep. -/
def StorableTexts : Json → Prop
  | .str s => storable s = true
  | .arr items => ∀ s, .str s ∈ items → storable s = true
  | _ => True

/-- A verdict whose strings SQLite can store. -/
def Storable (v : Verdict) : Prop := ∀ c, StorableTexts (v.toDict c)

/-- What Docker said of an image as it came. -/
def DOCKER_COLUMNS : List Column := [.arch, .osName, .imageUser]

/-- Every integer has 64 bits, and what Docker said is text, where it said anything. -/
structure Representable (v : Verdict) : Prop where
  integers : ∀ c n, v.toDict c = .int n → fitsInt64 n = true
  texts : ∀ c ∈ DOCKER_COLUMNS, v.toDict c = .null ∨ ∃ s, v.toDict c = .str s

/-- What a field can be, by the type of its column. -/
inductive FieldShape (c : Column) : Affinity → Json → Prop
  | null {affinity : Affinity} : FieldShape c affinity .null
  | text (s : PyStr) : FieldShape c .text (.str s)
  | integer (n : Int) : FieldShape c .integer (.int n)
  | docker (h : c ∈ DOCKER_COLUMNS) (value : Json) : FieldShape c .text value

theorem fieldShape_opt {α : Type} {c : Column} {affinity : Affinity} {f : α → Json}
    (h : ∀ a, FieldShape c affinity (f a)) (x : Option α) : FieldShape c affinity (optItem f x) := by
  cases x with
  | none => exact .null
  | some a => exact h a

theorem fieldShape_toDict (v : Verdict) (c : Column) (hjson : c ∉ JSON_COLUMNS) (hflag : c ≠ .fromCache) :
    FieldShape c c.affinity (v.toDict c) := by
  cases c with
  | minerId => exact .text _
  | receivedAt => exact .text _
  | filePath => exact .text _
  | status => exact .text _
  | stageReached => exact .text _
  | rejectReason => exact fieldShape_opt (fun _ => .text _) _
  | fileSha256 => exact fieldShape_opt (fun _ => .text _) _
  | fileSize => exact fieldShape_opt (fun _ => .integer _) _
  | source => exact .text _
  | imageRef => exact fieldShape_opt (fun _ => .text _) _
  | imageId => exact fieldShape_opt (fun _ => .text _) _
  | repoTags => exact absurd (by decide) hjson
  | arch => exact .docker (by decide) _
  | osName => exact .docker (by decide) _
  | layerCount => exact fieldShape_opt (fun _ => .integer _) _
  | imageSize => exact fieldShape_opt (fun _ => .integer _) _
  | entrypoint => exact absurd (by decide) hjson
  | imageUser => exact .docker (by decide) _
  | dryRunExitCode => exact fieldShape_opt (fun _ => .integer _) _
  | dryRunMs => exact fieldShape_opt (fun _ => .integer _) _
  | logExcerpt => exact fieldShape_opt (fun _ => .text _) _
  | agentDigest => exact fieldShape_opt (fun _ => .text _) _
  | duplicateOf => exact fieldShape_opt (fun _ => .integer _) _
  | fromCache => exact absurd rfl hflag
  | errorDetail => exact fieldShape_opt (fun _ => .text _) _

theorem kept_of_representable {v : Verdict} (hs : Storable v) (hr : Representable v) {c : Column}
    (hjson : c ∉ JSON_COLUMNS) (hflag : c ≠ .fromCache) : c.affinity.Keeps (v.toDict c) := by
  have htext : StorableTexts (v.toDict c) := hs c
  have hinteger := hr.integers c
  have hdocker := hr.texts c
  have hshape := fieldShape_toDict v c hjson hflag
  revert htext hinteger hdocker hshape
  generalize v.toDict c = value
  generalize c.affinity = affinity
  intro htext hinteger hdocker hshape
  cases hshape with
  | null => cases affinity <;> trivial
  | text s => exact htext
  | integer n => exact hinteger n rfl
  | docker hmem value =>
    rcases hdocker hmem with rfl | ⟨s, rfl⟩
    · trivial
    · exact htext

theorem unsplit_of_storable {s : PyStr} (h : storable s = true) : Json.Unsplit s := by
  have hall : ∀ c ∈ s, c < 0xD800 ∨ (0xDFFF < c ∧ c < 0x110000) := by
    intro c hc
    have hone := List.all_eq_true.mp h c hc
    simpa only [Bool.or_eq_true, Bool.and_eq_true, decide_eq_true_eq] using hone
  refine ⟨?_, ?_⟩
  · intro c hc
    rcases hall c hc with hlow | ⟨-, hhigh⟩
    · omega
    · exact hhigh
  · clear h
    induction s with
    | nil => exact List.isChain_nil
    | cons a rest ih =>
      rw [List.isChain_cons]
      refine ⟨?_, ih fun c hc => hall c (List.mem_cons_of_mem a hc)⟩
      intro b _
      have ha := hall a List.mem_cons_self
      have hnot : Json.isHighSurrogate a = false := by
        simp only [Json.isHighSurrogate, Bool.and_eq_false_iff, decide_eq_false_iff_not]
        omega
      rw [hnot, Bool.false_and]

theorem storable_of_ascii {s : PyStr} (h : ∀ c ∈ s, c < 128) : storable s = true := by
  unfold storable
  rw [List.all_eq_true]
  intro c hc
  have hlt := h c hc
  simp only [Bool.or_eq_true, decide_eq_true_eq]
  omega

/-- What a column makes of a value it was given: its parameter is bound, its cell is allowed, and the
    value is read back. -/
def GivesBack (h : SqlHost) (data : Fields) (c : Column) : Prop :=
  ∃ value bound, rowValue h data c = .ok value ∧ bindValue value = .ok bound ∧
    columnValue h c (bound.store h.realText c.affinity).toPy = .ok (data c)

theorem givesBack_list {h : SqlHost} {data : Fields} {c : Column} {items : List PyStr}
    (hjson : c ∈ JSON_COLUMNS) (hdata : data c = listItem items)
    (hitems : ∀ s ∈ items, storable s = true) : GivesBack h data c := by
  obtain ⟨text, htext, hascii⟩ := Json.dumps_strings h.floatText items
  have hload : Json.loadsText h.recursionLimit (91 :: text) = .ok (listItem items) := by
    refine Json.loads_dumps (Json.legible_strings fun s hs => unsplit_of_storable (hitems s hs))
      ?_ htext
    unfold listItem
    rw [Json.depth_strings]
    exact h.opens
  have haffinity : c.affinity = .text := by
    unfold JSON_COLUMNS at hjson
    simp only [List.mem_cons, List.not_mem_nil, or_false] at hjson
    rcases hjson with rfl | rfl
    · rfl
    · rfl
  refine ⟨.str (91 :: text), .text (91 :: text), ?_, ?_, ?_⟩
  · unfold rowValue
    rw [if_pos hjson, hdata]
    unfold listItem
    rw [htext]
    rfl
  · rw [bindValue, if_pos (storable_of_ascii hascii)]
  · rw [haffinity, hdata]
    unfold columnValue
    rw [if_pos hjson]
    exact hload

theorem givesBack_flag {h : SqlHost} {data : Fields} {flag : Bool}
    (hdata : data .fromCache = .bool flag) : GivesBack h data .fromCache := by
  cases flag with
  | true =>
    refine ⟨.int 1, .integer 1, ?_, rfl, ?_⟩
    · unfold rowValue
      rw [hdata]
      rfl
    · rw [hdata]
      rfl
  | false =>
    refine ⟨.int 0, .integer 0, ?_, rfl, ?_⟩
    · unfold rowValue
      rw [hdata]
      rfl
    · rw [hdata]
      rfl

theorem givesBack_plain {h : SqlHost} {data : Fields} {c : Column} (hjson : c ∉ JSON_COLUMNS)
    (hflag : c ≠ .fromCache) (hkept : c.affinity.Keeps (data c)) : GivesBack h data c := by
  obtain ⟨bound, hbound, hback⟩ := cell_of_kept h.realText hkept
  refine ⟨data c, bound, ?_, hbound, ?_⟩
  · unfold rowValue
    rw [if_neg hjson, if_neg hflag]
  · unfold columnValue
    rw [if_neg hjson, if_neg hflag, hback]

/-- **Every column** of a representable verdict gives back what it was given. -/
theorem givesBack_of_representable {h : SqlHost} {v : Verdict} (hs : Storable v)
    (hr : Representable v) (c : Column) : GivesBack h v.toDict c := by
  by_cases hjson : c ∈ JSON_COLUMNS
  · have hlist : ∃ items, v.toDict c = listItem items := by
      unfold JSON_COLUMNS at hjson
      simp only [List.mem_cons, List.not_mem_nil, or_false] at hjson
      rcases hjson with rfl | rfl
      · exact ⟨v.repoTags, rfl⟩
      · exact ⟨v.entrypoint, rfl⟩
    obtain ⟨items, hdata⟩ := hlist
    refine givesBack_list hjson hdata fun s hs' => ?_
    have htexts := hs c
    rw [hdata] at htexts
    exact htexts s (List.mem_map_of_mem hs')
  · by_cases hflag : c = .fromCache
    · subst hflag
      exact givesBack_flag rfl
    · exact givesBack_plain hjson hflag (kept_of_representable hs hr hjson hflag)

/-! ## The constraints of the schema -/

theorem allows_of_nullable {c : Column} (hc : c.notNull = false) (cell : SqlValue) :
    c.allows cell = true := by
  have hstatus : c ≠ .status := by
    rintro rfl
    cases hc
  cases cell with
  | null => simp [Column.allows, hc]
  | integer n => simp [Column.allows, hstatus]
  | real x => simp [Column.allows, hstatus]
  | text s => simp [Column.allows, hstatus]

theorem bindValue_str {s : PyStr} {bound : SqlValue} (h : bindValue (.str s) = .ok bound) :
    bound = .text s := by
  rw [bindValue] at h
  split at h
  · exact (Except.ok.inj h).symm
  · cases h

/-- A verdict never breaks a constraint. -/
theorem allows_verdict {h : SqlHost} {v : Verdict} {c : Column} {value : Json} {bound : SqlValue}
    (hvalue : rowValue h v.toDict c = .ok value) (hbound : bindValue value = .ok bound) :
    c.allows (bound.store h.realText c.affinity) = true := by
  cases hc : c.notNull with
  | false => exact allows_of_nullable hc _
  | true =>
    cases c with
    | minerId | receivedAt | filePath | stageReached | source =>
      cases hvalue
      obtain rfl := bindValue_str hbound
      rfl
    | status =>
      cases hvalue
      obtain rfl := bindValue_str hbound
      show (Column.allows .status (.text (PyStr.ofString v.status.value))) = true
      cases v.status with
      | accepted => decide
      | rejected => decide
    | fromCache =>
      have hflag : ∃ n, value = .int n ∧ fitsInt64 n = true := by
        unfold rowValue at hvalue
        rw [if_neg (by decide), if_pos rfl] at hvalue
        refine ⟨_, (Except.ok.inj hvalue).symm, ?_⟩
        split
        · decide
        · decide
      obtain ⟨n, rfl, hfits⟩ := hflag
      rw [bindValue, if_pos hfits] at hbound
      obtain rfl := Except.ok.inj hbound
      rfl
    | _ => cases hc

/-! ## Replays -/

theorem memberOf_status (s : Status) :
    memberOf "Status" [Status.accepted, .rejected] Status.value (strItem s.value) = .ok s := by
  cases s <;> rfl

theorem memberOf_stage (s : Stage) :
    memberOf "Stage" Stage.members Stage.value (strItem s.value) = .ok s := by
  cases s <;> rfl

theorem reasonOf_reason (reason : Option RejectReason) :
    reasonOf (optItem (fun r : RejectReason => strItem r.value) reason) = .ok reason := by
  cases reason with
  | none => rfl
  | some reason => cases reason <;> rfl

/-- No stage that runs the image has measured anything yet. -/
def BeforeDryRun (e : Evidence) : Prop :=
  e.dryRunExitCode = none ∧ e.dryRunMs = none ∧ e.logExcerpt = none

theorem optItem_or {α : Type} (f : α → Json) (x y : Option α) :
    (x.map f).getD (optItem f y) = optItem f (x.or y) := by
  cases x <;> rfl

theorem list_or_empty (items : List PyStr) :
    (if (listItem items).truthy then listItem items else .arr []) = listItem items := by
  cases items <;> rfl

theorem listItem_or (x : Option (List PyStr)) (y : List PyStr) :
    (x.map listItem).getD (listItem y) = listItem ((x.or (some y)).getD []) := by
  cases x <;> rfl

/-- **A replay of the row** is a replay of the verdict it gives back. -/
theorem cachedVerdictDict_eq {row : SubmissionDict} {v : Verdict} {s : Submission}
    {measured : Evidence} (hget : ∀ c, row.get c = v.toDict c) (hdry : BeforeDryRun measured) :
    cachedVerdictDict row s measured = .ok (cachedVerdict ⟨row.id, v⟩ s measured).toDict := by
  obtain ⟨hexit, hms, hlog⟩ := hdry
  have hnone : (DRY_RUN_FIELDS.any fun c => (measured.measured c).isSome) = false := by
    simp [DRY_RUN_FIELDS, Evidence.measured, hexit, hms, hlog]
  unfold cachedVerdictDict
  rw [hget .status, hget .stageReached, hget .rejectReason]
  refine ok_bind (memberOf_status v.status) (ok_bind (memberOf_stage v.stageReached)
    (ok_bind (reasonOf_reason v.rejectReason) ?_))
  rw [hnone, if_neg (by decide)]
  have hopt {α : Type} {c : Column} {f : α → Json} {x y : Option α}
      (hx : measured.measured c = x.map f) (hy : v.toDict c = optItem f y) :
      (measured.measured c).getD (row.get c) = optItem f (x.or y) := by
    rw [hget, hx, hy, optItem_or]
  have hlist {c : Column} {x : Option (List PyStr)} {y : List PyStr}
      (hx : measured.measured c = x.map listItem) (hy : v.toDict c = listItem y) :
      (measured.measured c).getD (if (row.get c).truthy then row.get c else .arr []) =
        listItem ((x.or (some y)).getD []) := by
    rw [hget, hx, hy, list_or_empty, listItem_or]
  have hdocker (x : Option Json) : x = x.map id := by rw [Option.map_id, id_eq]
  have hran {c : Column} (hx : measured.measured c = none) :
      (measured.measured c).getD (row.get c) = v.toDict c := by
    rw [hx, hget]
    rfl
  refine congrArg Except.ok (funext fun c => ?_)
  cases c with
  | minerId => rfl
  | receivedAt => rfl
  | filePath => rfl
  | status => rfl
  | stageReached => rfl
  | rejectReason => rfl
  | duplicateOf => rfl
  | fromCache => rfl
  | errorDetail => exact hran rfl
  | source =>
    show (measured.source.map strItem).getD (strItem SOURCE_FILE) =
      strItem ((measured.source.or none).getD SOURCE_FILE)
    cases measured.source <;> rfl
  | imageRef =>
    show (measured.imageRef.map strItem).getD .null = optItem strItem (measured.imageRef.or none)
    cases measured.imageRef <;> rfl
  | fileSha256 => exact hopt rfl rfl
  | fileSize => exact hopt rfl rfl
  | imageId => exact hopt rfl rfl
  | repoTags => exact hlist rfl rfl
  | arch => exact hopt (hdocker _) rfl
  | osName => exact hopt (hdocker _) rfl
  | layerCount => exact hopt rfl rfl
  | imageSize => exact hopt rfl rfl
  | entrypoint => exact hlist rfl rfl
  | imageUser => exact hopt (hdocker _) rfl
  | dryRunExitCode => exact hran (by rw [Evidence.measured, hexit]; rfl)
  | dryRunMs => exact hran (by rw [Evidence.measured, hms]; rfl)
  | logExcerpt => exact hran (by rw [Evidence.measured, hlog]; rfl)
  | agentDigest => exact hopt rfl rfl

/-- A replay keeps the outcome of the verdict and the name of its agent, unless this run gave it
    another, and has what was measured. -/
structure Replays (v : Verdict) (measured : Evidence) (w : Fields) : Prop where
  status : w .status = v.toDict .status
  stage : w .stageReached = v.toDict .stageReached
  reason : w .rejectReason = v.toDict .rejectReason
  agent : (∀ digest, measured.agentDigest = some digest → v.agentDigest = some digest) →
    w .agentDigest = v.toDict .agentDigest
  facts : ∀ c value, measured.measured c = some value → w c = value

theorem optItem_of_measured {α : Type} {f : α → Json} {x y : Option α} {value : Json}
    (h : x.map f = some value) : optItem f (x.or y) = value := by
  cases x with
  | none => cases h
  | some a => exact Option.some.inj h

theorem listItem_of_measured {x : Option (List PyStr)} {y : List PyStr} {value : Json}
    (h : x.map listItem = some value) : listItem ((x.or (some y)).getD []) = value := by
  cases x with
  | none => cases h
  | some a => exact Option.some.inj h

theorem replays_cachedVerdict {id : Nat} {v : Verdict} {s : Submission} {measured : Evidence}
    (hdry : BeforeDryRun measured) :
    Replays v measured (cachedVerdict ⟨id, v⟩ s measured).toDict := by
  obtain ⟨hexit, hms, hlog⟩ := hdry
  refine ⟨rfl, rfl, rfl, ?_, ?_⟩
  · intro hsame
    show optItem strItem (measured.agentDigest.or v.agentDigest) = optItem strItem v.agentDigest
    cases hdigest : measured.agentDigest with
    | none => rfl
    | some digest =>
      rw [hsame digest hdigest]
      rfl
  · intro c value hvalue
    cases c with
    | source =>
      show strItem ((measured.source.or none).getD SOURCE_FILE) = value
      cases hsource : measured.source with
      | none => simp [Evidence.measured, hsource] at hvalue
      | some source => simpa [Evidence.measured, hsource] using hvalue
    | imageRef => exact optItem_of_measured hvalue
    | fileSha256 => exact optItem_of_measured hvalue
    | fileSize => exact optItem_of_measured hvalue
    | imageId => exact optItem_of_measured hvalue
    | repoTags => exact listItem_of_measured hvalue
    | arch => exact optItem_of_measured (by rw [Option.map_id]; exact hvalue)
    | osName => exact optItem_of_measured (by rw [Option.map_id]; exact hvalue)
    | layerCount => exact optItem_of_measured hvalue
    | imageSize => exact optItem_of_measured hvalue
    | entrypoint => exact listItem_of_measured hvalue
    | imageUser => exact optItem_of_measured (by rw [Option.map_id]; exact hvalue)
    | dryRunExitCode => simp [Evidence.measured, hexit] at hvalue
    | dryRunMs => simp [Evidence.measured, hms] at hvalue
    | logExcerpt => simp [Evidence.measured, hlog] at hvalue
    | agentDigest => exact optItem_of_measured hvalue
    | _ => cases hvalue

/-! ## The whole row -/

/-- The verdict is recorded, its row gives back its dict, and a replay of the row for the same miner is
    a replay of the verdict. -/
def ReadsBack (h : SqlHost) (table : SubmissionsTable) (v : Verdict) : Prop :=
  ∃ id table' row, table.recordVerdict h v = .ok (id, table') ∧
    table'.findSubmission h id = .ok (some row) ∧ (∀ c ∈ COLUMNS, row.get c = v.toDict c) ∧
      ∀ (s : Submission) (measured : Evidence), s.minerId = v.minerId → BeforeDryRun measured →
        ∃ w, cachedVerdictDict row s measured = .ok w ∧ Replays v measured w

/-- A column that gave its value back had one to keep. -/
theorem representable_of_givenBack {h : SqlHost} {v : Verdict} {value : Column → Json}
    {bound : Column → SqlValue} (hvalue : ∀ c, rowValue h v.toDict c = .ok (value c))
    (hbound : ∀ c, bindValue (value c) = .ok (bound c))
    (hread : ∀ c, columnValue h c (kept h bound c).toPy = .ok (v.toDict c)) : Representable v := by
  have hplain {c : Column} (hjson : c ∉ JSON_COLUMNS) (hflag : c ≠ .fromCache) :
      bindValue (v.toDict c) = .ok (bound c) ∧ (kept h bound c).toPy = v.toDict c := by
    have hrow := hvalue c
    have hcolumn := hread c
    unfold rowValue at hrow
    unfold columnValue at hcolumn
    rw [if_neg hjson, if_neg hflag] at hrow hcolumn
    exact ⟨(Except.ok.inj hrow) ▸ hbound c, Except.ok.inj hcolumn⟩
  refine ⟨fun c n hint => ?_, fun c hdocker => ?_⟩
  · have hjson : c ∉ JSON_COLUMNS := by
      intro hmem
      simp only [JSON_COLUMNS, List.mem_cons, List.not_mem_nil, or_false] at hmem
      rcases hmem with rfl | rfl
      · cases hint
      · cases hint
    have hflag : c ≠ .fromCache := by
      rintro rfl
      cases hint
    have hbind := (hplain hjson hflag).1
    rw [hint] at hbind
    exact fitsInt64_of_bind hbind
  · have hcolumn : c ∉ JSON_COLUMNS ∧ c ≠ .fromCache ∧ c.affinity = .text := by
      simp only [DOCKER_COLUMNS, List.mem_cons, List.not_mem_nil, or_false] at hdocker
      rcases hdocker with rfl | rfl | rfl
      all_goals exact ⟨by decide, by decide, rfl⟩
    obtain ⟨hbind, hback⟩ := hplain hcolumn.1 hcolumn.2.1
    unfold kept at hback
    rw [hcolumn.2.2] at hback
    have hkept := kept_of_text hbind hback
    revert hkept
    cases v.toDict c with
    | null => exact fun _ => .inl rfl
    | str s => exact fun _ => .inr ⟨s, rfl⟩
    | bool _ | int _ | float _ | arr _ | obj _ => exact fun hkept => hkept.elim

/-- **A verdict is read back** from the row that was written of it exactly when its integers have 64
    bits and what Docker said of its image is text. -/
theorem row_round_trip_iff {h : SqlHost} {table : SubmissionsTable} {v : Verdict} (hs : Storable v) :
    ReadsBack h table v ↔ Representable v := by
  constructor
  · intro hback
    obtain ⟨id, table', row, hrecord, hfind, hget, -⟩ := hback
    obtain ⟨value, bound, hvalue, hbound, -, rfl, rfl⟩ := recordVerdict_iff.mp hrecord
    obtain ⟨read, hread, rfl⟩ := findSubmission_append.mp hfind
    refine representable_of_givenBack hvalue hbound fun c => ?_
    rw [hread c, ← hget c (mem_COLUMNS c), get_columns]
  · intro hr
    have hall := givesBack_of_representable (h := h) hs hr
    unfold GivesBack at hall
    choose value bound hvalue hbound hread using hall
    have hrecord : table.recordVerdict h v = .ok (table.rows.length + 1,
        table.append (COLUMNS.map fun c => (c, kept h bound c))) :=
      recordVerdict_iff.mpr ⟨value, bound, hvalue, hbound,
        fun c => allows_verdict (hvalue c) (hbound c), rfl, rfl⟩
    refine ⟨_, _, ⟨table.rows.length + 1, COLUMNS.map fun c => (c, v.toDict c)⟩, hrecord,
      findSubmission_append.mpr ⟨v.toDict, hread, rfl⟩, fun c _ => get_columns v.toDict c, ?_⟩
    intro s measured _ hdry
    exact ⟨_, cachedVerdictDict_eq (get_columns v.toDict) hdry, replays_cachedVerdict hdry⟩

/-- A database under CPython. -/
def sqlHost : SqlHost := ⟨fun _ => [], fun _ => [], 1000, by decide⟩

/-- An accepted image with a tag and a command. -/
def taggedImage : Verdict where
  minerId := "5F3sa2TJ"
  filePath := "/submissions/agent.tar"
  status := .accepted
  stageReached := .inspect
  receivedAt := "2026-01-01T00:00:00+00:00"
  repoTags := [PyStr.ofString "agent:0.1.0"]
  arch := some (.str (PyStr.ofString "amd64"))
  imageSize := some 104857600
  entrypoint := [PyStr.ofString "python", PyStr.ofString "\"main\".py"]
  agentDigest := some "sha256:0a"

theorem storableTexts_list {items : List PyStr} (h : ∀ s ∈ items, storable s = true) :
    StorableTexts (listItem items) := by
  intro s hs
  obtain ⟨t, ht, htext⟩ := List.mem_map.mp hs
  obtain rfl := Json.str.inj htext
  exact h t ht

theorem storable_taggedImage : Storable taggedImage := by
  intro c
  cases c with
  | repoTags => exact storableTexts_list (by decide)
  | entrypoint => exact storableTexts_list (by decide)
  | _ => trivial

theorem tagged_image_reads_back : ReadsBack sqlHost {} taggedImage := by
  refine (row_round_trip_iff storable_taggedImage).mpr ⟨?_, ?_⟩
  · intro c n h
    cases c <;> cases h
    decide
  · intro c hc
    simp only [DOCKER_COLUMNS, List.mem_cons, List.not_mem_nil, or_false] at hc
    rcases hc with rfl | rfl | rfl
    · exact .inr ⟨_, rfl⟩
    · exact .inl rfl
    · exact .inl rfl

/-- A verdict on an image that Docker says has 2^63 bytes. -/
def hugeImage : Verdict where
  minerId := "5F3sa2TJ"
  filePath := "/submissions/agent.tar"
  status := .rejected
  stageReached := .inspect
  receivedAt := "2026-01-01T00:00:00+00:00"
  rejectReason := some .imageTooLarge
  imageSize := some (2 ^ 63)

theorem storable_hugeImage : Storable hugeImage := by
  intro c
  cases c with
  | repoTags => exact storableTexts_list (by decide)
  | entrypoint => exact storableTexts_list (by decide)
  | _ => trivial

theorem huge_image_is_not_recorded : Storable hugeImage ∧
    SubmissionsTable.recordVerdict sqlHost {} hugeImage = .error (.sql .overflow) ∧
      ¬ ReadsBack sqlHost {} hugeImage := by
  have hrecord : SubmissionsTable.recordVerdict sqlHost {} hugeImage = .error (.sql .overflow) := rfl
  refine ⟨storable_hugeImage, hrecord, ?_⟩
  intro hback
  obtain ⟨id, table', row, hok, -⟩ := hback
  rw [hrecord] at hok
  cases hok

/-! ## The pipeline's database -/

/-- A row of the table gives back a submission. -/
def GivesRow (h : SqlHost) (stored : TableRow) (submission : SubmissionRow) : Prop :=
  stored.id = submission.id ∧ ∃ row, rowToDict h stored = .ok row ∧ row.id = submission.id ∧
    ∀ c, row.get c = submission.verdict.toDict c

/-- The table holds what the pipeline's database stands for. -/
def Represents (h : SqlHost) (table : SubmissionsTable) (db : Db) : Prop :=
  List.Forall₂ (GivesRow h) table.rows db.submissions

section Database

variable {h : SqlHost} {table : SubmissionsTable} {db : Db}

theorem recordVerdict_represents {v : Verdict} (hdb : Represents h table db) (hs : Storable v)
    (hr : Representable v) : ∃ table', table.recordVerdict h v = .ok ((db.recordVerdict v).1, table') ∧
      Represents h table' (db.recordVerdict v).2 := by
  have hall := givesBack_of_representable (h := h) hs hr
  unfold GivesBack at hall
  choose value bound hvalue hbound hread using hall
  have hlength : table.rows.length = db.submissions.length := hdb.length_eq
  refine ⟨table.append (COLUMNS.map fun c => (c, kept h bound c)), ?_, ?_⟩
  · refine recordVerdict_iff.mpr ⟨value, bound, hvalue, hbound,
      fun c => allows_verdict (hvalue c) (hbound c), ?_, rfl⟩
    show db.submissions.length + 1 = table.rows.length + 1
    rw [hlength]
  · have hnew : GivesRow h ⟨table.rows.length + 1, COLUMNS.map fun c => (c, kept h bound c)⟩
        ⟨db.submissions.length + 1, v⟩ := by
      rw [hlength]
      exact ⟨rfl, _, rowToDict_iff.mpr ⟨v.toDict, hread, rfl⟩, rfl, get_columns v.toDict⟩
    exact List.rel_append hdb (.cons hnew .nil)

theorem find_represents (id : Nat) {rows : List TableRow} {submissions : List SubmissionRow}
    (hdb : List.Forall₂ (GivesRow h) rows submissions) :
    Option.Rel (GivesRow h) (rows.find? fun row => row.id == id)
      (submissions.find? fun row => row.id == id) := by
  induction hdb with
  | nil => exact .none
  | cons hrow _ ih =>
    rw [List.find?_cons, List.find?_cons, hrow.1]
    split
    · exact .some hrow
    · exact ih

/-- **A replay by way of the table** is the pipeline's replay. -/
theorem cachedVerdict_represents {id : Nat} {submission : SubmissionRow} {s : Submission}
    {measured : Evidence} (hdb : Represents h table db)
    (hfind : db.findSubmission id = some submission) (hdry : BeforeDryRun measured) :
    ∃ row, table.findSubmission h id = .ok (some row) ∧
      cachedVerdictDict row s measured = .ok (cachedVerdict submission s measured).toDict := by
  have hrel := find_represents id hdb
  unfold Db.findSubmission at hfind
  rw [hfind] at hrel
  cases hstored : table.rows.find? fun row => row.id == id with
  | none =>
    rw [hstored] at hrel
    cases hrel
  | some stored =>
    rw [hstored] at hrel
    cases hrel with
    | some hgives =>
      obtain ⟨-, row, hrow, hid, hget⟩ := hgives
      refine ⟨row, ?_, ?_⟩
      · unfold SubmissionsTable.findSubmission
        rw [hstored]
        dsimp only
        rw [hrow]
        rfl
      · rw [cachedVerdictDict_eq hget hdry, hid]

end Database

end TaoSubnet
