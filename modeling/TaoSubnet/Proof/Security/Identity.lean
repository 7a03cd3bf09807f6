import TaoSubnet.Security.DockerOps

/-!
# Two agents and one identity

`agent_digest_of` joins its three fields with NUL and the entries of a field with line feeds. No argument
holds a NUL, so the fields come apart again, and no digest holds a line feed, so the layers do. An
argument can hold one: a field comes apart into the *pieces* of its arguments, and that is all that
the digest knows of it.
-/

namespace TaoSubnet

open Py

/-- The lines of each argument, in order. An empty field is written like one empty argument. -/
def pieces (items : List PyStr) : List PyStr :=
  if items.isEmpty then [[]] else items.flatMap fun item => item.splitOn 10

/-- What is joined is taken apart into its pieces. -/
theorem splitOn_joined (items : List PyStr) : ([10].intercalate items).splitOn 10 = pieces items := by
  unfold pieces
  induction items with
  | nil => rfl
  | cons item rest ih =>
    cases rest with
    | nil => simp
    | cons next rest =>
      rw [List.intercalate_cons_cons, List.append_assoc]
      show (item ++ 10 :: [10].intercalate (next :: rest)).splitOn 10 = _
      rw [List.splitOn_append_cons_self, ih]
      rfl

/-- Two fields are joined to one text exactly when their pieces are the same. -/
theorem joined_eq_iff (xs ys : List PyStr) :
    ([10] : PyStr).intercalate xs = [10].intercalate ys ↔ pieces xs = pieces ys := by
  rw [← splitOn_joined, ← splitOn_joined]
  constructor
  · intro h
    rw [h]
  · intro h
    have hback := congrArg (fun pieces => ([10] : PyStr).intercalate pieces) h
    simpa using hback

/-- Without a line feed, an argument is its own piece. -/
theorem pieces_plain {items : List PyStr} (hne : items ≠ []) (h : ∀ item ∈ items, 10 ∉ item) :
    pieces items = items := by
  rw [← splitOn_joined]
  exact List.splitOn_intercalate 10 h hne

/-! ## The digested text -/

/-- A layer's digest is written in the printable characters of ASCII. -/
def IsDigestText (s : PyStr) : Prop := ∀ n ∈ s, 32 < n ∧ n < 127

instance (s : PyStr) : Decidable (IsDigestText s) :=
  inferInstanceAs (Decidable (∀ n ∈ s, 32 < n ∧ n < 127))

/-- An image whose identity can be computed: it has layers, and no argument holds a NUL. -/
structure HasIdentity (info : ImageInfo) : Prop where
  layered : info.rootfsLayers ≠ []
  layers : ∀ layer ∈ info.rootfsLayers, IsDigestText layer
  entrypoint : ∀ arg ∈ info.entrypoint, 0 ∉ arg
  cmd : ∀ arg ∈ info.cmd, 0 ∉ arg

def fieldText (label : String) (items : List PyStr) : PyStr :=
  PyStr.ofString label ++ [10].intercalate items

def identityText (info : ImageInfo) : PyStr :=
  [0].intercalate [fieldText "layers:" info.rootfsLayers, fieldText "entrypoint:" info.entrypoint,
    fieldText "cmd:" info.cmd]

theorem agentDigestOf_eq (py : Interpreter) {info : ImageInfo} (h : HasIdentity info) :
    agentDigestOf py info = (encodeUtf8 (identityText info)).map fun bytes =>
      some (py.sha256 bytes) := by
  unfold agentDigestOf
  rw [if_neg]
  · show (do return some (py.sha256 (← encodeUtf8 (identityText info)))) = _
    cases encodeUtf8 (identityText info) with
    | error e => rfl
    | ok bytes => rfl
  · intro hempty
    exact h.layered (List.isEmpty_iff.mp hempty)

/-- What holds of the separator and of all that is joined holds of the joined text. -/
theorem forall_mem_joined {P : Nat → Prop} {sep : Nat} (hsep : P sep) (items : List PyStr) :
    (∀ n ∈ ([sep] : PyStr).intercalate items, P n) ↔ ∀ item ∈ items, ∀ n ∈ item, P n := by
  induction items with
  | nil => simp
  | cons item rest ih =>
    cases rest with
    | nil => simp
    | cons next rest =>
      rw [List.intercalate_cons_cons, List.forall_mem_append, List.forall_mem_append, ih,
        List.forall_mem_cons]
      simp [hsep]

theorem not_mem_fieldText {label : String} (hlabel : 0 ∉ PyStr.ofString label) {items : List PyStr}
    (h : ∀ item ∈ items, 0 ∉ item) : 0 ∉ fieldText label items := by
  have hjoined : ∀ n ∈ ([10] : PyStr).intercalate items, n ≠ 0 := by
    apply (forall_mem_joined (P := fun n => n ≠ 0) (by decide) items).mpr
    intro item hitem n hn heq
    exact h item hitem (heq ▸ hn)
  unfold fieldText
  intro hmem
  rcases List.mem_append.mp hmem with hmem | hmem
  · exact hlabel hmem
  · exact hjoined 0 hmem rfl

/-- The fields of a text are those that were joined to it. -/
theorem splitOn_identityText {info : ImageInfo} (h : HasIdentity info) :
    (identityText info).splitOn 0 = [fieldText "layers:" info.rootfsLayers,
      fieldText "entrypoint:" info.entrypoint, fieldText "cmd:" info.cmd] := by
  apply List.splitOn_intercalate
  · intro field hfield
    have hlayers : ∀ layer ∈ info.rootfsLayers, 0 ∉ layer := by
      intro layer hlayer hzero
      have hprintable := h.layers layer hlayer 0 hzero
      omega
    simp only [List.mem_cons, List.not_mem_nil, or_false] at hfield
    rcases hfield with rfl | rfl | rfl
    · exact not_mem_fieldText (by decide) hlayers
    · exact not_mem_fieldText (by decide) h.entrypoint
    · exact not_mem_fieldText (by decide) h.cmd
  · exact List.cons_ne_nil _ _

/-- One text has one list of layers, and one list of pieces for each of the other fields. -/
theorem identityText_eq_iff {a b : ImageInfo} (ha : HasIdentity a) (hb : HasIdentity b) :
    identityText a = identityText b ↔ a.rootfsLayers = b.rootfsLayers ∧
      pieces a.entrypoint = pieces b.entrypoint ∧ pieces a.cmd = pieces b.cmd := by
  have hlayers : ∀ {info : ImageInfo}, HasIdentity info →
      pieces info.rootfsLayers = info.rootfsLayers := by
    intro info h
    apply pieces_plain h.layered
    intro layer hlayer hfeed
    have hprintable := h.layers layer hlayer 10 hfeed
    omega
  constructor
  · intro htext
    have hfields := splitOn_identityText ha
    rw [htext, splitOn_identityText hb] at hfields
    unfold fieldText at hfields
    simp only [List.cons.injEq, List.append_cancel_left_eq, and_true] at hfields
    obtain ⟨hl, he, hc⟩ := hfields
    refine ⟨?_, ((joined_eq_iff _ _).mp he).symm, ((joined_eq_iff _ _).mp hc).symm⟩
    rw [← hlayers ha, ← hlayers hb]
    exact ((joined_eq_iff _ _).mp hl).symm
  · intro ⟨hl, he, hc⟩
    unfold identityText fieldText
    rw [hl, (joined_eq_iff _ _).mpr he, (joined_eq_iff _ _).mpr hc]

/-! ## Surrogates -/

theorem utf8Bytes_iff (n : Nat) : (∃ bytes, utf8Bytes n = some bytes) ↔ ¬ (0xD800 ≤ n ∧ n ≤ 0xDFFF) := by
  unfold utf8Bytes
  split_ifs with h1 h2 h3 h4
  all_goals simp
  all_goals omega

/-- No argument holds a lone surrogate, which has no bytes to digest. -/
def NoSurrogates (info : ImageInfo) : Prop :=
  ∀ arg ∈ info.entrypoint ++ info.cmd, ∀ n ∈ arg, ¬ (0xD800 ≤ n ∧ n ≤ 0xDFFF)

instance (info : ImageInfo) : Decidable (NoSurrogates info) :=
  inferInstanceAs (Decidable (∀ arg ∈ info.entrypoint ++ info.cmd, ∀ n ∈ arg, _))

theorem encodeUtf8_identityText_iff {info : ImageInfo} (h : HasIdentity info) :
    (∃ bytes, encodeUtf8 (identityText info) = .ok bytes) ↔ NoSurrogates info := by
  rw [encodeUtf8_ok_iff]
  simp only [utf8Bytes_iff]
  have hfield : ∀ (label : String), (∀ n ∈ PyStr.ofString label, ¬ (0xD800 ≤ n ∧ n ≤ 0xDFFF)) →
      ∀ items : List PyStr, (∀ n ∈ fieldText label items, ¬ (0xD800 ≤ n ∧ n ≤ 0xDFFF)) ↔
        ∀ item ∈ items, ∀ n ∈ item, ¬ (0xD800 ≤ n ∧ n ≤ 0xDFFF) := by
    intro label hlabel items
    unfold fieldText
    rw [List.forall_mem_append, forall_mem_joined (by decide)]
    exact and_iff_right hlabel
  have hlayers : ∀ item ∈ info.rootfsLayers, ∀ n ∈ item, ¬ (0xD800 ≤ n ∧ n ≤ 0xDFFF) := by
    intro layer hlayer n hn
    have hprintable := h.layers layer hlayer n hn
    omega
  unfold identityText NoSurrogates
  rw [forall_mem_joined (by decide), List.forall_mem_append]
  simp only [List.forall_mem_cons, List.not_mem_nil, false_implies, implies_true, and_true]
  rw [hfield "layers:" (by decide), hfield "entrypoint:" (by decide), hfield "cmd:" (by decide)]
  exact and_iff_right hlayers

/-! ## The digest -/

/-- If two images have one digest, they have the same layers and run the same command. -/
def Distinguished (py : Interpreter) (a b : ImageInfo) : Prop :=
  ∀ digest, agentDigestOf py a = .ok (some digest) → agentDigestOf py b = .ok (some digest) →
    a.rootfsLayers = b.rootfsLayers ∧ a.entrypoint = b.entrypoint ∧ a.cmd = b.cmd

/-- The images differ in how the pieces of their commands fall into arguments, and in nothing else that
    is digested. -/
structure Confusable (a b : ImageInfo) : Prop where
  layers : a.rootfsLayers = b.rootfsLayers
  entrypoint : pieces a.entrypoint = pieces b.entrypoint
  cmd : pieces a.cmd = pieces b.cmd
  encodable : NoSurrogates a
  differ : ¬ (a.entrypoint = b.entrypoint ∧ a.cmd = b.cmd)

/-- Two digests are the same exactly when the digested texts are. -/
theorem digest_ok_iff {py : Interpreter} {info : ImageInfo} (h : HasIdentity info) {digest : String} :
    agentDigestOf py info = .ok (some digest) ↔
      ∃ bytes, encodeUtf8 (identityText info) = .ok bytes ∧ py.sha256 bytes = digest := by
  rw [agentDigestOf_eq py h]
  cases encodeUtf8 (identityText info) with
  | error e => simp [Except.map]
  | ok bytes => simp [Except.map]

/-- Confusable images have one digest. -/
theorem Confusable.digest (py : Interpreter) {a b : ImageInfo} (h : Confusable a b)
    (ha : HasIdentity a) (hb : HasIdentity b) : ∃ digest,
      agentDigestOf py a = .ok (some digest) ∧ agentDigestOf py b = .ok (some digest) := by
  obtain ⟨bytes, hbytes⟩ := (encodeUtf8_identityText_iff ha).mpr h.encodable
  have htext : identityText a = identityText b :=
    (identityText_eq_iff ha hb).mpr ⟨h.layers, h.entrypoint, h.cmd⟩
  refine ⟨py.sha256 bytes, (digest_ok_iff ha).mpr ⟨bytes, hbytes, rfl⟩, ?_⟩
  exact (digest_ok_iff hb).mpr ⟨bytes, htext ▸ hbytes, rfl⟩

/-- **Two images share an identity without being the same agent exactly when they are confusable**: an
    argument holds a line feed where the other image has an argument's end, or an argument list is
    empty where the other's holds one empty argument. -/
theorem distinguished_iff {py : Interpreter} (hsha : Function.Injective py.sha256) {a b : ImageInfo}
    (ha : HasIdentity a) (hb : HasIdentity b) : Distinguished py a b ↔ ¬ Confusable a b := by
  constructor
  · intro hdistinguished hconfusable
    obtain ⟨digest, hdigest, hdigest'⟩ := hconfusable.digest py ha hb
    exact hconfusable.differ (hdistinguished digest hdigest hdigest').2
  · intro hnot digest hdigest hdigest'
    obtain ⟨bytes, hbytes, hsum⟩ := (digest_ok_iff ha).mp hdigest
    obtain ⟨bytes', hbytes', hsum'⟩ := (digest_ok_iff hb).mp hdigest'
    -- The hash and the encoding are injective, so the texts agree.
    have hsame : bytes = bytes' := hsha (hsum.trans hsum'.symm)
    have htext : identityText a = identityText b := encodeUtf8_inj hbytes (hsame ▸ hbytes')
    obtain ⟨hlayers, hentrypoint, hcmd⟩ := (identityText_eq_iff ha hb).mp htext
    refine ⟨hlayers, ?_⟩
    by_contra hdiffer
    apply hnot
    exact ⟨hlayers, hentrypoint, hcmd, (encodeUtf8_identityText_iff ha).mp ⟨bytes, hbytes⟩, hdiffer⟩

/-- A checksum that loses nothing: each byte in unary. -/
def unarySum (bytes : List Nat) : String :=
  String.ofList (bytes.flatMap fun n => List.replicate n 'a' ++ ['b'])

theorem unarySum_injective : Function.Injective unarySum := by
  intro s t h
  have hchars := String.ofList_inj.mp h
  clear h
  induction s generalizing t with
  | nil =>
    cases t with
    | nil => rfl
    | cons n t => simp at hchars
  | cons m s ih =>
    cases t with
    | nil => simp at hchars
    | cons n t =>
      rw [List.flatMap_cons, List.flatMap_cons, List.append_assoc, List.append_assoc] at hchars
      have hfirst : ∀ (k : Nat) (rest : List Char),
          (List.replicate k 'a' ++ (['b'] ++ rest)).takeWhile (· == 'a') = List.replicate k 'a' := by
        intro k rest
        induction k with
        | zero => rfl
        | succ k ih => exact congrArg (List.cons 'a') ih
      have hcount := congrArg (List.takeWhile (· == 'a')) hchars
      rw [hfirst, hfirst] at hcount
      have hmn : m = n := by simpa using congrArg List.length hcount
      subst hmn
      have hrest := List.append_cancel_left hchars
      rw [ih (List.append_cancel_left hrest)]

def summed : Interpreter := { cpython with sha256 := unarySum }

/-- An agent of one layer, with an entrypoint. -/
def oneLayer (entrypoint : List String) : ImageInfo where
  imageId := PyStr.ofString "sha256:1"
  rootfsLayers := [PyStr.ofString "sha256:a"]
  entrypoint := entrypoint.map PyStr.ofString

theorem oneLayer_identity {entrypoint : List String}
    (h : ∀ arg ∈ entrypoint.map PyStr.ofString, 0 ∉ arg) : HasIdentity (oneLayer entrypoint) := by
  refine ⟨List.cons_ne_nil _ _, ?_, h, ?_⟩
  · intro layer hlayer
    obtain rfl := List.mem_singleton.mp hlayer
    decide
  · intro arg harg
    cases harg

/-- `["/agent", "--scan"]` and `["/agent", "--probe"]`. -/
theorem distinguished_scan_probe :
    Distinguished summed (oneLayer ["/agent", "--scan"]) (oneLayer ["/agent", "--probe"]) := by
  refine (distinguished_iff unarySum_injective (oneLayer_identity (by decide))
    (oneLayer_identity (by decide))).mpr ?_
  intro hconfusable
  exact absurd hconfusable.entrypoint (by decide)

/-- One argument that is two lines, and the two lines as arguments. -/
theorem line_feed_confuses_agents :
    ¬ ∀ (py : Interpreter), Function.Injective py.sha256 → ∀ a b : ImageInfo, HasIdentity a →
      HasIdentity b → Distinguished py a b := by
  intro hclaim
  have ha : HasIdentity (oneLayer ["/agent", "--scan"]) := oneLayer_identity (by decide)
  have hb : HasIdentity (oneLayer ["/agent\n--scan"]) := oneLayer_identity (by decide)
  have hconfusable : Confusable (oneLayer ["/agent", "--scan"]) (oneLayer ["/agent\n--scan"]) :=
    ⟨rfl, by decide, rfl, by decide, by decide⟩
  obtain ⟨digest, hdigest, hdigest'⟩ := hconfusable.digest summed ha hb
  have hagents := hclaim summed unarySum_injective _ _ ha hb digest hdigest hdigest'
  exact hconfusable.differ hagents.2

end TaoSubnet
