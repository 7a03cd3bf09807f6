import TaoSubnet.Security.Structure

/-!
# What a scan has read

`check_structure` reads its archive once. It gets to the end exactly if no member is refused, and it
has then read of it how many members there are, what they declare, and the *last* regular file of
each of the two metadata names.
-/

namespace TaoSubnet

open Py

/-! ## One member -/

/-- One of the two files that are read. -/
def TarMember.IsMetadata (m : TarMember) : Prop :=
  m.isFile = true ∧
    (normalizeName m.name = DOCKER_ARCHIVE_MANIFEST ∨ normalizeName m.name = OCI_INDEX)

instance (m : TarMember) : Decidable m.IsMetadata := inferInstanceAs (Decidable (_ ∧ _))

/-- A regular file of a name. -/
def TarMember.isNamed (name : PyStr) (m : TarMember) : Bool := m.isFile && normalizeName m.name == name

/-- The bytes that are read of a member, if they can be. -/
def metadataOf (m : TarMember) : Option (List UInt8) :=
  match readMetadata m with
  | .ok bytes => some bytes
  | .error _ => none

/-- A scan with one member more. -/
def Scan.add (scan : Scan) (m : TarMember) : Scan where
  entryCount := scan.entryCount + 1
  declaredSize := scan.declaredSize + max m.size 0
  manifestRaw := if m.isNamed DOCKER_ARCHIVE_MANIFEST then metadataOf m else scan.manifestRaw
  indexRaw := if m.isNamed OCI_INDEX then metadataOf m else scan.indexRaw
  sawOciLayout := scan.sawOciLayout || normalizeName m.name == OCI_LAYOUT_MARKER

/-- The member is not refused after what was scanned. -/
structure Admits (scan : Scan) (m : TarMember) : Prop where
  few : scan.entryCount + 1 ≤ MAX_TAR_ENTRIES
  safe : assertSafeMember m = .ok ()
  bounded : scan.declaredSize + max m.size 0 ≤ MAX_UNCOMPRESSED_BYTES
  readable : m.IsMetadata → ∃ bytes, readMetadata m = .ok bytes

theorem scanMember_ok_iff {scan after : Scan} {m : TarMember} :
    scanMember scan m = .ok after ↔ Admits scan m ∧ after = scan.add m := by
  unfold scanMember
  dsimp only
  by_cases hmany : MAX_TAR_ENTRIES < scan.entryCount + 1
  · rw [if_pos hmany]
    constructor
    · intro h
      cases h
    · intro h
      exact absurd h.1.few (Nat.not_le_of_lt hmany)
  rw [if_neg hmany]
  cases hsafe : assertSafeMember m with
  | error failure =>
    constructor
    · intro h
      cases h
    · intro h
      rw [h.1.safe] at hsafe
      cases hsafe
  | ok done =>
    dsimp only
    by_cases hbomb : MAX_UNCOMPRESSED_BYTES < scan.declaredSize + max m.size 0
    · rw [if_pos hbomb]
      constructor
      · intro h
        cases h
      · intro h
        exact absurd h.1.bounded (not_le_of_gt hbomb)
    rw [if_neg hbomb]
    have hadmits : (m.IsMetadata → ∃ bytes, readMetadata m = .ok bytes) ↔ Admits scan m :=
      ⟨fun h => ⟨Nat.le_of_not_lt hmany, hsafe, le_of_not_gt hbomb, h⟩, fun h => h.readable⟩
    rw [← hadmits]
    have hplain : ∀ {done : Except Halt Scan}, ¬ m.IsMetadata → done = .ok (scan.add m) →
        (done = .ok after ↔ (m.IsMetadata → ∃ bytes, readMetadata m = .ok bytes) ∧
          after = scan.add m) := by
      intro done hnot hdone
      rw [hdone]
      exact ⟨fun h => ⟨fun hmeta => absurd hmeta hnot, (Except.ok.inj h).symm⟩,
        fun h => congrArg Except.ok h.2.symm⟩
    have hread : ∀ {done : List UInt8 → Scan}, m.IsMetadata →
        (∀ bytes, readMetadata m = .ok bytes → done bytes = scan.add m) →
        ((do return done (← readMetadata m) : Except Halt Scan) = .ok after ↔
          (m.IsMetadata → ∃ bytes, readMetadata m = .ok bytes) ∧ after = scan.add m) := by
      intro done hmeta hdone
      cases hbytes : readMetadata m with
      | error e =>
        constructor
        · intro h
          cases h
        · intro h
          obtain ⟨bytes, h⟩ := h.1 hmeta
          cases h
      | ok bytes =>
        rw [← hdone bytes hbytes]
        exact ⟨fun h => ⟨fun _ => ⟨bytes, rfl⟩, (Except.ok.inj h).symm⟩,
          fun h => congrArg Except.ok h.2.symm⟩
    cases hfile : m.isFile with
    | false =>
      apply hplain
      · intro hmeta
        have hregular := hmeta.1
        rw [hfile] at hregular
        cases hregular
      · simp [Scan.add, TarMember.isNamed, hfile]
        rfl
    | true =>
      rw [Bool.not_true, if_neg Bool.false_ne_true]
      by_cases hmanifest : normalizeName m.name = DOCKER_ARCHIVE_MANIFEST
      · rw [if_pos hmanifest]
        apply hread ⟨hfile, .inl hmanifest⟩
        intro bytes hbytes
        simp [Scan.add, TarMember.isNamed, hfile, hmanifest, metadataOf, hbytes,
          show DOCKER_ARCHIVE_MANIFEST ≠ OCI_INDEX by decide,
          show DOCKER_ARCHIVE_MANIFEST ≠ OCI_LAYOUT_MARKER by decide]
      · rw [if_neg hmanifest]
        by_cases hindex : normalizeName m.name = OCI_INDEX
        · rw [if_pos hindex]
          apply hread ⟨hfile, .inr hindex⟩
          intro bytes hbytes
          simp [Scan.add, TarMember.isNamed, hfile, hindex, metadataOf, hbytes,
            show OCI_INDEX ≠ DOCKER_ARCHIVE_MANIFEST by decide,
            show OCI_INDEX ≠ OCI_LAYOUT_MARKER by decide]
        · rw [if_neg hindex]
          apply hplain
          · intro hmeta
            exact hmeta.2.elim hmanifest hindex
          · simp [Scan.add, TarMember.isNamed, hmanifest, hindex]
            rfl

/-! ## All of them -/

/-- No member of an archive is refused. -/
structure Scannable (members : List TarMember) : Prop where
  few : members.length ≤ MAX_TAR_ENTRIES
  safe : ∀ m ∈ members, assertSafeMember m = .ok ()
  bounded : (members.map fun m => max m.size 0).sum ≤ MAX_UNCOMPRESSED_BYTES
  readable : ∀ m ∈ members, m.IsMetadata → ∃ bytes, readMetadata m = .ok bytes

/-- The last regular file of a name. -/
def lastNamed (name : PyStr) (members : List TarMember) : Option TarMember :=
  (members.filter (TarMember.isNamed name)).getLast?

/-- What a whole scan has read. -/
def scanned (members : List TarMember) : Scan where
  entryCount := members.length
  declaredSize := (members.map fun m => max m.size 0).sum
  manifestRaw := (lastNamed DOCKER_ARCHIVE_MANIFEST members).bind metadataOf
  indexRaw := (lastNamed OCI_INDEX members).bind metadataOf
  sawOciLayout := members.any fun m => normalizeName m.name == OCI_LAYOUT_MARKER

theorem lastNamed_append (name : PyStr) (members : List TarMember) (m : TarMember) :
    lastNamed name (members ++ [m]) =
      if m.isNamed name then some m else lastNamed name members := by
  unfold lastNamed
  rw [List.filter_append]
  cases hnamed : m.isNamed name with
  | true => simp [hnamed]
  | false => simp [hnamed]

theorem scanned_append (members : List TarMember) (m : TarMember) :
    scanned (members ++ [m]) = (scanned members).add m := by
  unfold scanned Scan.add
  simp only [lastNamed_append, List.length_append, List.length_singleton, List.map_append,
    List.map_singleton, List.sum_append, List.sum_singleton, List.any_append, List.any_cons,
    List.any_nil, Bool.or_false]
  congr 1
  · split
    · rfl
    · rfl
  · split
    · rfl
    · rfl

theorem scannable_append {members : List TarMember} {m : TarMember} :
    Scannable (members ++ [m]) ↔ Scannable members ∧ Admits (scanned members) m := by
  have hlength : (members ++ [m]).length = members.length + 1 := by
    rw [List.length_append, List.length_singleton]
  have hsum : ((members ++ [m]).map fun m => max m.size 0).sum =
      (members.map fun m => max m.size 0).sum + max m.size 0 := by
    rw [List.map_append, List.sum_append, List.map_singleton, List.sum_singleton]
  have hlast : m ∈ members ++ [m] := List.mem_append_right _ (List.mem_singleton_self m)
  constructor
  · intro h
    have hfew := h.few
    have hbounded := h.bounded
    rw [hlength] at hfew
    rw [hsum] at hbounded
    have hnonneg : 0 ≤ max m.size 0 := le_max_right m.size 0
    refine ⟨⟨by omega, ?_, by omega, ?_⟩, hfew, h.safe m hlast, hbounded, h.readable m hlast⟩
    · intro other hother
      exact h.safe other (List.mem_append_left _ hother)
    · intro other hother
      exact h.readable other (List.mem_append_left _ hother)
  · intro ⟨h, hadmits⟩
    refine ⟨hlength ▸ hadmits.few, ?_, hsum ▸ hadmits.bounded, ?_⟩
    · intro other hother
      rcases List.mem_append.mp hother with hother | hother
      · exact h.safe other hother
      · exact List.mem_singleton.mp hother ▸ hadmits.safe
    · intro other hother
      rcases List.mem_append.mp hother with hother | hother
      · exact h.readable other hother
      · exact List.mem_singleton.mp hother ▸ hadmits.readable

/-- **A scan gets to the end exactly where no member is refused**, and has then read what there is. -/
theorem scan_ok_iff {members : List TarMember} {scan : Scan} :
    members.foldlM scanMember {} = .ok scan ↔ Scannable members ∧ scan = scanned members := by
  induction members using List.reverseRecOn generalizing scan with
  | nil =>
    have hempty : Scannable [] := ⟨Nat.zero_le _, fun _ h => (by cases h), by decide,
      fun _ h => (by cases h)⟩
    constructor
    · intro h
      exact ⟨hempty, (Except.ok.inj h).symm⟩
    · intro h
      exact congrArg Except.ok h.2.symm
  | append_singleton members m ih =>
    rw [List.foldlM_append, scannable_append, scanned_append]
    constructor
    · intro h
      obtain ⟨before, hbefore, h⟩ := except_bind_ok h
      obtain ⟨hscannable, rfl⟩ := ih.mp hbefore
      have hone : scanMember (scanned members) m = .ok scan := by
        rw [List.foldlM_cons] at h
        obtain ⟨after, hafter, h⟩ := except_bind_ok h
        rw [hafter]
        exact h
      obtain ⟨hadmits, hscan⟩ := scanMember_ok_iff.mp hone
      exact ⟨⟨hscannable, hadmits⟩, hscan⟩
    · intro ⟨⟨hscannable, hadmits⟩, hscan⟩
      rw [ih.mpr ⟨hscannable, rfl⟩]
      show List.foldlM scanMember (scanned members) [m] = _
      rw [List.foldlM_cons, scanMember_ok_iff.mpr ⟨hadmits, hscan⟩]
      rfl

end TaoSubnet
