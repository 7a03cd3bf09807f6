import TaoSubnet.Proof.Security.Confinement
import TaoSubnet.Proof.Security.Metadata

/-!
# The manifest that is left

Of the members whose names lead to the root's `manifest.json`, the last one written is what extraction
leaves there. The check reads the last regular file among the members *spelled* `manifest.json` or
`./manifest.json`: `_normalize` takes off one `./`, and a directory or a link of that name is passed
over. So the two agree exactly where the last member written there holds, or leads to, the same
bytes.
-/

namespace TaoSubnet

open Py Files

def manifestPath : Path PyStr := ⟨false, [.into DOCKER_ARCHIVE_MANIFEST]⟩

/-- The manifest that the scan has read. -/
def validatedManifest (members : List TarMember) : Option (List UInt8) :=
  (lastNamed DOCKER_ARCHIVE_MANIFEST members).bind metadataOf

/-- No member is longer than it declares. -/
def Sized (members : List TarMember) : Prop :=
  ∀ m ∈ members, ∀ bytes, m.data = .ok bytes → (bytes.length : Int) ≤ max m.size 0

/-! ## The last member at a location -/

section Last

variable (limit : Nat) (root : Loc PyStr)

/-- No member is written at the location. -/
def NoneLands (loc : Loc PyStr) : FileTree → List TarMember → Prop
  | _, [] => True
  | fs, m :: rest => landing limit root fs m ≠ some loc ∧
    ∀ fs', extractMember limit root fs m = some fs' → NoneLands loc fs' rest

/-- The member is the last written at the location, and takes the tree from `mid` to `after`. -/
structure LastAt (loc : Loc PyStr) (before : FileTree) (members : List TarMember) (w : TarMember)
    (mid after : FileTree) : Prop where
  place : ∃ pre post, members = pre ++ w :: post ∧ extract limit root before pre = some mid ∧
    NoneLands limit root loc after post
  lands : landing limit root mid w = some loc
  written : extractMember limit root mid w = some after

/-- A node holds these bytes, or leads to a file of them. -/
def LeadsTo (fs : FileTree) (raw : List UInt8) : Node PyStr (List UInt8) → Prop
  | .file bytes => bytes = raw
  | .directory => False
  | .link target => Reads fs root target raw

/-- What the member leaves, written in `mid`, holds these bytes or leads to a file of them in `fs`. -/
def Leaves (mid fs : FileTree) (w : TarMember) (raw : List UInt8) : Prop :=
  match w.type with
  | .regular | .oldRegular => w.data = .ok raw
  | .symlink => Reads fs root (pathOf w.linkname) raw
  | .hardlink => ∃ located node, locate limit mid root (pathOf w.name) = some located ∧
      nodeAt limit (clear located.1 located.2) root (pathOf w.linkname) = some node ∧
      LeadsTo root fs raw node
  | .directory | .other _ => False

end Last

section Steps

variable {limit : Nat} {root : Loc PyStr}

theorem extract_append {fs : FileTree} {members more : List TarMember} :
    extract limit root fs (members ++ more) =
      (extract limit root fs members).bind fun fs => extract limit root fs more := by
  induction members generalizing fs with
  | nil => rfl
  | cons m rest ih =>
    show (extractMember limit root fs m).bind _ = ((extractMember limit root fs m).bind _).bind _
    rw [Option.bind_assoc]
    apply congrArg
    funext fs'
    exact ih

/-- What is left to extract after one of the members. -/
theorem extract_after {before mid after fs : FileTree} {pre post : List TarMember} {w : TarMember}
    (h : extract limit root before (pre ++ w :: post) = some fs)
    (hpre : extract limit root before pre = some mid)
    (hw : extractMember limit root mid w = some after) : extract limit root after post = some fs := by
  rw [extract_append, hpre] at h
  have hfrom : (extractMember limit root mid w).bind (extract limit root · post) = some fs := h
  rw [hw] at hfrom
  exact hfrom

/-- What is just below the root stays, if the member is written elsewhere. -/
theorem extractMember_keeps {fs fs' : FileTree} {m : TarMember} {name : PyStr}
    {node : Node PyStr (List UInt8)} (hfs : Tethered root fs) (hm : Descending m)
    (h : extractMember limit root fs m = some fs')
    (helsewhere : landing limit root fs m ≠ some (root ++ [name]))
    (hnode : fs (root ++ [name]) = some node) : fs' (root ++ [name]) = some node := by
  rcases extractMember_cases hfs hm h with ⟨_, rfl⟩ | ⟨located, hlocate, hlocated, _, hwritten⟩
  · exact hnode
  · have hne : located.2 ≠ root ++ [name] := by
      intro heq
      apply helsewhere
      rw [landing, hlocate, Option.map_some, heq]
    rw [hwritten.elsewhere _ (hlocated.below.not_prefix hne)]
    exact hlocated.kept _ _ hnode

theorem extract_keeps {members : List TarMember} (hmembers : ∀ m ∈ members, Descending m)
    {fs fs' : FileTree} {name : PyStr} {node : Node PyStr (List UInt8)} (hfs : Tethered root fs)
    (h : extract limit root fs members = some fs')
    (hnone : NoneLands limit root (root ++ [name]) fs members)
    (hnode : fs (root ++ [name]) = some node) : fs' (root ++ [name]) = some node := by
  induction members generalizing fs with
  | nil =>
    obtain rfl := Option.some.inj h
    exact hnode
  | cons m rest ih =>
    obtain ⟨mid, hfirst, hrest⟩ := Option.bind_eq_some_iff.mp h
    have hm := hmembers m List.mem_cons_self
    have hmid := (extractMember_confined hfs hm hfirst).1
    have hkept := extractMember_keeps hfs hm hfirst hnone.1 hnode
    exact ih (fun other hother => hmembers other (List.mem_cons_of_mem m hother)) hmid hrest
      (hnone.2 mid hfirst) hkept

/-- Either no member is written at a location, or there is a last one. -/
theorem lastAt_or_none {members : List TarMember} {before fs : FileTree} {loc : Loc PyStr}
    (h : extract limit root before members = some fs) :
    NoneLands limit root loc before members ∨
      ∃ w mid after, LastAt limit root loc before members w mid after := by
  induction members generalizing before with
  | nil => exact .inl trivial
  | cons m rest ih =>
    obtain ⟨next, hfirst, hrest⟩ := Option.bind_eq_some_iff.mp h
    rcases ih hrest with hnone | ⟨w, mid, after, ⟨pre, post, hsplit, hpre, hpost⟩, hlands, hwritten⟩
    · by_cases hlands : landing limit root before m = some loc
      · exact .inr ⟨m, before, next, ⟨[], rest, rfl, rfl, hnone⟩, hlands, hfirst⟩
      · refine .inl ⟨hlands, ?_⟩
        intro fs' hfs'
        rw [hfirst] at hfs'
        obtain rfl := Option.some.inj hfs'
        exact hnone
    · refine .inr ⟨w, mid, after, ⟨m :: pre, post, ?_, ?_, hpost⟩, hlands, hwritten⟩
      · rw [hsplit, List.cons_append]
      · show (extractMember limit root before m).bind _ = some mid
        rw [hfirst]
        exact hpre

/-! ## The manifest's location -/

theorem normalizeName_manifest {name : PyStr} (h : normalizeName name = DOCKER_ARCHIVE_MANIFEST) :
    name = DOCKER_ARCHIVE_MANIFEST ∨ name = 46 :: 47 :: DOCKER_ARCHIVE_MANIFEST := by
  unfold normalizeName at h
  split at h
  · exact .inr (by rw [h])
  · exact .inl h

/-- A file that the check takes for the manifest is written at the manifest's location. -/
theorem isNamed_path {m : TarMember} (h : m.isNamed DOCKER_ARCHIVE_MANIFEST = true) :
    pathOf m.name = manifestPath := by
  have hname := (Bool.and_eq_true_iff.mp h).2
  rcases normalizeName_manifest (eq_of_beq hname) with hname | hname
  · rw [hname]
    decide
  · rw [hname]
    decide

theorem isNamed_lands {m : TarMember} (h : m.isNamed DOCKER_ARCHIVE_MANIFEST = true)
    (fs : FileTree) :
    landing limit root fs m = some (root ++ [DOCKER_ARCHIVE_MANIFEST]) := by
  rw [landing, isNamed_path h]
  rfl

theorem not_noneLands {members : List TarMember} {m : TarMember}
    (hnamed : m.isNamed DOCKER_ARCHIVE_MANIFEST = true) (hm : m ∈ members) {before fs : FileTree}
    (h : extract limit root before members = some fs) :
    ¬ NoneLands limit root (root ++ [DOCKER_ARCHIVE_MANIFEST]) before members := by
  induction members generalizing before with
  | nil => cases hm
  | cons first rest ih =>
    intro hnone
    obtain ⟨next, hfirst, hrest⟩ := Option.bind_eq_some_iff.mp h
    rcases List.mem_cons.mp hm with rfl | hm
    · exact hnone.1 (isNamed_lands hnamed before)
    · exact ih hm hrest (hnone.2 next hfirst)

/-- What reading the manifest gives depends on the node there. -/
theorem reads_manifest_iff {fs : FileTree} {node : Node PyStr (List UInt8)} {raw : List UInt8}
    (h : fs (root ++ [DOCKER_ARCHIVE_MANIFEST]) = some node) :
    Reads fs root manifestPath raw ↔ LeadsTo root fs raw node := by
  cases node with
  | file bytes => exact (reads_file h).trans eq_comm
  | directory => exact iff_of_false (not_reads_directory h) id
  | link target => exact reads_link h

/-- The node that a member leaves. -/
theorem leaves_iff {mid fs after : FileTree} {located : FileTree × Loc PyStr} {w : TarMember}
    {node : Node PyStr (List UInt8)} {raw : List UInt8}
    (hlocate : locate limit mid root (pathOf w.name) = some located)
    (hwrite : writeMember limit root located.1 located.2 w = some after)
    (hnode : after located.2 = some node) :
    Leaves limit root mid fs w raw ↔ LeadsTo root fs raw node := by
  have hreplaced : ∀ {other : Node PyStr (List UInt8)},
      some (replace located.1 located.2 other) = some after → node = other := by
    intro other hother
    obtain rfl := Option.some.inj hother
    rw [replace_self] at hnode
    exact (Option.some.inj hnode).symm
  have hregular : ∀ {bytes : List UInt8}, w.data = .ok bytes → node = .file bytes →
      (w.data = .ok raw ↔ LeadsTo root fs raw node) := by
    intro bytes hdata hfile
    rw [hdata, hfile]
    exact ⟨fun h => Except.ok.inj h, fun h => congrArg Except.ok h⟩
  have hlinked : ∀ {other : Node PyStr (List UInt8)},
      nodeAt limit (clear located.1 located.2) root (pathOf w.linkname) = some other →
      node = other →
      ((∃ located node, locate limit mid root (pathOf w.name) = some located ∧
        nodeAt limit (clear located.1 located.2) root (pathOf w.linkname) = some node ∧
        LeadsTo root fs raw node) ↔ LeadsTo root fs raw node) := by
    intro other hother heq
    subst heq
    constructor
    · intro ⟨located', node', hlocate', hnode', hleads⟩
      rw [hlocate] at hlocate'
      obtain rfl := Option.some.inj hlocate'
      rw [hother] at hnode'
      obtain rfl := Option.some.inj hnode'
      exact hleads
    · intro hleads
      exact ⟨located, node, hlocate, hother, hleads⟩
  unfold writeMember at hwrite
  unfold Leaves
  split at hwrite <;> rename_i htype <;> simp only [htype]
  · split at hwrite
    · exact hregular ‹_› (hreplaced hwrite)
    · cases hwrite
  · split at hwrite
    · exact hregular ‹_› (hreplaced hwrite)
    · cases hwrite
  · split at hwrite
    · rename_i hdirectory
      obtain rfl := Option.some.inj hwrite
      rw [hdirectory] at hnode
      obtain rfl := Option.some.inj hnode
      exact Iff.rfl
    · rw [hreplaced hwrite]
      exact Iff.rfl
  · rw [hreplaced hwrite]
    exact Iff.rfl
  · split at hwrite
    · exact hlinked ‹_› (hreplaced hwrite)
    · exact hlinked ‹_› (hreplaced hwrite)
    · cases hwrite
  · cases hwrite

/-- The last member written at the manifest's location decides what reading it gives. -/
theorem reads_iff_leaves {members : List TarMember} (hmembers : ∀ m ∈ members, Descending m)
    {before fs mid after : FileTree} {w : TarMember} {raw : List UInt8}
    (hbefore : Tethered root before) (hextract : extract limit root before members = some fs)
    (hlast : LastAt limit root (root ++ [DOCKER_ARCHIVE_MANIFEST]) before members w mid after) :
    Reads fs root manifestPath raw ↔ Leaves limit root mid fs w raw := by
  obtain ⟨⟨pre, post, rfl, hpre, hpost⟩, hlands, hwritten⟩ := hlast
  have hw := hmembers w (List.mem_append_right pre List.mem_cons_self)
  have hmid := (extract_confined (fun m hm => hmembers m (List.mem_append_left _ hm)) hbefore hpre).1
  have hrest := extract_after hextract hpre hwritten
  rcases extractMember_cases hmid hw hwritten with ⟨hnone, _⟩ | ⟨located, hlocate, hlocated, hwrite, hw'⟩
  · rw [hnone] at hlands
    cases hlands
  · have hloc : located.2 = root ++ [DOCKER_ARCHIVE_MANIFEST] := by
      rw [landing, hlocate] at hlands
      exact Option.some.inj hlands
    obtain ⟨node, hnode⟩ := hw'.present
    have hkept := extract_keeps
      (fun m hm => hmembers m (List.mem_append_right pre (List.mem_cons_of_mem w hm)))
      hw'.tethered hrest hpost (hloc ▸ hnode)
    exact (reads_manifest_iff hkept).trans (leaves_iff hlocate hwrite hnode).symm

/-- If it is spelled so, it is the file that the check has read. -/
theorem lastAt_named {members : List TarMember} {before fs mid after : FileTree} {w : TarMember}
    (hextract : extract limit root before members = some fs)
    (hlast : LastAt limit root (root ++ [DOCKER_ARCHIVE_MANIFEST]) before members w mid after)
    (hnamed : w.isNamed DOCKER_ARCHIVE_MANIFEST = true) :
    lastNamed DOCKER_ARCHIVE_MANIFEST members = some w := by
  obtain ⟨⟨pre, post, rfl, hpre, hpost⟩, hlands, hwritten⟩ := hlast
  have hrest := extract_after hextract hpre hwritten
  have hlater : post.filter (TarMember.isNamed DOCKER_ARCHIVE_MANIFEST) = [] := by
    apply List.filter_eq_nil_iff.mpr
    intro m hm hspelled
    exact not_noneLands hspelled hm hrest hpost
  unfold lastNamed
  rw [List.filter_append, List.filter_cons_of_pos hnamed, hlater]
  simp

end Steps

/-! ## What the check has read -/

theorem checkStructure_manifest {py : Interpreter} {archive : TarStream} {info : StructureInfo}
    (h : checkStructure py archive = .ok info) (hformat : info.imageFormat = "docker-archive") :
    ∃ raw, validatedManifest archive.members = some raw ∧
      parseDockerManifest py raw = .ok (info.repoTags, info.layerCount, info.configEntry) := by
  obtain ⟨scan, hscan, h⟩ := except_bind_ok h
  obtain ⟨-, rfl⟩ := scan_ok_iff.mp hscan
  split at h
  · cases h
  · split at h
    · cases h
    · split at h
      · rename_i _ _ raw hraw
        obtain ⟨⟨repoTags, layerCount, configEntry⟩, hparse, h⟩ := except_bind_ok h
        obtain rfl := Except.ok.inj h
        exact ⟨raw, hraw, hparse⟩
      · split at h
        · obtain ⟨repoTags, -, h⟩ := except_bind_ok h
          obtain rfl := Except.ok.inj h
          exact absurd hformat (show "oci" ≠ "docker-archive" by decide)
        · cases h
      · cases h

theorem metadataOf_data {m : TarMember} {raw : List UInt8}
    (hsize : ∀ bytes, m.data = .ok bytes → (bytes.length : Int) ≤ max m.size 0)
    (h : metadataOf m = some raw) : m.data = .ok raw := by
  unfold metadataOf readMetadata at h
  split at h
  · rename_i bytes hread
    split at hread
    · cases hread
    · rename_i hsmall
      split at hread
      · rename_i content hdata
        have hlength := hsize content hdata
        have hcap : max m.size 0 ≤ MAX_METADATA_BYTES :=
          max_le (le_of_not_gt hsmall) (by decide)
        have hall : content.take MAX_METADATA_BYTES.toNat = content := by
          apply List.take_of_length_le
          omega
        rw [hall] at hread
        rw [← Option.some.inj h, ← Except.ok.inj hread]
        exact hdata
      · cases hread
  · cases h

/-- **What extraction leaves at `manifest.json` is the manifest that was checked, exactly where the last
    member written there holds those bytes or leads to a file of them.** It does so when it is itself
    a regular file spelled `manifest.json` or `./manifest.json`. -/
theorem same_manifest_iff {py : Interpreter} {archive : TarStream} {info : StructureInfo}
    (haccepted : checkStructure py archive = .ok info) (hformat : info.imageFormat = "docker-archive")
    (hsized : Sized archive.members) :
    ∃ raw, validatedManifest archive.members = some raw ∧
      parseDockerManifest py raw = .ok (info.repoTags, info.layerCount, info.configEntry) ∧
      ∀ {limit : Nat} {root : Loc PyStr} {before fs : FileTree}, EmptyRoot root before →
        extract limit root before archive.members = some fs →
        (Reads fs root manifestPath raw ↔ ∃ w mid after,
          LastAt limit root (root ++ [DOCKER_ARCHIVE_MANIFEST]) before archive.members w mid after ∧
          Leaves limit root mid fs w raw) ∧
        ∀ w mid after,
          LastAt limit root (root ++ [DOCKER_ARCHIVE_MANIFEST]) before archive.members w mid after →
          w.isNamed DOCKER_ARCHIVE_MANIFEST = true → Reads fs root manifestPath raw := by
  have hdescending := checkStructure_descending haccepted
  obtain ⟨raw, hraw, hparse⟩ := checkStructure_manifest haccepted hformat
  obtain ⟨named, hnamed, hdata⟩ := Option.bind_eq_some_iff.mp hraw
  have hmem := List.mem_filter.mp (List.mem_of_getLast? hnamed)
  refine ⟨raw, hraw, hparse, ?_⟩
  intro limit root before fs hroot hextract
  constructor
  · constructor
    · intro hreads
      rcases lastAt_or_none hextract with hnone | ⟨w, mid, after, hlast⟩
      · exact absurd hnone (not_noneLands hmem.2 hmem.1 hextract)
      · exact ⟨w, mid, after, hlast, (reads_iff_leaves hdescending hroot.tethered hextract hlast).mp hreads⟩
    · intro ⟨w, mid, after, hlast, hleaves⟩
      exact (reads_iff_leaves hdescending hroot.tethered hextract hlast).mpr hleaves
  · intro w mid after hlast hspelled
    apply (reads_iff_leaves hdescending hroot.tethered hextract hlast).mpr
    have hw := lastAt_named hextract hlast hspelled
    rw [hnamed] at hw
    obtain rfl := Option.some.inj hw
    have hbytes := metadataOf_data (hsized named hmem.1) hdata
    unfold Leaves
    have hfile := (Bool.and_eq_true_iff.mp hspelled).1
    cases htype : named.type with
    | regular => exact hbytes
    | oldRegular => exact hbytes
    | _ => simp [TarMember.isFile, htype] at hfile

/-! ## One manifest, and two -/

theorem byteList_loop_length (bs : ByteArray) (i : Nat) (bytes : List UInt8) :
    (ByteArray.toList.loop bs i bytes).length = bytes.length + (bs.size - i) := by
  fun_induction ByteArray.toList.loop bs i bytes with
  | case1 i bytes h ih =>
    rw [ih, List.length_cons]
    omega
  | case2 i bytes h =>
    rw [List.length_reverse]
    omega

theorem byteList_length (bs : ByteArray) : bs.toList.length = bs.size := by
  show (ByteArray.toList.loop bs 0 []).length = bs.size
  rw [byteList_loop_length, List.length_nil]
  omega

theorem sized_textFiles (files : List (String × String)) :
    Sized (files.map fun f => textFile f.1 f.2) := by
  intro m hm bytes hbytes
  obtain ⟨f, _, rfl⟩ := List.mem_map.mp hm
  obtain rfl := Except.ok.inj hbytes
  apply le_max_of_le_left
  rw [byteList_length]
  exact le_refl _

def onePrefixed : List TarMember := [("./manifest.json", oneImage)].map fun f => textFile f.1 f.2

theorem onePrefixed_same : ∃ fs, extract 40 [] (onlyDirectory []) onePrefixed = some fs ∧
    Reads fs [] manifestPath oneImage.toUTF8.toList := by
  have haccepted : (checkStructure cpython ⟨onePrefixed, none⟩).toOption.map
      StructureInfo.imageFormat = some "docker-archive" := by decide +kernel
  have hbytes : validatedManifest onePrefixed = some oneImage.toUTF8.toList := by decide +kernel
  have hextract : (extract 40 [] (onlyDirectory []) onePrefixed).isSome = true := by decide +kernel
  cases hinfo : checkStructure cpython ⟨onePrefixed, none⟩ with
  | error e =>
    rw [hinfo] at haccepted
    cases haccepted
  | ok info =>
    rw [hinfo] at haccepted
    obtain ⟨fs, hfs⟩ := Option.isSome_iff_exists.mp hextract
    obtain ⟨raw, hraw, _, h⟩ :=
      same_manifest_iff hinfo (Option.some.inj haccepted) (sized_textFiles _)
    obtain rfl : oneImage.toUTF8.toList = raw := Option.some.inj (hbytes.symm.trans hraw)
    obtain ⟨after, hafter, _⟩ := Option.bind_eq_some_iff.mp hfs
    refine ⟨fs, hfs, (h (emptyRoot_onlyDirectory []) hfs).2 (textFile "./manifest.json" oneImage)
      (onlyDirectory []) after ⟨⟨[], [], rfl, rfl, trivial⟩, ?_, hafter⟩ (by decide)⟩
    exact isNamed_lands (by decide) _

/-- The second one's name comes clean to the first one's. -/
def twoSpellings : List TarMember :=
  [("manifest.json", oneImage),
    ("././manifest.json", "[\x7b\"Config\":\"d\",\"Layers\":[]\x7d]")].map fun f =>
      textFile f.1 f.2

theorem second_spelling_wins :
    ¬ ∀ (py : Interpreter) (archive : TarStream) (info : StructureInfo) (raw : List UInt8),
      checkStructure py archive = .ok info → info.imageFormat = "docker-archive" →
      Sized archive.members → validatedManifest archive.members = some raw →
      ∀ (limit : Nat) (root : Loc PyStr) (before fs : FileTree), EmptyRoot root before →
        extract limit root before archive.members = some fs → Reads fs root manifestPath raw := by
  intro hclaim
  have haccepted : (checkStructure cpython ⟨twoSpellings, none⟩).toOption.map
      StructureInfo.imageFormat = some "docker-archive" := by decide +kernel
  have hbytes : validatedManifest twoSpellings = some oneImage.toUTF8.toList := by decide +kernel
  have hother : oneImage.toUTF8.toList ≠
      "[\x7b\"Config\":\"d\",\"Layers\":[]\x7d]".toUTF8.toList := by decide +kernel
  have hleft : ((extract 40 [] (onlyDirectory []) twoSpellings).bind
      fun fs => fs ([] ++ [DOCKER_ARCHIVE_MANIFEST])) =
        some (.file "[\x7b\"Config\":\"d\",\"Layers\":[]\x7d]".toUTF8.toList) := by decide +kernel
  cases hinfo : checkStructure cpython ⟨twoSpellings, none⟩ with
  | error e =>
    rw [hinfo] at haccepted
    cases haccepted
  | ok info =>
    rw [hinfo] at haccepted
    obtain ⟨fs, hfs, hfile⟩ := Option.bind_eq_some_iff.mp hleft
    have hreads := hclaim cpython ⟨twoSpellings, none⟩ info _ hinfo (Option.some.inj haccepted)
      (sized_textFiles _) hbytes 40 [] (onlyDirectory []) fs (emptyRoot_onlyDirectory []) hfs
    exact hother ((reads_file hfile).mp hreads)

end TaoSubnet
