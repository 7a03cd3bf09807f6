import TaoSubnet.Proof.Security.Archives
import TaoSubnet.Security.Extraction

/-!
# Nothing leaves the root

`_assert_safe_member` looks at one name at a time. It lets through only names, and targets of links,
that descend; so every link the extraction leaves below the root descends, whichever members it
wrote, and no resolution that starts below the root gets out of it.
-/

namespace TaoSubnet

open Py Files

/-! ## What is let through -/

theorem isUnsafePath_false {name : PyStr} (h : isUnsafePath name = false) :
    (pathOf name).Descends := by
  cases name with
  | nil => cases h
  | cons c rest =>
    simp only [isUnsafePath, Bool.or_eq_false_iff] at h
    obtain ⟨⟨⟨hslash, _⟩, _⟩, hdots⟩ := h
    constructor
    · show ((some c : Option Nat) == some 47) = false
      simpa using hslash
    · intro hup
      obtain ⟨part, hpart, hstep⟩ := List.mem_map.mp hup
      split at hstep
      · rename_i hdotdot
        rw [hdotdot] at hpart
        have hmem : [46, 46] ∈ splitSlash (c :: rest) := (List.mem_filter.mp hpart).1
        rw [List.contains_iff_mem.mpr hmem] at hdots
        cases hdots
      · cases hstep

/-- The name goes down, and so does what a link leads to. -/
structure Descending (m : TarMember) : Prop where
  name : (pathOf m.name).Descends
  target : m.isLink = true → (pathOf m.linkname).Descends

theorem assertSafeMember_ok {m : TarMember} (h : assertSafeMember m = .ok ()) : Descending m := by
  unfold assertSafeMember at h
  split at h
  · cases h
  · split at h
    · cases h
    · rename_i hname
      split at h
      · cases h
      · rename_i hlink
        refine ⟨isUnsafePath_false (Bool.eq_false_iff.mpr hname), ?_⟩
        intro hislink
        apply isUnsafePath_false
        apply Bool.eq_false_iff.mpr
        intro hunsafe
        apply hlink
        rw [hislink, hunsafe]
        rfl

/-- An archive is accepted only if its scan gets to the end. -/
theorem checkStructure_scannable {py : Interpreter} {archive : TarStream} {info : StructureInfo}
    (h : checkStructure py archive = .ok info) : Scannable archive.members := by
  obtain ⟨scan, hscan, -⟩ := except_bind_ok h
  exact (scan_ok_iff.mp hscan).1

theorem checkStructure_descending {py : Interpreter} {archive : TarStream} {info : StructureInfo}
    (h : checkStructure py archive = .ok info) : ∀ m ∈ archive.members, Descending m :=
  fun m hm => assertSafeMember_ok ((checkStructure_scannable h).safe m hm)

/-! ## One member -/

section Members

variable {limit : Nat} {root : Loc PyStr}

/-- What is written at a location is a node that only descends there, and nothing elsewhere but below
    it. -/
structure Written (root loc : Loc PyStr) (fs fs' : FileTree) : Prop where
  tethered : Tethered root fs'
  elsewhere : ∀ l, ¬ loc <+: l → fs' l = fs l
  present : ∃ node, fs' loc = some node

theorem replace_written {fs : FileTree} (hfs : Tethered root fs) {loc : Loc PyStr}
    {node : Node PyStr (List UInt8)} (hnode : node.Descends) :
    Written root loc fs (replace fs loc node) :=
  ⟨tethered_replace hfs hnode, fun _ hl => replace_of_not_prefix hl, node, replace_self fs loc node⟩

theorem writeMember_written {fs fs' : FileTree} {loc : Loc PyStr} {m : TarMember}
    (hfs : Tethered root fs) (hm : Descending m) (h : writeMember limit root fs loc m = some fs') :
    Written root loc fs fs' := by
  have hplain : ∀ {node : Node PyStr (List UInt8)}, (∀ target, node ≠ .link target) →
      Written root loc fs (replace fs loc node) :=
    fun hnode => replace_written hfs fun target hlink => absurd hlink (hnode target)
  -- One case for each branch of the definition that writes something.
  unfold writeMember at h
  split at h
  · split at h
    · obtain rfl := Option.some.inj h
      exact hplain (by simp)
    · cases h
  · split at h
    · obtain rfl := Option.some.inj h
      exact hplain (by simp)
    · cases h
  · split at h
    · rename_i hdirectory
      obtain rfl := Option.some.inj h
      exact ⟨hfs, fun _ _ => rfl, .directory, hdirectory⟩
    · obtain rfl := Option.some.inj h
      exact hplain (by simp)
  · rename_i htype
    obtain rfl := Option.some.inj h
    have hlink : m.isLink = true := by simp [TarMember.isLink, htype]
    apply replace_written hfs
    intro target htarget
    injection htarget with htarget
    exact htarget ▸ hm.target hlink
  · rename_i htype
    have hlink : m.isLink = true := by simp [TarMember.isLink, htype]
    split at h
    · obtain rfl := Option.some.inj h
      exact hplain (by simp)
    · rename_i target hnode
      obtain rfl := Option.some.inj h
      have hdescends := nodeAt_descends (tethered_clear hfs loc) (List.prefix_refl root)
        (hm.target hlink) hnode
      exact replace_written hfs hdescends
    · cases h
  · cases h

/-- One member is written at one location below the root, or is the root. -/
theorem extractMember_cases {fs fs' : FileTree} {m : TarMember} (hfs : Tethered root fs)
    (hm : Descending m) (h : extractMember limit root fs m = some fs') :
    (landing limit root fs m = none ∧ fs' = fs) ∨
    ∃ located, locate limit fs root (pathOf m.name) = some located ∧ Located root fs located ∧
      writeMember limit root located.1 located.2 m = some fs' ∧
      Written root located.2 located.1 fs' := by
  unfold extractMember at h
  split at h
  · rename_i hempty
    split at h
    · refine .inl ⟨?_, (Option.some.inj h).symm⟩
      unfold landing locate
      rw [List.isEmpty_iff.mp hempty]
      rfl
    · cases h
  · obtain ⟨located, hlocate, hwrite⟩ := Option.bind_eq_some_iff.mp h
    have hlocated := locate_located hfs (List.prefix_refl root) hm.name hlocate
    exact .inr ⟨located, hlocate, hlocated, hwrite,
      writeMember_written hlocated.tethered hm hwrite⟩

/-- The links below the root keep descending, and nothing changes outside. -/
theorem extractMember_confined {fs fs' : FileTree} {m : TarMember} (hfs : Tethered root fs)
    (hm : Descending m) (h : extractMember limit root fs m = some fs') :
    Tethered root fs' ∧ ∀ l, ¬ Below root l → fs' l = fs l := by
  rcases extractMember_cases hfs hm h with ⟨-, rfl⟩ | ⟨located, -, hlocated, -, hwritten⟩
  · exact ⟨hfs, fun _ _ => rfl⟩
  · refine ⟨hwritten.tethered, ?_⟩
    intro l hl
    rw [hwritten.elsewhere l (not_prefix_of_not_below hlocated.below hl), hlocated.outside l hl]

/-! ## Any of them -/

theorem extract_confined {members : List TarMember} (hmembers : ∀ m ∈ members, Descending m)
    {fs fs' : FileTree} (hfs : Tethered root fs) (h : extract limit root fs members = some fs') :
    Tethered root fs' ∧ ∀ l, ¬ Below root l → fs' l = fs l := by
  induction members generalizing fs with
  | nil =>
    obtain rfl := Option.some.inj h
    exact ⟨hfs, fun _ _ => rfl⟩
  | cons m rest ih =>
    obtain ⟨mid, hfirst, hrest⟩ := Option.bind_eq_some_iff.mp h
    obtain ⟨hmid, houtside⟩ := extractMember_confined hfs (hmembers m List.mem_cons_self) hfirst
    obtain ⟨hfs', houtside'⟩ :=
      ih (fun other hother => hmembers other (List.mem_cons_of_mem m hother)) hmid hrest
    refine ⟨hfs', ?_⟩
    intro l hl
    rw [houtside' l hl, houtside l hl]

/-- An empty directory has no links in it. -/
theorem EmptyRoot.tethered {fs : FileTree} (h : EmptyRoot root fs) : Tethered root fs := by
  intro here name target hhere hlink
  rw [h.empty _ ⟨here, name, rfl, hhere⟩] at hlink
  cases hlink

/-- **No name leads out of the root.** Of an accepted archive, whichever members are written, in its
    order: nothing changes outside the root, and whatever a member's name or a link's target visits is
    below it. A symlink's target is taken in any directory below the root, a hard link's in the
    root. -/
theorem names_stay_inside {py : Interpreter} {archive : TarStream} {info : StructureInfo}
    (haccepted : checkStructure py archive = .ok info) {before fs : FileTree}
    (hfresh : EmptyRoot root before) {written : List TarMember}
    (hwritten : written.Sublist archive.members)
    (hextract : extract limit root before written = some fs) :
    (∀ l, ¬ Below root l → fs l = before l) ∧
    ∀ m ∈ archive.members,
      (∀ c, Visits fs ((pathOf m.name).cursor root) c → root <+: c.here) ∧
      (m.isLink = true → ∀ here, root <+: here →
        ∀ c, Visits fs ((pathOf m.linkname).cursor here) c → root <+: c.here) := by
  have hdescending := checkStructure_descending haccepted
  obtain ⟨htethered, houtside⟩ :=
    extract_confined (fun m hm => hdescending m (hwritten.subset hm)) hfresh.tethered hextract
  refine ⟨houtside, ?_⟩
  intro m hm
  constructor
  · intro c hvisits
    exact (hvisits.within htethered ((hdescending m hm).name.within (List.prefix_refl root))).inside
  · intro hlink here hhere c hvisits
    exact (hvisits.within htethered (((hdescending m hm).target hlink).within hhere)).inside

end Members

/-- Nothing but an empty directory. -/
def onlyDirectory (root : Loc PyStr) : FileTree := fun l => if l = root then some .directory else none

theorem emptyRoot_onlyDirectory (root : Loc PyStr) : EmptyRoot root (onlyDirectory root) := by
  constructor
  · exact if_pos rfl
  · intro l ⟨here, name, hl, hhere⟩
    apply if_neg
    intro heq
    have hlength := hhere.length_le
    rw [← heq, hl, List.length_append, List.length_singleton] at hlength
    omega

/-- An image in which a file is written through a link to a link, and a hard link is made to a link. -/
def linkedImage : List TarMember :=
  [⟨PyStr.ofString "manifest.json", .regular, [], 27,
      .ok "[\x7b\"Config\":\"c\",\"Layers\":[]\x7d]".toUTF8.toList⟩,
    ⟨PyStr.ofString "blobs", .directory, [], 0, .ok []⟩,
    ⟨PyStr.ofString "current", .symlink, PyStr.ofString "./blobs/.", 0, .ok []⟩,
    ⟨PyStr.ofString "latest", .symlink, PyStr.ofString "current", 0, .ok []⟩,
    ⟨PyStr.ofString "latest/layer", .regular, [], 1, .ok [0]⟩,
    ⟨PyStr.ofString "blobs/again", .hardlink, PyStr.ofString "latest", 0, .ok []⟩]

theorem linkedImage_stays_inside : ∃ fs,
    extract 40 [PyStr.ofString "srv"] (onlyDirectory [PyStr.ofString "srv"]) linkedImage = some fs ∧
    ∀ m ∈ linkedImage, ∀ c, Visits fs ((pathOf m.name).cursor [PyStr.ofString "srv"]) c →
      [PyStr.ofString "srv"] <+: c.here := by
  have haccepted : (checkStructure cpython ⟨linkedImage, none⟩).isOk = true := by decide +kernel
  have hextract : (extract 40 [PyStr.ofString "srv"] (onlyDirectory [PyStr.ofString "srv"])
      linkedImage).isSome = true := by decide +kernel
  cases hinfo : checkStructure cpython ⟨linkedImage, none⟩ with
  | error e =>
    rw [hinfo] at haccepted
    cases haccepted
  | ok info =>
    obtain ⟨fs, hfs⟩ := Option.isSome_iff_exists.mp hextract
    have h := names_stay_inside hinfo (emptyRoot_onlyDirectory _) (List.Sublist.refl _) hfs
    exact ⟨fs, hfs, fun m hm => (h.2 m hm).1⟩

end TaoSubnet
