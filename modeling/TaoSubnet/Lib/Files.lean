import Mathlib.Logic.Relation
import Mathlib.Data.List.Induction

/-!
# A file tree with symbolic links

A location is the list of the names that lead to it from the top, a tree what there is at each
location. Resolving a path goes through the tree step by step and takes a link's target in place of
the link. Where every link below a directory has a target that only descends, and so does the path,
the resolution stays below that directory: `Visits.within`.
-/

namespace Files

variable {κ β : Type}

/-! ## Paths and trees -/

inductive Step (κ : Type)
  | up
  | into (name : κ)
  deriving DecidableEq, Repr

structure Path (κ : Type) where
  absolute : Bool
  steps : List (Step κ)
  deriving DecidableEq, Repr

/-- Only goes down from where it is taken. -/
structure Path.Descends (p : Path κ) : Prop where
  relative : p.absolute = false
  down : Step.up ∉ p.steps

inductive Node (κ β : Type)
  | file (content : β)
  | directory
  | link (target : Path κ)
  deriving DecidableEq, Repr

abbrev Loc (κ : Type) := List κ

abbrev Tree (κ β : Type) := Loc κ → Option (Node κ β)

/-- A link only leads down. -/
def Node.Descends (node : Node κ β) : Prop := ∀ target, node = .link target → target.Descends

/-! ## Resolution -/

/-- Where a resolution is, and what is left of it. -/
structure Cursor (κ : Type) where
  here : Loc κ
  rest : List (Step κ)

def Path.cursor (p : Path κ) (here : Loc κ) : Cursor κ := ⟨if p.absolute then [] else here, p.steps⟩

/-- One step of a resolution. What is no directory can only be named at its end. -/
def advance (fs : Tree κ β) : Cursor κ → Option (Cursor κ)
  | ⟨_, []⟩ => none
  | ⟨here, .up :: rest⟩ => some ⟨here.dropLast, rest⟩
  | ⟨here, .into name :: rest⟩ =>
    match fs (here ++ [name]) with
    | some (.link target) => some ⟨(target.cursor here).here, target.steps ++ rest⟩
    | some .directory => some ⟨here ++ [name], rest⟩
    | _ => if rest.isEmpty then some ⟨here ++ [name], []⟩ else none

/-- The resolution gets from one place to the other. -/
def Visits (fs : Tree κ β) : Cursor κ → Cursor κ → Prop :=
  Relation.ReflTransGen fun c c' => advance fs c = some c'

/-- The end of a resolution, of so many steps at most. -/
def walk (fs : Tree κ β) : Nat → Cursor κ → Option (Loc κ)
  | 0, c => if c.rest.isEmpty then some c.here else none
  | n + 1, c => if c.rest.isEmpty then some c.here else (advance fs c).bind (walk fs n)

/-- What there is at the location that a path names, its last step not followed. -/
def nodeAt (limit : Nat) (fs : Tree κ β) (here : Loc κ) (p : Path κ) : Option (Node κ β) :=
  match p.steps.getLast? with
  | some (.into name) =>
    (walk fs limit ⟨(p.cursor here).here, p.steps.dropLast⟩).bind fun dir => fs (dir ++ [name])
  | _ => none

/-- A path, taken in a directory, leads to a file of this content. -/
def Reads (fs : Tree κ β) (here : Loc κ) (p : Path κ) (content : β) : Prop :=
  ∃ l, Visits fs (p.cursor here) ⟨l, []⟩ ∧ fs l = some (.file content)

theorem walk_visits {fs : Tree κ β} {n : Nat} {c : Cursor κ} {l : Loc κ} (h : walk fs n c = some l) :
    Visits fs c ⟨l, []⟩ := by
  have hend : ∀ {c : Cursor κ}, c.rest.isEmpty = true → some c.here = some l →
      Visits fs c ⟨l, []⟩ := by
    intro ⟨here, rest⟩ hempty hhere
    obtain rfl : rest = [] := List.isEmpty_iff.mp hempty
    obtain rfl : here = l := Option.some.inj hhere
    exact .refl
  induction n generalizing c with
  | zero =>
    unfold walk at h
    split at h
    · exact hend ‹_› h
    · cases h
  | succ n ih =>
    unfold walk at h
    split at h
    · exact hend ‹_› h
    · obtain ⟨c', hadvance, hwalk⟩ := Option.bind_eq_some_iff.mp h
      exact .head hadvance (ih hwalk)

/-- A resolution that is over goes nowhere. -/
theorem visits_end {fs : Tree κ β} {here : Loc κ} {c : Cursor κ} (h : Visits fs ⟨here, []⟩ c) :
    c = ⟨here, []⟩ := by
  rcases Relation.ReflTransGen.cases_head h with h | ⟨c', h, -⟩
  · exact h.symm
  · cases h

theorem visits_advance {fs : Tree κ β} {c c' : Cursor κ} {l : Loc κ} (hc : c.rest ≠ [])
    (h : advance fs c = some c') : Visits fs c ⟨l, []⟩ ↔ Visits fs c' ⟨l, []⟩ := by
  constructor
  · intro hvisits
    rcases Relation.ReflTransGen.cases_head hvisits with hend | ⟨c'', hfirst, hrest⟩
    · exact absurd (congrArg Cursor.rest hend) hc
    · rw [h] at hfirst
      obtain rfl := Option.some.inj hfirst
      exact hrest
  · exact fun hvisits => .head h hvisits

/-! ### What one name leads to -/

section Single

variable {fs : Tree κ β} {here : Loc κ} {name : κ}

theorem reads_file {content content' : β} (h : fs (here ++ [name]) = some (.file content)) :
    Reads fs here ⟨false, [.into name]⟩ content' ↔ content' = content := by
  have hadvance : advance fs ⟨here, [.into name]⟩ = some ⟨here ++ [name], []⟩ := by
    simp [advance, h]
  constructor
  · intro ⟨l, hvisits, hfile⟩
    have hl := visits_end ((visits_advance (by simp) hadvance).mp hvisits)
    obtain rfl : l = here ++ [name] := congrArg Cursor.here hl
    rw [h] at hfile
    injection hfile with hfile
    injection hfile with hfile
    exact hfile.symm
  · intro hcontent
    subst hcontent
    exact ⟨here ++ [name], .head hadvance .refl, h⟩

theorem not_reads_directory {content : β} (h : fs (here ++ [name]) = some .directory) :
    ¬ Reads fs here ⟨false, [.into name]⟩ content := by
  have hadvance : advance fs ⟨here, [.into name]⟩ = some ⟨here ++ [name], []⟩ := by
    simp [advance, h]
  intro ⟨l, hvisits, hfile⟩
  have hl := visits_end ((visits_advance (by simp) hadvance).mp hvisits)
  obtain rfl : l = here ++ [name] := congrArg Cursor.here hl
  rw [h] at hfile
  cases hfile

/-- A link leads to where its target leads. -/
theorem reads_link {target : Path κ} {content : β} (h : fs (here ++ [name]) = some (.link target)) :
    Reads fs here ⟨false, [.into name]⟩ content ↔ Reads fs here target content := by
  have hadvance : advance fs ⟨here, [.into name]⟩ = some (target.cursor here) := by
    simp [advance, h, Path.cursor]
  unfold Reads
  apply exists_congr
  intro l
  apply and_congr_left
  intro _
  exact visits_advance (c := ⟨here, [.into name]⟩) (by simp) hadvance

end Single

/-! ## Staying below a directory -/

/-- Every link below the directory only descends. -/
def Tethered (root : Loc κ) (fs : Tree κ β) : Prop :=
  ∀ here name target, root <+: here → fs (here ++ [name]) = some (.link target) → target.Descends

structure Cursor.Within (root : Loc κ) (c : Cursor κ) : Prop where
  inside : root <+: c.here
  down : Step.up ∉ c.rest

theorem Path.Descends.cursor_here {p : Path κ} (hp : p.Descends) (here : Loc κ) :
    (p.cursor here).here = here := by
  simp [Path.cursor, hp.relative]

theorem Path.Descends.within {p : Path κ} (hp : p.Descends) {root here : Loc κ}
    (h : root <+: here) : (p.cursor here).Within root :=
  ⟨by rw [hp.cursor_here here]; exact h, hp.down⟩

/-- One step stays below the directory. -/
theorem advance_within {fs : Tree κ β} {root : Loc κ} (hfs : Tethered root fs) {c c' : Cursor κ}
    (h : advance fs c = some c') (hc : c.Within root) : c'.Within root := by
  obtain ⟨here, rest⟩ := c
  obtain ⟨hinside, hdown⟩ := hc
  cases rest with
  | nil => cases h
  | cons s rest =>
    have hrest : Step.up ∉ rest := fun hup => hdown (List.mem_cons_of_mem s hup)
    cases s with
    | up => exact absurd List.mem_cons_self hdown
    | into name =>
      have hname : root <+: here ++ [name] := hinside.trans (List.prefix_append here [name])
      simp only [advance] at h
      split at h
      · rename_i target hlink
        obtain rfl := Option.some.inj h
        have htarget := hfs here name target hinside hlink
        refine ⟨(htarget.within hinside).inside, ?_⟩
        intro hup
        rcases List.mem_append.mp hup with hup | hup
        · exact htarget.down hup
        · exact hrest hup
      · obtain rfl := Option.some.inj h
        exact ⟨hname, hrest⟩
      · split at h
        · obtain rfl := Option.some.inj h
          exact ⟨hname, List.not_mem_nil⟩
        · cases h

/-- **A resolution stays below the directory** in which it starts, whatever it visits. -/
theorem Visits.within {fs : Tree κ β} {root : Loc κ} (hfs : Tethered root fs) {c c' : Cursor κ}
    (h : Visits fs c c') (hc : c.Within root) : c'.Within root := by
  induction h with
  | refl => exact hc
  | tail _ hstep ih => exact advance_within hfs hstep ih

theorem walk_within {fs : Tree κ β} {root : Loc κ} (hfs : Tethered root fs) {n : Nat} {c : Cursor κ}
    {l : Loc κ} (h : walk fs n c = some l) (hc : c.Within root) : root <+: l :=
  (Visits.within hfs (walk_visits h) hc).inside

/-- Below the directory, and not it. -/
def Below (root l : Loc κ) : Prop := ∃ here name, l = here ++ [name] ∧ root <+: here

/-- A location just below the directory is not reached by writing at another one below it. -/
theorem Below.not_prefix {root loc : Loc κ} {name : κ} (h : Below root loc)
    (hne : loc ≠ root ++ [name]) : ¬ loc <+: root ++ [name] := by
  obtain ⟨here, last, rfl, hhere⟩ := h
  intro hprefix
  apply hne
  apply hprefix.eq_of_length_le
  have hlength := hhere.length_le
  simp only [List.length_append, List.length_singleton]
  omega

theorem not_prefix_of_not_below {root loc l : Loc κ} (h : Below root loc) (hl : ¬ Below root l) :
    ¬ loc <+: l := by
  obtain ⟨here, last, rfl, hhere⟩ := h
  intro ⟨more, hmore⟩
  apply hl
  rcases List.eq_nil_or_concat more with rfl | ⟨init, name, rfl⟩
  · exact ⟨here, last, by rw [← hmore, List.append_nil], hhere⟩
  · refine ⟨here ++ [last] ++ init, name, ?_, ?_⟩
    · rw [← hmore]
      simp
    · exact hhere.trans ⟨[last] ++ init, by simp⟩

theorem not_up_dropLast {steps : List (Step κ)} (h : Step.up ∉ steps) : Step.up ∉ steps.dropLast :=
  fun hup => h (List.dropLast_subset steps hup)

/-- What a path that descends names is a node of below the directory, whose links only descend. -/
theorem nodeAt_descends {limit : Nat} {root : Loc κ} {fs : Tree κ β} (hfs : Tethered root fs)
    {here : Loc κ} (hhere : root <+: here) {p : Path κ} (hp : p.Descends) {node : Node κ β}
    (h : nodeAt limit fs here p = some node) : node.Descends := by
  unfold nodeAt at h
  split at h
  · rename_i name hlast
    obtain ⟨dir, hdir, hnode⟩ := Option.bind_eq_some_iff.mp h
    rw [hp.cursor_here] at hdir
    have hinside : root <+: dir := walk_within hfs hdir ⟨hhere, not_up_dropLast hp.down⟩
    intro target hlink
    subst hlink
    exact hfs dir name target hinside hnode
  · cases h

/-! ## Writing -/

variable [DecidableEq κ]

def put (fs : Tree κ β) (loc : Loc κ) (node : Node κ β) : Tree κ β :=
  fun l => if l = loc then some node else fs l

/-- Without what is at a location and below it. -/
def clear (fs : Tree κ β) (loc : Loc κ) : Tree κ β := fun l => if loc <+: l then none else fs l

def replace (fs : Tree κ β) (loc : Loc κ) (node : Node κ β) : Tree κ β := put (clear fs loc) loc node

/-- The directory that a step leads to, made if there is nothing yet. -/
def enter (limit : Nat) (fs : Tree κ β) (here : Loc κ) : Step κ → Option (Tree κ β × Loc κ)
  | .up => some (fs, here.dropLast)
  | .into name =>
    match fs (here ++ [name]) with
    | none => some (put fs (here ++ [name]) .directory, here ++ [name])
    | some .directory => some (fs, here ++ [name])
    | some (.file _) => none
    | some (.link target) =>
      match walk fs limit (target.cursor here) with
      | none => none
      | some there =>
        match fs there with
        | some .directory => some (fs, there)
        | _ => none

def enterAll (limit : Nat) : Tree κ β → Loc κ → List (Step κ) → Option (Tree κ β × Loc κ)
  | fs, here, [] => some (fs, here)
  | fs, here, s :: rest => (enter limit fs here s).bind fun entered =>
    enterAll limit entered.1 entered.2 rest

/-- The location that a path names, its last step not followed, and the tree with the directories
    that lead there. -/
def locate (limit : Nat) (fs : Tree κ β) (here : Loc κ) (p : Path κ) : Option (Tree κ β × Loc κ) :=
  match p.steps.getLast? with
  | some (.into name) =>
    (enterAll limit fs (p.cursor here).here p.steps.dropLast).map fun entered =>
      (entered.1, entered.2 ++ [name])
  | _ => none

@[simp] theorem put_self (fs : Tree κ β) (loc : Loc κ) (node : Node κ β) :
    put fs loc node loc = some node := if_pos rfl

theorem put_ne {fs : Tree κ β} {loc l : Loc κ} {node : Node κ β} (h : l ≠ loc) :
    put fs loc node l = fs l := if_neg h

theorem clear_of_not_prefix {fs : Tree κ β} {loc l : Loc κ} (h : ¬ loc <+: l) :
    clear fs loc l = fs l := if_neg h

theorem replace_of_not_prefix {fs : Tree κ β} {loc l : Loc κ} {node : Node κ β} (h : ¬ loc <+: l) :
    replace fs loc node l = fs l := by
  have hne : l ≠ loc := by
    intro heq
    subst heq
    exact h (List.prefix_refl l)
  unfold replace
  rw [put_ne hne, clear_of_not_prefix h]

@[simp] theorem replace_self (fs : Tree κ β) (loc : Loc κ) (node : Node κ β) :
    replace fs loc node loc = some node := put_self _ loc node

theorem tethered_put {root : Loc κ} {fs : Tree κ β} (hfs : Tethered root fs) {loc : Loc κ}
    {node : Node κ β} (hnode : node.Descends) : Tethered root (put fs loc node) := by
  intro here name target hinside hlink
  unfold put at hlink
  split at hlink
  · exact hnode target (Option.some.inj hlink)
  · exact hfs here name target hinside hlink

theorem tethered_clear {root : Loc κ} {fs : Tree κ β} (hfs : Tethered root fs) (loc : Loc κ) :
    Tethered root (clear fs loc) := by
  intro here name target hinside hlink
  unfold clear at hlink
  split at hlink
  · cases hlink
  · exact hfs here name target hinside hlink

theorem tethered_replace {root : Loc κ} {fs : Tree κ β} (hfs : Tethered root fs) {loc : Loc κ}
    {node : Node κ β} (hnode : node.Descends) : Tethered root (replace fs loc node) :=
  tethered_put (tethered_clear hfs loc) hnode

/-- The directories on the way have been entered from below the directory. -/
structure Entered (root : Loc κ) (fs : Tree κ β) (entered : Tree κ β × Loc κ) : Prop where
  tethered : Tethered root entered.1
  inside : root <+: entered.2
  /-- Nothing outside has changed. -/
  outside : ∀ l, ¬ Below root l → entered.1 l = fs l
  /-- And nothing that was there. -/
  kept : ∀ l node, fs l = some node → entered.1 l = some node

theorem enter_entered {limit : Nat} {root : Loc κ} {fs : Tree κ β} (hfs : Tethered root fs)
    {here : Loc κ} (hhere : root <+: here) {s : Step κ} (hs : s ≠ .up) {entered : Tree κ β × Loc κ}
    (h : enter limit fs here s = some entered) : Entered root fs entered := by
  cases s with
  | up => exact absurd rfl hs
  | into name =>
    have hname : root <+: here ++ [name] := hhere.trans (List.prefix_append here [name])
    simp only [enter] at h
    split at h
    · rename_i hmissing
      obtain rfl := Option.some.inj h
      refine ⟨tethered_put hfs ?_, hname, ?_, ?_⟩
      · intro target hlink
        cases hlink
      · intro l hl
        apply put_ne
        intro heq
        exact hl ⟨here, name, heq, hhere⟩
      · intro l node hnode
        have hne : l ≠ here ++ [name] := by
          intro heq
          rw [heq, hmissing] at hnode
          cases hnode
        exact (put_ne hne).trans hnode
    · obtain rfl := Option.some.inj h
      exact ⟨hfs, hname, fun _ _ => rfl, fun _ _ hnode => hnode⟩
    · cases h
    · rename_i target hlink
      split at h
      · cases h
      · rename_i there hwalk
        split at h
        · obtain rfl := Option.some.inj h
          have htarget := (hfs here name target hhere hlink).within hhere
          exact ⟨hfs, walk_within hfs hwalk htarget, fun _ _ => rfl, fun _ _ hnode => hnode⟩
        · cases h

theorem enterAll_entered {limit : Nat} {root : Loc κ} {steps : List (Step κ)}
    (hsteps : Step.up ∉ steps) {fs : Tree κ β} (hfs : Tethered root fs) {here : Loc κ}
    (hhere : root <+: here) {entered : Tree κ β × Loc κ}
    (h : enterAll limit fs here steps = some entered) : Entered root fs entered := by
  induction steps generalizing fs here with
  | nil =>
    obtain rfl := Option.some.inj h
    exact ⟨hfs, hhere, fun _ _ => rfl, fun _ _ hnode => hnode⟩
  | cons s rest ih =>
    obtain ⟨first, hfirst, hrest⟩ := Option.bind_eq_some_iff.mp h
    have hs : s ≠ .up := fun heq => hsteps (heq ▸ List.mem_cons_self)
    have hone := enter_entered hfs hhere hs hfirst
    have hall := ih (fun hup => hsteps (List.mem_cons_of_mem s hup)) hone.tethered hone.inside hrest
    refine ⟨hall.tethered, hall.inside, ?_, ?_⟩
    · intro l hl
      rw [hall.outside l hl, hone.outside l hl]
    · intro l node hnode
      exact hall.kept l node (hone.kept l node hnode)

/-- A path has been located from below the directory. -/
structure Located (root : Loc κ) (fs : Tree κ β) (located : Tree κ β × Loc κ) : Prop where
  tethered : Tethered root located.1
  below : Below root located.2
  outside : ∀ l, ¬ Below root l → located.1 l = fs l
  kept : ∀ l node, fs l = some node → located.1 l = some node

theorem locate_located {limit : Nat} {root : Loc κ} {fs : Tree κ β} (hfs : Tethered root fs)
    {here : Loc κ} (hhere : root <+: here) {p : Path κ} (hp : p.Descends)
    {located : Tree κ β × Loc κ} (h : locate limit fs here p = some located) :
    Located root fs located := by
  unfold locate at h
  split at h
  · rename_i name hlast
    obtain ⟨entered, hentered, rfl⟩ := Option.map_eq_some_iff.mp h
    rw [hp.cursor_here] at hentered
    have hall := enterAll_entered (not_up_dropLast hp.down) hfs hhere hentered
    exact ⟨hall.tethered, ⟨entered.2, name, rfl, hall.inside⟩, hall.outside, hall.kept⟩
  · cases h

end Files
