import TaoSubnet.Security.Behavior

/-!
# The opened path

The catalogue of paths is searched for in the raw arguments of an open call. Over a path's components
that search is `startsLike`: every component of the entry but the last must be there whole, the last
one only as a beginning, and nothing says that they stand at the root. `open_blocked_exactly_iff` says
for which calls this makes no difference.
-/

namespace TaoSubnet

open Py

/-- An absolute path, from its components. -/
def pathText : List (List Char) → List Char
  | [] => ['/']
  | components => components.flatMap ('/' :: ·)

/-- The arguments of an open call: `AT_FDCWD /, 0x7f2d8bb3e1b7 /etc/ld.so.cache, O_RDONLY, 0o0`. -/
structure OpenArgs where
  dirfd : List Char
  address : List Char
  path : List (List Char)
  flags : List Char
  mode : List Char
  plain : ∀ text ∈ [dirfd, address, flags, mode], '/' ∉ text
  normalised : ∀ c ∈ path, c ≠ [] ∧ '/' ∉ c ∧ c ≠ ['.'] ∧ c ≠ ['.', '.']

def OpenArgs.text (a : OpenArgs) : List Char :=
  a.dirfd ++ ' ' :: '/' :: ',' :: ' ' :: (a.address ++ ' ' :: (pathText a.path ++
    ',' :: ' ' :: (a.flags ++ ',' :: ' ' :: a.mode)))

def DOCKER_SOCK : List Char := "docker.sock".toList

/-- The listed paths, by components. -/
def listedPaths : List (List (List Char)) :=
  [["var".toList, "run".toList, DOCKER_SOCK],
   ["etc".toList, "shadow".toList],
   ["proc".toList, "1".toList, "environ".toList],
   ["host".toList],
   ["var".toList, "lib".toList, "docker".toList]]

/-- A listed path, something under one, or a docker socket anywhere. -/
def Forbidden (path : List (List Char)) : Prop :=
  (∃ listed ∈ listedPaths, listed <+: path) ∨ DOCKER_SOCK ∈ path

/-- The components begin with those of the entry, the last of them with that of the entry. -/
def startsLike : List (List Char) → List (List Char) → Bool
  | [], _ => true
  | _ :: _, [] => false
  | [last], c :: _ => last.isPrefixOf c
  | l :: ls, c :: cs => l == c && startsLike ls cs

/-- An entry begins somewhere in the path, or one of the texts has `docker.sock` in it. -/
def Resembles (a : OpenArgs) : Prop :=
  (∃ listed ∈ listedPaths, ∃ rest, rest <:+ a.path ∧ startsLike listed rest = true) ∨
    ∃ text ∈ a.path ++ [a.dirfd, a.address, a.flags, a.mode], DOCKER_SOCK <:+: text

/-- A component of a listed path can be told from its surroundings. -/
def Distinct (component : List Char) : Prop :=
  component ≠ [] ∧ '/' ∉ component ∧ ',' ∉ component ∧ ' ' ∉ component

theorem listed_distinct : ∀ listed ∈ listedPaths, listed ≠ [] ∧ ∀ c ∈ listed, Distinct c := by
  unfold Distinct
  decide +kernel

theorem docker_sock_distinct : Distinct DOCKER_SOCK := by
  unfold Distinct
  decide +kernel

/-! ## The search, component by component -/

theorem pathText_cons (c : List Char) (cs : List (List Char)) :
    pathText (c :: cs) = '/' :: (c ++ cs.flatMap ('/' :: ·)) := rfl

/-- What follows a component: another one, or the arguments after the path. -/
theorem after_component (cs : List (List Char)) (after : List Char) : ∃ d rest,
    cs.flatMap ('/' :: ·) ++ ',' :: after = d :: rest ∧ (d = '/' ∨ d = ',') := by
  cases cs with
  | nil => exact ⟨',', after, rfl, .inr rfl⟩
  | cons c cs => exact ⟨'/', c ++ cs.flatMap ('/' :: ·) ++ ',' :: after, by simp, .inl rfl⟩

/-- An entry begins at the front of the components. -/
theorem entry_prefix_iff {listed cs : List (List Char)} {after : List Char}
    (hlisted : ∀ c ∈ listed, Distinct c) (hcs : ∀ c ∈ cs, '/' ∉ c) (hafter : '/' ∉ after) :
    listed.flatMap ('/' :: ·) <+: cs.flatMap ('/' :: ·) ++ ',' :: after ↔
      startsLike listed cs = true := by
  induction listed generalizing cs with
  | nil => simp [startsLike]
  | cons l ls ih =>
    obtain ⟨hne, hslash, hcomma, -⟩ := hlisted l List.mem_cons_self
    cases cs with
    | nil => simp [startsLike]
    | cons c cs =>
      have hc : '/' ∉ c := hcs c List.mem_cons_self
      rw [List.flatMap_cons, List.flatMap_cons, List.cons_append, List.cons_append,
        List.cons_append, List.cons_prefix_cons, List.append_assoc]
      cases ls with
      | nil =>
        obtain ⟨d, rest, htail, hd⟩ := after_component cs after
        have hword : d ∉ l := by
          rcases hd with rfl | rfl
          · exact hslash
          · exact hcomma
        rw [List.flatMap_nil, List.append_nil, htail, prefix_append_cons hword, startsLike,
          List.isPrefixOf_iff_prefix]
        simp
      | cons l' ls =>
        have hrest := ih (fun e he => hlisted e (List.mem_cons_of_mem l he))
          (fun e he => hcs e (List.mem_cons_of_mem c he))
        have hstep : startsLike (l :: l' :: ls) (c :: cs) = (l == c && startsLike (l' :: ls) cs) := rfl
        rw [hstep, Bool.and_eq_true, beq_iff_eq, ← hrest]
        cases cs with
        | nil =>
          -- no slash is left for the rest of the entry
          have hnone : ¬ l ++ (l' :: ls).flatMap ('/' :: ·) <+: c ++ ',' :: after := by
            intro hbegin
            have hmem := hbegin.subset (show '/' ∈ l ++ (l' :: ls).flatMap ('/' :: ·) by simp)
            rcases List.mem_append.mp hmem with hin | hin
            · exact hc hin
            · rcases List.mem_cons.mp hin with hin | hin
              · exact absurd hin (by decide)
              · exact hafter hin
          rw [List.flatMap_nil, List.nil_append, and_iff_right rfl, iff_false_left hnone]
          simp
        | cons c' cs =>
          rw [List.flatMap_cons, List.flatMap_cons, List.cons_append, List.cons_append,
            List.cons_append, append_cons_prefix hslash hc, List.cons_prefix_cons]
          simp

/-- An entry begins somewhere among the components. -/
theorem entry_infix_iff {listed cs : List (List Char)} {after : List Char} (hne : listed ≠ [])
    (hlisted : ∀ c ∈ listed, Distinct c) (hcs : ∀ c ∈ cs, '/' ∉ c) (hafter : '/' ∉ after) :
    listed.flatMap ('/' :: ·) <:+: cs.flatMap ('/' :: ·) ++ ',' :: after ↔
      ∃ rest, rest <:+ cs ∧ startsLike listed rest = true := by
  obtain ⟨l, ls, rfl⟩ := List.exists_cons_of_ne_nil hne
  rw [List.flatMap_cons, List.cons_append]
  induction cs with
  | nil =>
    have hnone : ¬ '/' :: (l ++ ls.flatMap ('/' :: ·)) <:+: ',' :: after := by
      intro hfound
      rcases List.mem_cons.mp (hfound.subset List.mem_cons_self) with hcomma | hmem
      · exact absurd hcomma (by decide)
      · exact hafter hmem
    rw [List.flatMap_nil, List.nil_append, iff_false_left hnone]
    rintro ⟨rest, hsuffix, hstarts⟩
    rw [List.suffix_nil.mp hsuffix] at hstarts
    cases hstarts
  | cons c cs ih =>
    have hhere := entry_prefix_iff hlisted hcs hafter
    rw [List.flatMap_cons, List.cons_append] at hhere
    rw [List.flatMap_cons, List.cons_append, List.cons_append, List.infix_cons_iff]
    rw [List.flatMap_cons, List.cons_append, List.cons_append] at hhere
    rw [hhere, List.append_assoc, cons_infix_append (hcs c List.mem_cons_self),
      ih fun d hd => hcs d (List.mem_cons_of_mem c hd)]
    simp only [List.suffix_cons_iff]
    constructor
    · rintro (hstarts | ⟨rest, hsuffix, hstarts⟩)
      · exact ⟨c :: cs, .inl rfl, hstarts⟩
      · exact ⟨rest, .inr hsuffix, hstarts⟩
    · rintro ⟨rest, rfl | hsuffix, hstarts⟩
      · exact .inl hstarts
      · exact .inr ⟨rest, hsuffix, hstarts⟩

/-- A slash before a comma begins no entry. -/
theorem not_entry_at_slash {listed : List (List Char)} {after : List Char} (hne : listed ≠ [])
    (hlisted : ∀ c ∈ listed, Distinct c) :
    ¬ listed.flatMap ('/' :: ·) <+: '/' :: ',' :: after := by
  obtain ⟨l, ls, rfl⟩ := List.exists_cons_of_ne_nil hne
  obtain ⟨hfirst, -, hcomma, -⟩ := hlisted l List.mem_cons_self
  obtain ⟨d, l, rfl⟩ := List.exists_cons_of_ne_nil hfirst
  intro hbegin
  simp only [List.flatMap_cons, List.cons_append, List.cons_prefix_cons, true_and] at hbegin
  exact hcomma (hbegin.1 ▸ List.mem_cons_self)

/-- The same in the path's text and what follows it. -/
theorem entry_path_iff {listed path : List (List Char)} {after : List Char} (hne : listed ≠ [])
    (hlisted : ∀ c ∈ listed, Distinct c) (hpath : ∀ c ∈ path, '/' ∉ c) (hafter : '/' ∉ after) :
    listed.flatMap ('/' :: ·) <:+: pathText path ++ ',' :: after ↔
      ∃ rest, rest <:+ path ∧ startsLike listed rest = true := by
  rw [← entry_infix_iff hne hlisted hpath hafter]
  cases path with
  | cons c cs => rfl
  | nil =>
    show listed.flatMap ('/' :: ·) <:+: '/' :: ',' :: after ↔ _
    rw [List.infix_cons_iff, or_iff_right (not_entry_at_slash hne hlisted)]
    rfl

theorem OpenArgs.path_plain (a : OpenArgs) : ∀ c ∈ a.path, '/' ∉ c :=
  fun c hc => (a.normalised c hc).2.1

/-- The same in the whole arguments: the dirfd's slash begins no entry. -/
theorem entry_text_iff (a : OpenArgs) {listed : List (List Char)} (hne : listed ≠ [])
    (hlisted : ∀ c ∈ listed, Distinct c) :
    listed.flatMap ('/' :: ·) <:+: a.text ↔
      ∃ rest, rest <:+ a.path ∧ startsLike listed rest = true := by
  have hdirfd : '/' ∉ a.dirfd ++ [' '] := by
    have := a.plain a.dirfd (by simp)
    simp [this]
  have haddress : '/' ∉ [',', ' '] ++ a.address ++ [' '] := by
    have := a.plain a.address (by simp)
    simp [this]
  have hafter : '/' ∉ ' ' :: (a.flags ++ ',' :: ' ' :: a.mode) := by
    have hflags := a.plain a.flags (by simp)
    have hmode := a.plain a.mode (by simp)
    simp [hflags, hmode]
  have htext : a.text = (a.dirfd ++ [' ']) ++ '/' :: ',' :: ' ' :: (a.address ++ ' ' ::
      (pathText a.path ++ ',' :: ' ' :: (a.flags ++ ',' :: ' ' :: a.mode))) := by
    simp [OpenArgs.text]
  have hrest : ',' :: ' ' :: (a.address ++ ' ' ::
      (pathText a.path ++ ',' :: ' ' :: (a.flags ++ ',' :: ' ' :: a.mode))) =
      ([',', ' '] ++ a.address ++ [' ']) ++ (pathText a.path ++
        ',' :: ' ' :: (a.flags ++ ',' :: ' ' :: a.mode)) := by
    simp
  have hslash : ¬ listed.flatMap ('/' :: ·) <+: '/' :: ',' :: ' ' :: (a.address ++ ' ' ::
      (pathText a.path ++ ',' :: ' ' :: (a.flags ++ ',' :: ' ' :: a.mode))) :=
    not_entry_at_slash hne hlisted
  rw [← entry_path_iff hne hlisted a.path_plain hafter]
  obtain ⟨l, ls, rfl⟩ := List.exists_cons_of_ne_nil hne
  rw [List.flatMap_cons, List.cons_append] at hslash ⊢
  rw [htext, cons_infix_append hdirfd, List.infix_cons_iff, or_iff_right hslash, hrest,
    cons_infix_append haddress]

theorem socket_component_iff (cs : List (List Char)) :
    DOCKER_SOCK <:+: cs.flatMap ('/' :: ·) ↔ ∃ c ∈ cs, DOCKER_SOCK <:+: c := by
  obtain ⟨hne, hslash, -, -⟩ := docker_sock_distinct
  induction cs with
  | nil =>
    rw [List.flatMap_nil, List.infix_nil]
    simp [hne]
  | cons c cs ih =>
    rw [List.flatMap_cons, List.cons_append, infix_cons_skip hne hslash,
      List.exists_mem_cons_iff, ← ih]
    cases cs with
    | nil =>
      rw [List.flatMap_nil, List.append_nil, List.infix_nil]
      simp [hne]
    | cons c' cs =>
      rw [List.flatMap_cons, List.cons_append, infix_append_cons hslash,
        infix_cons_skip hne hslash]

theorem socket_path_iff (path : List (List Char)) :
    DOCKER_SOCK <:+: pathText path ↔ ∃ c ∈ path, DOCKER_SOCK <:+: c := by
  cases path with
  | cons c cs => exact socket_component_iff (c :: cs)
  | nil =>
    obtain ⟨hne, hslash, -, -⟩ := docker_sock_distinct
    show DOCKER_SOCK <:+: ['/'] ↔ _
    rw [infix_cons_skip hne hslash, List.infix_nil]
    simp [hne]

/-- The socket's name is found in one of the texts. -/
theorem socket_text_iff (a : OpenArgs) : DOCKER_SOCK <:+: a.text ↔
    ∃ text ∈ a.path ++ [a.dirfd, a.address, a.flags, a.mode], DOCKER_SOCK <:+: text := by
  obtain ⟨hne, hslash, hcomma, hspace⟩ := docker_sock_distinct
  unfold OpenArgs.text
  rw [infix_append_cons hspace, infix_cons_skip hne hslash, infix_cons_skip hne hcomma,
    infix_cons_skip hne hspace, infix_append_cons hspace, infix_append_cons hcomma,
    infix_cons_skip hne hspace, infix_append_cons hcomma, infix_cons_skip hne hspace,
    socket_path_iff]
  simp only [List.mem_append, List.mem_cons, List.not_mem_nil, or_false]
  constructor
  · rintro (hdirfd | haddress | ⟨c, hc, hpath⟩ | hflags | hmode)
    · exact ⟨a.dirfd, .inr (.inl rfl), hdirfd⟩
    · exact ⟨a.address, .inr (.inr (.inl rfl)), haddress⟩
    · exact ⟨c, .inl hc, hpath⟩
    · exact ⟨a.flags, .inr (.inr (.inr (.inl rfl))), hflags⟩
    · exact ⟨a.mode, .inr (.inr (.inr (.inr rfl))), hmode⟩
  · rintro ⟨text, hc | rfl | rfl | rfl | rfl, hfound⟩
    · exact .inr (.inr (.inl ⟨text, hc, hfound⟩))
    · exact .inl hfound
    · exact .inr (.inl hfound)
    · exact .inr (.inr (.inr (.inl hfound)))
    · exact .inr (.inr (.inr (.inr hfound)))

/-! ## The verdict on an open call -/

/-- The catalogue is the socket's name and the listed paths. -/
theorem catalogue_perm : (SENSITIVE_PATHS.map fun entry => entry.1.toList).Perm
    (DOCKER_SOCK :: listedPaths.map fun listed => listed.flatMap ('/' :: ·)) := by
  decide +kernel

/-- Every entry of the catalogue blocks. -/
theorem sensitive_blocks : ∀ entry ∈ SENSITIVE_PATHS, entry.2.1 = .critical ∨ entry.2.1 = .high := by
  decide +kernel

/-- The enter event of an open call. -/
def OpenArgs.event (comm syscall : String) (a : OpenArgs) : SyscallEvent :=
  { comm := comm, phase := 'E', syscall := syscall, args := String.ofList a.text }

/-- The agent is stopped for this event. -/
def Blocks (event : SyscallEvent) : Prop :=
  ∃ v, violationFor event = some v ∧ v.isBlocking = true

theorem blocks_open_iff (comm : String) {syscall : String} (h : syscall ∈ OPEN_SYSCALLS)
    (a : OpenArgs) : Blocks (a.event comm syscall) ↔
      ∃ entry ∈ SENSITIVE_PATHS, entry.1.toList <:+: a.text := by
  have hviolation : violationFor (a.event comm syscall) =
      (firstIn SENSITIVE_PATHS (String.ofList a.text)).map fun entry =>
        ⟨entry.2.1, entry.2.2, syscall ++ " of " ++ entry.1, (a.event comm syscall).text⟩ := by
    unfold violationFor OpenArgs.event
    rw [if_neg (fun hphase => hphase rfl), if_pos (List.contains_iff_mem.mpr h)]
  have hisIn : ∀ entry : String × Severity × String,
      isIn entry.1 (String.ofList a.text) = true ↔ entry.1.toList <:+: a.text := by
    intro entry
    unfold isIn
    rw [String.toList_ofList, isSubstring_iff]
  unfold Blocks
  rw [hviolation]
  constructor
  · rintro ⟨v, hfound, -⟩
    obtain ⟨entry, hfirst, -⟩ := Option.map_eq_some_iff.mp hfound
    have hin : isIn entry.1 (String.ofList a.text) = true := by
      have hsome := List.find?_some hfirst
      exact hsome
    exact ⟨entry, List.mem_of_find?_eq_some hfirst, (hisIn entry).mp hin⟩
  · rintro ⟨entry, hentry, hfound⟩
    cases hfirst : firstIn SENSITIVE_PATHS (String.ofList a.text) with
    | none =>
      have hnone := List.find?_eq_none.mp hfirst entry hentry
      exact absurd ((hisIn entry).mpr hfound) hnone
    | some found =>
      refine ⟨_, rfl, ?_⟩
      rcases sensitive_blocks found (List.mem_of_find?_eq_some hfirst) with hcritical | hhigh
      · simp [Violation.isBlocking, hcritical]
      · simp [Violation.isBlocking, hhigh]

/-- An open call is stopped exactly when its path resembles a listed one. -/
theorem blocks_open_resembles (comm : String) {syscall : String} (h : syscall ∈ OPEN_SYSCALLS)
    (a : OpenArgs) : Blocks (a.event comm syscall) ↔ Resembles a := by
  rw [blocks_open_iff comm h]
  unfold Resembles
  rw [← socket_text_iff]
  constructor
  · rintro ⟨entry, hentry, hfound⟩
    have hmem := catalogue_perm.mem_iff.mp (List.mem_map_of_mem hentry)
    rcases List.mem_cons.mp hmem with hsocket | hlisted
    · rw [hsocket] at hfound
      exact .inr hfound
    · obtain ⟨listed, hlisted, htext⟩ := List.mem_map.mp hlisted
      obtain ⟨hne, hdistinct⟩ := listed_distinct listed hlisted
      rw [← htext] at hfound
      exact .inl ⟨listed, hlisted, (entry_text_iff a hne hdistinct).mp hfound⟩
  · intro hresembles
    have hfound : ∃ needle ∈ DOCKER_SOCK :: listedPaths.map fun listed => listed.flatMap ('/' :: ·),
        needle <:+: a.text := by
      rcases hresembles with ⟨listed, hlisted, hrest⟩ | hsocket
      · obtain ⟨hne, hdistinct⟩ := listed_distinct listed hlisted
        exact ⟨_, List.mem_cons_of_mem _ (List.mem_map_of_mem hlisted),
          (entry_text_iff a hne hdistinct).mpr hrest⟩
      · exact ⟨DOCKER_SOCK, List.mem_cons_self, hsocket⟩
    obtain ⟨needle, hneedle, hfound⟩ := hfound
    obtain ⟨entry, hentry, rfl⟩ := List.mem_map.mp (catalogue_perm.mem_iff.mpr hneedle)
    exact ⟨entry, hentry, hfound⟩

theorem startsLike_of_prefix {listed path : List (List Char)} (h : listed <+: path) :
    startsLike listed path = true := by
  obtain ⟨under, rfl⟩ := h
  induction listed with
  | nil => rfl
  | cons l ls ih =>
    cases ls with
    | nil =>
      show l.isPrefixOf l = true
      exact List.isPrefixOf_iff_prefix.mpr (List.prefix_refl l)
    | cons l' ls =>
      show (l == l && startsLike (l' :: ls) (l' :: ls ++ under)) = true
      rw [beq_self_eq_true, ih, Bool.and_self]

/-- What is forbidden is stopped. -/
theorem resembles_of_forbidden {a : OpenArgs} (h : Forbidden a.path) : Resembles a := by
  rcases h with ⟨listed, hlisted, hbegin⟩ | hsocket
  · exact .inl ⟨listed, hlisted, a.path, List.suffix_refl a.path, startsLike_of_prefix hbegin⟩
  · exact .inr ⟨DOCKER_SOCK, List.mem_append_left _ hsocket, List.infix_refl DOCKER_SOCK⟩

/-- An open call is stopped exactly when its path is forbidden: so it is when the path is forbidden or
    resembles no listed one, and not otherwise. -/
theorem open_blocked_exactly_iff (comm : String) {syscall : String} (h : syscall ∈ OPEN_SYSCALLS)
    (a : OpenArgs) :
    (Blocks (a.event comm syscall) ↔ Forbidden a.path) ↔ Forbidden a.path ∨ ¬ Resembles a := by
  rw [blocks_open_resembles comm h]
  constructor
  · intro hiff
    by_cases hresembles : Resembles a
    · exact .inl (hiff.mp hresembles)
    · exact .inr hresembles
  · intro hexact
    constructor
    · intro hresembles
      exact hexact.resolve_right fun hno => hno hresembles
    · exact resembles_of_forbidden

/-- Arguments of gVisor's, for a path. -/
def plainOpen (path : List (List Char))
    (h : ∀ c ∈ path, c ≠ [] ∧ '/' ∉ c ∧ c ≠ ['.'] ∧ c ≠ ['.', '.']) : OpenArgs where
  dirfd := "AT_FDCWD".toList
  address := "0x7f2d".toList
  path := path
  flags := "O_RDONLY".toList
  mode := "0o0)".toList
  plain := by decide
  normalised := h

theorem open_shadow_blocked :
    Blocks ((plainOpen ["etc".toList, "shadow".toList] (by decide)).event "sh" "openat") ↔
      Forbidden ["etc".toList, "shadow".toList] :=
  (open_blocked_exactly_iff "sh" (by decide) _).mpr
    (.inl (.inl ⟨["etc".toList, "shadow".toList], by decide, List.prefix_refl _⟩))

/-- The resolver's `/etc/hosts` is taken for something under `/host`. -/
theorem open_hosts_blocked :
    Blocks ((plainOpen ["etc".toList, "hosts".toList] (by decide)).event "python" "openat") ∧
      ¬ Forbidden ["etc".toList, "hosts".toList] := by
  constructor
  · unfold Blocks
    refine ⟨⟨.critical, "host-path", "openat of /host", ((plainOpen ["etc".toList, "hosts".toList]
      (by decide)).event "python" "openat").text⟩, ?_, rfl⟩
    decide +kernel
  · unfold Forbidden
    decide +kernel

end TaoSubnet
